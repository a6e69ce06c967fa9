import AsmLink.Text.Basic

/-! The support routines that compiled code calls without defining them, and sets of them. Main
statements: a routine is found by its symbol and by no other text, and a union holds what either
set holds. -/

namespace AsmLink

/-- A support routine that the linker keeps track of. -/
inductive Routine
  | floatPromotion
  | memset
  | memcpy
  deriving DecidableEq

namespace Routine

def all : List Routine :=
  [floatPromotion, memset, memcpy]

/-- The name by which compiled code calls the routine. -/
def symbol : Routine → Text
  | floatPromotion => "__extendsfdf2".toList
  | memset => "memset".toList
  | memcpy => "memcpy".toList

def ofSymbol? (token : Text) : Option Routine :=
  all.find? fun routine => routine.symbol == token

theorem ofSymbol?_symbol (routine : Routine) : ofSymbol? routine.symbol = some routine := by
  cases routine <;> decide

theorem ofSymbol?_eq_some_iff {token : Text} {routine : Routine} :
    ofSymbol? token = some routine ↔ routine.symbol = token := by
  constructor
  · intro h
    simpa using List.find?_some h
  · rintro rfl
    exact ofSymbol?_symbol routine

end Routine

structure RoutineSet where
  floatPromotion : Bool := false
  memset : Bool := false
  memcpy : Bool := false

namespace RoutineSet

def empty : RoutineSet := {}

def contains (set : RoutineSet) : Routine → Bool
  | .floatPromotion => set.floatPromotion
  | .memset => set.memset
  | .memcpy => set.memcpy

def insert (set : RoutineSet) : Routine → RoutineSet
  | .floatPromotion => { set with floatPromotion := true }
  | .memset => { set with memset := true }
  | .memcpy => { set with memcpy := true }

def union (left right : RoutineSet) : RoutineSet where
  floatPromotion := left.floatPromotion || right.floatPromotion
  memset := left.memset || right.memset
  memcpy := left.memcpy || right.memcpy

/-- The members, in the order of `Routine.all`. -/
def toList (set : RoutineSet) : List Routine :=
  Routine.all.filter set.contains

/-- The routines whose symbols are among the tokens. -/
def ofTokens (tokens : List Text) : RoutineSet :=
  (tokens.filterMap Routine.ofSymbol?).foldl insert empty

/-- The set with the routines whose symbols are among the tokens. -/
def observe (set : RoutineSet) (tokens : List Text) : RoutineSet :=
  set.union (ofTokens tokens)

theorem ext_contains {left right : RoutineSet}
    (h : ∀ routine, left.contains routine = right.contains routine) : left = right := by
  have hf := h .floatPromotion
  have hs := h .memset
  have hc := h .memcpy
  cases left
  cases right
  simp_all [contains]

@[simp]
theorem contains_empty (routine : Routine) : empty.contains routine = false := by
  cases routine <;> rfl

@[simp]
theorem contains_insert (set : RoutineSet) (added routine : Routine) :
    (set.insert added).contains routine = (decide (routine = added) || set.contains routine) := by
  cases added <;> cases routine <;> simp [insert, contains]

theorem contains_foldl_insert (set : RoutineSet) (routines : List Routine) (routine : Routine) :
    (routines.foldl insert set).contains routine =
      (routines.contains routine || set.contains routine) := by
  induction routines generalizing set with
  | nil => rfl
  | cons added rest ih =>
    rw [List.foldl_cons, ih, contains_insert, List.contains_cons, Bool.or_left_comm, Bool.or_assoc]
    rfl

@[simp]
theorem contains_union (left right : RoutineSet) (routine : Routine) :
    (left.union right).contains routine = (left.contains routine || right.contains routine) := by
  cases routine <;> rfl

@[simp]
theorem contains_ofTokens (tokens : List Text) (routine : Routine) :
    (ofTokens tokens).contains routine = tokens.contains routine.symbol := by
  rw [ofTokens, contains_foldl_insert, contains_empty, Bool.or_false, Bool.eq_iff_iff,
    List.contains_iff_mem, List.contains_iff_mem, List.mem_filterMap]
  simp [Routine.ofSymbol?_eq_some_iff]

@[simp]
theorem observe_nil (set : RoutineSet) : set.observe [] = set :=
  ext_contains fun routine => by simp [observe]

@[simp]
theorem union_empty (set : RoutineSet) : set.union empty = set :=
  ext_contains fun routine => by simp

@[simp]
theorem empty_union (set : RoutineSet) : empty.union set = set :=
  ext_contains fun routine => by simp

theorem union_assoc (first second third : RoutineSet) :
    (first.union second).union third = first.union (second.union third) :=
  ext_contains fun routine => by simp [Bool.or_assoc]

theorem observe_append (set : RoutineSet) (tokens others : List Text) :
    set.observe (tokens ++ others) = (set.observe tokens).observe others :=
  ext_contains fun routine => by simp [observe, Bool.or_assoc]

end RoutineSet

end AsmLink
