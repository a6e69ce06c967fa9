import AsmLink.Text.Blank

/-! The labels that a module defines. A line that ends in a colon defines the text before it,
white space aside. Main statements: the names of a set are those inserted, and it holds each name
once, so that its size counts names. -/

namespace AsmLink

structure LabelSet where
  names : List Text
  nodup : names.Nodup

namespace LabelSet

def empty : LabelSet :=
  ⟨[], List.nodup_nil⟩

instance : Membership Text LabelSet :=
  ⟨fun labels name => name ∈ labels.names⟩

instance (labels : LabelSet) (name : Text) : Decidable (name ∈ labels) :=
  inferInstanceAs (Decidable (name ∈ labels.names))

def insert (labels : LabelSet) (name : Text) : LabelSet :=
  if h : name ∈ labels.names then labels
  else ⟨name :: labels.names, List.nodup_cons.2 ⟨h, labels.nodup⟩⟩

theorem mem_empty {name : Text} : ¬ name ∈ empty :=
  List.not_mem_nil

theorem mem_insert {labels : LabelSet} {name other : Text} :
    other ∈ labels.insert name ↔ other = name ∨ other ∈ labels := by
  by_cases h : name ∈ labels.names
  · simp only [insert, h, dite_true]
    exact ⟨Or.inr, fun h' => h'.elim (fun e => e ▸ h) id⟩
  · simp only [insert, h, dite_false]
    exact List.mem_cons

def ofList (names : List Text) : LabelSet :=
  names.foldl insert empty

private theorem mem_foldl_insert {labels : LabelSet} {names : List Text} {name : Text} :
    name ∈ names.foldl insert labels ↔ name ∈ names ∨ name ∈ labels := by
  induction names generalizing labels with
  | nil => simp
  | cons first rest ih =>
    rw [List.foldl_cons, ih, mem_insert, List.mem_cons, ← or_assoc, or_comm (a := name ∈ rest)]

theorem mem_ofList {names : List Text} {name : Text} : name ∈ ofList names ↔ name ∈ names := by
  simp [ofList, mem_foldl_insert, mem_empty]

def size (labels : LabelSet) : Nat :=
  labels.names.length

/-! ### Looking labels up in a text -/

/-- Whether some label stands anywhere in the text. -/
def mentionedIn (labels : LabelSet) (text : Text) : Bool :=
  labels.names.any fun name => text.mentions name

/-- The longest of some texts. -/
def longest? (texts : List Text) : Option Text :=
  texts.foldl (fun best text =>
    match best with
    | some other => if other.length < text.length then some text else some other
    | none => some text) none

/-- The longest label that begins with a dollar sign and that the text begins with. -/
def longestDollar? (labels : LabelSet) (text : Text) : Option Text :=
  longest? (labels.names.filter fun name => name.startsWith '$' && name.isPrefixOf text)

/-! ### Definitions -/

/-- The name that a line defines: the trimmed line without the colon it ends in. A comment and a
lone colon define nothing. -/
def definition? (line : Text) : Option Text :=
  let body := line.trim
  if body.startsWith '#' || body.length < 2 then none
  else if body.endsWith ':' then some body.dropLast
  else none

/-- The labels that the lines of a module define. -/
def ofLines (lines : List Text) : LabelSet :=
  ofList (lines.filterMap definition?)

end LabelSet

end AsmLink
