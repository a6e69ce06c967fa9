import AsmLink.Proofs.Classes
import Mathlib.Algebra.GroupWithZero.Nat
import Mathlib.Data.List.Forall2

/-! What is reported about a module while it is linked: a note that it is read, then warnings. Main
statement: there is one warning for each malformed line, in order, with the number and the text of the
line (`Module.forall₂_warnings`). -/

namespace AsmLink

/-! ### Malformed lines -/

/-- What is wrong with a line, if anything is. An instruction is malformed if it has no tokens. -/
def Line.fault? : Line → Option Fault
  | malformed _ fault => some fault
  | instruction text => if Token.tokenize text = [] then some .noTokens else none
  | _ => none

theorem Line.kind_of_mem_fault? {line : Text} {fault : Fault} (h : fault ∈ (classify line).fault?) :
    fault.kind = .malformedLine := by
  have hline := classified line
  generalize classify line = result at h hline
  cases hline with
  | unquoted => cases h; rfl
  | instruction =>
      rw [fault?] at h
      split at h <;> cases h
      rfl
  | comment | quoted | constructors | suppressed | label => cases h

namespace Module

/-- The malformed lines of a module, each with its number. Numbers count from one. -/
def malformedLines (module : Module) : List (Text × Nat) :=
  (module.lines.zipIdx 1).filter fun line => (Line.classify line.1).fault?.isSome

/-- The warnings about the malformed lines of a module, in order. -/
def warnings (module : Module) : List Diagnostic :=
  (module.lines.mapIdx fun position line =>
    (Line.classify line).fault?.map fun fault =>
      .malformed fault module.path (UInt32.ofNat position + 1) line).flatMap Option.toList

end Module

/-! ### Notes and warnings -/

namespace Diagnostic

/-- Whether a diagnostic is the note that a file is read. -/
structure NotesReading (path : Text) (note : Diagnostic) : Prop where
  severity_eq : note.severity = .note
  code_eq : note.code = "lnk001".toList
  message_eq : note.message = "Reading ".toList ++ path ++ ['.']
  file_eq : note.file = some path
  line_eq : note.line = 0
  source_eq : note.source = none

theorem notesReading_reading (path : Text) : NotesReading path (reading path) :=
  ⟨rfl, rfl, rfl, rfl, rfl, rfl⟩

/-- Whether a diagnostic is the warning about a malformed line of a module, given with its number. -/
structure WarnsOf (path : Text) (line : Text × Nat) (warning : Diagnostic) : Prop where
  severity_eq : warning.severity = .warning
  code_eq : warning.code = "lnk201".toList
  file_eq : warning.file = some path
  line_eq : warning.line.toNat = line.2
  source_eq : warning.source = some line.1
  message_eq : ∃ fault ∈ (Line.classify line.1).fault?, warning.message = fault.message

theorem warnsOf_malformed {path line : Text} {position : Nat} {fault : Fault}
    (h : fault ∈ (Line.classify line).fault?) (hposition : position + 1 < 2 ^ 32) :
    WarnsOf path (line, position + 1)
      (malformed fault path (UInt32.ofNat position + 1) line) where
  severity_eq := rfl
  code_eq := by
    change fault.kind.code = _
    rw [Line.kind_of_mem_fault? h]
    rfl
  file_eq := rfl
  line_eq := by
    change (UInt32.ofNat position + 1).toNat = position + 1
    rw [UInt32.toNat_add, UInt32.toNat_ofNat', UInt32.toNat_one]
    omega
  source_eq := rfl
  message_eq := ⟨fault, h, rfl⟩

end Diagnostic

/-- What is selected from a list by a test, and what is made of the same members. -/
theorem forall₂_filter_filterMap {α β : Type} {R : α → β → Prop} {p : α → Bool} {f : α → Option β}
    {members : List α} (h : ∀ a ∈ members, p a = (f a).isSome ∧ ∀ b ∈ f a, R a b) :
    List.Forall₂ R (members.filter p) (members.filterMap f) := by
  induction members with
  | nil => exact .nil
  | cons a rest ih =>
      obtain ⟨⟨hp, hR⟩, hrest⟩ := List.forall_mem_cons.1 h
      rw [List.filter_cons, List.filterMap_cons]
      cases hf : f a with
      | none => simpa [hp, hf] using ih hrest
      | some b => simpa [hp, hf] using List.Forall₂.cons (hR b hf) (ih hrest)

namespace Module

variable {module : Module}

/-- There is one warning for each malformed line, in order. -/
theorem forall₂_warnings (h : module.lines.length < 2 ^ 32) :
    List.Forall₂ (Diagnostic.WarnsOf module.path) module.malformedLines module.warnings := by
  have hwarnings : module.warnings = module.lines.zipIdx.filterMap fun line =>
      (Line.classify line.1).fault?.map fun fault =>
        .malformed fault module.path (UInt32.ofNat line.2 + 1) line.1 := by
    rw [warnings, List.mapIdx_eq_zipIdx_map, List.flatMap_map, ← List.filterMap_eq_flatMap_toList]
  rw [malformedLines, List.zipIdx_eq_map_add, List.filter_map, List.forall₂_map_left_iff, hwarnings]
  refine forall₂_filter_filterMap fun line hline => ⟨by simp, fun warning hwarning => ?_⟩
  obtain ⟨fault, hfault, rfl⟩ := Option.map_eq_some_iff.1 hwarning
  obtain ⟨-, hposition, -⟩ := List.mem_zipIdx hline
  change Diagnostic.WarnsOf _ (line.1, 1 + line.2) _
  rw [Nat.add_comm]
  exact Diagnostic.warnsOf_malformed hfault (by omega)

theorem severity_of_mem_warnings {warning : Diagnostic} (h : warning ∈ module.warnings) :
    warning.severity = .warning := by
  obtain ⟨given, hgiven, hmem⟩ := List.mem_flatMap.1 h
  obtain ⟨position, _, rfl⟩ := List.mem_mapIdx.1 hgiven
  obtain ⟨fault, -, rfl⟩ := Option.map_eq_some_iff.1 (Option.mem_toList.1 hmem)
  rfl

/-- Of what is reported about a module, all but the note are warnings. -/
theorem countP_warning (module : Module) :
    (Diagnostic.reading module.path :: module.warnings).countP (·.severity == .warning) =
      module.warnings.length := by
  rw [List.countP_cons_of_neg (by simp [Diagnostic.reading]), List.countP_eq_length]
  intro warning hwarning
  rw [severity_of_mem_warnings hwarning]
  rfl

end Module

end AsmLink
