import AsmLink.Proofs.Lockstep
import AsmLink.Proofs.ProgramScript

/-! What the parts of a run ensure, given what holds before them. Main statement: linking a module writes
the lines of the module, whatever else holds of the state (`Medium.Tracks.link`). -/

namespace AsmLink

namespace Link

variable {S α β : Type} {P E E' : S → Prop} {M : α → S → Prop} {N : β → S → Prop}

/-- Whether a computation that starts in a state with one property ends with another, which is for values
and depends on them, or with the last, which is for faults. -/
def Ensures (P : S → Prop) (x : Link (StateM S) α) (M : α → S → Prop) (E : S → Prop) : Prop :=
  ∀ (progress : Progress) (s : S), P s →
    match (x.run.run progress).run s with
    | ((.ok value, _), s) => M value s
    | ((.error _, _), s) => E s

/-- Whether an operation ends with one property, for its value, or with another, for errors. -/
def Ends (M : α → S → Prop) (E : S → Prop) : Except FileError α × S → Prop
  | (.ok value, s) => M value s
  | (.error _, s) => E s

namespace Ensures

theorem pure {value : α} (h : ∀ s, P s → M value s) :
    Ensures P (Pure.pure value : Link (StateM S) α) M E :=
  fun _ s hP => h s hP

theorem bind {x : Link (StateM S) α} {f : α → Link (StateM S) β} (hx : Ensures P x M E)
    (hf : ∀ value, Ensures (M value) (f value) N E) : Ensures P (x >>= f) N E := by
  intro progress s hP
  have hfirst := hx progress s hP
  rw [run_run_bind, StateT.run_bind]
  generalize (x.run.run progress).run s = ended at hfirst
  rcases ended with ⟨⟨fault | value, progress'⟩, s'⟩
  · exact hfirst
  · exact hf value progress' s' hfirst

theorem attempt {operation : StateM S (Except FileError α)} {fault : FileError → Fault}
    (h : ∀ s, P s → Ends M E (operation.run s)) :
    Ensures P (attempt fault operation) M E := by
  intro progress s hP
  have hoperation := h s hP
  rw [run_run_attempt, StateT.run_bind]
  generalize operation.run s = ended at hoperation
  rcases ended with ⟨cause | value, s'⟩ <;> exact hoperation

/-- Less can be ensured for faults. -/
theorem mono {x : Link (StateM S) α} (h : Ensures P x M E) (hE : ∀ s, E s → E' s) :
    Ensures P x M E' := by
  intro progress s hP
  have hx := h progress s hP
  generalize (x.run.run progress).run s = ended at hx
  rcases ended with ⟨⟨fault | value, progress'⟩, s'⟩
  · exact hE s' hx
  · exact hx

theorem of_exists {ι : Type} {P : ι → S → Prop} {x : Link (StateM S) α}
    (h : ∀ i, Ensures (P i) x M E) : Ensures (fun s => ∃ i, P i s) x M E :=
  fun progress s ⟨i, hP⟩ => h i progress s hP

/-- What does not depend on the state can be taken for granted. -/
theorem of_and {p : Prop} {x : Link (StateM S) α} (h : p → Ensures P x M E) :
    Ensures (fun s => P s ∧ p) x M E :=
  fun progress s ⟨hP, hp⟩ => h hp progress s hP

/-- What holds before an account is changed holds behind it. -/
theorem change (f : Progress → Progress) :
    Ensures P (modify f : Link (StateM S) Unit) (fun _ => P) E :=
  fun _ _ hP => hP

theorem get : Ensures P (getThe Progress : Link (StateM S) Progress) (fun _ => P) E :=
  fun _ _ hP => hP

end Ensures

end Link

/-- Whether a property of the state that speaks of the lines written so far goes along with a medium: a line
that is written is one more, and flushing adds none. Where that fails, the other property holds. -/
structure Medium.Tracks {S : Type} (P : List Text → S → Prop) (E : S → Prop)
    (medium : Medium (StateM S)) : Prop where
  write : ∀ lines line s, P lines s →
    Link.Ends (fun _ => P (lines ++ [line])) E ((medium.write (Utf8.encode (Text.terminated line))).run s)
  flush : ∀ lines s, P lines s → Link.Ends (fun _ => P lines) E (medium.flush.run s)

namespace Medium.Tracks

variable {S : Type} {P : List Text → S → Prop} {E : S → Prop} {medium : Medium (StateM S)}

theorem writeLine (h : medium.Tracks P E) (lines : List Text) (line : Text) :
    Link.Ensures (P lines) (Link.writeLine medium line) (fun _ => P (lines ++ [line])) E :=
  .bind (.attempt (h.write lines line)) fun _ => .change _

theorem flushed (h : medium.Tracks P E) (lines : List Text) :
    Link.Ensures (P lines) (Link.flush medium) (fun _ => P lines) E :=
  .attempt (h.flush lines)

theorem writeLines (h : medium.Tracks P E) (lines more : List Text) :
    Link.Ensures (P lines) (Link.writeLines medium more) (fun _ => P (lines ++ more)) E := by
  induction more generalizing lines with
  | nil =>
      rw [List.append_nil]
      exact .pure fun _ hP => hP
  | cons line rest ih =>
      rw [List.append_cons]
      exact (h.writeLine lines line).bind fun _ => ih _

theorem take (h : medium.Tracks P E) (lines : List Text) (step : Step) :
    Link.Ensures (P lines) (step.take medium) (fun _ => P (lines ++ step.texts)) E := by
  cases step with
  | report diagnostic => simpa only [Step.texts, List.append_nil] using .change _
  | observe routines => simpa only [Step.texts, List.append_nil] using .change _
  | line text => exact h.writeLine lines text
  | flush => simpa only [Step.texts, Step.take, List.append_nil] using h.flushed lines

theorem takeAll (h : medium.Tracks P E) (lines : List Text) (steps : List Step) :
    Link.Ensures (P lines) (takeAll medium steps) (fun _ => P (lines ++ textsOf steps)) E := by
  induction steps generalizing lines with
  | nil =>
      rw [textsOf, List.flatMap_nil, List.append_nil]
      exact .pure fun _ hP => hP
  | cons step rest ih =>
      rw [textsOf, List.flatMap_cons, ← List.append_assoc]
      exact (h.take lines step).bind fun _ => ih _

/-- Linking a module writes its lines, and comes to its account. -/
theorem link (h : medium.Tracks P E) (lines : List Text) (module : Module) (linker : Linker) :
    Link.Ensures (P lines) (module.link medium linker)
      (fun summary s => P (lines ++ module.texts linker) s ∧ summary = module.account linker) E := by
  rw [Module.link_eq_perform, ← Module.textsOf_steps]
  exact (h.takeAll lines _).bind fun _ => .pure fun s hP => ⟨hP, rfl⟩

end Medium.Tracks

end AsmLink
