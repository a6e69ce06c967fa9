import AsmLink.Program

/-! Runs side by side. Two computations are in lockstep if related states lead them to like results and
to related states again. Main statement: linking through two media whose operations are in lockstep is
in lockstep (`Plan.link_lockstep`). -/

namespace AsmLink

/-! ### Like results -/

/-- Results that are the same value, or errors that are related. -/
inductive Alike {ε α : Type} (E : ε → ε → Prop) : Except ε α → Except ε α → Prop
  | ok (value : α) : Alike E (.ok value) (.ok value)
  | error {cause other : ε} (h : E cause other) : Alike E (.error cause) (.error other)

namespace Alike

variable {ε α β : Type} {E F : ε → ε → Prop} {x y : Except ε α}

theorem of_eq (hE : ∀ cause, E cause cause) (h : x = y) : Alike E x y := by
  subst h
  cases x with
  | ok value => exact .ok value
  | error cause => exact .error (hE cause)

theorem eq (h : Alike Eq x y) : x = y := by
  cases h with
  | ok value => rfl
  | error h => rw [h]

theorem mono (hE : ∀ cause other, E cause other → F cause other) (h : Alike E x y) : Alike F x y := by
  cases h with
  | ok value => exact .ok value
  | error h => exact .error (hE _ _ h)

theorem bind {f g : α → Except ε β} (h : Alike E x y) (hf : ∀ value, Alike E (f value) (g value)) :
    Alike E (x >>= f) (y >>= g) := by
  cases h with
  | ok value => exact hf value
  | error h => exact .error h

/-- Like results are values together. -/
theorem ok_iff (h : Alike E x y) (value : α) : x = .ok value ↔ y = .ok value := by
  cases h with
  | ok value => rfl
  | error h => simp

theorem exists_error {cause : ε} (h : Alike E (.error cause) y) : ∃ other, y = .error other := by
  cases h with
  | error => exact ⟨_, rfl⟩

end Alike

/-! ### Computations in lockstep -/

section

variable {S T α β γ δ : Type}

/-- Whether related states lead two computations to results that are related, and to related states. -/
def Lockstep (R : S → T → Prop) (V : α → β → Prop) (left : StateM S α) (right : StateM T β) : Prop :=
  ∀ s t, R s t → V (left.run s).1 (right.run t).1 ∧ R (left.run s).2 (right.run t).2

variable {R : S → T → Prop} {V : α → β → Prop} {W : γ → δ → Prop}

theorem Lockstep.mono {x : StateM S α} {y : StateM T β} {V' : α → β → Prop} (h : Lockstep R V x y)
    (hV : ∀ a b, V a b → V' a b) : Lockstep R V' x y :=
  fun s t hR => ⟨hV _ _ (h s t hR).1, (h s t hR).2⟩

theorem Lockstep.pure {a : α} {b : β} (h : V a b) :
    Lockstep R V (Pure.pure a : StateM S α) (Pure.pure b : StateM T β) :=
  fun _ _ hR => ⟨h, hR⟩

theorem Lockstep.bind {x : StateM S α} {y : StateM T β} {f : α → StateM S γ} {g : β → StateM T δ}
    (hx : Lockstep R V x y) (hf : ∀ a b, V a b → Lockstep R W (f a) (g b)) :
    Lockstep R W (x >>= f) (y >>= g) := by
  intro s t h
  obtain ⟨hV, h⟩ := hx s t h
  exact hf _ _ hV _ _ h

end

namespace Link

variable {S T α β : Type}

/-- A computation behind another, with the account of the run written out. -/
theorem run_run_bind (x : Link (StateM S) α) (f : α → Link (StateM S) β) (progress : Progress) :
    (x >>= f).run.run progress = (do
      match ← x.run.run progress with
      | (.ok value, progress) => (f value).run.run progress
      | (.error fault, progress) => pure (.error fault, progress)) := by
  rw [ExceptT.run_bind, StateT.run_bind]
  congr 1
  funext ⟨result, progress⟩
  cases result <;> rfl

/-- Whether two parts of a run are in lockstep, given which faults are alike. -/
def Lockstep (R : S → T → Prop) (E : Fault → Fault → Prop) (left : Link (StateM S) α)
    (right : Link (StateM T) α) : Prop :=
  ∀ progress : Progress, AsmLink.Lockstep R
    (fun a b : Except Fault α × Progress => Alike E a.1 b.1 ∧ a.2 = b.2)
    (left.run.run progress) (right.run.run progress)

variable {R : S → T → Prop} {E : Fault → Fault → Prop}

theorem Lockstep.pure (value : α) :
    Lockstep R E (Pure.pure value : Link (StateM S) α) (Pure.pure value : Link (StateM T) α) :=
  fun _ => AsmLink.Lockstep.pure ⟨.ok value, rfl⟩

theorem Lockstep.bind {x : Link (StateM S) α} {y : Link (StateM T) α} {f : α → Link (StateM S) β}
    {g : α → Link (StateM T) β} (hx : Lockstep R E x y) (hf : ∀ value, Lockstep R E (f value) (g value)) :
    Lockstep R E (x >>= f) (y >>= g) := by
  intro progress
  rw [run_run_bind, run_run_bind]
  refine (hx progress).bind ?_
  rintro ⟨result, progress⟩ ⟨other, _⟩ ⟨halike, rfl⟩
  cases halike with
  | ok value => exact hf value progress
  | error h => exact AsmLink.Lockstep.pure ⟨.error h, rfl⟩

theorem lockstep_modify (f : Progress → Progress) :
    Lockstep R E (modify f : Link (StateM S) Unit) (modify f : Link (StateM T) Unit) :=
  fun _ _ _ h => ⟨⟨.ok (), rfl⟩, h⟩

theorem lockstep_get :
    Lockstep R E (getThe Progress : Link (StateM S) Progress) (getThe Progress : Link (StateM T) Progress) :=
  fun progress _ _ h => ⟨⟨.ok progress, rfl⟩, h⟩

theorem run_run_attempt (fault : FileError → Fault) (operation : StateM S (Except FileError α))
    (progress : Progress) :
    (attempt fault operation).run.run progress = (do
      match ← operation with
      | .ok value => pure (.ok value, progress)
      | .error cause => pure (.error (fault cause), progress)) := by
  funext s
  change StateT.run (StateT.run (attempt fault operation).run progress) s = _
  rw [attempt, run_run_bind, StateT.run_bind]
  change _ = (operation >>= _).run s
  rw [StateT.run_bind]
  have hlift : ((liftM operation : Link (StateM S) _).run.run progress).run s =
      ((.ok (operation.run s).1, progress), (operation.run s).2) := rfl
  rw [hlift]
  rcases operation.run s with ⟨_ | _, _⟩ <;> rfl

/-- An operation that fails alike on both sides makes both runs fail alike. -/
theorem lockstep_attempt {fault : FileError → Fault} {left : StateM S (Except FileError α)}
    {right : StateM T (Except FileError α)}
    (h : AsmLink.Lockstep R (Alike fun cause other => E (fault cause) (fault other)) left right) :
    Lockstep R E (attempt fault left) (attempt fault right) := by
  intro progress
  rw [run_run_attempt, run_run_attempt]
  refine h.bind fun result other halike => ?_
  cases halike with
  | ok value => exact .pure ⟨.ok value, rfl⟩
  | error hfault => exact .pure ⟨.error hfault, rfl⟩

theorem Lockstep.forM {items : List α} {f : α → Link (StateM S) Unit} {g : α → Link (StateM T) Unit}
    (h : ∀ item ∈ items, Lockstep R E (f item) (g item)) :
    Lockstep R E (forM items f) (forM items g) := by
  induction items with
  | nil => exact .pure ()
  | cons item rest ih =>
      rw [List.forall_mem_cons] at h
      rw [List.forM_cons, List.forM_cons]
      exact h.1.bind fun _ => ih h.2

theorem Lockstep.mapM {items : List α} {f : α → Link (StateM S) β} {g : α → Link (StateM T) β}
    (h : ∀ item ∈ items, Lockstep R E (f item) (g item)) :
    Lockstep R E (items.mapM f) (items.mapM g) := by
  induction items with
  | nil => exact .pure []
  | cons item rest ih =>
      rw [List.forall_mem_cons] at h
      rw [List.mapM_cons, List.mapM_cons]
      exact h.1.bind fun value => (ih h.2).bind fun values => .pure (value :: values)

end Link

/-! ### Linking in lockstep -/

/-- The paths of all modules, whether they are called for or not. -/
def Plan.paths (plan : Plan) : List Text :=
  plan.entry :: plan.runtimeObjects

/-- Whether the operations of two media are in lockstep, those that read as far as the paths go. -/
structure Medium.Lockstep {S T : Type} (R : S → T → Prop) (E : Fault → Fault → Prop) (paths : List Text)
    (left : Medium (StateM S)) (right : Medium (StateM T)) : Prop where
  read : ∀ path ∈ paths, AsmLink.Lockstep R
    (Alike fun cause other => E (.moduleUnreadable path cause) (.moduleUnreadable path other))
    (left.readFile path) (right.readFile path)
  write : ∀ bytes, AsmLink.Lockstep R
    (Alike fun cause other => E (.outputNotWritten cause) (.outputNotWritten other))
    (left.write bytes) (right.write bytes)
  flush : AsmLink.Lockstep R
    (Alike fun cause other => E (.outputNotWritten cause) (.outputNotWritten other))
    left.flush right.flush

section

variable {S T : Type} {R : S → T → Prop} {E : Fault → Fault → Prop} {paths : List Text}
  {left : Medium (StateM S)} {right : Medium (StateM T)}

theorem Link.writeLine_lockstep (h : left.Lockstep R E paths right) (line : Text) :
    Link.Lockstep R E (writeLine left line) (writeLine right line) :=
  (lockstep_attempt (h.write _)).bind fun _ => lockstep_modify _

theorem Link.writeLines_lockstep (h : left.Lockstep R E paths right) (lines : List Text) :
    Link.Lockstep R E (writeLines left lines) (writeLines right lines) :=
  .forM fun line _ => writeLine_lockstep h line

theorem Link.flush_lockstep (h : left.Lockstep R E paths right) :
    Link.Lockstep R E (Link.flush left) (Link.flush right) :=
  lockstep_attempt h.flush

theorem Module.link_lockstep (h : left.Lockstep R E paths right) (module : Module) (linker : Linker) :
    Link.Lockstep R E (module.link left linker) (module.link right linker) := by
  refine .bind (.forM fun emission _ => ?_) fun _ => .pure _
  refine (Link.lockstep_modify _).bind fun _ => ?_
  cases emission.warning with
  | some warning =>
      exact (Link.lockstep_modify _).bind fun _ => Link.writeLine_lockstep h emission.text
  | none => exact Link.writeLine_lockstep h emission.text

namespace Plan

theorem linkFile_lockstep (h : left.Lockstep R E paths right) (linker : Linker) {file : Text × Nat}
    (hfile : file.1 ∈ paths) : Link.Lockstep R E (linkFile left linker file) (linkFile right linker file) :=
  (Link.lockstep_modify _).bind fun _ => (Link.lockstep_attempt (h.read _ hfile)).bind fun _ =>
    (Module.link_lockstep h _ linker).bind fun summary => (Link.flush_lockstep h).bind fun _ =>
      .pure summary

theorem mem_paths_of_mem_linked {plan : Plan} {used : RoutineSet} {file : Text × Nat}
    (h : file ∈ plan.linked used) : file.1 ∈ plan.paths := by
  have hmem := List.mem_zipIdx (List.mem_filter.1 h).1
  exact List.mem_cons_of_mem _ (hmem.2.2 ▸ List.getElem_mem _)

theorem assemble_lockstep {plan : Plan} (h : left.Lockstep R E plan.paths right) (table : RenameTable) :
    Link.Lockstep R E (plan.assemble left table) (plan.assemble right table) := by
  refine (Link.writeLines_lockstep h _).bind fun _ => (Link.flush_lockstep h).bind fun _ => ?_
  refine (linkFile_lockstep h _ (List.mem_cons_self ..)).bind fun entry => ?_
  refine Link.lockstep_get.bind fun progress => ?_
  refine (Link.Lockstep.mapM fun file hfile => linkFile_lockstep h _ (mem_paths_of_mem_linked hfile)).bind
    fun objects => ?_
  exact (Link.writeLines_lockstep h _).bind fun _ => (Link.flush_lockstep h).bind fun _ => .pure _

/-- Linking through media in lockstep ends in the same report, or in like faults after the same
diagnostics. -/
theorem link_lockstep {plan : Plan} (h : left.Lockstep R E plan.paths right) (table : RenameTable) :
    Lockstep R
      (Alike fun failure other : Failure =>
        E failure.fault other.fault ∧ failure.diagnostics = other.diagnostics)
      (plan.link left table) (plan.link right table) := by
  refine (assemble_lockstep h table {}).bind ?_
  rintro ⟨result, progress⟩ ⟨other, _⟩ ⟨halike, rfl⟩
  cases halike with
  | ok assembly => exact .pure (.ok _)
  | error hfault => exact h.flush.bind fun _ _ _ => .pure (.error ⟨hfault, rfl⟩)

end Plan

end

end AsmLink
