import AsmLink.Program
import AsmLink.Sink

/-! Runs as scripts. What linking does is settled by the plan, the table and the files: a list of
steps, and what comes out once they are taken. Main statements: a sink without limits takes all steps
(`takeAll_runOn_unlimited`), and whichever sink takes them all is left with the same account and the
same text (`of_takeAll_ok`). -/

namespace AsmLink

/-! ### Computations in a sink -/

namespace Link

variable {α β : Type}

/-- What a computation ends with in a sink, from an account of the run so far. -/
def runOn (x : Link (StateM Sink) α) (progress : Progress) (sink : Sink) :
    (Except Fault α × Progress) × Sink :=
  (x.run.run progress).run sink

theorem runOn_pure (value : α) (progress : Progress) (sink : Sink) :
    runOn (pure value) progress sink = ((.ok value, progress), sink) := rfl

theorem runOn_get (progress : Progress) (sink : Sink) :
    runOn (getThe Progress) progress sink = ((.ok progress, progress), sink) := rfl

theorem runOn_bind (x : Link (StateM Sink) α) (f : α → Link (StateM Sink) β) (progress : Progress)
    (sink : Sink) :
    runOn (x >>= f) progress sink =
      match runOn x progress sink with
      | ((.ok value, progress), sink) => runOn (f value) progress sink
      | ((.error fault, progress), sink) => ((.error fault, progress), sink) := by
  unfold runOn
  rw [ExceptT.run_bind, StateT.run_bind, StateT.run_bind]
  generalize (x.run.run progress).run sink = result
  rcases result with ⟨⟨_ | _, _⟩, _⟩ <;> rfl

/-- What follows a computation matters only where the computation can lead. -/
theorem runOn_bind_congr {x : Link (StateM Sink) α} {f g : α → Link (StateM Sink) β}
    {progress : Progress} {sink : Sink}
    (h : ∀ value progress' sink', runOn x progress sink = ((.ok value, progress'), sink') →
      runOn (f value) progress' sink' = runOn (g value) progress' sink') :
    runOn (x >>= f) progress sink = runOn (x >>= g) progress sink := by
  rw [runOn_bind, runOn_bind]
  rcases hx : runOn x progress sink with ⟨⟨_ | value, progress'⟩, sink'⟩
  · rfl
  · exact h value progress' sink' hx

theorem attempt_readFile (files : Text → Except FileError Bytes) (fault : FileError → Fault)
    (path : Text) :
    attempt fault ((Sink.medium files).readFile path) =
      match files path with
      | .ok bytes => pure bytes
      | .error cause => throw (fault cause) := by
  change attempt fault (pure (files path) : StateM Sink _) = _
  cases files path <;> rfl

theorem runOn_attempt (fault : FileError → Fault) (operation : StateM Sink (Except FileError α))
    (progress : Progress) (sink : Sink) :
    runOn (attempt fault operation) progress sink =
      match operation.run sink with
      | (.ok value, sink) => ((.ok value, progress), sink)
      | (.error cause, sink) => ((.error (fault cause), progress), sink) := by
  have hlift : runOn (liftM operation : Link (StateM Sink) _) progress sink =
      ((.ok (operation.run sink).1, progress), (operation.run sink).2) := rfl
  rw [attempt, runOn_bind, hlift]
  rcases operation.run sink with ⟨_ | _, _⟩ <;> rfl

end Link

namespace Sink

theorem run_write_medium (files : Text → Except FileError Bytes) (bytes : Bytes) (sink : Sink) :
    ((medium files).write bytes).run sink = sink.write bytes := rfl

theorem run_flush_medium (files : Text → Except FileError Bytes) (sink : Sink) :
    (medium files).flush.run sink = sink.flush := rfl

end Sink

/-! ### Steps -/

/-- One thing that a run does to its account or to its output. -/
inductive Step
  | report (diagnostic : Diagnostic)
  | observe (routines : RoutineSet)
  | line (text : Text)
  | flush

namespace Step

def texts : Step → List Text
  | line text => [text]
  | _ => []

def notes : Step → List Diagnostic
  | report diagnostic => [diagnostic]
  | _ => []

def routines : Step → RoutineSet
  | observe routines => routines
  | _ => .empty

/-- What a step does to a sink. -/
def output (sink : Sink) : Step → Except FileError Unit × Sink
  | line text => sink.write (Utf8.encode text.terminated)
  | flush => sink.flush
  | _ => (.ok (), sink)

def take {m : Type → Type} [Monad m] (medium : Medium m) : Step → Link m Unit
  | report diagnostic => Link.report diagnostic
  | observe routines => Link.observe routines
  | line text => Link.writeLine medium text
  | flush => Link.flush medium

end Step

def textsOf (steps : List Step) : List Text :=
  steps.flatMap Step.texts

def notesOf (steps : List Step) : List Diagnostic :=
  steps.flatMap Step.notes

def routinesOf (steps : List Step) : RoutineSet :=
  (steps.map Step.routines).foldr .union .empty

/-- The account of a run after some more steps. -/
def Progress.after (progress : Progress) (steps : List Step) : Progress where
  lines := progress.lines + (textsOf steps).length
  routines := progress.routines.union (routinesOf steps)
  diagnostics := progress.diagnostics ++ notesOf steps

namespace Step

theorem routinesOf_append (first second : List Step) :
    routinesOf (first ++ second) = (routinesOf first).union (routinesOf second) := by
  induction first with
  | nil => exact (RoutineSet.empty_union _).symm
  | cons step rest ih =>
      change step.routines.union (routinesOf (rest ++ second)) = _
      rw [ih, ← RoutineSet.union_assoc]
      rfl

theorem routinesOf_map_line (lines : List Text) : routinesOf (lines.map line) = .empty := by
  induction lines with
  | nil => rfl
  | cons text rest ih =>
      rw [List.map_cons, ← List.singleton_append, routinesOf_append, ih]
      rfl

theorem textsOf_map_line (lines : List Text) : textsOf (lines.map line) = lines := by
  simp [textsOf, List.flatMap_map, texts]

end Step

namespace Progress

theorem after_nil (progress : Progress) : progress.after [] = progress := by
  simp [after, textsOf, notesOf, routinesOf]

theorem after_append (progress : Progress) (first second : List Step) :
    progress.after (first ++ second) = (progress.after first).after second := by
  simp [after, textsOf, notesOf, Step.routinesOf_append, RoutineSet.union_assoc, Nat.add_assoc]

@[simp]
theorem after_report (progress : Progress) (diagnostic : Diagnostic) :
    progress.after [.report diagnostic] =
      { progress with diagnostics := progress.diagnostics ++ [diagnostic] } := by
  simp [after, textsOf, notesOf, routinesOf, Step.texts, Step.notes, Step.routines]

@[simp]
theorem after_observe (progress : Progress) (added : RoutineSet) :
    progress.after [.observe added] =
      { progress with routines := progress.routines.union added } := by
  simp [after, textsOf, notesOf, routinesOf, Step.texts, Step.notes, Step.routines]

@[simp]
theorem after_line (progress : Progress) (text : Text) :
    progress.after [.line text] = { progress with lines := progress.lines + 1 } := by
  simp [after, textsOf, notesOf, routinesOf, Step.texts, Step.notes, Step.routines]

@[simp]
theorem after_flush (progress : Progress) : progress.after [.flush] = progress := by
  simp [after, textsOf, notesOf, routinesOf, Step.texts, Step.notes, Step.routines]

end Progress

/-- A step adds to the account what it stands for, unless the sink refuses it. -/
theorem Step.take_runOn (files : Text → Except FileError Bytes) (step : Step) (progress : Progress)
    (sink : Sink) :
    (step.take (Sink.medium files)).runOn progress sink =
      match step.output sink with
      | (.ok (), sink) => ((.ok (), progress.after [step]), sink)
      | (.error cause, sink) => ((.error (.outputNotWritten cause), progress), sink) := by
  cases step with
  | report diagnostic => rw [Progress.after_report]; rfl
  | observe added => rw [Progress.after_observe]; rfl
  | line text =>
      rw [take, Link.writeLine, Link.runOn_bind, Link.runOn_attempt, Progress.after_line, output,
        Sink.run_write_medium]
      rcases sink.write (Utf8.encode text.terminated) with ⟨_ | _, _⟩ <;> rfl
  | flush =>
      rw [take, Link.flush, Link.runOn_attempt, Progress.after_flush, output, Sink.run_flush_medium]
      rcases sink.flush with ⟨_ | _, _⟩ <;> rfl

def takeAll {m : Type → Type} [Monad m] (medium : Medium m) (steps : List Step) : Link m Unit :=
  forM steps (Step.take medium)

namespace Step

variable {files : Text → Except FileError Bytes}

theorem takeAll_cons_runOn (step : Step) (steps : List Step) (progress : Progress) (sink : Sink) :
    (takeAll (Sink.medium files) (step :: steps)).runOn progress sink =
      match step.output sink with
      | (.ok (), sink) => (takeAll (Sink.medium files) steps).runOn (progress.after [step]) sink
      | (.error cause, sink) => ((.error (.outputNotWritten cause), progress), sink) := by
  rw [takeAll, List.forM_cons, Link.runOn_bind, take_runOn]
  rcases step.output sink with ⟨_ | _, _⟩ <;> rfl

/-- A sink without limits takes every step. -/
theorem output_unlimited (step : Step) (written : Bytes) :
    step.output { written } = (.ok (), { written := written ++ Utf8.encode (Text.unlines step.texts) }) := by
  cases step <;> simp [output, texts, Sink.write, Sink.flush, Text.unlines, Utf8.encode]

theorem takeAll_runOn_unlimited (steps : List Step) (progress : Progress) (written : Bytes) :
    (takeAll (Sink.medium files) steps).runOn progress { written } =
      ((.ok (), progress.after steps),
        { written := written ++ Utf8.encode (Text.unlines (textsOf steps)) }) := by
  induction steps generalizing progress written with
  | nil =>
      rw [Progress.after_nil, textsOf, List.flatMap_nil]
      simp [takeAll, Link.runOn_pure, Text.unlines, Utf8.encode]
  | cons step rest ih =>
      rw [takeAll_cons_runOn, output_unlimited]
      change (takeAll (Sink.medium files) rest).runOn _ _ = _
      rw [ih, ← Progress.after_append, List.append_assoc, List.singleton_append]
      simp [textsOf, Text.unlines, Utf8.encode]

/-- A sink that takes a step takes all that the step writes. -/
theorem written_of_output_ok {step : Step} {sink sink' : Sink} {value : Unit}
    (h : step.output sink = (.ok value, sink')) :
    sink'.written = sink.written ++ Utf8.encode (Text.unlines step.texts) := by
  cases step with
  | report diagnostic | observe added =>
      cases h
      exact (List.append_nil _).symm
  | line text =>
      rw [texts, Text.unlines, List.flatMap_singleton]
      rw [output, Sink.write] at h
      cases hroom : sink.room with
      | none =>
          rw [hroom] at h
          cases h
          rfl
      | some room =>
          simp only [hroom] at h
          split at h
          · cases h
            rfl
          · cases h
  | flush =>
      rw [output, Sink.flush] at h
      split at h <;> cases h <;> exact (List.append_nil _).symm

/-- Whichever sink takes all steps, they leave the same account and the same text. -/
theorem of_takeAll_ok {steps : List Step} {progress progress' : Progress} {sink sink' : Sink}
    {value : Unit}
    (h : (takeAll (Sink.medium files) steps).runOn progress sink = ((.ok value, progress'), sink')) :
    progress' = progress.after steps ∧
      sink'.written = sink.written ++ Utf8.encode (Text.unlines (textsOf steps)) := by
  induction steps generalizing progress sink with
  | nil =>
      rw [takeAll, List.forM_nil, Link.runOn_pure] at h
      cases h
      exact ⟨(Progress.after_nil _).symm, (List.append_nil _).symm⟩
  | cons step rest ih =>
      rw [takeAll_cons_runOn] at h
      rcases hstep : step.output sink with ⟨_ | _, sink''⟩
      · rw [hstep] at h
        cases h
      · rw [hstep] at h
        obtain ⟨hprogress, hwritten⟩ := ih h
        constructor
        · rw [hprogress, ← Progress.after_append, List.singleton_append]
        · rw [hwritten, written_of_output_ok hstep, List.append_assoc, ← Utf8.encode_append,
            ← Text.unlines_append, textsOf, textsOf, List.flatMap_cons]

end Step

/-! ### Scripts -/

/-- Steps, and what comes out once they are taken. -/
structure Script (α : Type) where
  steps : List Step
  result : Except Fault α

namespace Script

variable {α β : Type}

/-- The steps of two scripts, the second of which depends on what comes out of the first. -/
def bind (script : Script α) (next : α → Script β) : Script β :=
  match script.result with
  | .ok value => ⟨script.steps ++ (next value).steps, (next value).result⟩
  | .error fault => ⟨script.steps, .error fault⟩

/-- Takes the steps of a script. -/
def perform {m : Type → Type} [Monad m] (medium : Medium m) (script : Script α) : Link m α := do
  takeAll medium script.steps
  match script.result with
  | .ok value => pure value
  | .error fault => throw fault

theorem perform_bind {m : Type → Type} [Monad m] [LawfulMonad m] (medium : Medium m)
    (script : Script α) (next : α → Script β) :
    (script.bind next).perform medium =
      script.perform medium >>= fun value => (next value).perform medium := by
  unfold bind perform
  cases script.result with
  | error fault => simp [bind_assoc]
  | ok value => simp [bind_assoc, takeAll]

theorem perform_runOn_unlimited (files : Text → Except FileError Bytes) (script : Script α)
    (progress : Progress) (written : Bytes) :
    (script.perform (Sink.medium files)).runOn progress { written } =
      ((script.result, progress.after script.steps),
        { written := written ++ Utf8.encode (Text.unlines (textsOf script.steps)) }) := by
  rw [perform, Link.runOn_bind, Step.takeAll_runOn_unlimited]
  cases script.result <;> rfl

theorem of_perform_ok {files : Text → Except FileError Bytes} {script : Script α}
    {progress progress' : Progress} {sink sink' : Sink} {value : α}
    (h : (script.perform (Sink.medium files)).runOn progress sink = ((.ok value, progress'), sink')) :
    script.result = .ok value ∧ progress' = progress.after script.steps ∧
      sink'.written = sink.written ++ Utf8.encode (Text.unlines (textsOf script.steps)) := by
  rw [perform, Link.runOn_bind] at h
  rcases hsteps : (takeAll (Sink.medium files) script.steps).runOn progress sink
    with ⟨⟨_ | _, progress''⟩, sink''⟩
  · rw [hsteps] at h
    cases h
  · rw [hsteps] at h
    obtain ⟨hprogress, hwritten⟩ := Step.of_takeAll_ok hsteps
    cases hresult : script.result with
    | error fault =>
        rw [hresult] at h
        cases h
    | ok other =>
        rw [hresult] at h
        cases h
        exact ⟨rfl, hprogress, hwritten⟩

end Script

end AsmLink
