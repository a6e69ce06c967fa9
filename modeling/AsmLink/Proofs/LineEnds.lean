import AsmLink.Proofs.Relinking

/-! Line ends. A line feed takes one carriage return before it along, and whatever reads a line drops the
others. Only the source of a warning still shows them, so runs are compared with the sources of their
diagnostics left out, step by step (`Step.takeAll_sourceless_runOn`). Main statement: carriage returns
before line feeds do not matter to what a module is linked to (`Module.linked_alike_with_returns`). -/

namespace AsmLink

/-! ### Carriage returns before line feeds -/

namespace Text

/-- Whether a text is another one with carriage returns put in, any number directly before any line feed. -/
inductive WithReturns : Text → Text → Prop
  | nil : WithReturns [] []
  | keep {c : Char} (hc : c ≠ '\n') {text text' : Text} (h : WithReturns text text') :
      WithReturns (c :: text) (c :: text')
  | feed (count : Nat) {text text' : Text} (h : WithReturns text text') :
      WithReturns ('\n' :: text) (List.replicate count '\r' ++ '\n' :: text')

namespace WithReturns

variable {text text' : Text}

theorem append_left {front : Text} (hfront : '\n' ∉ front) (h : WithReturns text text') :
    WithReturns (front ++ text) (front ++ text') := by
  induction front with
  | nil => exact h
  | cons c front ih =>
      rw [List.mem_cons, not_or] at hfront
      exact .keep (Ne.symm hfront.1) (ih hfront.2)

end WithReturns

end Text

namespace Line

theorem withoutEnds_append_returns (line : Text) (count : Nat) :
    withoutEnds (line ++ List.replicate count '\r') = withoutEnds line := by
  apply Text.dropTrailing_append_of_forall
  intro c hc
  rw [List.eq_of_mem_replicate hc]
  decide

/-- The carriage return that a line feed takes along would be dropped anyway. -/
theorem withoutEnds_withoutReturn (piece : Text) :
    withoutEnds (Text.withoutReturn piece) = withoutEnds piece := by
  unfold Text.withoutReturn
  cases hreturn : piece.endsWith '\r' with
  | true =>
      conv_rhs => rw [Text.eq_dropLast_append_of_endsWith hreturn]
      exact (withoutEnds_append_returns piece.dropLast 1).symm
  | false => rfl

end Line

/-- The lines of both texts are the same once their ends are dropped. -/
theorem Text.WithReturns.map_withoutEnds_lines {text text' : Text} (h : WithReturns text text') :
    text'.lines.map Line.withoutEnds = text.lines.map Line.withoutEnds := by
  -- a line is only settled at its feed, so the induction carries the front of the line that is open
  suffices hfront : ∀ front : Text, '\n' ∉ front →
      (lines (front ++ text')).map Line.withoutEnds = (lines (front ++ text)).map Line.withoutEnds from
    hfront [] List.not_mem_nil
  induction h with
  | nil => exact fun front _ => rfl
  | @keep c hc text text' h ih =>
      intro front hfront
      rw [List.append_cons front c text', List.append_cons front c text]
      apply ih
      rw [List.mem_append, List.mem_singleton, not_or]
      exact ⟨hfront, Ne.symm hc⟩
  | @feed count text text' h ih =>
      intro front hfront
      have hreturns : '\n' ∉ front ++ List.replicate count '\r' := by
        rw [List.mem_append, not_or]
        exact ⟨hfront, fun hmem => absurd (List.eq_of_mem_replicate hmem) (by decide)⟩
      have hsplit (front rest : Text) : front ++ '\n' :: rest = terminated front ++ rest :=
        List.append_cons front '\n' rest
      rw [← List.append_assoc, hsplit, hsplit, lines_terminated_append hreturns,
        lines_terminated_append hfront, List.map_cons, List.map_cons, Line.withoutEnds_withoutReturn,
        Line.withoutEnds_withoutReturn, Line.withoutEnds_append_returns]
      exact congrArg _ (ih [] List.not_mem_nil)

/-! ### Runs without the sources of their diagnostics -/

/-- The diagnostic without the line that it is about. -/
def Diagnostic.sourceless (diagnostic : Diagnostic) : Diagnostic :=
  { diagnostic with source := none }

def Progress.sourceless (progress : Progress) : Progress :=
  { progress with diagnostics := progress.diagnostics.map Diagnostic.sourceless }

namespace Link

variable {α : Type}

/-- What a run ends with, without the sources of its diagnostics. -/
def sourceless (run : (Except Fault α × Progress) × Sink) : (Except Fault α × Progress) × Sink :=
  ((run.1.1, run.1.2.sourceless), run.2)

theorem of_sourceless_eq {run run' : (Except Fault α × Progress) × Sink}
    (h : sourceless run' = sourceless run) :
    run'.1.1 = run.1.1 ∧ run'.1.2.lines = run.1.2.lines ∧ run'.1.2.routines = run.1.2.routines ∧
      run'.1.2.diagnostics.map Diagnostic.sourceless = run.1.2.diagnostics.map Diagnostic.sourceless ∧
      run'.2 = run.2 := by
  simpa only [sourceless, Progress.sourceless, Prod.mk.injEq, Progress.mk.injEq, and_assoc] using h

end Link

namespace Step

variable {files : Text → Except FileError Bytes}

def sourceless : Step → Step
  | report diagnostic => report diagnostic.sourceless
  | step => step

theorem output_sourceless (step : Step) (sink : Sink) : step.sourceless.output sink = step.output sink := by
  cases step <;> rfl

theorem after_sourceless (progress : Progress) (step : Step) :
    progress.sourceless.after [step.sourceless] = (progress.after [step]).sourceless := by
  cases step with
  | report diagnostic =>
      simp only [sourceless, Progress.after_report, Progress.sourceless, List.map_append, List.map_singleton]
  | observe added => simp only [sourceless, Progress.after_observe, Progress.sourceless]
  | line text => simp only [sourceless, Progress.after_line, Progress.sourceless]
  | flush => simp only [sourceless, Progress.after_flush]

/-- Sources are only passed on: a run without them from the start is the run, less its sources. -/
theorem takeAll_sourceless_runOn (steps : List Step) (progress : Progress) (sink : Sink) :
    (takeAll (Sink.medium files) (steps.map sourceless)).runOn progress.sourceless sink =
      Link.sourceless ((takeAll (Sink.medium files) steps).runOn progress sink) := by
  induction steps generalizing progress sink with
  | nil => rfl
  | cons step rest ih =>
      rw [List.map_cons, takeAll_cons_runOn, takeAll_cons_runOn, output_sourceless, after_sourceless]
      rcases step.output sink with ⟨cause | _, sink'⟩
      · rfl
      · exact ih (progress.after [step]) sink'

end Step

namespace Script

variable {α : Type} {script script' : Script α}

theorem sourceless_perform (script : Script α) (files : Text → Except FileError Bytes)
    (progress : Progress) (sink : Sink) :
    Link.sourceless ((script.perform (Sink.medium files)).runOn progress sink) =
      match Link.sourceless ((takeAll (Sink.medium files) script.steps).runOn progress sink) with
      | ((.ok (), progress), sink) => ((script.result, progress), sink)
      | ((.error fault, progress), sink) => ((.error fault, progress), sink) := by
  rw [perform, Link.runOn_bind]
  rcases (takeAll (Sink.medium files) script.steps).runOn progress sink with ⟨⟨_ | _, _⟩, _⟩
  · rfl
  · cases script.result <;> rfl

/-- Scripts that come out alike and take the same steps but for sources are performed alike. -/
theorem sourceless_perform_eq (hresult : script'.result = script.result)
    (hsteps : script'.steps.map Step.sourceless = script.steps.map Step.sourceless)
    (files : Text → Except FileError Bytes) (progress : Progress) (sink : Sink) :
    Link.sourceless ((script'.perform (Sink.medium files)).runOn progress sink) =
      Link.sourceless ((script.perform (Sink.medium files)).runOn progress sink) := by
  have htaken : Link.sourceless ((takeAll (Sink.medium files) script'.steps).runOn progress sink) =
      Link.sourceless ((takeAll (Sink.medium files) script.steps).runOn progress sink) := by
    rw [← Step.takeAll_sourceless_runOn, hsteps, Step.takeAll_sourceless_runOn]
  rw [sourceless_perform, sourceless_perform, htaken, hresult]

end Script

/-! ### Modules without line ends -/

theorem LabelSet.definition?_withoutEnds (line : Text) :
    definition? (Line.withoutEnds line) = definition? line := by
  rw [definition?, definition?, Line.trim_withoutEnds]

theorem Renamer.render_withoutEnds (renamer : Renamer) (line : Text) :
    renamer.render (Line.withoutEnds line) = renamer.render line := by
  rw [render, render, Line.classify_withoutEnds]

namespace Module

/-- The module without the line ends that are still attached to its lines. -/
def withoutEnds (module : Module) : Module :=
  { module with lines := module.lines.map Line.withoutEnds }

theorem labels_withoutEnds (module : Module) : module.withoutEnds.labels = module.labels := by
  rw [labels, labels, withoutEnds, LabelSet.ofLines, LabelSet.ofLines, List.filterMap_map]
  exact congrArg LabelSet.ofList
    (List.filterMap_congr fun line _ => LabelSet.definition?_withoutEnds line)

theorem renamer_withoutEnds (module : Module) (linker : Linker) :
    module.withoutEnds.renamer linker = module.renamer linker := by
  rw [renamer, labels_withoutEnds]
  rfl

theorem texts_withoutEnds (module : Module) (linker : Linker) :
    module.withoutEnds.texts linker = module.texts linker := by
  rw [texts_eq_map, texts_eq_map, renamer_withoutEnds, withoutEnds, List.map_map]
  exact List.map_congr_left fun line _ => congrArg Rendition.text (Renamer.render_withoutEnds _ line)

theorem account_withoutEnds (module : Module) (linker : Linker) :
    module.withoutEnds.account linker = module.account linker := by
  rw [account_eq, account_eq, labels_withoutEnds]
  simp only [withoutEnds, List.length_map, List.countP_map, Function.comp_def, Line.classify_withoutEnds]

/-- A line without its end contributes the same, and the same warning but for the source. -/
theorem steps_emission_withoutEnds (module : Module) (renamer : Renamer) (position : Nat) (line : Text) :
    (module.withoutEnds.emission renamer position (Line.withoutEnds line)).steps.map Step.sourceless =
      (module.emission renamer position line).steps.map Step.sourceless := by
  rw [emission, emission, Renamer.render_withoutEnds, Emission.steps, Emission.steps]
  dsimp only
  cases (renamer.render line).outcome.fault? <;> rfl

theorem steps_withoutEnds (module : Module) (linker : Linker) :
    (module.withoutEnds.steps linker).map Step.sourceless = (module.steps linker).map Step.sourceless := by
  have hemissions : ((module.withoutEnds.emissions linker).map fun emission =>
        emission.steps.map Step.sourceless) =
      (module.emissions linker).map fun emission => emission.steps.map Step.sourceless := by
    rw [emissions, emissions, renamer_withoutEnds]
    apply List.ext_getElem?
    intro position
    rw [List.getElem?_map, List.getElem?_map, List.getElem?_mapIdx, List.getElem?_mapIdx, withoutEnds,
      List.getElem?_map, Option.map_map, Option.map_map, Option.map_map]
    exact congrArg (Option.map · _)
      (funext fun line => steps_emission_withoutEnds module (module.renamer linker) position line)
  rw [steps, steps, List.map_flatMap, List.map_flatMap, List.flatMap_def, List.flatMap_def, hemissions]

theorem link_withoutEnds (module : Module) (linker : Linker) (files : Text → Except FileError Bytes)
    (progress : Progress) (sink : Sink) :
    Link.sourceless ((module.withoutEnds.link (Sink.medium files) linker).runOn progress sink) =
      Link.sourceless ((module.link (Sink.medium files) linker).runOn progress sink) := by
  rw [link_eq_perform, link_eq_perform]
  exact Script.sourceless_perform_eq (congrArg Except.ok (module.account_withoutEnds linker))
    (module.steps_withoutEnds linker) files progress sink

/-- Carriage returns directly before line feeds change nothing about a module but what its warnings show:
the labels are the same, and from wherever a run has come and into whatever sink, so are what comes out of
linking the module, what is counted and noted on the way, and what the sink is left with. No line of a
module is written with a carriage return at its end. -/
theorem linked_alike_with_returns (linker : Linker) :
    (∀ (module : Module), ∀ line ∈ module.texts linker, line.endsWith '\r' = false) ∧
    ∀ (id : Nat) (path text text' : Text), Text.WithReturns text text' →
      let module := ofText id path text
      let module' := ofText id path text'
      module'.labels = module.labels ∧ module'.texts linker = module.texts linker ∧
      ∀ (files : Text → Except FileError Bytes) (progress : Progress) (sink : Sink),
        let run := (module.link (Sink.medium files) linker).runOn progress sink
        let run' := (module'.link (Sink.medium files) linker).runOn progress sink
        run'.1.1 = run.1.1 ∧ run'.1.2.lines = run.1.2.lines ∧ run'.1.2.routines = run.1.2.routines ∧
          run'.1.2.diagnostics.map Diagnostic.sourceless = run.1.2.diagnostics.map Diagnostic.sourceless ∧
          run'.2 = run.2 := by
  refine ⟨fun module => module.endsWith_return_texts linker, fun id path text text' h => ?_⟩
  intro module module'
  have hsame : module'.withoutEnds = module.withoutEnds := by
    rw [withoutEnds, withoutEnds]
    exact congrArg (Module.mk id path) h.map_withoutEnds_lines
  refine ⟨?_, ?_, fun files progress sink => ?_⟩
  · rw [← labels_withoutEnds, hsame, labels_withoutEnds]
  · rw [← texts_withoutEnds, hsame, texts_withoutEnds]
  · intro run run'
    have hrun : Link.sourceless run' = Link.sourceless run := by
      rw [← link_withoutEnds, hsame, link_withoutEnds]
    exact Link.of_sourceless_eq hrun

theorem linked_alike_with_returns_unquoted :
    let text : Text := "\t.asciz\n\tj main\n".toList
    let text' : Text := "\t.asciz\r\r\n\tj main\n".toList
    let linker : Linker := { table := ⟨[]⟩, registers := [] }
    let run (text : Text) :=
      ((ofText 0 "main.s".toList text).link (Sink.medium fun _ => .error .notFound) linker).runOn {} {}
    Text.WithReturns text text' ∧ (run text').1.1 = (run text).1.1 ∧ (run text').2 = (run text).2 ∧
      (run text').1.2.diagnostics.map Diagnostic.sourceless =
        (run text).1.2.diagnostics.map Diagnostic.sourceless ∧
      (ofText 0 "main.s".toList text).warnings.map Diagnostic.source = [some "\t.asciz".toList] ∧
      (ofText 0 "main.s".toList text').warnings.map Diagnostic.source = [some "\t.asciz\r".toList] := by
  intro text text' linker
  have htext : text = "\t.asciz".toList ++ '\n' :: ("\tj main".toList ++ ['\n']) := by decide +kernel
  have htext' : text' =
      "\t.asciz".toList ++ (List.replicate 2 '\r' ++ '\n' :: ("\tj main".toList ++ ['\n'])) := by
    decide +kernel
  have hreturns : Text.WithReturns text text' := by
    rw [htext, htext']
    refine .append_left (by decide +kernel) (.feed 2 ?_)
    exact .append_left (by decide +kernel) (.feed 0 .nil)
  obtain ⟨-, -, hlink⟩ := (linked_alike_with_returns linker).2 0 "main.s".toList text text' hreturns
  have hrun := hlink (fun _ => .error .notFound) {} {}
  -- the two runs are to be compared as they stand, not evaluated
  dsimp only at hrun ⊢
  obtain ⟨hresult, -, -, hdiagnostics, hsink⟩ := hrun
  refine ⟨hreturns, hresult, hsink, hdiagnostics, ?_, ?_⟩
  · decide +kernel
  · decide +kernel

end Module

end AsmLink
