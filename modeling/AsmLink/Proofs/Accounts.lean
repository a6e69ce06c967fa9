import AsmLink.Proofs.Classes
import AsmLink.Proofs.Unreadable
import Mathlib.Data.Finset.Card

/-! What a report says about the lines of its modules. What becomes of a line depends on the line alone
(`Renamer.outcome_render`), so that a summary is settled by the lines of its module
(`Module.account_eq`). Main statement: each line is counted once, under its class, and the diagnostics
of a run are a note for each module and a warning for each malformed line, in order
(`Plan.report_accounts_for_lines`). -/

namespace AsmLink

/-! ### What becomes of a line -/

namespace Line

/-- What becomes of a line, by its class. -/
def outcome : Line → Outcome
  | verbatim _ | quoted _ => .passed
  | suppressed _ => .suppressed
  | label _ => .label
  | instruction text => if Token.tokenize text = [] then .malformed .noTokens else .instruction
  | malformed _ fault => .malformed fault

/-- The label on a label line. -/
def label? : Line → Option Text
  | label text => some text
  | _ => none

theorem isSome_label? (line : Line) : line.label?.isSome = (line.outcome == .label) := by
  cases line with
  | instruction text =>
      rw [outcome]
      split <;> rfl
  | verbatim text | quoted text | suppressed text | label text | malformed text fault => rfl

theorem fault?_outcome (line : Line) : line.outcome.fault? = line.fault? := by
  cases line with
  | instruction text =>
      rw [outcome, fault?]
      split <;> rfl
  | verbatim text | quoted text | suppressed text | label text | malformed text fault => rfl

end Line

theorem Renamer.outcome_render (renamer : Renamer) (line : Text) :
    (renamer.render line).outcome = (Line.classify line).outcome := by
  unfold render
  cases Line.classify line with
  | instruction text =>
      dsimp only [Line.outcome]
      by_cases h : Token.tokenize text = []
      · rw [line?_eq_none_iff.2 h, if_pos h]
      · rw [line?_eq_some_iff.2 ⟨h, rfl⟩, if_neg h]
  | verbatim text | quoted text | suppressed text | label text | malformed text fault => rfl

theorem Outcome.isSome_fault? (outcome : Outcome) :
    outcome.fault?.isSome =
      !(outcome == .passed || outcome == .suppressed || outcome == .instruction || outcome == .label) := by
  cases outcome <;> rfl

/-- Every outcome is one of five kinds. -/
theorem Outcome.length_eq_add_countP (outcomes : List Outcome) :
    outcomes.length =
      outcomes.countP (· == .passed) + outcomes.countP (· == .suppressed) +
        outcomes.countP (· == .instruction) + outcomes.countP (·.fault?.isSome) +
        outcomes.countP (· == .label) := by
  induction outcomes with
  | nil => rfl
  | cons outcome rest ih =>
      simp only [isSome_fault?] at ih ⊢
      simp only [List.countP_cons, List.length_cons, ih]
      cases outcome <;> simp <;> omega

theorem LabelSet.size_ofList (names : List Text) : (ofList names).size = names.toFinset.card := by
  have hnames : (ofList names).names.toFinset = names.toFinset := by
    ext name
    rw [List.mem_toFinset, List.mem_toFinset]
    exact mem_ofList
  rw [← hnames, List.toFinset_card_of_nodup (ofList names).nodup]
  rfl

/-! ### Modules -/

namespace Module

theorem countP_emissions (p : Outcome → Bool) (module : Module) (linker : Linker) :
    (module.emissions linker).countP (fun emission => p emission.outcome) =
      module.lines.countP fun line => p (Line.classify line).outcome := by
  have h := congrArg (List.countP p) (map_emissions Rendition.outcome module linker)
  rw [List.countP_map, List.countP_map] at h
  simpa only [Function.comp_def, Renamer.outcome_render] using h

/-- What a module is linked with does not matter to its summary. -/
theorem account_eq (module : Module) (linker : Linker) :
    module.account linker =
      { id := module.id
        path := module.path
        inputLines := module.lines.length
        instructions := module.lines.countP fun line => (Line.classify line).outcome == .instruction
        labels := module.labels.size
        suppressed := module.lines.countP fun line => (Line.classify line).outcome == .suppressed
        passthrough := module.lines.countP fun line => (Line.classify line).outcome == .passed
        malformed := module.lines.countP fun line => (Line.classify line).outcome.fault?.isSome
        defines := Routine.all.filter fun routine => routine.symbol ∈ module.labels } := by
  rw [account, summary, countP_emissions (· == .instruction), countP_emissions (· == .suppressed),
    countP_emissions (· == .passed), countP_emissions (·.fault?.isSome)]

/-- Whether a summary counts each line of a module under its class, and each name once. -/
structure CountedBy (module : Module) (summary : ModuleSummary) : Prop where
  id_eq : summary.id = module.id
  path_eq : summary.path = module.path
  inputLines_eq : summary.inputLines = module.lines.length
  inputLines_eq_add : summary.inputLines =
    summary.passthrough + summary.suppressed + summary.instructions + summary.malformed +
      module.lines.countP fun line => (Line.classify line).label?.isSome
  passthrough_eq : summary.passthrough =
    module.lines.countP fun line => (Line.classify line).outcome == .passed
  suppressed_eq : summary.suppressed =
    module.lines.countP fun line => (Line.classify line).outcome == .suppressed
  instructions_eq : summary.instructions =
    module.lines.countP fun line => (Line.classify line).outcome == .instruction
  malformed_eq : summary.malformed = module.malformedLines.length
  labels_eq : summary.labels = (module.lines.filterMap LabelSet.definition?).toFinset.card

theorem length_malformedLines (module : Module) :
    module.malformedLines.length =
      module.lines.countP fun line => (Line.classify line).fault?.isSome := by
  rw [malformedLines, ← List.countP_eq_length_filter]
  conv_rhs => rw [← List.zipIdx_map_fst 1 module.lines, List.countP_map]
  rfl

theorem countedBy_account (module : Module) (linker : Linker) :
    module.CountedBy (module.account linker) := by
  have htotal := Outcome.length_eq_add_countP
    (module.lines.map fun line => (Line.classify line).outcome)
  simp only [List.length_map, List.countP_map, Function.comp_def] at htotal
  rw [account_eq]
  exact {
    id_eq := rfl
    path_eq := rfl
    inputLines_eq := rfl
    inputLines_eq_add := by simpa only [Line.isSome_label?] using htotal
    passthrough_eq := rfl
    suppressed_eq := rfl
    instructions_eq := rfl
    malformed_eq := by simp only [length_malformedLines, Line.fault?_outcome]
    labels_eq := LabelSet.size_ofList _ }

end Module

/-! ### Programs -/

namespace Plan

variable {plan : Plan} {table : RenameTable} {files : Text → Except FileError Bytes}

theorem notesOf_backSteps (used : RoutineSet) (summaries : List ModuleSummary) :
    notesOf (plan.backSteps used summaries) = [] := by
  simp [notesOf, backSteps, Step.notes]

theorem notesOf_script (hread : ∀ file ∈ plan.order files table, Readable files file.1) :
    notesOf (plan.script files table).steps =
      (plan.modules files table).flatMap fun module => .reading module.path :: module.warnings := by
  rw [script_of_readable hread]
  dsimp only
  rw [Step.notesOf_append, Step.notesOf_append, notesOf_frontSteps, notesOf_backSteps,
    Module.notesOf_flatMap_fileSteps, List.nil_append, List.append_nil]

/-- Files with malformed lines: string directives without a string, and a line with nothing but a comma. -/
def carelessFiles (path : Text) : Except FileError Bytes :=
  if path = "main.s".toList then
    .ok (Utf8.encode "main:\n\t.asciz\n ,\n\tjal\tmemset\n".toList)
  else if path = "memset.s".toList then
    .ok (Utf8.encode "memset:\n\t.align\t2\n\t.ascii\tx\n".toList)
  else .error .notFound

/-- A successful run accounts for every line. The summary of a module counts each of its lines once, and
the diagnostics are, for each module in order, the note that it is read and then a warning for each
malformed line, with the number and the text of the line. -/
theorem report_accounts_for_lines {sink sink' : Sink} {report : Report}
    (h : (plan.link (Sink.medium files) table).run sink = (.ok report, sink'))
    (hlines : ∀ file ∈ report.places, (Module.ofFile files file).lines.length < 2 ^ 32) :
    let modules := report.places.map (Module.ofFile files)
    List.Forall₂ Module.CountedBy modules report.modules ∧
    report.diagnostics = modules.flatMap (fun module => .reading module.path :: module.warnings) ∧
    (∀ module ∈ modules, Diagnostic.NotesReading module.path (.reading module.path)) ∧
    (∀ module ∈ modules,
      List.Forall₂ (Diagnostic.WarnsOf module.path) module.malformedLines module.warnings) ∧
    report.modules.map (·.malformed) = modules.map (·.warnings.length) ∧
    report.warningCount = (report.modules.map (·.malformed)).sum := by
  intro modules
  obtain ⟨hread, hreport, -⟩ := report_of_link_ok h
  have hmodules : modules = plan.modules files table := by
    rw [Plan.modules, ← places_of_link_ok h]
  have hsummaries : report.modules = modules.map (·.account (plan.linker table)) := by
    rw [hreport, hmodules]
    rfl
  have hdiagnostics : report.diagnostics =
      modules.flatMap (fun module => .reading module.path :: module.warnings) := by
    rw [hreport, hmodules, ← notesOf_script hread]
    exact List.nil_append _
  have hwarnings : ∀ module ∈ modules,
      List.Forall₂ (Diagnostic.WarnsOf module.path) module.malformedLines module.warnings := by
    intro module hmodule
    obtain ⟨file, hfile, rfl⟩ := List.mem_map.1 hmodule
    exact Module.forall₂_warnings (hlines file hfile)
  have hmalformed : report.modules.map (·.malformed) = modules.map (·.warnings.length) := by
    rw [hsummaries, List.map_map]
    refine List.map_congr_left fun module hmodule => ?_
    rw [← (hwarnings module hmodule).length_eq]
    exact (Module.countedBy_account module _).malformed_eq
  refine ⟨?_, hdiagnostics, fun module _ => Diagnostic.notesReading_reading module.path, hwarnings,
    hmalformed, ?_⟩
  · rw [hsummaries, List.forall₂_map_right_iff, List.forall₂_same]
    exact fun module _ => module.countedBy_account _
  · rw [Report.warningCount, hdiagnostics, hmalformed, List.countP_flatMap]
    exact congrArg List.sum (List.map_congr_left fun module _ => module.countP_warning)

theorem report_accounts_for_lines_careless :
    ∃ report sink', (sample.link (Sink.medium carelessFiles) ⟨[]⟩).run {} = (.ok report, sink') ∧
      (∀ file ∈ report.places, (Module.ofFile carelessFiles file).lines.length < 2 ^ 32) ∧
      report.diagnostics.map (·.line) = [0, 2, 3, 0, 3] ∧
      report.diagnostics.head?.map Diagnostic.message = some "Reading main.s.".toList ∧
      report.warningCount = 3 := by
  have hread : ∀ file ∈ sample.order carelessFiles ⟨[]⟩, Readable carelessFiles file.1 := by
    decide +kernel
  obtain ⟨report, hrun, -⟩ := report_of_readable hread
  have hlines : ∀ file ∈ report.places, (Module.ofFile carelessFiles file).lines.length < 2 ^ 32 := by
    rw [places_of_link_ok hrun]
    decide +kernel
  obtain ⟨-, hdiagnostics, hnotes, -, hmalformed, hcount⟩ := report_accounts_for_lines hrun hlines
  rw [places_of_link_ok hrun] at hdiagnostics hnotes hmalformed
  refine ⟨report, _, hrun, hlines, ?_, ?_, ?_⟩
  · rw [hdiagnostics]
    decide +kernel
  · have hentry := hnotes (Module.ofFile carelessFiles ("main.s".toList, 0))
      (List.mem_map_of_mem List.mem_cons_self)
    have hfirst : report.diagnostics.head? = some (.reading "main.s".toList) := by
      rw [hdiagnostics]
      rfl
    rw [hfirst, Option.map_some]
    exact congrArg some hentry.message_eq
  · rw [hcount, hmalformed]
    decide +kernel

end Plan

end AsmLink
