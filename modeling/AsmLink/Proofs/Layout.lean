import AsmLink.Proofs.Classes
import AsmLink.Proofs.ProgramScript

/-! The layout of a linked program. Main statement: the program is the preamble, what each module
becomes when it is linked alone, and the stubs, line by line (`Plan.link_concatenates`). -/

namespace AsmLink

/-! ### The fixed lines -/

/-- The names of a target fit on a line each. -/
def Target.SingleLine (target : Target) : Prop :=
  ∀ name ∈ [target.entryLabel, target.startLabel, target.initLabel, target.preambleStartLabel,
    target.preambleEndLabel, target.errorRegister], '\n' ∉ name

instance (target : Target) : Decidable target.SingleLine :=
  inferInstanceAs (Decidable (∀ name ∈ _, '\n' ∉ name))

namespace Boilerplate

theorem newline_not_mem_ofNat (n : Nat) : '\n' ∉ Text.ofNat n :=
  Text.not_mem_ofNat (by decide) n

theorem newline_not_mem_ofInt (n : Int) : '\n' ∉ Text.ofInt n := by
  cases n with
  | ofNat n => exact newline_not_mem_ofNat n
  | negSucc n =>
      rw [Text.ofInt, List.mem_cons, not_or]
      exact ⟨by decide, newline_not_mem_ofNat (n + 1)⟩

theorem newline_not_mem_append {left right : Text} (hleft : '\n' ∉ left) (hright : '\n' ∉ right) :
    '\n' ∉ left ++ right := by
  rw [List.mem_append, not_or]
  exact ⟨hleft, hright⟩

theorem newline_not_mem_definition {label : Text} (h : '\n' ∉ label) : '\n' ∉ definition label :=
  newline_not_mem_append h (by decide)

theorem newline_not_mem_call {label : Text} (h : '\n' ∉ label) : '\n' ∉ call label :=
  newline_not_mem_append (by decide +kernel) h

theorem newline_not_mem_registers {target : Target} : ∀ register ∈ target.registers, '\n' ∉ register := by
  have hnumbered : ∀ register ∈ target.numberedRegisters, '\n' ∉ register := by
    intro register h
    obtain ⟨n, -, rfl⟩ := List.mem_map.1 h
    rw [← List.singleton_append]
    exact newline_not_mem_append (by decide) (newline_not_mem_ofNat n)
  have hfloating : ∀ register ∈ target.floatingRegisters, '\n' ∉ register := by
    intro register h
    obtain ⟨n, -, rfl⟩ := List.mem_map.1 h
    exact newline_not_mem_append (by decide +kernel) (newline_not_mem_ofNat n)
  unfold Target.registers
  simp only [List.forall_mem_append]
  exact ⟨⟨⟨⟨by decide +kernel, hnumbered⟩, by decide +kernel⟩, hfloating⟩, by decide +kernel⟩

theorem newline_not_mem_preamble {target : Target} (htarget : target.SingleLine) :
    ∀ line ∈ preamble target, '\n' ∉ line := by
  simp only [Target.SingleLine, List.forall_mem_cons] at htarget
  obtain ⟨hentry, hstart, hinit, hfirst, hlast, herror, -⟩ := htarget
  have hregisters : ∀ line ∈ target.registers.map ("\tREG\t".toList ++ ·), '\n' ∉ line := by
    rw [List.forall_mem_map]
    exact fun register h => newline_not_mem_append (by decide +kernel) (newline_not_mem_registers register h)
  have hstack : '\n' ∉ "\tLOADIMM\t$sp, ".toList ++ Text.ofNat target.stackBase.toNat :=
    newline_not_mem_append (by decide +kernel) (newline_not_mem_ofNat _)
  have hreport : '\n' ∉ "\taddi\t".toList ++ target.errorRegister ++ ", $zero, ".toList ++
      Text.ofInt target.errorSentinel.toInt :=
    newline_not_mem_append
      (newline_not_mem_append (newline_not_mem_append (by decide +kernel) herror) (by decide +kernel))
      (newline_not_mem_ofInt _)
  have hprint : '\n' ∉ "\tPRINT\t".toList ++ target.errorRegister :=
    newline_not_mem_append (by decide +kernel) herror
  unfold preamble
  simp only [List.forall_mem_append, List.forall_mem_cons]
  exact ⟨⟨⟨by decide +kernel, List.forall_mem_nil _⟩, hregisters⟩,
    newline_not_mem_definition hfirst, by decide +kernel, by decide +kernel, hstack,
    newline_not_mem_call hinit, by decide +kernel, newline_not_mem_definition hstart,
    newline_not_mem_call hentry, by decide +kernel, by decide +kernel, by decide +kernel, hreport, hprint,
    by decide +kernel, by decide +kernel, newline_not_mem_definition hlast, List.forall_mem_nil _⟩

theorem newline_not_mem_stubLines {target : Target} (htarget : target.SingleLine)
    (used : RoutineSet) (modules : List ModuleSummary) :
    ∀ line ∈ used.stubLines modules target, '\n' ∉ line := by
  simp only [Target.SingleLine, List.forall_mem_cons] at htarget
  obtain ⟨-, -, hinit, -⟩ := htarget
  have hfloat : ∀ line ∈ floatStub, '\n' ∉ line := by decide +kernel
  have hterminal : ∀ line ∈ terminal target, '\n' ∉ line := by
    unfold terminal
    simp only [List.forall_mem_cons]
    exact ⟨by decide +kernel, by decide +kernel, by decide +kernel, by decide +kernel, by decide +kernel,
      newline_not_mem_definition hinit,
      newline_not_mem_append (newline_not_mem_append (by decide +kernel) hinit) (by decide +kernel),
      List.forall_mem_nil _⟩
  rw [RoutineSet.stubLines, List.forall_mem_append]
  refine ⟨?_, hterminal⟩
  split
  · exact hfloat
  · exact List.forall_mem_nil _

end Boilerplate

/-! ### Modules -/

/-- A line is rendered as one line. -/
theorem Renamer.newline_not_mem_render {renamer : Renamer} {line : Text} (h : '\n' ∉ line) :
    '\n' ∉ (renamer.render line).text := by
  have hclass : '\n' ∉ (Line.classify line).text := by
    intro hc
    rcases Line.mem_text_classify hc with hc | hc | hc
    · exact absurd hc (by decide)
    · exact absurd hc (by decide)
    · exact h hc
  unfold render
  cases hkind : Line.classify line with
  | label text =>
      intro hc
      rw [hkind] at hclass
      rcases mem_unique hc with hdigit | hc
      · exact absurd hdigit (by decide)
      · exact hclass hc
  | instruction text =>
      dsimp only
      cases hrenamed : renamer.line? text with
      | some renamed => exact newline_not_mem_line? hrenamed
      | none => exact List.not_mem_nil
  | verbatim text | quoted text | suppressed text | malformed text fault =>
      rw [hkind] at hclass
      exact hclass

namespace Module

variable {module : Module} {linker : Linker}

theorem length_texts : (module.texts linker).length = module.lines.length := by
  rw [texts_eq_map, List.length_map]

theorem newline_not_mem_texts (h : ∀ line ∈ module.lines, '\n' ∉ line) :
    ∀ text ∈ module.texts linker, '\n' ∉ text := by
  rw [texts_eq_map, List.forall_mem_map]
  exact fun line hline => Renamer.newline_not_mem_render (h line hline)

theorem newline_not_mem_lines_ofFile (files : Text → Except FileError Bytes) (file : Text × Nat) :
    ∀ line ∈ (ofFile files file).lines, '\n' ∉ line := fun _ h =>
  Text.newline_not_mem_of_mem_lines h

end Module

/-! ### Programs -/

namespace Plan

variable {plan : Plan} {table : RenameTable} {files : Text → Except FileError Bytes}

/-- The lines of a program whose modules can all be read. -/
def lines (plan : Plan) (files : Text → Except FileError Bytes) (table : RenameTable) : List Text :=
  Boilerplate.preamble plan.target ++
    ((plan.modules files table).flatMap (·.texts (plan.linker table)) ++
      (plan.used files table).stubLines
        ((plan.modules files table).map (·.account (plan.linker table))) plan.target)

theorem textsOf_script (hread : ∀ file ∈ plan.order files table, Readable files file.1) :
    textsOf (plan.script files table).steps = plan.lines files table := by
  have hmodules : textsOf ((plan.modules files table).flatMap (·.fileSteps (plan.linker table))) =
      (plan.modules files table).flatMap (·.texts (plan.linker table)) := by
    rw [textsOf, List.flatMap_assoc]
    exact congrArg (List.flatMap · _) (funext fun module => module.textsOf_fileSteps)
  rw [script_of_readable hread]
  dsimp only
  rw [textsOf, List.flatMap_append, List.flatMap_append]
  change textsOf plan.frontSteps ++ (textsOf _ ++ textsOf (plan.backSteps _ _)) = _
  rw [hmodules, lines, frontSteps, backSteps]
  simp only [textsOf, List.flatMap_append]
  change textsOf _ ++ [] ++ (_ ++ (textsOf _ ++ [])) = _
  rw [Step.textsOf_map_line, Step.textsOf_map_line, List.append_nil, List.append_nil]

theorem newline_not_mem_lines (htarget : plan.target.SingleLine) :
    ∀ line ∈ plan.lines files table, '\n' ∉ line := by
  have hmodules : ∀ line ∈ (plan.modules files table).flatMap (·.texts (plan.linker table)),
      '\n' ∉ line := by
    intro line hline
    obtain ⟨module, hmodule, hline⟩ := List.mem_flatMap.1 hline
    obtain ⟨file, -, rfl⟩ := List.mem_map.1 hmodule
    exact Module.newline_not_mem_texts (Module.newline_not_mem_lines_ofFile files file) line hline
  rw [lines, List.forall_mem_append, List.forall_mem_append]
  exact ⟨Boilerplate.newline_not_mem_preamble htarget, hmodules,
    Boilerplate.newline_not_mem_stubLines htarget _ _⟩

/-- A successful run has read every file in order, reports on all of them and has written all lines. -/
theorem report_of_link_ok {sink sink' : Sink} {report : Report}
    (h : (plan.link (Sink.medium files) table).run sink = (.ok report, sink')) :
    (∀ file ∈ plan.order files table, Readable files file.1) ∧
      report = plan.report ⟨(plan.modules files table).map (·.account (plan.linker table)),
        plan.used files table⟩ (({} : Progress).after (plan.script files table).steps) ∧
      sink'.written = sink.written ++ Utf8.encode (Text.unlines (plan.lines files table)) := by
  obtain ⟨assembly, hresult, hreport, hwritten⟩ := of_link_ok h
  have hread := readable_of_script hresult
  have hscript := congrArg Script.result (script_of_readable hread)
  rw [hresult] at hscript
  cases hscript
  rw [textsOf_script hread] at hwritten
  exact ⟨hread, hreport, hwritten⟩

/-- The stub of the promotion is added where it is called for and no summary defines it. -/
theorem needsFloatStub_iff {used : RoutineSet} {summaries : List ModuleSummary} :
    used.needsFloatStub summaries = true ↔
      used.contains .floatPromotion = true ∧
        ∀ summary ∈ summaries, Routine.floatPromotion ∉ summary.defines := by
  simp [RoutineSet.needsFloatStub]

theorem report_of_readable (hread : ∀ file ∈ plan.order files table, Readable files file.1) :
    ∃ report : Report,
      (plan.link (Sink.medium files) table).run {} =
        (.ok report, { written := Utf8.encode (Text.unlines (plan.lines files table)) }) ∧
      report.modules = (plan.modules files table).map (·.account (plan.linker table)) ∧
      report.outputLines = (plan.lines files table).length := by
  have hscript := script_of_readable hread
  refine ⟨plan.report ⟨_, plan.used files table⟩
    (({} : Progress).after (plan.script files table).steps), ?_, rfl, ?_⟩
  · rw [link_run_unlimited, textsOf_script hread, hscript]
    rfl
  · change 0 + (textsOf _).length = _
    rw [textsOf_script hread, Nat.zero_add]

/-- A program that calls for the promotion of numbers and for one of its two runtime objects. -/
def sample : Plan where
  entry := "main.s".toList
  runtimeObjects := ["memcpy.s".toList, "memset.s".toList]
  table := []

/-- The files of the sample. The runtime object that is not called for is missing. -/
def sampleFiles (path : Text) : Except FileError Bytes :=
  if path = "main.s".toList then
    .ok (Utf8.encode "main:\n\tjal\t__extendsfdf2\n\tjal\tmemset\n".toList)
  else if path = "memset.s".toList then .ok (Utf8.encode "memset:\n\tjr\t$ra\n".toList)
  else .error .notFound

theorem readable_sample : ∀ file ∈ sample.order sampleFiles ⟨[]⟩, Readable sampleFiles file.1 := by
  decide +kernel

/-- A program is the preamble, what each module becomes when it is linked alone, and the stubs. Each
line of a module becomes one line, and all lines written are counted. -/
theorem link_concatenates (htarget : plan.target.SingleLine)
    (hread : ∀ file ∈ plan.order files table, Readable files file.1) :
    let modules := plan.modules files table
    let alone (module : Module) := module.linkAlone (plan.linker table)
    let used := (alone (plan.entryModule files)).1.2.routines
    ∃ (report : Report) (written : Bytes) (stub : List Text),
      (plan.link (Sink.medium files) table).run {} = (.ok report, { written }) ∧
      written = Utf8.encode (Text.unlines (Boilerplate.preamble plan.target)) ++
        modules.flatMap (fun module => (alone module).2.written) ++
        Utf8.encode (Text.unlines stub) ++
        Utf8.encode (Text.unlines (Boilerplate.terminal plan.target)) ∧
      (∀ module ∈ modules, ∃ texts : List Text,
        (alone module).2.written = Utf8.encode (Text.unlines texts) ∧
        texts.length = module.lines.length ∧ ∀ text ∈ texts, '\n' ∉ text) ∧
      report.modules.map Except.ok = modules.map (fun module => (alone module).1.1) ∧
      stub = (if used.contains .floatPromotion ∧
          ∀ summary ∈ report.modules, .floatPromotion ∉ summary.defines
        then Boilerplate.floatStub else []) ∧
      report.outputLines = written.count 10 ∧
      report.outputLines = (Boilerplate.preamble plan.target).length +
        (modules.flatMap (·.lines)).length + stub.length +
        (Boilerplate.terminal plan.target).length := by
  intro modules alone used
  obtain ⟨report, hrun, hmodules, hcount⟩ := report_of_readable hread
  let summaries := modules.map (·.account (plan.linker table))
  let stub := if used.needsFloatStub summaries then Boilerplate.floatStub else []
  have hlines : plan.lines files table = Boilerplate.preamble plan.target ++
      modules.flatMap (·.texts (plan.linker table)) ++ stub ++ Boilerplate.terminal plan.target := by
    rw [lines, RoutineSet.stubLines, List.append_assoc, List.append_assoc]
    rfl
  have hwritten : Utf8.encode (Text.unlines (modules.flatMap (·.texts (plan.linker table)))) =
      modules.flatMap (fun module => (alone module).2.written) := by
    simp only [alone, Module.linkAlone_eq, Utf8.encode, Text.unlines, List.flatMap_assoc]
  refine ⟨report, _, stub, hrun, ?_, ?_, ?_, ?_, ?_, ?_⟩
  · rw [hlines]
    simp only [Text.unlines_append, Utf8.encode_append, hwritten]
  · intro module hmodule
    obtain ⟨file, -, rfl⟩ := List.mem_map.1 hmodule
    refine ⟨_, congrArg (·.2.written) (Module.linkAlone_eq _ _), Module.length_texts, ?_⟩
    exact Module.newline_not_mem_texts (Module.newline_not_mem_lines_ofFile files file)
  · rw [hmodules, List.map_map]
    exact List.map_congr_left fun module _ => congrArg (·.1.1) (Module.linkAlone_eq _ _).symm
  · rw [hmodules]
    exact if_congr needsFloatStub_iff rfl rfl
  · rw [Utf8.count_newline_encode, Text.count_newline_unlines (newline_not_mem_lines htarget)]
    exact hcount
  · rw [hcount, hlines]
    simp only [List.length_append, List.length_flatMap, Module.length_texts]

theorem link_concatenates_sample :
    sample.target.SingleLine ∧ (∀ file ∈ sample.order sampleFiles ⟨[]⟩, Readable sampleFiles file.1) ∧
      ∃ (report : Report) (written : Bytes),
        (sample.link (Sink.medium sampleFiles) ⟨[]⟩).run {} = (.ok report, { written }) ∧
        report.outputLines = written.count 10 ∧ report.outputLines = 104 := by
  have htarget : sample.target.SingleLine := by decide +kernel
  obtain ⟨report, written, stub, hrun, -, -, hmodules, hstub, hcount, hlength⟩ :=
    link_concatenates htarget readable_sample
  have hdefines : ∀ result ∈ (sample.modules sampleFiles ⟨[]⟩).map
      (fun module => (module.linkAlone (sample.linker ⟨[]⟩)).1.1),
      result.toOption.all (Routine.floatPromotion ∉ ·.defines) := by decide +kernel
  have hstub' : stub = Boilerplate.floatStub := by
    rw [hstub, if_pos]
    refine ⟨by decide +kernel, fun summary hsummary => ?_⟩
    rw [← hmodules] at hdefines
    simpa [Except.toOption] using hdefines (.ok summary) (List.mem_map_of_mem hsummary)
  refine ⟨htarget, readable_sample, report, written, hrun, hcount, ?_⟩
  rw [hlength, hstub']
  decide +kernel

end Plan

end AsmLink
