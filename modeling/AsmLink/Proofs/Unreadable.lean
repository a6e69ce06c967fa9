import AsmLink.Proofs.Diagnostics
import AsmLink.Proofs.Gating

/-! Files that cannot be read. Main statement: a run ends at the first of them, with what the modules
before it have become and what was reported about them; nothing that is not due is opened
(`Plan.link_of_unreadable`). -/

namespace AsmLink

/-! ### Warnings and faults -/

theorem Renamer.fault?_render (renamer : Renamer) (line : Text) :
    (renamer.render line).outcome.fault? = (Line.classify line).fault? := by
  unfold render
  cases Line.classify line with
  | instruction text =>
      dsimp only [Line.fault?]
      by_cases h : Token.tokenize text = []
      · rw [line?_eq_none_iff.2 h, if_pos h]
        rfl
      · rw [line?_eq_some_iff.2 ⟨h, rfl⟩, if_neg h]
        rfl
  | verbatim text | quoted text | suppressed text | label text | malformed text fault => rfl

theorem Fault.isInfix_message_moduleUnreadable (path : Text) (cause : FileError) :
    path <:+: (moduleUnreadable path cause).message := by
  change path <:+: "Failed to open module".toList ++ ": ".toList ++ (path ++ ": ".toList ++ cause.message)
  rw [List.append_assoc path]
  exact (List.prefix_append path _).isInfix.trans (List.suffix_append _ _).isInfix

namespace Step

theorem textsOf_append (first second : List Step) :
    textsOf (first ++ second) = textsOf first ++ textsOf second :=
  List.flatMap_append

theorem notesOf_append (first second : List Step) :
    notesOf (first ++ second) = notesOf first ++ notesOf second :=
  List.flatMap_append

end Step

namespace Module

theorem map_warning_emissions (module : Module) (linker : Linker) :
    (module.emissions linker).map (·.warning) =
      module.lines.mapIdx fun position line =>
        (Line.classify line).fault?.map fun fault =>
          .malformed fault module.path (UInt32.ofNat position + 1) line := by
  apply List.ext_getElem?
  intro position
  rw [emissions, List.getElem?_map, List.getElem?_mapIdx, List.getElem?_mapIdx, Option.map_map]
  simp only [Function.comp_def, emission, Renamer.fault?_render]

theorem notesOf_steps (module : Module) (linker : Linker) :
    notesOf (module.steps linker) = module.warnings := by
  rw [warnings, ← map_warning_emissions module linker, List.flatMap_map, notesOf, steps,
    List.flatMap_assoc]
  congr 1
  funext emission
  cases h : emission.warning <;> simp [Emission.steps, Step.notes, h]

theorem notesOf_fileSteps (module : Module) (linker : Linker) :
    notesOf (module.fileSteps linker) = .reading module.path :: module.warnings := by
  rw [← notesOf_steps module linker]
  simp [fileSteps, notesOf, Step.notes]

theorem textsOf_flatMap_fileSteps (linker : Linker) (modules : List Module) :
    textsOf (modules.flatMap (·.fileSteps linker)) = modules.flatMap (·.texts linker) := by
  rw [textsOf, List.flatMap_assoc]
  exact congrArg (List.flatMap · _) (funext fun module => module.textsOf_fileSteps)

theorem notesOf_flatMap_fileSteps (linker : Linker) (modules : List Module) :
    notesOf (modules.flatMap (·.fileSteps linker)) =
      modules.flatMap fun module => .reading module.path :: module.warnings := by
  rw [notesOf, List.flatMap_assoc]
  exact congrArg (List.flatMap · _) (funext fun module => module.notesOf_fileSteps linker)

theorem encode_unlines_flatMap_texts (linker : Linker) (modules : List Module) :
    Utf8.encode (Text.unlines (modules.flatMap (·.texts linker))) =
      modules.flatMap fun module => (module.linkAlone linker).2.written := by
  simp only [Module.linkAlone_eq, Utf8.encode, Text.unlines, List.flatMap_assoc]

end Module

/-! ### The script up to the first file that cannot be read -/

namespace Module

variable {files : Text → Except FileError Bytes} {linker : Linker}

theorem filesScript_of_unreadable {before after : List (Text × Nat)} {file : Text × Nat}
    {cause : FileError} (hread : ∀ earlier ∈ before, Readable files earlier.1)
    (hfile : files file.1 = .error cause) :
    filesScript files linker (before ++ file :: after) =
      ⟨(before.map (ofFile files)).flatMap (·.fileSteps linker) ++ [.report (.reading file.1)],
        .error (.moduleUnreadable file.1 cause)⟩ := by
  induction before with
  | nil =>
      rw [List.nil_append, filesScript, fileScript, hfile]
      rfl
  | cons earlier rest ih =>
      obtain ⟨⟨bytes, hearlier⟩, hrest⟩ := List.forall_mem_cons.1 hread
      rw [List.cons_append, filesScript, ih hrest, fileScript, hearlier]
      simp [Script.bind]

theorem readable_of_fileScript {file : Text × Nat} {summary : ModuleSummary}
    (h : (fileScript files linker file).result = .ok summary) : Readable files file.1 := by
  rw [fileScript] at h
  cases hfile : files file.1 with
  | error cause => simp [hfile] at h
  | ok bytes => exact ⟨bytes, hfile⟩

end Module

namespace Plan

variable {plan : Plan} {table : RenameTable} {files : Text → Except FileError Bytes}

/-- The script of a program is that of its files, between the preamble and the stubs. -/
theorem script_eq_filesScript :
    plan.script files table =
      (⟨plan.frontSteps, .ok ()⟩ : Script Unit).bind fun _ =>
        (Module.filesScript files (plan.linker table) (plan.order files table)).bind fun summaries =>
          ⟨plan.backSteps (plan.used files table) summaries,
            .ok { modules := summaries, used := plan.used files table }⟩ := by
  rw [script, order, Module.filesScript]
  cases hentry : (Module.fileScript files (plan.linker table) (plan.entry, 0)).result with
  | error fault => simp [Script.bind, hentry]
  | ok entry =>
      simp only [Script.bind, hentry, restScript]
      cases (Module.filesScript files (plan.linker table)
        (plan.linked (plan.used files table))).result <;> simp

theorem script_of_unreadable {before after : List (Text × Nat)} {file : Text × Nat} {cause : FileError}
    (horder : plan.order files table = before ++ file :: after)
    (hread : ∀ earlier ∈ before, Readable files earlier.1) (hfile : files file.1 = .error cause) :
    plan.script files table =
      ⟨plan.frontSteps ++ ((before.map (Module.ofFile files)).flatMap
          (·.fileSteps (plan.linker table)) ++ [.report (.reading file.1)]),
        .error (.moduleUnreadable file.1 cause)⟩ := by
  rw [script_eq_filesScript, horder, Module.filesScript_of_unreadable hread hfile]
  rfl

/-- There is a first file that cannot be read, unless all can be. -/
theorem exists_unreadable (h : ¬ ∀ file ∈ plan.order files table, Readable files file.1) :
    ∃ before file after cause, plan.order files table = before ++ file :: after ∧
      (∀ earlier ∈ before, Readable files earlier.1) ∧ files file.1 = .error cause := by
  push Not at h
  obtain ⟨file, hfind⟩ := Option.isSome_iff_exists.1
    (List.find?_isSome (p := fun file : Text × Nat => ¬ Readable files file.1).2 (by simpa using h))
  obtain ⟨hfile, before, after, horder, hbefore⟩ := List.find?_eq_some_iff_append.1 hfind
  cases hcause : files file.1 with
  | ok bytes => exact absurd ⟨bytes, hcause⟩ (of_decide_eq_true hfile)
  | error cause => exact ⟨before, file, after, cause, horder, by simpa using hbefore, hcause⟩

end Plan

/-! ### What is opened -/

/-- A sink with a way of reading files of its own, which may do anything. -/
def Sink.mediumReading (readFile : Text → StateM Sink (Except FileError Bytes)) :
    Medium (StateM Sink) :=
  { medium fun _ => .error .notFound with readFile }

namespace Module

variable {files : Text → Except FileError Bytes} {linker : Linker}
  {readFile : Text → StateM Sink (Except FileError Bytes)}

theorem linkFile_mediumReading {file : Text × Nat} (h : readFile file.1 = pure (files file.1)) :
    Plan.linkFile (Sink.mediumReading readFile) linker file =
      Plan.linkFile (Sink.medium files) linker file := by
  have hread : (Sink.mediumReading readFile).readFile file.1 = (Sink.medium files).readFile file.1 := h
  rw [Plan.linkFile, hread]
  rfl

/-- Files behind one that cannot be read are not opened. -/
theorem mapM_linkFile_mediumReading {order : List (Text × Nat)}
    (h : ∀ before file after, order = before ++ file :: after →
      (∀ earlier ∈ before, Readable files earlier.1) → readFile file.1 = pure (files file.1))
    (progress : Progress) (sink : Sink) :
    (order.mapM (Plan.linkFile (Sink.mediumReading readFile) linker)).runOn progress sink =
      (order.mapM (Plan.linkFile (Sink.medium files) linker)).runOn progress sink := by
  induction order generalizing progress sink with
  | nil => rfl
  | cons file rest ih =>
      rw [List.mapM_cons, List.mapM_cons, linkFile_mediumReading (h [] file rest rfl (by simp))]
      apply Link.runOn_bind_congr
      intro summary progress' sink' hrun
      rw [linkFile_eq_perform] at hrun
      -- the run goes on, so this file was readable and the next one is due
      have hreadable := readable_of_fileScript (Script.of_perform_ok hrun).1
      rw [Link.runOn_bind, Link.runOn_bind, ih]
      intro before later after hrest hread
      exact h (file :: before) later after (congrArg _ hrest) (List.forall_mem_cons.2 ⟨hreadable, hread⟩)

end Module

namespace Plan

variable {plan : Plan} {table : RenameTable} {files : Text → Except FileError Bytes}
  {readFile : Text → StateM Sink (Except FileError Bytes)}

theorem assemble_mediumReading
    (h : ∀ before file after, plan.order files table = before ++ file :: after →
      (∀ earlier ∈ before, Readable files earlier.1) → readFile file.1 = pure (files file.1))
    (sink : Sink) :
    (plan.assemble (Sink.mediumReading readFile) table).runOn {} sink =
      (plan.assemble (Sink.medium files) table).runOn {} sink := by
  have hentry : linkFile (Sink.mediumReading readFile) (plan.linker table) (plan.entry, 0) =
      (Module.fileScript files (plan.linker table) (plan.entry, 0)).perform (Sink.medium files) := by
    rw [Module.linkFile_mediumReading (h [] (plan.entry, 0) _ rfl (by simp)), Module.linkFile_eq_perform]
  have hassemble : plan.assemble (Sink.mediumReading readFile) table =
      (⟨plan.frontSteps, .ok ()⟩ : Script Unit).perform (Sink.medium files) >>= fun _ =>
        (Module.fileScript files (plan.linker table) (plan.entry, 0)).perform (Sink.medium files) >>=
          fun entry => getThe Progress >>= fun progress =>
            (plan.linked progress.routines).mapM
                (linkFile (Sink.mediumReading readFile) (plan.linker table)) >>= fun objects =>
              (⟨plan.backSteps progress.routines (entry :: objects),
                .ok { modules := entry :: objects, used := progress.routines }⟩ :
                Script Assembly).perform (Sink.medium files) := by
    rw [← hentry]
    simp [assemble, Script.perform, frontSteps, backSteps, takeAll, writeLines_eq_takeAll, Step.take]
    rfl
  -- once the entry is linked, the routines noted are those that the order was made with
  rw [hassemble, assemble_runOn, script, Script.perform_bind]
  apply Link.runOn_bind_congr
  intro _ progress sink hfront
  rw [(Script.of_perform_ok hfront).2.1, Script.perform_bind]
  apply Link.runOn_bind_congr
  intro entry progress sink hrun
  obtain ⟨hresult, rfl, -⟩ := Script.of_perform_ok hrun
  have hreadable := Module.readable_of_fileScript hresult
  rw [Link.runOn_bind, Link.runOn_get, restScript, Script.perform_bind, ← Module.mapM_linkFile_eq_perform]
  dsimp only
  rw [routines_after_entry hresult, Link.runOn_bind, Link.runOn_bind, Module.mapM_linkFile_mediumReading]
  intro before file after horder hread
  exact h ((plan.entry, 0) :: before) file after (congrArg _ horder)
    (List.forall_mem_cons.2 ⟨hreadable, hread⟩)

theorem link_mediumReading
    (h : ∀ before file after, plan.order files table = before ++ file :: after →
      (∀ earlier ∈ before, Readable files earlier.1) → readFile file.1 = pure (files file.1))
    (sink : Sink) :
    (plan.link (Sink.mediumReading readFile) table).run sink =
      (plan.link (Sink.medium files) table).run sink := by
  have hrun : ((plan.assemble (Sink.mediumReading readFile) table).run.run {}).run sink =
      ((plan.assemble (Sink.medium files) table).run.run {}).run sink := assemble_mediumReading h sink
  rw [link, link, StateT.run_bind, StateT.run_bind, hrun]
  rfl

theorem notesOf_frontSteps : notesOf plan.frontSteps = [] := by
  simp [notesOf, frontSteps, Step.notes]

theorem textsOf_frontSteps : textsOf plan.frontSteps = Boilerplate.preamble plan.target := by
  simp [textsOf, frontSteps, List.flatMap_map, Step.texts]

/-- A run ends at the first file that cannot be read: the output is the preamble and what the modules
before it become when they are linked alone, and the diagnostics are the note and the warnings of each of
them, then the note about the file. Nothing else is opened, whatever opening it would do. -/
theorem link_of_unreadable (plan : Plan) (table : RenameTable) (files : Text → Except FileError Bytes) :
    let entry := plan.entryModule files
    let order := (plan.entry, 0) ::
      (plan.runtimeObjects.zipIdx 1).filter fun object => ¬ entry.LeavesOut object.1
    (∀ before file after cause, order = before ++ file :: after →
      (∀ earlier ∈ before, Readable files earlier.1) → files file.1 = .error cause →
      ∃ failure written,
        (plan.link (Sink.medium files) table).run {} = (.error failure, { written }) ∧
        failure.fault = .moduleUnreadable file.1 cause ∧
        failure.fault.kind = .unreadable ∧ file.1 <:+: failure.fault.message ∧
        written = Utf8.encode (Text.unlines (Boilerplate.preamble plan.target)) ++
          before.flatMap (fun earlier =>
            ((Module.ofFile files earlier).linkAlone (plan.linker table)).2.written) ∧
        failure.diagnostics = before.flatMap (fun earlier =>
          .reading earlier.1 :: (Module.ofFile files earlier).warnings) ++ [.reading file.1] ∧
        (∀ named ∈ before ++ [file], Diagnostic.NotesReading named.1 (.reading named.1)) ∧
        (∀ earlier ∈ before, (Module.ofFile files earlier).lines.length < 2 ^ 32 →
          List.Forall₂ (Diagnostic.WarnsOf earlier.1) (Module.ofFile files earlier).malformedLines
            (Module.ofFile files earlier).warnings)) ∧
    (∀ readFile : Text → StateM Sink (Except FileError Bytes),
      (∀ before file after, order = before ++ file :: after →
        (∀ earlier ∈ before, Readable files earlier.1) → readFile file.1 = pure (files file.1)) →
      ∀ sink, (plan.link (Sink.mediumReading readFile) table).run sink =
        (plan.link (Sink.medium files) table).run sink) := by
  intro entry order
  have horder : plan.order files table = order := by rw [Plan.order, linked_used]
  refine ⟨?_, fun readFile h sink => link_mediumReading (by rwa [horder]) sink⟩
  intro before file after cause hsplit hread hfile
  have hscript := script_of_unreadable (horder.trans hsplit) hread hfile
  refine ⟨_, _, (link_run_unlimited []).trans (by rw [hscript]), rfl, rfl,
    Fault.isInfix_message_moduleUnreadable _ _, ?_, ?_,
    fun named _ => Diagnostic.notesReading_reading named.1,
    fun earlier _ hlines => Module.forall₂_warnings hlines⟩
  · rw [Step.textsOf_append, Step.textsOf_append, textsOf_frontSteps, Module.textsOf_flatMap_fileSteps,
      List.nil_append, Text.unlines_append, Utf8.encode_append]
    change _ ++ Utf8.encode (Text.unlines (_ ++ [])) = _
    rw [List.append_nil, Module.encode_unlines_flatMap_texts, List.flatMap_map]
  · rw [Step.notesOf_append, Step.notesOf_append, notesOf_frontSteps, Module.notesOf_flatMap_fileSteps,
      List.nil_append, List.flatMap_map]
    rfl

theorem link_of_unreadable_sample :
    let files (path : Text) := if path = "memset.s".toList then .error .notFound else sampleFiles path
    ∃ failure written,
      (sample.link (Sink.medium files) ⟨[]⟩).run {} = (.error failure, { written }) ∧
      failure.fault = .moduleUnreadable "memset.s".toList .notFound ∧
      failure.diagnostics = [.reading "main.s".toList, .reading "memset.s".toList] ∧
      failure.diagnostics.map Diagnostic.message =
        ["Reading main.s.".toList, "Reading memset.s.".toList] := by
  intro files
  obtain ⟨failure, written, hrun, hfault, -, -, -, hdiagnostics, hnotes, -⟩ :=
    (link_of_unreadable sample ⟨[]⟩ files).1 [("main.s".toList, 0)] ("memset.s".toList, 2) []
      .notFound (by decide +kernel) (by decide +kernel) (by rfl)
  have hreported : failure.diagnostics = [.reading "main.s".toList, .reading "memset.s".toList] := by
    rw [hdiagnostics]
    decide +kernel
  have hentry := hnotes ("main.s".toList, 0) (by decide)
  have hmemset := hnotes ("memset.s".toList, 2) (by decide)
  refine ⟨failure, written, hrun, hfault, hreported, ?_⟩
  rw [hreported, List.map_cons, List.map_singleton, hentry.message_eq, hmemset.message_eq]
  rfl

end Plan

end AsmLink
