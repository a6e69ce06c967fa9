import AsmLink.Proofs.Script

/-! The scripts of modules and programs. Main statements: linking a module is performing its script
(`Module.link_eq_perform`), and linking a program into a sink is performing the program's, whatever
the sink (`Plan.link_run`). What a successful run reports is read off the script alone
(`Plan.of_link_ok`). -/

namespace AsmLink

/-! ### Modules -/

def Emission.steps (emission : Emission) : List Step :=
  .observe emission.routines :: (emission.warning.toList.map .report ++ [.line emission.text])

namespace Module

variable {m : Type → Type} [Monad m] [LawfulMonad m]

def steps (module : Module) (linker : Linker) : List Step :=
  (module.emissions linker).flatMap Emission.steps

def account (module : Module) (linker : Linker) : ModuleSummary :=
  module.summary (module.emissions linker)

def texts (module : Module) (linker : Linker) : List Text :=
  (module.emissions linker).map (·.text)

def routines (module : Module) (linker : Linker) : RoutineSet :=
  ((module.emissions linker).map (·.routines)).foldr .union .empty

/-- A part of what a module contributes, line by line: the position of a line does not matter to it. -/
theorem map_emissions {α : Type} (f : Rendition → α) (module : Module) (linker : Linker) :
    (module.emissions linker).map (fun emission => f emission.toRendition) =
      module.lines.map fun line => f ((module.renamer linker).render line) := by
  apply List.ext_getElem?
  intro position
  rw [emissions, List.getElem?_map, List.getElem?_mapIdx, List.getElem?_map, Option.map_map]
  rfl

theorem texts_eq_map (module : Module) (linker : Linker) :
    module.texts linker = module.lines.map fun line => ((module.renamer linker).render line).text :=
  map_emissions Rendition.text module linker

theorem getElem?_texts {module : Module} {linker : Linker} {position : Nat} {line : Text}
    (h : module.lines[position]? = some line) :
    (module.texts linker)[position]? = some ((module.renamer linker).render line).text := by
  rw [texts_eq_map, List.getElem?_map, h, Option.map_some]

theorem routines_eq_foldr (module : Module) (linker : Linker) :
    module.routines linker =
      (module.lines.map fun line => ((module.renamer linker).render line).routines).foldr .union .empty := by
  rw [routines, map_emissions Rendition.routines]

theorem emit_eq_takeAll (medium : Medium m) (emission : Emission) :
    emit medium emission = takeAll medium emission.steps := by
  unfold emit takeAll Emission.steps
  cases emission.warning <;> simp [Step.take]

theorem forM_emit (medium : Medium m) (emissions : List Emission) :
    forM emissions (emit medium) = takeAll medium (emissions.flatMap Emission.steps) := by
  induction emissions with
  | nil => rfl
  | cons emission rest ih =>
      rw [List.forM_cons, ih, emit_eq_takeAll, List.flatMap_cons]
      exact List.forM_append.symm

theorem link_eq_perform (medium : Medium m) (linker : Linker) (module : Module) :
    module.link medium linker =
      (⟨module.steps linker, .ok (module.account linker)⟩ : Script ModuleSummary).perform medium := by
  rw [link, forM_emit]
  rfl

theorem textsOf_steps (module : Module) (linker : Linker) :
    textsOf (module.steps linker) = module.texts linker := by
  rw [textsOf, steps, List.flatMap_assoc, texts, List.map_eq_flatMap]
  congr 1
  funext emission
  simp [Emission.steps, Step.texts]

theorem routinesOf_steps (module : Module) (linker : Linker) :
    routinesOf (module.steps linker) = module.routines linker := by
  unfold steps routines
  induction module.emissions linker with
  | nil => rfl
  | cons emission rest ih =>
      rw [List.flatMap_cons, Step.routinesOf_append, ih, List.map_cons, List.foldr_cons]
      congr 1
      cases h : emission.warning <;> simp [Emission.steps, h, routinesOf, Step.routines]

/-- What linking a module by itself ends with: nothing is accounted for yet, and the output is empty
and takes everything. -/
def linkAlone (module : Module) (linker : Linker) : (Except Fault ModuleSummary × Progress) × Sink :=
  (module.link (Sink.medium fun _ => .error .notFound) linker).runOn {} {}

theorem linkAlone_eq (module : Module) (linker : Linker) :
    module.linkAlone linker =
      ((.ok (module.account linker), ({} : Progress).after (module.steps linker)),
        { written := Utf8.encode (Text.unlines (module.texts linker)) }) := by
  rw [linkAlone, link_eq_perform]
  refine (Script.perform_runOn_unlimited _ _ _ _).trans ?_
  rw [textsOf_steps, List.nil_append]

theorem routines_linkAlone (module : Module) (linker : Linker) :
    (module.linkAlone linker).1.2.routines = module.routines linker := by
  rw [linkAlone_eq]
  exact (RoutineSet.empty_union _).trans (module.routinesOf_steps linker)

end Module

/-! ### Files -/

/-- Whether a path names a file that can be read. -/
def Readable (files : Text → Except FileError Bytes) (path : Text) : Prop :=
  ∃ bytes, files path = .ok bytes

instance (files : Text → Except FileError Bytes) (path : Text) : Decidable (Readable files path) :=
  match h : files path with
  | .ok bytes => isTrue ⟨bytes, h⟩
  | .error _ => isFalse fun ⟨_, h'⟩ => by simp [h] at h'

/-- The module that a file holds, for a path and the number of the module. -/
def Module.ofFile (files : Text → Except FileError Bytes) (file : Text × Nat) : Module :=
  .ofText file.2 file.1 (Utf8.decodeLossy ((files file.1).toOption.getD []))

namespace Module

variable (files : Text → Except FileError Bytes) (linker : Linker)

def fileSteps (module : Module) : List Step :=
  .report (.reading module.path) :: (module.steps linker ++ [.flush])

def fileScript (file : Text × Nat) : Script ModuleSummary :=
  match files file.1 with
  | .ok _ => ⟨(ofFile files file).fileSteps linker, .ok ((ofFile files file).account linker)⟩
  | .error cause => ⟨[.report (.reading file.1)], .error (.moduleUnreadable file.1 cause)⟩

def filesScript : List (Text × Nat) → Script (List ModuleSummary)
  | [] => ⟨[], .ok []⟩
  | file :: rest =>
      (fileScript files linker file).bind fun summary =>
        (filesScript rest).bind fun others => ⟨[], .ok (summary :: others)⟩

variable {files linker}

theorem linkFile_eq_perform (file : Text × Nat) :
    Plan.linkFile (Sink.medium files) linker file =
      (fileScript files linker file).perform (Sink.medium files) := by
  rw [Plan.linkFile, fileScript, Link.attempt_readFile]
  cases hfile : files file.1 with
  | error cause => simp [Script.perform, takeAll, Step.take]
  | ok bytes =>
      have hmodule : ofFile files file = ofText file.2 file.1 (Utf8.decodeLossy bytes) := by
        simp [ofFile, hfile, Except.toOption]
      rw [hmodule]
      simp only [link_eq_perform, Script.perform, fileSteps, takeAll]
      simp [Step.take]
      rfl

theorem mapM_linkFile_eq_perform (order : List (Text × Nat)) :
    order.mapM (Plan.linkFile (Sink.medium files) linker) =
      (filesScript files linker order).perform (Sink.medium files) := by
  induction order with
  | nil => simp [filesScript, Script.perform, takeAll]
  | cons file rest ih =>
      rw [List.mapM_cons, ih, linkFile_eq_perform, filesScript, Script.perform_bind]
      congr 1
      funext summary
      rw [Script.perform_bind]
      simp [Script.perform, takeAll]

theorem textsOf_fileSteps (module : Module) :
    textsOf (module.fileSteps linker) = module.texts linker := by
  rw [← textsOf_steps]
  simp [fileSteps, textsOf, Step.texts]

theorem routinesOf_fileSteps (module : Module) :
    routinesOf (module.fileSteps linker) = module.routines linker := by
  rw [fileSteps, ← List.singleton_append, Step.routinesOf_append, Step.routinesOf_append,
    routinesOf_steps]
  exact (RoutineSet.empty_union _).trans (RoutineSet.union_empty _)

/-- The script of files that can all be read. -/
theorem filesScript_of_readable {order : List (Text × Nat)}
    (hread : ∀ file ∈ order, Readable files file.1) :
    filesScript files linker order =
      ⟨(order.map (ofFile files)).flatMap (·.fileSteps linker),
        .ok ((order.map (ofFile files)).map (·.account linker))⟩ := by
  induction order with
  | nil => rfl
  | cons file rest ih =>
      obtain ⟨⟨bytes, hfile⟩, hrest⟩ := List.forall_mem_cons.1 hread
      rw [filesScript, ih hrest, fileScript, hfile]
      simp [Script.bind]

theorem readable_of_filesScript {order : List (Text × Nat)} {summaries : List ModuleSummary}
    (h : (filesScript files linker order).result = .ok summaries) :
    ∀ file ∈ order, Readable files file.1 := by
  induction order generalizing summaries with
  | nil => simp
  | cons file rest ih =>
      rw [filesScript, fileScript] at h
      cases hfile : files file.1 with
      | error cause => simp [hfile, Script.bind] at h
      | ok bytes =>
          simp only [hfile, Script.bind] at h
          cases hrest : (filesScript files linker rest).result with
          | error fault => simp [hrest] at h
          | ok others => exact List.forall_mem_cons.2 ⟨⟨bytes, hfile⟩, ih hrest⟩

end Module

/-! ### Programs -/

namespace Plan

variable (plan : Plan) (files : Text → Except FileError Bytes) (table : RenameTable)

def entryModule : Module :=
  .ofFile files (plan.entry, 0)

/-- The routines that linking the entry module takes note of. -/
def used : RoutineSet :=
  ((plan.entryModule files).linkAlone (plan.linker table)).1.2.routines

/-- The files of a program that are linked, in order, each with the number of its module. -/
def order : List (Text × Nat) :=
  (plan.entry, 0) :: plan.linked (plan.used files table)

def modules : List Module :=
  (plan.order files table).map (Module.ofFile files)

def frontSteps : List Step :=
  (Boilerplate.preamble plan.target).map .line ++ [.flush]

def backSteps (used : RoutineSet) (modules : List ModuleSummary) : List Step :=
  (used.stubLines modules plan.target).map .line ++ [.flush]

def restScript (used : RoutineSet) (entry : ModuleSummary) : Script Assembly :=
  (Module.filesScript files (plan.linker table) (plan.linked used)).bind fun objects =>
    ⟨plan.backSteps used (entry :: objects), .ok { modules := entry :: objects, used }⟩

def script : Script Assembly :=
  (⟨plan.frontSteps, .ok ()⟩ : Script Unit).bind fun _ =>
    (Module.fileScript files (plan.linker table) (plan.entry, 0)).bind
      (plan.restScript files table (plan.used files table))

/-- What a successful run reports. -/
def report (assembly : Assembly) (progress : Progress) : Report where
  diagnostics := progress.diagnostics
  modules := assembly.modules
  skipped := plan.skipped assembly.used
  stubs := assembly.used.stubs assembly.modules
  routines := progress.routines
  outputLines := progress.lines

variable {plan files table}

theorem writeLines_eq_takeAll {m : Type → Type} [Monad m] [LawfulMonad m] (medium : Medium m)
    (lines : List Text) : Link.writeLines medium lines = takeAll medium (lines.map .line) := by
  rw [Link.writeLines, takeAll, List.forM_map]
  rfl

theorem perform_restScript (used : RoutineSet) (entry : ModuleSummary) :
    (plan.restScript files table used entry).perform (Sink.medium files) = do
      let objects ← (plan.linked used).mapM (linkFile (Sink.medium files) (plan.linker table))
      let modules := entry :: objects
      Link.writeLines (Sink.medium files) (used.stubLines modules plan.target)
      Link.flush (Sink.medium files)
      return { modules, used } := by
  rw [restScript, Script.perform_bind, Module.mapM_linkFile_eq_perform]
  congr 1
  funext objects
  simp [Script.perform, backSteps, takeAll, writeLines_eq_takeAll, Step.take]

theorem routinesOf_frontSteps : routinesOf plan.frontSteps = .empty := by
  rw [frontSteps, Step.routinesOf_append, Step.routinesOf_map_line]
  rfl

theorem routinesOf_backSteps (used : RoutineSet) (modules : List ModuleSummary) :
    routinesOf (plan.backSteps used modules) = .empty := by
  rw [backSteps, Step.routinesOf_append, Step.routinesOf_map_line]
  rfl

/-- What has been accounted for once the entry module is linked. -/
theorem routines_after_entry {entry : ModuleSummary}
    (h : (Module.fileScript files (plan.linker table) (plan.entry, 0)).result = .ok entry) :
    ((({} : Progress).after plan.frontSteps).after
      (Module.fileScript files (plan.linker table) (plan.entry, 0)).steps).routines =
      plan.used files table := by
  rw [Module.fileScript] at h ⊢
  cases hfile : files plan.entry with
  | error cause => simp [hfile] at h
  | ok bytes =>
      change (RoutineSet.empty.union (routinesOf plan.frontSteps)).union
        (routinesOf ((plan.entryModule files).fileSteps (plan.linker table))) = _
      rw [routinesOf_frontSteps, Module.routinesOf_fileSteps, RoutineSet.empty_union,
        RoutineSet.empty_union, used, Module.routines_linkAlone]

theorem assemble_runOn (sink : Sink) :
    (plan.assemble (Sink.medium files) table).runOn {} sink =
      ((plan.script files table).perform (Sink.medium files)).runOn {} sink := by
  have hassemble : plan.assemble (Sink.medium files) table =
      (⟨plan.frontSteps, .ok ()⟩ : Script Unit).perform (Sink.medium files) >>= fun _ =>
        (Module.fileScript files (plan.linker table) (plan.entry, 0)).perform (Sink.medium files) >>=
          fun entry => getThe Progress >>= fun progress =>
            (plan.restScript files table progress.routines entry).perform (Sink.medium files) := by
    simp only [perform_restScript]
    simp [assemble, Script.perform, frontSteps, takeAll, writeLines_eq_takeAll, Step.take,
      Module.linkFile_eq_perform]
  rw [hassemble, script, Script.perform_bind]
  apply Link.runOn_bind_congr
  intro _ progress sink hfront
  rw [(Script.of_perform_ok hfront).2.1, Script.perform_bind]
  apply Link.runOn_bind_congr
  intro entry progress sink hentry
  obtain ⟨hresult, rfl, -⟩ := Script.of_perform_ok hentry
  rw [Link.runOn_bind, Link.runOn_get]
  change ((plan.restScript files table _ entry).perform (Sink.medium files)).runOn _ _ = _
  rw [routines_after_entry hresult]

/-- Linking into a sink is performing the script of the program there. -/
theorem link_run (sink : Sink) :
    (plan.link (Sink.medium files) table).run sink =
      match ((plan.script files table).perform (Sink.medium files)).runOn {} sink with
      | ((.ok assembly, progress), sink) => (.ok (plan.report assembly progress), sink)
      | ((.error fault, progress), sink) =>
        (.error { fault, diagnostics := progress.diagnostics }, sink.flush.2) := by
  rw [← assemble_runOn, link, StateT.run_bind]
  unfold Link.runOn
  generalize ((plan.assemble (Sink.medium files) table).run.run {}).run sink = result
  rcases result with ⟨⟨_ | _, _⟩, _⟩ <;> rfl

theorem link_run_unlimited (written : Bytes) :
    (plan.link (Sink.medium files) table).run { written } =
      (match (plan.script files table).result with
        | .ok assembly =>
          .ok (plan.report assembly (({} : Progress).after (plan.script files table).steps))
        | .error fault =>
          .error { fault, diagnostics := notesOf (plan.script files table).steps },
        { written := written ++ Utf8.encode (Text.unlines (textsOf (plan.script files table).steps)) }) := by
  have hflush (bytes : Bytes) : ({ written := bytes } : Sink).flush.2 = { written := bytes } := rfl
  rw [link_run, Script.perform_runOn_unlimited]
  cases (plan.script files table).result with
  | ok assembly => rfl
  | error fault => simp [hflush, Progress.after]

/-- What a successful run reports and writes does not depend on its sink. -/
theorem of_link_ok {sink sink' : Sink} {report : Report}
    (h : (plan.link (Sink.medium files) table).run sink = (.ok report, sink')) :
    ∃ assembly, (plan.script files table).result = .ok assembly ∧
      report = plan.report assembly (({} : Progress).after (plan.script files table).steps) ∧
      sink'.written = sink.written ++
        Utf8.encode (Text.unlines (textsOf (plan.script files table).steps)) := by
  rw [link_run] at h
  rcases hrun : ((plan.script files table).perform (Sink.medium files)).runOn {} sink
    with ⟨⟨_ | assembly, progress⟩, sink''⟩
  · rw [hrun] at h
    cases h
  · rw [hrun] at h
    cases h
    obtain ⟨hresult, rfl, hwritten⟩ := Script.of_perform_ok hrun
    exact ⟨assembly, hresult, rfl, hwritten⟩

theorem script_of_readable (hread : ∀ file ∈ plan.order files table, Readable files file.1) :
    plan.script files table =
      let summaries := (plan.modules files table).map (·.account (plan.linker table))
      ⟨plan.frontSteps ++ ((plan.modules files table).flatMap (·.fileSteps (plan.linker table)) ++
          plan.backSteps (plan.used files table) summaries),
        .ok { modules := summaries, used := plan.used files table }⟩ := by
  obtain ⟨⟨bytes, hentry⟩, hobjects⟩ := List.forall_mem_cons.1 hread
  rw [script, Module.fileScript, hentry]
  simp [Script.bind, restScript, Module.filesScript_of_readable hobjects, modules, order]

theorem readable_of_script {assembly : Assembly}
    (h : (plan.script files table).result = .ok assembly) :
    ∀ file ∈ plan.order files table, Readable files file.1 := by
  rw [script, Module.fileScript] at h
  cases hentry : files plan.entry with
  | error cause => simp [hentry, Script.bind] at h
  | ok bytes =>
      simp only [hentry, Script.bind, restScript] at h
      cases hrest : (Module.filesScript files (plan.linker table)
          (plan.linked (plan.used files table))).result with
      | error fault => simp [hrest] at h
      | ok objects =>
          exact List.forall_mem_cons.2 ⟨⟨bytes, hentry⟩, Module.readable_of_filesScript hrest⟩

end Plan

end AsmLink
