import AsmLink.Proofs.Layout
import Mathlib.Data.List.Perm.Basic

/-! Which runtime objects become part of a program. Main statement: the entry module alone decides,
by the tokens of its instructions, and what it leaves out has no effect on anything
(`Plan.link_gated_by_entry`). -/

namespace AsmLink

/-! ### References -/

/-- The tokens of an instruction. Lines of any other class have none. -/
def Line.tokens : Line → List Text
  | instruction text => Token.tokenize text
  | _ => []

namespace Module

/-- Whether an instruction of a module has the symbol for one of its tokens. -/
def RefersTo (module : Module) (symbol : Text) : Prop :=
  ∃ line ∈ module.lines, symbol ∈ (Line.classify line).tokens

instance (module : Module) (symbol : Text) : Decidable (module.RefersTo symbol) :=
  inferInstanceAs (Decidable (∃ line ∈ module.lines, _))

/-- Whether an entry module leaves a runtime object out: the file is named for a routine that no
instruction of the module refers to. -/
def LeavesOut (entry : Module) (path : Text) : Prop :=
  ∃ routine : Routine,
    (Path.fileName? path).map Path.stem = some routine.symbol ∧ ¬ entry.RefersTo routine.symbol

instance (entry : Module) (path : Text) : Decidable (entry.LeavesOut path) :=
  decidable_of_iff (∃ routine ∈ Routine.all,
      (Path.fileName? path).map Path.stem = some routine.symbol ∧ ¬ entry.RefersTo routine.symbol)
    ⟨fun ⟨routine, _, h⟩ => ⟨routine, h⟩,
      fun ⟨routine, h⟩ => ⟨routine, by cases routine <;> decide, h⟩⟩

end Module

namespace RoutineSet

theorem contains_foldr_union (sets : List RoutineSet) (routine : Routine) :
    (sets.foldr union empty).contains routine = sets.any (·.contains routine) := by
  induction sets with
  | nil => exact contains_empty routine
  | cons set rest ih => rw [List.foldr_cons, contains_union, ih, List.any_cons]

end RoutineSet

theorem Renamer.routines_render (renamer : Renamer) (line : Text) :
    (renamer.render line).routines = .ofTokens (Line.classify line).tokens := by
  unfold render
  cases Line.classify line with
  | instruction text =>
      dsimp only [Line.tokens]
      unfold line?
      cases Token.tokenize text <;> rfl
  | verbatim text | quoted text | suppressed text | label text | malformed text fault => rfl

namespace Module

theorem contains_routines {module : Module} {linker : Linker} {routine : Routine} :
    (module.routines linker).contains routine = true ↔ module.RefersTo routine.symbol := by
  rw [routines_eq_foldr, RoutineSet.contains_foldr_union, List.any_map, List.any_eq_true]
  simp only [Function.comp_apply, Renamer.routines_render, RoutineSet.contains_ofTokens,
    List.contains_iff_mem]
  rfl

end Module

theorem Routine.ofPath?_eq_some_iff {path : Text} {routine : Routine} :
    ofPath? path = some routine ↔ (Path.fileName? path).map Path.stem = some routine.symbol := by
  rw [ofPath?]
  cases Path.fileName? path with
  | none => simp
  | some name =>
      simp only [Option.bind_some, Option.map_some, ofSymbol?_eq_some_iff, Option.some.injEq]
      exact eq_comm

/-- The paths and numbers of the modules that a report is about. -/
def Report.places (report : Report) : List (Text × Nat) :=
  report.modules.map fun summary => (summary.path, summary.id)

namespace Plan

variable {plan : Plan} {table : RenameTable} {files files' : Text → Except FileError Bytes}

theorem contains_used {routine : Routine} :
    (plan.used files table).contains routine = true ↔
      (plan.entryModule files).RefersTo routine.symbol := by
  rw [used, Module.routines_linkAlone, Module.contains_routines]

theorem callsFor_used {path : Text} :
    (plan.used files table).callsFor path = !decide ((plan.entryModule files).LeavesOut path) := by
  rw [Bool.eq_iff_iff, Bool.not_eq_true', decide_eq_false_iff_not, RoutineSet.callsFor]
  cases hpath : Routine.ofPath? path with
  | none =>
      refine iff_of_true rfl ?_
      rintro ⟨routine, hname, -⟩
      rw [← Routine.ofPath?_eq_some_iff, hpath] at hname
      cases hname
  | some routine =>
      have hname := Routine.ofPath?_eq_some_iff.1 hpath
      dsimp only
      rw [contains_used]
      constructor
      · rintro hrefers ⟨other, hother, hnot⟩
        rw [← Routine.ofPath?_eq_some_iff, hpath] at hother
        cases hother
        exact hnot hrefers
      · intro h
        by_contra hnot
        exact h ⟨routine, hname, hnot⟩

theorem linked_used :
    plan.linked (plan.used files table) =
      (plan.runtimeObjects.zipIdx 1).filter fun object =>
        ¬ (plan.entryModule files).LeavesOut object.1 := by
  rw [linked]
  refine List.filter_congr fun object _ => ?_
  rw [callsFor_used, decide_not]

theorem skipped_used :
    plan.skipped (plan.used files table) =
      plan.runtimeObjects.filter fun path => (plan.entryModule files).LeavesOut path := by
  rw [skipped]
  refine List.filter_congr fun path _ => ?_
  rw [callsFor_used, Bool.not_not]

/-- The summaries carry the files they are about. -/
theorem map_account_modules :
    ((plan.modules files table).map (·.account (plan.linker table))).map
      (fun summary => (summary.path, summary.id)) = plan.order files table := by
  rw [modules, List.map_map, List.map_map]
  exact List.map_id _

theorem contains_routines_script (hread : ∀ file ∈ plan.order files table, Readable files file.1)
    {routine : Routine} :
    (routinesOf (plan.script files table).steps).contains routine = true ↔
      ∃ module ∈ plan.modules files table, module.RefersTo routine.symbol := by
  have hmodules (modules : List Module) :
      (routinesOf (modules.flatMap (·.fileSteps (plan.linker table)))).contains routine =
        modules.any fun module => (module.routines (plan.linker table)).contains routine := by
    induction modules with
    | nil => exact RoutineSet.contains_empty routine
    | cons module rest ih =>
        rw [List.flatMap_cons, Step.routinesOf_append, RoutineSet.contains_union, ih,
          Module.routinesOf_fileSteps, List.any_cons]
  rw [script_of_readable hread]
  dsimp only
  rw [Step.routinesOf_append, Step.routinesOf_append, routinesOf_frontSteps, routinesOf_backSteps,
    RoutineSet.empty_union, RoutineSet.union_empty, hmodules, List.any_eq_true]
  simp only [Module.contains_routines]

/-! ### What the other files hold -/

theorem entryModule_congr (h : files' plan.entry = files plan.entry) :
    plan.entryModule files' = plan.entryModule files := by
  rw [entryModule, entryModule, Module.ofFile, Module.ofFile, h]

theorem order_congr (h : files' plan.entry = files plan.entry) :
    plan.order files' table = plan.order files table := by
  rw [order, order, used, used, entryModule_congr h]

theorem fileScript_congr {linker : Linker} {file : Text × Nat} (h : files' file.1 = files file.1) :
    Module.fileScript files' linker file = Module.fileScript files linker file := by
  rw [Module.fileScript, Module.fileScript, Module.ofFile, Module.ofFile, h]

/-- The script depends on nothing but the files that are linked. -/
theorem script_congr (h : ∀ file ∈ plan.order files table, files' file.1 = files file.1) :
    plan.script files' table = plan.script files table := by
  obtain ⟨hentry, hobjects⟩ := List.forall_mem_cons.1 h
  have hfiles (order : List (Text × Nat)) (h : ∀ file ∈ order, files' file.1 = files file.1) :
      Module.filesScript files' (plan.linker table) order =
        Module.filesScript files (plan.linker table) order := by
    induction order with
    | nil => rfl
    | cons file rest ih =>
        obtain ⟨hfile, hrest⟩ := List.forall_mem_cons.1 h
        rw [Module.filesScript, Module.filesScript, fileScript_congr hfile, ih hrest]
  have hused : plan.used files' table = plan.used files table := by
    rw [used, used, entryModule_congr hentry]
  have hrest (entry : ModuleSummary) :
      plan.restScript files' table (plan.used files table) entry =
        plan.restScript files table (plan.used files table) entry := by
    rw [restScript, restScript, hfiles _ hobjects]
  rw [script, script, fileScript_congr hentry, hused, funext hrest]

theorem link_congr (h : ∀ file ∈ plan.order files table, files' file.1 = files file.1) (sink : Sink) :
    (plan.link (Sink.medium files') table).run sink =
      (plan.link (Sink.medium files) table).run sink := by
  have htake : Step.take (Sink.medium files') = Step.take (Sink.medium files) := by
    funext step
    cases step <;> rfl
  rw [link_run, link_run, script_congr h, Script.perform, Script.perform, takeAll, takeAll, htake]

theorem places_of_link_ok {sink sink' : Sink} {report : Report}
    (h : (plan.link (Sink.medium files) table).run sink = (.ok report, sink')) :
    report.places = plan.order files table := by
  rw [(report_of_link_ok h).2.1]
  exact map_account_modules

theorem skipped_of_link_ok {sink sink' : Sink} {report : Report}
    (h : (plan.link (Sink.medium files) table).run sink = (.ok report, sink')) :
    report.skipped = plan.skipped (plan.used files table) := by
  rw [(report_of_link_ok h).2.1]
  rfl

/-- The runtime objects that are linked and those that are not make up all of them. -/
theorem linked_append_skipped_perm (used : RoutineSet) :
    ((plan.linked used).map Prod.fst ++ plan.skipped used).Perm plan.runtimeObjects := by
  have hlinked : (plan.linked used).map Prod.fst = plan.runtimeObjects.filter used.callsFor := by
    rw [← List.zipIdx_map_fst 1 plan.runtimeObjects, List.filter_map, linked]
    rfl
  rw [hlinked, skipped]
  exact List.filter_append_perm _ _

theorem contains_routines_of_link_ok {sink sink' : Sink} {report : Report}
    (h : (plan.link (Sink.medium files) table).run sink = (.ok report, sink')) {routine : Routine} :
    report.routines.contains routine = true ↔
      ∃ file ∈ report.places, (Module.ofFile files file).RefersTo routine.symbol := by
  obtain ⟨hread, hreport, -⟩ := report_of_link_ok h
  rw [places_of_link_ok h, hreport]
  change (RoutineSet.empty.union (routinesOf _)).contains routine = true ↔ _
  rw [RoutineSet.empty_union, contains_routines_script hread, modules]
  simp only [List.mem_map, exists_exists_and_eq_and]

/-- The entry module alone decides which runtime objects are linked; the others have no effect on
anything; and the routines of a run are those that instructions of its modules refer to. -/
theorem link_gated_by_entry {sink sink' : Sink} {report : Report}
    (h : (plan.link (Sink.medium files) table).run sink = (.ok report, sink')) :
    let entry := plan.entryModule files
    Readable files plan.entry ∧
    report.places = (plan.entry, 0) ::
      (plan.runtimeObjects.zipIdx 1).filter (fun object => ¬ entry.LeavesOut object.1) ∧
    report.skipped = plan.runtimeObjects.filter (fun path => entry.LeavesOut path) ∧
    (report.modules.tail.map (·.path) ++ report.skipped).Perm plan.runtimeObjects ∧
    (∀ routine, report.routines.contains routine = true ↔
      ∃ file ∈ report.places, (Module.ofFile files file).RefersTo routine.symbol) ∧
    (∀ files', files' plan.entry = files plan.entry →
      (∀ summary ∈ report.modules, Readable files' summary.path) →
      ∃ report' written, (plan.link (Sink.medium files') table).run {} = (.ok report', { written })) ∧
    (∀ files', files' plan.entry = files plan.entry → ∀ start report' finish,
      (plan.link (Sink.medium files') table).run start = (.ok report', finish) →
      report'.places = report.places ∧ report'.skipped = report.skipped) ∧
    (∀ files', (∀ summary ∈ report.modules, files' summary.path = files summary.path) →
      ∀ start, (plan.link (Sink.medium files') table).run start =
        (plan.link (Sink.medium files) table).run start) := by
  intro entry
  obtain ⟨hread, hreport, -⟩ := report_of_link_ok h
  have hplaces := places_of_link_ok h
  have hskipped := skipped_of_link_ok h
  -- what holds of all summaries holds of all files in order
  have hsummaries (p : Text → Prop) (hp : ∀ summary ∈ report.modules, p summary.path) :
      ∀ file ∈ plan.order files table, p file.1 := by
    intro file hfile
    rw [← hplaces] at hfile
    obtain ⟨summary, hsummary, rfl⟩ := List.mem_map.1 hfile
    exact hp summary hsummary
  refine ⟨hread _ (List.mem_cons_self ..), ?_, ?_, ?_, fun routine => contains_routines_of_link_ok h,
    ?_, ?_, ?_⟩
  · rw [hplaces, order, linked_used]
  · rw [hskipped, skipped_used]
  · have htail : report.modules.tail.map (·.path) =
        (plan.linked (plan.used files table)).map Prod.fst := by
      have := congrArg (fun places => (places.map Prod.fst).tail) hplaces
      rwa [Report.places, List.map_map, ← List.map_tail] at this
    rw [htail, hskipped]
    exact linked_append_skipped_perm _
  · intro files' hentry hreadable
    have hread := hsummaries (Readable files') hreadable
    rw [← order_congr hentry] at hread
    obtain ⟨report', hrun, -⟩ := report_of_readable hread
    exact ⟨report', _, hrun⟩
  · intro files' hentry start report' finish h'
    rw [places_of_link_ok h', skipped_of_link_ok h', order_congr hentry, hplaces, hskipped, used, used,
      entryModule_congr hentry]
    exact ⟨rfl, rfl⟩
  · intro files' hagree
    exact link_congr (hsummaries (fun path => files' path = files path) hagree)

theorem link_gated_by_entry_sample :
    ∃ report sink', (sample.link (Sink.medium sampleFiles) ⟨[]⟩).run {} = (.ok report, sink') ∧
      report.places = [("main.s".toList, 0), ("memset.s".toList, 2)] ∧
      report.skipped = ["memcpy.s".toList] := by
  obtain ⟨report, hrun, -⟩ := report_of_readable readable_sample
  obtain ⟨-, hplaces, hskipped, -⟩ := link_gated_by_entry hrun
  refine ⟨report, _, hrun, ?_, ?_⟩
  · rw [hplaces]
    decide +kernel
  · rw [hskipped]
    decide +kernel

end Plan

end AsmLink
