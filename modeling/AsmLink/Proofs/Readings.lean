import AsmLink.Proofs.Ensures
import AsmLink.Proofs.Watching
import Mathlib.Data.List.Forall2

/-! What a run reads. Modules are read one by one while the program is written, so that a path may lead
to a file which the run itself has emptied. Main statement: what a run links is what the paths held when it
started, but for paths that lead to a file which it emptied or made for diagnostics or, where modules are
concerned, for the program (`run_reads`). -/

namespace AsmLink

open CommandLine

namespace Reading

/-- Whether a reading is what a tree holds. If both are errors, their causes may differ. -/
def Faithful (tree : FileTree) (reading : Reading) : Prop :=
  ∀ bytes, reading.content = .ok bytes ↔ tree.read reading.path = .ok bytes

/-- Whether a reading is what a tree holds unless its path leads to one of some places. -/
def FaithfulOff (tree : FileTree) (places : Location → Prop) (reading : Reading) : Prop :=
  (∀ place, places place → ¬ tree.LeadsTo reading.path place) → reading.Faithful tree

/-- Whether a module has the text that was read, and the path that it was read from. -/
def Holds (reading : Reading) (module : Module) : Prop :=
  ∃ bytes, reading.content = .ok bytes ∧
    module = .ofText module.id reading.path (Utf8.decodeLossy bytes)

theorem faithfulOff_read {tree other : FileTree} {places : Location → Prop}
    (h : tree.AgreeOff places other) (path : Text) :
    (⟨path, other.read path⟩ : Reading).FaithfulOff tree places :=
  fun hpath bytes => ((h.read hpath).ok_iff bytes).symm

theorem map_path_of_holds {readings : List Reading} {modules : List Module}
    (h : List.Forall₂ Holds readings modules) : modules.map (·.path) = readings.map (·.path) := by
  induction h with
  | nil => rfl
  | cons hholds _ ih =>
      obtain ⟨bytes, -, hmodule⟩ := hholds
      rw [List.map_cons, List.map_cons, ih, hmodule]
      rfl

end Reading

/-- Lines as they are written to a stream. -/
def writingsOf (stream : Stream) (lines : List Text) : List (Stream × Bytes) :=
  lines.map fun line => (stream, Utf8.encode line.terminated)

/-! ### Readings while a program is linked -/

/-- What is settled when a program begins to be written: the tree that there was at the start, the places
where it may differ by now, those of files that the program goes into, and the stream that leads there. -/
structure Course where
  start : FileTree
  places : Location → Prop
  outputs : Location → Prop
  stream : Stream

namespace Course

variable {course : Course} {world : World} {watched : Watched} {readings new : List Reading}
  {lines : List Text} {plan : Plan}

/-- Whether the tree is what it was at the start, but for the places where it may differ. The file behind
the stream, if there is one, is at one of those. -/
structure Within (course : Course) (world : World) : Prop where
  tree : course.start.AgreeOff course.places world.tree
  output : ∀ (index : Nat) (file : OpenFile) (content : Bytes), course.stream = .opened index →
    world.opened[index]? = some file →
    world.tree.node? file.place = some (.file content) → course.places file.place

theorem Within.write (h : course.Within world) (bytes : Bytes) :
    course.Within (world.write course.stream bytes).2 := by
  obtain ⟨htree, houtput⟩ := h
  cases hstream : course.stream with
  | stdout => exact ⟨htree, fun _ _ _ h => by cases hstream.symm.trans h⟩
  | stderr => exact ⟨htree, fun _ _ _ h => by cases hstream.symm.trans h⟩
  | opened index =>
      rw [World.write]
      cases hopened : world.opened[index]? with
      | none => exact ⟨htree, houtput⟩
      | some file =>
          dsimp only [World.writeFile]
          rcases hnode : world.tree.node? file.place with _ | _ | content | _ | _ | _ | _
          · exact ⟨htree, houtput⟩
          · exact ⟨htree, houtput⟩
          · have hplace : course.places file.place := houtput index file content hstream hopened hnode
            refine ⟨htree.put_right hplace Node.noConfusion, fun other file' _ hother hopened' _ => ?_⟩
            cases hstream.symm.trans hother
            rw [List.getElem?_set_self (List.getElem?_eq_some_iff.1 hopened).1] at hopened'
            cases hopened'
            exact hplace
          · exact ⟨htree, houtput⟩
          · exact ⟨htree, houtput⟩
          · exact ⟨htree, houtput⟩
          · exact ⟨htree, houtput⟩

/-- How it is while a program is written, when some lines of it have been and some readings were made. A
file that the program goes into holds the lines. -/
structure During (course : Course) (readings : List Reading) (lines : List Text) (watched : Watched) :
    Prop where
  world : course.Within watched.world
  readings : watched.readings = readings
  writings : watched.writings = writingsOf course.stream lines
  reaches : ∀ place, course.outputs place → watched.world.Reaches course.stream (some (.file place))
  content : ∀ place, course.outputs place → watched.world.tree.content place = bytesOfLines lines

/-- How it is once a line could not be written, so that there is no file that the program goes into. -/
def Stopped (course : Course) (readings : List Reading) (watched : Watched) : Prop :=
  watched.readings = readings ∧ ∀ place, ¬ course.outputs place

theorem medium_tracks (course : Course) (readings : List Reading) :
    (medium Watched.host course.stream).Tracks (course.During readings) (course.Stopped readings) where
  flush _ _ h := h
  write lines line watched h := by
    have hrun : ((medium Watched.host course.stream).write (Utf8.encode line.terminated)).run watched =
        (Watched.host.write course.stream (Utf8.encode line.terminated)).run watched := rfl
    rw [hrun, Watched.run_write]
    cases hresult : (watched.world.write course.stream (Utf8.encode line.terminated)).1 with
    | error cause =>
        refine ⟨h.readings, fun place hplace => ?_⟩
        rw [(h.reaches place hplace).write_file] at hresult
        cases hresult
    | ok =>
        refine ⟨h.world.write _, h.readings, ?_, fun place hplace => ?_, fun place hplace => ?_⟩
        · rw [h.writings, writingsOf, writingsOf, List.map_append]
          rfl
        · exact ((h.reaches place hplace).write _).2
        · have hgains := ((h.reaches place hplace).write (Utf8.encode line.terminated)).1
          rw [FileTree.content, hgains.file place rfl, h.content place hplace]
          simp [bytesOfLines, Text.unlines, Utf8.encode]

/-- Whether a reading is of a path when some lines have been written. It is what the path held at the start,
unless the path leads to where the tree may differ. If the path leads to where the program goes, the lines
are what is read. -/
structure Shows (course : Course) (path : Text) (lines : List Text) (reading : Reading) : Prop where
  path : reading.path = path
  faithful : reading.FaithfulOff course.start course.places
  output : ∀ place, course.outputs place → course.start.LeadsTo reading.path place →
    reading.content = .ok (bytesOfLines lines)

theorem During.shows (h : course.During readings lines watched) (path : Text) :
    course.Shows path lines ⟨path, watched.world.tree.read path⟩ where
  path := rfl
  faithful := Reading.faithfulOff_read h.world.tree path
  output place hplace hleads := by
    have hnode := (h.reaches place hplace).gains_nil.file place rfl
    rw [List.append_nil, h.content place hplace] at hnode
    exact FileTree.read_of_leadsTo ((h.world.tree.leadsTo_iff path place).1 hleads) hnode

theorem During.read (h : course.During readings lines watched) (path : Text) :
    course.During (readings ++ [⟨path, watched.world.tree.read path⟩]) lines { watched with
      readings := watched.readings ++ [⟨path, watched.world.tree.read path⟩] } :=
  ⟨h.world, congrArg (· ++ _) h.readings, h.writings, h.reaches, h.content⟩

/-- A module is linked with the text that is read for it, which is what its path holds by then. -/
theorem linkFile_ensures (course : Course) (readings : List Reading) (lines : List Text) (linker : Linker)
    (file : Text × Nat) :
    Link.Ensures (course.During readings lines)
      (Plan.linkFile (medium Watched.host course.stream) linker file)
      (fun summary watched => ∃ reading module,
        course.During (readings ++ [reading]) (lines ++ module.texts linker) watched ∧
          course.Shows file.1 lines reading ∧ reading.Holds module ∧ summary = module.account linker)
      (fun watched => ∃ reading : Reading,
        watched.readings = readings ++ [reading] ∧ course.Shows file.1 lines reading) := by
  refine .bind (.change _) fun _ => ?_
  refine .bind (M := fun (bytes : Bytes) (watched : Watched) =>
    course.During (readings ++ [⟨file.1, .ok bytes⟩]) lines watched ∧
      course.Shows file.1 lines ⟨file.1, .ok bytes⟩) (.attempt fun watched h => ?_) fun bytes => ?_
  · have hshows := h.shows file.1
    have hafter := h.read file.1
    have hrun : ((medium Watched.host course.stream).readFile file.1).run watched =
        (Watched.host.readFile file.1).run watched := rfl
    rw [hrun, Watched.run_readFile]
    cases hread : watched.world.tree.read file.1 with
    | error cause =>
        rw [hread] at hshows hafter
        exact ⟨_, hafter.readings, hshows⟩
    | ok bytes =>
        rw [hread] at hshows hafter
        exact ⟨hafter, hshows⟩
  · refine .of_and fun hshows => ?_
    have hstopped (watched : Watched) (h : course.Stopped (readings ++ [⟨file.1, .ok bytes⟩]) watched) :
        ∃ reading : Reading, watched.readings = readings ++ [reading] ∧ course.Shows file.1 lines reading :=
      ⟨_, h.1, hshows⟩
    let module := Module.ofText file.2 file.1 (Utf8.decodeLossy bytes)
    have htracks := course.medium_tracks (readings ++ [⟨file.1, .ok bytes⟩])
    refine ((htracks.link lines module linker).mono hstopped).bind fun summary => ?_
    refine .of_and fun hsummary => ?_
    refine ((htracks.flushed _).mono hstopped).bind fun _ => .pure fun watched h => ?_
    exact ⟨_, module, h, hshows, ⟨bytes, rfl, rfl⟩, hsummary⟩

/-- Modules are linked in order, each with the text that is read for it. -/
theorem mapM_linkFile_ensures (course : Course) (readings : List Reading) (lines : List Text)
    (linker : Linker) (files : List (Text × Nat)) :
    Link.Ensures (course.During readings lines)
      (files.mapM (Plan.linkFile (medium Watched.host course.stream) linker))
      (fun summaries watched => ∃ (new : List Reading) (modules : List Module),
        course.During (readings ++ new) (lines ++ modules.flatMap (·.texts linker)) watched ∧
          new.map (·.path) = files.map Prod.fst ∧
          (∀ reading ∈ new, reading.FaithfulOff course.start course.places) ∧
          List.Forall₂ Reading.Holds new modules ∧ summaries = modules.map (·.account linker))
      (fun watched => ∃ new : List Reading,
        watched.readings = readings ++ new ∧ new.map (·.path) <+: files.map Prod.fst ∧
          ∀ reading ∈ new, reading.FaithfulOff course.start course.places) := by
  induction files generalizing readings lines with
  | nil => exact .pure fun watched h => ⟨[], [], by simpa using h, rfl, by simp, .nil, rfl⟩
  | cons file rest ih =>
      rw [List.mapM_cons]
      refine ((course.linkFile_ensures readings lines linker file).mono ?_).bind
        fun summary => ?_
      · rintro watched ⟨reading, h, hshows⟩
        exact ⟨[reading], h, by simp [hshows.path], by simpa using hshows.faithful⟩
      · refine .of_exists fun reading => .of_exists fun module => ?_
        refine .of_and fun ⟨hshows, hholds, hsummary⟩ => ?_
        refine ((ih _ _).mono ?_).bind fun summaries => .pure ?_
        · rintro watched ⟨new, h, hpaths, hnew⟩
          exact ⟨reading :: new, by simpa using h, by simpa [hshows.path] using hpaths,
            List.forall_mem_cons.2 ⟨hshows.faithful, hnew⟩⟩
        · rintro watched ⟨new, modules, h, hpaths, hnew, hall, hsummaries⟩
          exact ⟨reading :: new, module :: modules, by simpa using h, by simp [hshows.path, hpaths],
            List.forall_mem_cons.2 ⟨hshows.faithful, hnew⟩, .cons hholds hall,
            by rw [hsummary, hsummaries, List.map_cons]⟩

/-- Whether readings are those of modules of a plan. If the path of the entry module leads to where the
program goes, the preamble is what is read for it. -/
structure ReadFor (course : Course) (plan : Plan) (new : List Reading) : Prop where
  modules : ∀ reading ∈ new, reading.path ∈ plan.paths ∧ reading.FaithfulOff course.start course.places
  entry : ∀ place, course.outputs place → course.start.LeadsTo plan.entry place →
    ∃ rest, new = ⟨plan.entry, .ok (bytesOfLines (Boilerplate.preamble plan.target))⟩ :: rest

theorem readFor_nil (h : ∀ place, ¬ course.outputs place) : course.ReadFor plan [] :=
  ⟨by simp, fun place hplace => absurd hplace (h place)⟩

/-- The reading of the entry module, made behind the preamble, and readings of runtime objects. -/
theorem readFor_cons {reading : Reading} (used : RoutineSet)
    (hshows : course.Shows plan.entry (Boilerplate.preamble plan.target) reading)
    (hpaths : new.map (·.path) <+: (plan.linked used).map Prod.fst)
    (hnew : ∀ other ∈ new, other.FaithfulOff course.start course.places) :
    course.ReadFor plan (reading :: new) := by
  obtain ⟨path, content⟩ := reading
  obtain ⟨rfl, hfaithful, houtput⟩ := hshows
  refine ⟨List.forall_mem_cons.2 ⟨⟨List.mem_cons_self .., hfaithful⟩, fun other hother => ?_⟩,
    fun place hplace hleads => ⟨new, ?_⟩⟩
  · obtain ⟨file, hfile, heq⟩ := List.mem_map.1 (hpaths.subset (List.mem_map_of_mem hother))
    exact ⟨heq ▸ Plan.mem_paths_of_mem_linked hfile, hnew other hother⟩
  · rw [show content = _ from houtput place hplace hleads]

theorem assemble_ensures (course : Course) (readings : List Reading) (plan : Plan) (table : RenameTable) :
    Link.Ensures (course.During readings [])
      (plan.assemble (medium Watched.host course.stream) table)
      (fun assembly watched => ∃ (new : List Reading) (modules : List Module),
        watched.readings = readings ++ new ∧
          writingsOf course.stream (Boilerplate.preamble plan.target ++
            modules.flatMap (·.texts (plan.linker table))) <+: watched.writings ∧
          course.ReadFor plan new ∧
          new.map (·.path) = plan.entry :: (plan.linked assembly.used).map Prod.fst ∧
          List.Forall₂ Reading.Holds new modules ∧
          assembly.modules = modules.map (·.account (plan.linker table)))
      (fun watched => ∃ new : List Reading,
        watched.readings = readings ++ new ∧ course.ReadFor plan new) := by
  have hnothing (watched : Watched) (h : course.Stopped readings watched) :
      ∃ new : List Reading, watched.readings = readings ++ new ∧ course.ReadFor plan new :=
    ⟨[], by rw [h.1, List.append_nil], readFor_nil h.2⟩
  have htracks := course.medium_tracks readings
  refine ((htracks.writeLines [] _).mono hnothing).bind fun _ => ?_
  refine ((htracks.flushed _).mono hnothing).bind fun _ => ?_
  rw [List.nil_append]
  refine ((course.linkFile_ensures readings _ _ (plan.entry, 0)).mono ?_).bind fun entry => ?_
  · rintro watched ⟨reading, h, hshows⟩
    exact ⟨[reading], h, readFor_cons .empty hshows List.nil_prefix (by simp)⟩
  refine .of_exists fun reading => .of_exists fun module => .of_and fun ⟨hshows, hholds, hentry⟩ => ?_
  refine Link.Ensures.get.bind fun progress => ?_
  -- which runtime objects come next depends on the routines seen by now, but not what is read from them
  refine ((course.mapM_linkFile_ensures _ _ _ _).mono ?_).bind fun objects => ?_
  · rintro watched ⟨new, h, hpaths, hnew⟩
    exact ⟨reading :: new, by simpa using h, readFor_cons _ hshows hpaths hnew⟩
  refine .of_exists fun new => .of_exists fun modules => .of_and fun ⟨hpaths, hnew, hall, hobjects⟩ => ?_
  have hread : course.ReadFor plan (reading :: new) :=
    readFor_cons progress.routines hshows ⟨[], by rw [hpaths, List.append_nil]⟩ hnew
  have hstopped (watched : Watched) (h : course.Stopped (readings ++ [reading] ++ new) watched) :
      ∃ new : List Reading, watched.readings = readings ++ new ∧ course.ReadFor plan new :=
    ⟨reading :: new, by simpa using h.1, hread⟩
  have htracks := course.medium_tracks (readings ++ [reading] ++ new)
  refine ((htracks.writeLines _ _).mono hstopped).bind fun _ => ?_
  refine ((htracks.flushed _).mono hstopped).bind fun _ => .pure fun watched h => ?_
  refine ⟨reading :: new, module :: modules, by simpa using h.readings, ?_, hread,
    by simp [hshows.path, hpaths], .cons hholds hall, by simp [hentry, hobjects]⟩
  rw [h.writings, List.flatMap_cons, ← List.append_assoc]
  exact (List.prefix_append _ _).map _

end Course

/-- The runtime objects that are linked are those that are not skipped. -/
theorem Plan.map_linked (plan : Plan) (used : RoutineSet) :
    (plan.linked used).map Prod.fst = plan.runtimeObjects.filter (· ∉ plan.skipped used) := by
  have hfst : (plan.runtimeObjects.zipIdx 1).map Prod.fst = plan.runtimeObjects := List.zipIdx_map_fst 1 _
  calc (plan.linked used).map Prod.fst
      = ((plan.runtimeObjects.zipIdx 1).map Prod.fst).filter used.callsFor := by
        rw [List.filter_map]
        rfl
    _ = plan.runtimeObjects.filter used.callsFor := by rw [hfst]
    _ = plan.runtimeObjects.filter (· ∉ plan.skipped used) := by
        refine List.filter_congr fun path hpath => ?_
        cases hcalls : used.callsFor path <;> simp [Plan.skipped, hpath, hcalls]

/-- Whether modules are what a program was linked from: they are the entry module and the runtime objects
that were not skipped, in order, they are accounted for, and their lines were written behind the preamble. -/
structure Plan.Linked (plan : Plan) (linker : Linker) (modules : List Module) (report : Report)
    (stream : Stream) (writings : List (Stream × Bytes)) : Prop where
  order : modules.map (·.path) = plan.entry :: plan.runtimeObjects.filter (· ∉ report.skipped)
  account : report.modules = modules.map (·.account linker)
  writings : writingsOf stream (Boilerplate.preamble plan.target ++ modules.flatMap (·.texts linker)) <+:
    writings

/-- What is read while a program is linked, and what it is linked from. -/
theorem Course.link_readings {course : Course} {readings : List Reading} {watched : Watched} {plan : Plan}
    (h : course.During readings [] watched) (table : RenameTable) :
    ∃ new : List Reading,
      ((plan.link (medium Watched.host course.stream) table).run watched).2.readings = readings ++ new ∧
      course.ReadFor plan new ∧
      ∀ report, ((plan.link (medium Watched.host course.stream) table).run watched).1 = .ok report →
        ∃ modules, List.Forall₂ Reading.Holds new modules ∧
          plan.Linked (plan.linker table) modules report course.stream
            ((plan.link (medium Watched.host course.stream) table).run watched).2.writings := by
  have hassemble := course.assemble_ensures readings plan table {} watched h
  rw [Plan.link, StateT.run_bind]
  generalize ((plan.assemble (medium Watched.host course.stream) table).run.run {}).run watched = ended
    at hassemble
  rcases ended with ⟨⟨fault | assembly, progress⟩, watched'⟩
  · obtain ⟨new, hreadings, hnew⟩ := hassemble
    exact ⟨new, hreadings, hnew, fun report h => by cases h⟩
  · obtain ⟨new, modules, hreadings, hwritings, hnew, hpaths, hall, hmodules⟩ := hassemble
    refine ⟨new, hreadings, hnew, fun report h => ?_⟩
    cases h
    refine ⟨modules, hall, ?_, hmodules, hwritings⟩
    rw [Reading.map_path_of_holds hall, hpaths, Plan.map_linked]

/-! ### Readings of a run -/

namespace CommandLine

/-- Whether opening the log empties or makes the file at a place. -/
def Log.Empties (tree : FileTree) (log : Log) (place : Location) : Prop :=
  ∃ path mode, log = .file path mode ∧ tree.locate path = .ok place ∧ tree.Empties place mode

/-- Whether the program goes into the file at a place, which is emptied or made for it. -/
def Settings.Produces (tree : FileTree) (settings : Settings) (place : Location) : Prop :=
  ∃ path ∈ settings.outfile, tree.locate path = .ok place ∧ tree.Empties place .truncate

/-- Whether a run empties or makes the file at a place, for diagnostics or for the program. -/
def Settings.Empties (tree : FileTree) (settings : Settings) (place : Location) : Prop :=
  settings.log.Empties tree place ∨ settings.Produces tree place

/-- What a run reads once the log is open: first the rename table, when only the log has been opened, then
modules, when the output has been opened too. Where the program goes into the file of the entry module, the
preamble is what is read for that. If linking succeeds, the program has been linked from the modules that
were read, by the table that was read. -/
structure Settings.Reads (settings : Settings) (plan : Plan) (start : FileTree)
    (outcome : Except Failure Report) (writings : List (Stream × Bytes)) (table : Reading)
    (modules : List Reading) : Prop where
  first : table.path = plan.table ∧ table.FaithfulOff start (settings.log.Empties start)
  each : ∀ reading ∈ modules, reading.path ∈ plan.paths ∧
    reading.FaithfulOff start (settings.Empties start)
  entry : ∀ bytes text, table.content = .ok bytes → Utf8.decode? bytes = some text →
    ∀ place, settings.Produces start place → start.LeadsTo plan.entry place →
      ∃ rest, modules = ⟨plan.entry, .ok (bytesOfLines (Boilerplate.preamble plan.target))⟩ :: rest
  linked : ∀ report, outcome = .ok report →
    ∃ bytes text, table.content = .ok bytes ∧ Utf8.decode? bytes = some text ∧
      ∃ linked stream, List.Forall₂ Reading.Holds modules linked ∧
        plan.Linked (plan.linker (.ofText text)) linked report stream writings

theorem Settings.Reads.mono {settings : Settings} {plan : Plan} {start : FileTree}
    {outcome : Except Failure Report} {writings more : List (Stream × Bytes)} {table : Reading}
    {modules : List Reading} (h : settings.Reads plan start outcome writings table modules)
    (hmore : writings <+: more) : settings.Reads plan start outcome more table modules where
  first := h.first
  each := h.each
  entry := h.entry
  linked report hreport := by
    obtain ⟨bytes, text, hbytes, htext, linked, stream, hall, hlinked⟩ := h.linked report hreport
    exact ⟨bytes, text, hbytes, htext, linked, stream, hall, hlinked.order, hlinked.account,
      hlinked.writings.trans hmore⟩

/-- How it is once the log is open: the tree is what it was but for a file that has been emptied or made,
and there are no devices that were not there. -/
structure Log.Begun (start : FileTree) (log : Log) (world : World) : Prop where
  tree : start.AgreeOff (log.Empties start) world.tree
  devices : ∀ place device, world.tree.node? place = some (.device device) →
    start.node? place = some (.device device)

theorem Log.begun_openLog {world : World} {log : Log} {stream? : Option Stream}
    (h : ((openLog World.host log).run world).1 = .ok stream?) :
    log.Begun world.tree ((openLog World.host log).run world).2 := by
  have hself : world.tree.AgreeOff (log.Empties world.tree) world.tree :=
    .refl fun place ⟨_, _, _, hlocate, _⟩ => FileTree.node?_of_locate hlocate
  cases log with
  | disabled => exact ⟨hself, fun _ _ h => h⟩
  | stderr => exact ⟨hself, fun _ _ h => h⟩
  | file path mode =>
      cases hlocate : world.tree.locate path with
      | error cause =>
          rw [openLog, StateT.run_bind, World.run_openFile, World.openFile_of_locate_error hlocate] at h
          cases h
      | ok place =>
          rw [openLog_run_file hlocate]
          refine ⟨hself.afterOpening fun hempties => ⟨path, mode, rfl, hlocate, hempties⟩, ?_⟩
          intro elsewhere device hnode
          by_cases hempties : world.tree.Empties place mode
          · dsimp only at hnode
            rw [FileTree.afterOpening_of_empties hempties] at hnode
            by_cases hne : elsewhere = place
            · rw [hne, FileTree.node?_put_self] at hnode
              cases hnode
            · rwa [FileTree.node?_put_of_ne _ _ hne] at hnode
          · dsimp only at hnode
            rwa [FileTree.afterOpening_of_not_empties hempties] at hnode

end CommandLine

namespace Watched

variable {start : FileTree} {world : World} {settings : Settings} {watched : Watched} {plan : Plan}

theorem directory_of_empties {place : Location} (h : settings.Empties start place) :
    start.node? place ≠ some .directory := by
  obtain ⟨_, _, _, hlocate, _⟩ | ⟨_, _, hlocate, _⟩ := h
  · exact FileTree.node?_of_locate hlocate
  · exact FileTree.node?_of_locate hlocate

/-- A file that is emptied once the log is open is one that the run empties. -/
theorem empties_of_begun {path : Text} {place : Location} (h : settings.log.Begun start world)
    (houtfile : settings.outfile = some path) (hlocate : start.locate path = .ok place)
    (hempties : world.tree.Empties place .truncate) : settings.Empties start place := by
  by_cases hlog : settings.log.Empties start place
  · exact .inl hlog
  · rw [FileTree.Empties, ← h.tree.node? place hlog] at hempties
    exact .inr ⟨path, houtfile, hlocate, hempties⟩

/-- The program goes into one file only, and that can be emptied once the log is open. -/
theorem empties_of_produces {path : Text} {place elsewhere : Location} (h : settings.log.Begun start world)
    (houtfile : settings.outfile = some path) (hlocate : start.locate path = .ok place)
    (hplace : settings.Produces start elsewhere) :
    elsewhere = place ∧ world.tree.Empties place .truncate := by
  obtain ⟨other, hother, hlocated, hdevice, -⟩ := hplace
  rw [houtfile] at hother
  cases hother
  rw [hlocate] at hlocated
  cases hlocated
  exact ⟨rfl, fun device hnode => hdevice device (h.devices place device hnode), by simp⟩

theorem openOutput_run_file {path : Text} {place : Location} (h : watched.world.tree.locate path = .ok place) :
    (openOutput host (some path)).run watched =
      (.ok (.opened watched.world.opened.length), { watched with world := { watched.world with
        tree := watched.world.tree.afterOpening place .truncate
        opened := watched.world.opened ++ [{ place, mode := .truncate }] } }) := by
  rw [openOutput_run, run_openFile, World.openFile_of_locate h]

/-- Once the output is open, the tree is what it was but for the files that the run empties, and the file
that the program goes into is empty. An output that is emptied or made can be opened. -/
theorem openOutput_cases (h : settings.log.Begun start watched.world) (hwritings : watched.writings = []) :
    (∃ fault after, (openOutput host settings.outfile).run watched = (.error fault, after) ∧
      after.readings = watched.readings ∧ ∀ place, ¬ settings.Produces start place) ∨
    ∃ stream after, (openOutput host settings.outfile).run watched = (.ok stream, after) ∧
      (Course.mk start (settings.Empties start) (settings.Produces start) stream).During watched.readings []
        after := by
  have hmore : start.AgreeOff (settings.Empties start) watched.world.tree :=
    h.tree.mono (fun _ => .inl) fun _ => directory_of_empties
  cases houtfile : settings.outfile with
  | none =>
      have hnowhere (place : Location) : ¬ settings.Produces start place := by
        rintro ⟨path, hpath, -⟩
        rw [houtfile] at hpath
        cases hpath
      exact .inr ⟨.stdout, watched, rfl, ⟨hmore, fun _ _ _ h => (nomatch h)⟩, rfl, hwritings,
        fun place hplace => absurd hplace (hnowhere place),
        fun place hplace => absurd hplace (hnowhere place)⟩
  | some path =>
      cases hlocate : watched.world.tree.locate path with
      | error cause =>
          refine .inl ⟨.outputNotCreated path cause, watched, ?_, rfl, ?_⟩
          · rw [openOutput_run, run_openFile, World.openFile_of_locate_error hlocate]
          · rintro place ⟨other, hother, hlocated, -⟩
            rw [houtfile] at hother
            cases hother
            cases hlocate.symm.trans (((h.tree.locate path).ok_iff place).1 hlocated)
      | ok place =>
          have hstart : start.locate path = .ok place := ((h.tree.locate path).ok_iff place).2 hlocate
          have hplace := empties_of_begun h houtfile hstart
          have houtput (elsewhere : Location) := @empties_of_produces _ _ _ _ _ elsewhere h houtfile hstart
          refine .inr ⟨_, _, openOutput_run_file hlocate, ⟨hmore.afterOpening hplace, ?_⟩, rfl, hwritings,
            fun elsewhere helsewhere => ?_, fun elsewhere helsewhere => ?_⟩
          -- if the output was not emptied it is a device, so that no file is behind the stream
          · rintro index file content ⟨⟩ hfile hnode
            rw [List.getElem?_concat_length] at hfile
            cases hfile
            by_cases hempties : watched.world.tree.Empties place .truncate
            · exact hplace hempties
            · dsimp only at hnode
              rw [FileTree.afterOpening_of_not_empties hempties] at hnode
              exact absurd ⟨by simp [hnode], by simp⟩ hempties
          · obtain ⟨rfl, hempties⟩ := houtput elsewhere helsewhere
            dsimp only
            rw [FileTree.afterOpening_of_empties hempties]
            exact @World.Reaches.file _ _ { place := elsewhere, mode := .truncate } []
              List.getElem?_concat_length (FileTree.node?_put_self ..) (.inr rfl)
          · obtain ⟨rfl, hempties⟩ := houtput elsewhere helsewhere
            dsimp only
            rw [FileTree.afterOpening_of_empties hempties, FileTree.content, FileTree.node?_put_self]
            rfl

/-- The rename table is read before all modules, and before the output is opened. -/
theorem linkTo_readings (h : settings.log.Begun start watched.world) (hwritings : watched.writings = []) :
    ∃ (table : Reading) (modules : List Reading),
      ((linkTo host plan settings.outfile).run watched).2.readings = watched.readings ++ table :: modules ∧
      settings.Reads plan start ((linkTo host plan settings.outfile).run watched).1
        ((linkTo host plan settings.outfile).run watched).2.writings table modules := by
  refine ⟨⟨plan.table, watched.world.tree.read plan.table⟩, ?_⟩
  have hfaithful := Reading.faithfulOff_read h.tree plan.table
  rw [linkTo_run, run_readFile]
  dsimp only
  cases htable : RenameTable.ofFile plan.table (watched.world.tree.read plan.table) with
  | error fault =>
      refine ⟨[], rfl, ⟨rfl, hfaithful⟩, by simp, fun bytes text hbytes htext => ?_,
        fun report h => by cases h⟩
      change watched.world.tree.read plan.table = .ok bytes at hbytes
      simp only [RenameTable.ofFile, hbytes, htext] at htable
      cases htable
  | ok table =>
      obtain ⟨bytes, text, hbytes, htext, rfl⟩ := RenameTable.of_ofFile_ok htable
      dsimp only
      rcases @openOutput_cases start settings { watched with
          readings := watched.readings ++ [⟨plan.table, watched.world.tree.read plan.table⟩] }
        h hwritings with ⟨fault, after, hrun, hrest, hnowhere⟩ | ⟨stream, after, hrun, hduring⟩
      · rw [hrun]
        exact ⟨[], hrest, ⟨rfl, hfaithful⟩, by simp,
          fun _ _ _ _ place hplace => absurd hplace (hnowhere place), fun report h => by cases h⟩
      · rw [hrun]
        obtain ⟨new, hreadings, hnew, hreport⟩ := @Course.link_readings _ _ _ plan hduring (.ofText text)
        refine ⟨new, ?_, ⟨rfl, hfaithful⟩, hnew.modules, fun _ _ _ _ => hnew.entry, fun report h => ?_⟩
        · rw [hreadings, List.append_assoc]
          rfl
        · obtain ⟨linked, hall, hlinked⟩ := hreport report h
          exact ⟨bytes, text, hbytes, htext, linked, stream, hall, hlinked⟩

/-- Diagnostics are written behind what has been written, without anything being read. -/
theorem record_emit (log : Option Stream) (lines : List Text) (watched : Watched) :
    ((emit host log lines).run watched).2.readings = watched.readings ∧
      watched.writings <+: ((emit host log lines).run watched).2.writings := by
  cases log with
  | none => exact ⟨rfl, List.prefix_rfl⟩
  | some stream =>
      induction lines generalizing watched with
      | nil => exact ⟨rfl, List.prefix_rfl⟩
      | cons line rest ih =>
          obtain ⟨hreadings, hwritings⟩ := ih ((print host stream line.terminated).run watched).2
          exact ⟨hreadings, (List.prefix_append _ _).trans hwritings⟩

theorem record_linkAndReport (log : Option Stream) (watched : Watched) :
    ((linkAndReport host settings plan log).run watched).2.readings =
        ((linkTo host plan settings.outfile).run watched).2.readings ∧
      ((linkTo host plan settings.outfile).run watched).2.writings <+:
        ((linkAndReport host settings plan log).run watched).2.writings := by
  rw [linkAndReport, StateT.run_bind]
  rcases (linkTo host plan settings.outfile).run watched with ⟨_ | _, after⟩ <;>
    exact record_emit log _ after

theorem record_openLog (log : Log) (watched : Watched) :
    ((openLog host log).run watched).2.readings = watched.readings ∧
      ((openLog host log).run watched).2.writings = watched.writings := by
  cases log with
  | disabled => exact ⟨rfl, rfl⟩
  | stderr => exact ⟨rfl, rfl⟩
  | file path mode =>
      rw [openLog, StateT.run_bind, run_openFile]
      rcases watched.world.openFile path mode with ⟨_ | _, _⟩ <;> exact ⟨rfl, rfl⟩

end Watched

/-- What a run reads once the log is open. -/
theorem execute_readings {world : World} {settings : Settings} {plan : Plan}
    (hprint : settings.printTarget = false) (hplan : settings.plan? = some plan) {stream? : Option Stream}
    (hopen : ((openLog World.host settings.log).run world).1 = .ok stream?) :
    ∃ (table : Reading) (modules : List Reading),
      ((execute Watched.host settings).run { world }).2.readings = table :: modules ∧
      settings.Reads plan world.tree (settings.linkLogged plan world).1
        ((execute Watched.host settings).run { world }).2.writings table modules := by
  obtain ⟨hresult, hworld⟩ := Watched.host_lockstep.openLog settings.log { world } world rfl
  have hrecord := Watched.record_openLog settings.log { world }
  have hbegun := Log.begun_openLog hopen
  have hlinked := (Watched.host_lockstep.linkTo plan settings.outfile
    ((openLog Watched.host settings.log).run { world }).2 _ rfl).1
  rw [Settings.execute_run Watched.host hprint hplan, Settings.linkLogged, ← hworld, ← hlinked]
  rw [← hworld] at hbegun
  rw [← hresult] at hopen
  generalize (openLog Watched.host settings.log).run { world } = opened at hrecord hbegun hopen
  obtain ⟨result, opened⟩ := opened
  cases hopen
  obtain ⟨hnothing, hwritings⟩ : opened.readings = [] ∧ opened.writings = [] := hrecord
  obtain ⟨table, modules, hreadings, hreads⟩ :=
    @Watched.linkTo_readings world.tree settings opened plan hbegun hwritings
  obtain ⟨hsame, hmore⟩ := @Watched.record_linkAndReport settings plan stream? opened
  refine ⟨table, modules, hsame.trans ?_, hreads.mono hmore⟩
  rw [hreadings, hnothing, List.nil_append]

/-- A run that is not asked to link, or whose arguments or settings are refused, reads nothing. -/
theorem run_reads_nothing {world : World} {invocation : Invocation}
    (h : ∀ arguments settings, invocation.Settles arguments settings → settings.printTarget = true) :
    ((run Watched.host invocation).run { world }).2.readings = [] := by
  rw [run]
  cases hparse : Arguments.parse invocation.arguments with
  | error stop => cases stop <;> rfl
  | ok arguments =>
      dsimp only
      cases hresolve : Settings.resolve arguments invocation.environment invocation.defaultTable with
      | error fault => rfl
      | ok settings =>
          dsimp only
          rw [execute, if_pos (h arguments settings ⟨hparse, hresolve⟩)]
          rfl

/-- A run links what the files held when it started, but for those that it has emptied or made itself. It
reads nothing if the log cannot be opened. A log that is appended to a file which exists empties nothing,
nor does one that goes to a device. -/
theorem run_reads {world : World} {invocation : Invocation} {arguments : Arguments} {settings : Settings}
    {plan : Plan} (h : invocation.Settles arguments settings) (hprint : settings.printTarget = false)
    (hplan : settings.plan? = some plan) :
    let watched := (run Watched.host invocation).run { world }
    let plain := (run World.host invocation).run world
    (watched.1 = plain.1 ∧ watched.2.world = plain.2) ∧
    (∀ cause, ((openLog World.host settings.log).run world).1 = .error cause → watched.2.readings = []) ∧
    ∀ stream?, ((openLog World.host settings.log).run world).1 = .ok stream? →
      ∃ (table : Reading) (modules : List Reading), watched.2.readings = table :: modules ∧
        settings.Reads plan world.tree (settings.linkLogged plan world).1 watched.2.writings table modules := by
  intro watched plain
  have hexecute : watched = (execute Watched.host settings).run { world } :=
    congrArg (fun x => StateT.run x _) (run_eq_execute Watched.host h)
  refine ⟨run_watched invocation { world }, fun cause hcause => ?_, fun stream? hopen => ?_⟩
  · have hnothing := (Watched.record_openLog settings.log { world }).1
    rw [← (Watched.host_lockstep.openLog settings.log { world } world rfl).1] at hcause
    rw [hexecute, Settings.execute_run Watched.host hprint hplan]
    generalize (openLog Watched.host settings.log).run { world } = opened at hnothing hcause
    obtain ⟨result, opened⟩ := opened
    cases hcause
    exact hnothing
  · rw [hexecute]
    exact execute_readings hprint hplan hopen

theorem run_reads_shelf :
    let watched := (run Watched.host (shelfInvocation [['-', 'E'], ['l'], ['-', 'o'], ['o']])).run
      { world := { tree := shelf } }
    ∃ table modules, watched.2.readings = table :: modules ∧ table.path = ['t'] ∧
      ∀ reading ∈ table :: modules, reading.Faithful shelf := by
  have hsettles : (shelfInvocation [['-', 'E'], ['l'], ['-', 'o'], ['o']]).Settles
      (shelfArguments [.setting .errorFile ['l'], .setting .outfile ['o']])
      (shelfSettings [.setting .errorFile ['l'], .setting .outfile ['o']]) := ⟨rfl, rfl⟩
  have hempties {place : Location}
      (h : (shelfSettings [.setting .errorFile ['l'], .setting .outfile ['o']]).Empties shelf place) :
      place = [['l']] ∨ place = [['o']] := by
    obtain ⟨path, mode, hlog, hlocate, -⟩ | ⟨path, hpath, hlocate, -⟩ := h
    · cases hlog
      exact .inl (Except.ok.inj hlocate).symm
    · cases hpath
      exact .inr (Except.ok.inj hlocate).symm
  have htable (place : Location)
      (h : (shelfSettings [.setting .errorFile ['l'], .setting .outfile ['o']]).Empties shelf place) :
      ¬ shelf.LeadsTo ['t'] place := by
    intro hleads
    have hplace : [['t']] = place := Except.ok.inj hleads
    rcases hempties h with rfl | rfl <;> exact absurd hplace (by decide)
  have hmodule (place : Location)
      (h : (shelfSettings [.setting .errorFile ['l'], .setting .outfile ['o']]).Empties shelf place) :
      ¬ shelf.LeadsTo ['m'] place := by
    intro hleads
    have hplace : [['m']] = place := Except.ok.inj hleads
    rcases hempties h with rfl | rfl <;> exact absurd hplace (by decide)
  obtain ⟨-, -, hread⟩ := @run_reads { tree := shelf } _ _ _ _ hsettles rfl rfl
  obtain ⟨table, modules, hreadings, ⟨⟨hpath, hfaithful⟩, hmodules, -, -⟩⟩ := hread _ rfl
  refine ⟨table, modules, hreadings, hpath,
    List.forall_mem_cons.2 ⟨hfaithful ?_, fun reading hreading => ?_⟩⟩
  · intro place hplace
    rw [hpath]
    exact htable place (.inl hplace)
  · obtain ⟨hpath, hfaithful⟩ := hmodules reading hreading
    refine hfaithful fun place hplace => ?_
    rw [List.eq_of_mem_singleton hpath]
    exact hmodule place hplace

theorem Reading.toOption_of_faithful {tree : FileTree} {reading : Reading} (h : reading.Faithful tree) :
    reading.content.toOption = (tree.read reading.path).toOption := by
  cases hcontent : reading.content with
  | ok bytes => rw [(h bytes).1 hcontent]
  | error cause =>
      cases hread : tree.read reading.path with
      | ok bytes => cases hcontent.symm.trans ((h bytes).2 hread)
      | error => rfl

/-- What is read in a run for what is on the shelf, with some options in front. -/
def shelfReadings (options : List Text) : List Reading :=
  ((run Watched.host (shelfInvocation options)).run { world := { tree := shelf } }).2.readings

/-- Where diagnostics go into the entry module it is read empty, and where the program does, the preamble is
read. -/
theorem run_reads_emptied :
    (¬ ∀ reading ∈ shelfReadings [['-', 'q'], ['-', 'E'], ['m']], reading.Faithful shelf) ∧
      ¬ ∀ reading ∈ shelfReadings [['-', 'o'], ['m']], reading.Faithful shelf := by
  constructor
  · intro h
    have hsame := List.map_congr_left fun reading hreading => Reading.toOption_of_faithful (h reading hreading)
    exact absurd hsame (by decide +kernel)
  · intro h
    have hsettles : (shelfInvocation [['-', 'o'], ['m']]).Settles (shelfArguments [.setting .outfile ['m']])
        (shelfSettings [.setting .outfile ['m']]) := ⟨rfl, rfl⟩
    obtain ⟨table, modules, hreadings, ⟨hpath, -⟩, -, hentry, -⟩ :=
      @execute_readings { tree := shelf } (shelfSettings [.setting .outfile ['m']]) _ rfl rfl _ rfl
    rw [shelfReadings, run_eq_execute Watched.host hsettles, hreadings, List.forall_mem_cons] at h
    have hlocate : shelf.locate ['m'] = .ok [['m']] := rfl
    have hfile : shelf.node? [['m']] = some (.file (Utf8.encode "main: nop\n".toList)) := rfl
    have hproduces : (shelfSettings [.setting .outfile ['m']]).Produces shelf [['m']] := by
      refine ⟨['m'], rfl, hlocate, fun device hdevice => ?_, fun happend => (nomatch happend)⟩
      rw [hfile] at hdevice
      cases hdevice
    have hleads : shelf.LeadsTo ['m'] [['m']] := rfl
    have htable : table.content = .ok [] := (h.1 []).2 (by rw [hpath]; rfl)
    obtain ⟨rest, rfl⟩ := hentry [] [] htable rfl _ hproduces hleads
    have hread := (h.2 _ (List.mem_cons_self ..) _).1 rfl
    have hbytes := Except.ok.inj ((FileTree.read_of_leadsTo hleads hfile).symm.trans hread)
    exact absurd (congrArg List.head? hbytes) (by decide +kernel)

end AsmLink
