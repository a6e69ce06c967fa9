import AsmLink.Proofs.Beside
import AsmLink.Proofs.Precedence

/-! What diagnostics are allowed to change. A log takes lines and leaves all else alone. Main statement:
two runs whose command lines and environments differ in nothing but how diagnostics are reported end with
the same status and leave the same files but for the logs, have printed the same but for their own
diagnostics behind it, and report a fault last if they report at all (`run_of_same_program`). -/

namespace AsmLink

open CommandLine

/-! ### What a log takes -/

/-- Lines as bytes. -/
def bytesOfLines (lines : List Text) : Bytes :=
  Utf8.encode (Text.unlines lines)

theorem bytesOfLines_cons (line : Text) (rest : List Text) :
    bytesOfLines (line :: rest) = Utf8.encode line.terminated ++ bytesOfLines rest := by
  rw [bytesOfLines, Text.unlines, List.flatMap_cons, Utf8.encode_append]
  rfl

/-- Where diagnostics end up: behind what is printed, or in a file. -/
inductive Outlet
  | stdout
  | stderr
  | file (place : Location)
  deriving DecidableEq

/-- Where what is written to a device ends up, unless it is lost. -/
def Device.outlet? : Device → Option Outlet
  | stdout => some .stdout
  | stderr => some .stderr
  | null | full => none

/-- Where what is written to a place ends up, unless it is lost. -/
def FileTree.outlet? (tree : FileTree) (place : Location) : Option Outlet :=
  match tree.node? place with
  | some (.device device) => device.outlet?
  | _ => some (.file place)

theorem FileTree.outlet?_of_no_device {tree : FileTree} {place : Location}
    (h : ∀ device, tree.node? place ≠ some (.device device)) : tree.outlet? place = some (.file place) := by
  rw [outlet?]
  rcases hnode : tree.node? place with _ | _ | content | device
  · rfl
  · rfl
  · rfl
  · exact absurd hnode (h device)

/-- What the file at a place holds. Where there is no file, that is nothing. -/
def FileTree.content (tree : FileTree) (place : Location) : Bytes :=
  match tree.node? place with
  | some (.file content) => content
  | _ => []

namespace World

/-- Whether a world differs from an earlier one in some bytes at an outlet and in nothing else. -/
structure Gains (outlet : Option Outlet) (bytes : Bytes) (before after : World) : Prop where
  stdout : after.stdout = before.stdout ++ if outlet = some .stdout then bytes else []
  stderr : after.stderr = before.stderr ++ if outlet = some .stderr then bytes else []
  elsewhere : ∀ place, outlet ≠ some (.file place) →
    after.tree.node? place = before.tree.node? place
  file : ∀ place, outlet = some (.file place) →
    after.tree.node? place = some (.file (before.tree.content place ++ bytes))

variable {world before between after : World} {outlet : Option Outlet} {bytes rest : Bytes}

theorem Gains.trans (h : Gains outlet bytes before between) (h' : Gains outlet rest between after) :
    Gains outlet (bytes ++ rest) before after where
  stdout := by
    rw [h'.stdout, h.stdout, List.append_assoc]
    split <;> rfl
  stderr := by
    rw [h'.stderr, h.stderr, List.append_assoc]
    split <;> rfl
  elsewhere place hplace := (h'.elsewhere place hplace).trans (h.elsewhere place hplace)
  file place hplace := by
    rw [h'.file place hplace, FileTree.content, h.file place hplace, List.append_assoc]

theorem Gains.printed_stderr (world : World) (bytes : Bytes) :
    Gains (some .stderr) bytes world { world with stderr := world.stderr ++ bytes } :=
  ⟨by simp, by simp, fun _ _ => rfl, fun _ h => by cases h⟩

theorem Gains.printed_stdout (world : World) (bytes : Bytes) :
    Gains (some .stdout) bytes world { world with stdout := world.stdout ++ bytes } :=
  ⟨by simp, by simp, fun _ _ => rfl, fun _ h => by cases h⟩

theorem Gains.lost (world : World) (bytes : Bytes) : Gains none bytes world world :=
  ⟨by simp, by simp, fun _ _ => rfl, fun _ h => by cases h⟩

/-- Whether a stream leads to an outlet: to the end of what is there. -/
inductive Reaches (world : World) : Stream → Option Outlet → Prop
  | stderr : Reaches world .stderr (some .stderr)
  | device {index : Nat} {file : OpenFile} {device : Device}
      (hopened : world.opened[index]? = some file)
      (hnode : world.tree.node? file.place = some (.device device)) :
      Reaches world (.opened index) device.outlet?
  | file {index : Nat} {file : OpenFile} {content : Bytes}
      (hopened : world.opened[index]? = some file)
      (hnode : world.tree.node? file.place = some (.file content))
      (hend : file.mode = .append ∨ file.offset = content.length) :
      Reaches world (.opened index) (some (.file file.place))

/-- What is written to a stream arrives at its outlet, and the stream still leads there. -/
theorem Reaches.write {stream : Stream} (h : world.Reaches stream outlet) (bytes : Bytes) :
    Gains outlet bytes world (world.write stream bytes).2 ∧
      (world.write stream bytes).2.Reaches stream outlet := by
  cases h with
  | stderr => exact ⟨.printed_stderr world bytes, .stderr⟩
  | @device index file device hopened hnode =>
      simp only [World.write, hopened, World.writeFile, hnode]
      have hreaches : world.Reaches (.opened index) device.outlet? := .device hopened hnode
      cases device with
      | null => exact ⟨.lost world bytes, hreaches⟩
      | full => exact ⟨.lost world bytes, hreaches⟩
      | stdout => exact ⟨.printed_stdout world bytes, .device hopened hnode⟩
      | stderr => exact ⟨.printed_stderr world bytes, .device hopened hnode⟩
  | @file index file content hopened hnode hend =>
      have hoffset : (if file.mode = .append then content.length else file.offset) = content.length := by
        rcases hend with hmode | hend
        · rw [if_pos hmode]
        · rw [hend, ite_self]
      have hcontent : content.overwrite content.length bytes = content ++ bytes := by
        simp [Bytes.overwrite]
      simp only [World.write, hopened, World.writeFile, hnode, hoffset, hcontent]
      refine ⟨⟨by simp, by simp, fun place hplace => ?_, fun place hplace => ?_⟩, ?_⟩
      · exact FileTree.node?_put_of_ne _ _ fun heq => hplace (by rw [heq])
      · cases hplace
        rw [FileTree.node?_put_self, FileTree.content, hnode]
      · exact @Reaches.file _ index { file with offset := content.length + bytes.length } _
          (List.getElem?_set_self (List.getElem?_eq_some_iff.1 hopened).1)
          (FileTree.node?_put_self ..) (.inr List.length_append.symm)

/-- A file takes everything. -/
theorem Reaches.write_file {stream : Stream} {place : Location}
    (h : world.Reaches stream (some (.file place))) (bytes : Bytes) :
    (world.write stream bytes).1 = .ok () := by
  generalize houtlet : some (Outlet.file place) = outlet at h
  cases h with
  | stderr => cases houtlet
  | @device _ _ device => cases device <;> cases houtlet
  | file hopened hnode => simp only [World.write, hopened, World.writeFile, hnode]

theorem Reaches.gains_nil {stream : Stream} (h : world.Reaches stream outlet) :
    Gains outlet [] world world := by
  refine ⟨by simp, by simp, fun _ _ => rfl, fun place hplace => ?_⟩
  cases h with
  | stderr => cases hplace
  | @device _ _ device => cases device <;> cases hplace
  | file _ hnode =>
      cases hplace
      rw [FileTree.content, hnode, List.append_nil]

/-- Lines that are emitted arrive at the outlet of the log, one after the other. -/
theorem Reaches.emit {stream : Stream} (h : world.Reaches stream outlet) (lines : List Text) :
    Gains outlet (bytesOfLines lines) world ((emit World.host (some stream) lines).run world).2 := by
  induction lines generalizing world with
  | nil => exact h.gains_nil
  | cons line rest ih =>
      obtain ⟨hgains, hreaches⟩ := h.write (Utf8.encode line.terminated)
      rw [bytesOfLines_cons]
      exact hgains.trans (ih hreaches)

end World

/-! ### Opening a log -/

/-- What opening leaves in a file. -/
def FileTree.kept (tree : FileTree) (place : Location) : OpenMode → Bytes
  | .append => tree.content place
  | .truncate => []

theorem FileTree.node?_afterOpening {tree : FileTree} {place : Location}
    (hdirectory : tree.node? place ≠ some .directory)
    (hdevice : ∀ device, tree.node? place ≠ some (.device device)) (mode : OpenMode) :
    (tree.afterOpening place mode).node? place = some (.file (tree.kept place mode)) := by
  unfold FileTree.afterOpening
  rcases hnode : tree.node? place with _ | _ | content | device
  · cases mode <;> simp [kept, content, hnode]
  · exact absurd hnode hdirectory
  · cases mode <;> simp [kept, FileTree.content, hnode]
  · exact absurd hnode (hdevice device)

namespace CommandLine

namespace Log

/-- Where diagnostics end up, unless they are lost. -/
def outlet? (tree : FileTree) : Log → Option Outlet
  | .disabled => none
  | .stderr => some .stderr
  | .file path _ =>
    match tree.locate path with
    | .ok place => tree.outlet? place
    | .error _ => none

theorem outlet?_file {tree : FileTree} {path : Text} {place : Location}
    (h : tree.locate path = .ok place) (mode : OpenMode) :
    (Log.file path mode).outlet? tree = tree.outlet? place := by
  rw [outlet?, h]

/-- Whether diagnostics go into the file at a place. -/
def Covers (tree : FileTree) (log : Log) (place : Location) : Prop :=
  log.outlet? tree = some (.file place)

/-- What is in a file that diagnostics go to before there are any. -/
def kept (tree : FileTree) (place : Location) : Log → Bytes
  | .file _ mode => tree.kept place mode
  | _ => []

/-- How it is with a log that has been opened. The world is beside the one before, and of two worlds
beside each other the second takes lines to the outlet, behind what was kept there. -/
structure Opened (log : Log) (paths : List Text) (world : World) (stream? : Option Stream)
    (file? : Option LogFile) (after : World) : Prop where
  beside : World.Beside (log.Covers world.tree) paths file? world after
  content : ∀ left right, World.Beside (log.Covers world.tree) paths file? left right →
    ∀ place, log.Covers world.tree place → right.tree.content place = log.kept world.tree place
  gains : ∀ left right, World.Beside (log.Covers world.tree) paths file? left right →
    ∀ lines : List Text, World.Gains (log.outlet? world.tree) (bytesOfLines lines) right
      ((emit World.host stream? lines).run right).2

variable {log : Log} {world : World} {path : Text} {mode : OpenMode} {place : Location}
  {paths : List Text}

/-- A log that goes into no file sets nothing apart. -/
theorem beside_of_not_covers (h : ∀ place, ¬ log.Covers world.tree place) (opened : List OpenFile)
    {file? : Option LogFile}
    (hfile : ∀ file ∈ file?, { world with opened }.Holds (log.Covers world.tree) file) :
    World.Beside (log.Covers world.tree) paths file? world { world with opened } where
  tree := .refl fun place hplace => absurd hplace (h place)
  stdout := rfl
  stderr := rfl
  inputs _ _ place hplace := absurd hplace (h place)
  log := hfile

theorem opened_disabled : Opened .disabled paths world none none world where
  beside := beside_of_not_covers (fun _ h => by cases h) _ (by simp)
  content _ _ _ _ h := by cases h
  gains _ right _ _ := .lost right _

theorem opened_stderr : Opened .stderr paths world (some .stderr) none world where
  beside := beside_of_not_covers (fun _ h => by cases h) _ (by simp)
  content _ _ _ _ h := by cases h
  gains _ _ _ lines := World.Reaches.stderr.emit lines

theorem opened_device (hlocate : world.tree.locate path = .ok place) {device : Device}
    (hnode : world.tree.node? place = some (.device device)) :
    Opened (.file path mode) paths world (some (.opened world.opened.length))
      (some ⟨world.opened.length, { place, mode }, .device device⟩)
      { world with
        tree := world.tree.afterOpening place mode
        opened := world.opened ++ [{ place, mode }] } := by
  have houtlet : (Log.file path mode).outlet? world.tree = device.outlet? := by
    rw [outlet?_file hlocate, FileTree.outlet?, hnode]
  have hcovers (elsewhere : Location) : ¬ (Log.file path mode).Covers world.tree elsewhere := by
    rw [Covers, houtlet]
    cases device <;> simp [Device.outlet?]
  rw [FileTree.afterOpening_of_not_empties fun h => h.1 device hnode]
  refine ⟨beside_of_not_covers hcovers _ fun file hfile => ?_,
    fun _ _ _ elsewhere h => absurd h (hcovers elsewhere), fun left right hbeside lines => ?_⟩
  · cases hfile
    exact ⟨List.getElem?_concat_length, hnode, fun _ h => by cases h⟩
  · obtain ⟨hopened, hnode, -⟩ := hbeside.log _ rfl
    rw [houtlet]
    exact (World.Reaches.device hopened hnode).emit lines

theorem opened_file (hlocate : world.tree.locate path = .ok place)
    (hdevice : ∀ device, world.tree.node? place ≠ some (.device device))
    (hpaths : ∀ path ∈ paths, ¬ world.tree.LeadsTo path place) :
    Opened (.file path mode) paths world (some (.opened world.opened.length))
      (some ⟨world.opened.length, { place, mode }, .file (world.tree.kept place mode)⟩)
      { world with
        tree := world.tree.afterOpening place mode
        opened := world.opened ++ [{ place, mode }] } := by
  have hdirectory := FileTree.node?_of_locate hlocate
  have houtlet : (Log.file path mode).outlet? world.tree = some (.file place) := by
    rw [outlet?_file hlocate, FileTree.outlet?_of_no_device hdevice]
  have hcovers (elsewhere : Location) :
      (Log.file path mode).Covers world.tree elsewhere ↔ elsewhere = place := by
    rw [Covers, houtlet]
    simp [eq_comm]
  have hself : world.tree.AgreeOff ((Log.file path mode).Covers world.tree) world.tree :=
    .refl fun elsewhere h => (hcovers elsewhere).1 h ▸ hdirectory
  refine ⟨⟨hself.afterOpening fun _ => (hcovers place).2 rfl, rfl, rfl, ?_, fun file hfile => ?_⟩,
    fun left right hbeside elsewhere helsewhere => ?_, fun left right hbeside lines => ?_⟩
  · intro path hpath elsewhere helsewhere
    rw [(hcovers elsewhere).1 helsewhere]
    exact hpaths path hpath
  · cases hfile
    exact ⟨List.getElem?_concat_length, FileTree.node?_afterOpening hdirectory hdevice mode,
      fun _ _ => (hcovers place).2 rfl⟩
  · rw [(hcovers elsewhere).1 helsewhere, FileTree.content, (hbeside.log _ rfl).node]
    rfl
  · obtain ⟨hopened, hnode, -⟩ := hbeside.log _ rfl
    rw [houtlet]
    refine (World.Reaches.file hopened hnode ?_).emit lines
    cases mode with
    | append => exact .inl rfl
    | truncate => exact .inr rfl

theorem openLog_run_file (hlocate : world.tree.locate path = .ok place) :
    (openLog World.host (.file path mode)).run world =
      (.ok (some (.opened world.opened.length)), { world with
        tree := world.tree.afterOpening place mode
        opened := world.opened ++ [{ place, mode }] }) := by
  rw [openLog, StateT.run_bind, World.run_openFile, World.openFile_of_locate hlocate]
  rfl

/-- A log can be opened unless its path cannot be, and then all goes on as before. -/
theorem exists_opened
    (hopens : ∀ path mode, log = .file path mode → ∃ place, world.tree.locate path = .ok place)
    (hpaths : ∀ place, log.Covers world.tree place → ∀ path ∈ paths, ¬ world.tree.LeadsTo path place) :
    ∃ stream? file? after, (openLog World.host log).run world = (.ok stream?, after) ∧
      log.Opened paths world stream? file? after := by
  cases log with
  | disabled => exact ⟨_, _, _, rfl, opened_disabled⟩
  | stderr => exact ⟨_, _, _, rfl, opened_stderr⟩
  | file path mode =>
      obtain ⟨place, hlocate⟩ := hopens path mode rfl
      rw [openLog_run_file hlocate]
      by_cases hdevice : ∃ device, world.tree.node? place = some (.device device)
      · obtain ⟨device, hnode⟩ := hdevice
        exact ⟨_, _, _, rfl, opened_device hlocate hnode⟩
      · rw [not_exists] at hdevice
        refine ⟨_, _, _, rfl, opened_file hlocate hdevice (hpaths place ?_)⟩
        rw [Covers, outlet?_file hlocate, FileTree.outlet?_of_no_device hdevice]

end Log

/-! ### A run beside linking alone -/

/-- The lines that report on linking. -/
def Settings.lines (settings : Settings) : Except Failure Report → List Text
  | .ok report => settings.successLines report
  | .error failure => settings.failureLines failure

/-- How a run ends, given how linking did. -/
def Status.ofLinking : Except Failure Report → Status
  | .ok _ => .success
  | .error _ => .failure

theorem Status.ofLinking_congr {E : Failure → Failure → Prop} {result other : Except Failure Report}
    (h : Alike E result other) : ofLinking result = ofLinking other := by
  cases h <;> rfl

namespace Settings

/-- The paths of all files that a run may read. -/
def inputs (settings : Settings) : List Text :=
  settings.table :: (settings.entry.toList ++ settings.runtimeObjects)

/-- Whether the log can be opened, and a file that it goes to is not read, nor written otherwise. -/
structure LogApart (settings : Settings) (tree : FileTree) : Prop where
  opens : ∀ path mode, settings.log = .file path mode → ∃ place, tree.locate path = .ok place
  inputs : ∀ place, settings.log.Covers tree place → ∀ path ∈ settings.inputs, ¬ tree.LeadsTo path place
  output : ∀ place, settings.log.Covers tree place →
    ∀ path ∈ settings.outfile, tree.locate path ≠ .ok place

/-- Linking once the log is open. -/
def linkLogged (settings : Settings) (plan : Plan) (world : World) : Except Failure Report × World :=
  (linkTo World.host plan settings.outfile).run ((openLog World.host settings.log).run world).2

/-- What a run comes to, told by how it would have been to link and to report nothing. -/
structure Reported (settings : Settings) (plan : Plan) (world : World)
    (linked : Except Failure Report × World) (run : Status × World) : Prop where
  outcome : Alike Failure.SameKind linked.1 (settings.linkLogged plan world).1
  status : run.1 = .ofLinking linked.1
  stdout : run.2.stdout = linked.2.stdout ++
    if settings.log.outlet? world.tree = some .stdout then
      bytesOfLines (settings.lines (settings.linkLogged plan world).1) else []
  stderr : run.2.stderr = linked.2.stderr ++
    if settings.log.outlet? world.tree = some .stderr then
      bytesOfLines (settings.lines (settings.linkLogged plan world).1) else []
  elsewhere : ∀ place, ¬ settings.log.Covers world.tree place →
    run.2.tree.node? place = linked.2.tree.node? place
  log : ∀ place, settings.log.Covers world.tree place →
    run.2.tree.node? place = some (.file (settings.log.kept world.tree place ++
      bytesOfLines (settings.lines (settings.linkLogged plan world).1)))
  last_text : settings.format = .text → ∀ failure, (settings.linkLogged plan world).1 = .error failure →
    (settings.lines (settings.linkLogged plan world).1).getLast? = some failure.fault.message
  last_json : settings.format = .json → ∀ failure, (settings.linkLogged plan world).1 = .error failure →
    (settings.lines (settings.linkLogged plan world).1).getLast? = some (Json.object [
      ("code".toList, .string failure.fault.kind.code),
      ("file".toList, .null),
      ("line".toList, .number 0),
      ("message".toList, .string failure.fault.message),
      ("severity".toList, .string "error".toList),
      ("source".toList, .null)]).render

variable {settings : Settings} {plan : Plan} {world : World}

theorem getLast?_failureLines (settings : Settings) (failure : Failure) :
    (settings.failureLines failure).getLast? = some (settings.faultLine failure.fault) := by
  rw [failureLines, List.getLast?_concat]

theorem inputs_of_plan? (h : settings.plan? = some plan) : settings.inputs = plan.table :: plan.paths := by
  rw [plan?] at h
  cases hentry : settings.entry with
  | none =>
      rw [hentry] at h
      cases h
  | some entry =>
      rw [hentry] at h
      cases h
      rw [inputs, hentry]
      rfl

theorem linkAndReport_run (stream? : Option Stream) (world : World) :
    (linkAndReport World.host settings plan stream?).run world =
      (.ofLinking ((linkTo World.host plan settings.outfile).run world).1,
        ((emit World.host stream? (settings.lines ((linkTo World.host plan settings.outfile).run world).1)).run
          ((linkTo World.host plan settings.outfile).run world).2).2) := by
  rw [linkAndReport, StateT.run_bind]
  rcases (linkTo World.host plan settings.outfile).run world with ⟨_ | _, _⟩ <;> rfl

/-- A run that links opens the log first. -/
theorem execute_run {S Stream : Type} (host : Host (StateM S) Stream) (hprint : settings.printTarget = false)
    (hplan : settings.plan? = some plan) (s : S) :
    (execute host settings).run s =
      match (openLog host settings.log).run s with
      | (.error cause, s) =>
        (complain host
          (Text.withDetail "Failed to open diagnostics sink".toList (some cause.message))).run s
      | (.ok stream?, s) => (linkAndReport host settings plan stream?).run s := by
  rw [execute, hprint, hplan]
  change StateT.run (openLog host settings.log >>= _) s = _
  rw [StateT.run_bind]
  rcases (openLog host settings.log).run s with ⟨_ | _, _⟩ <;> rfl

theorem reported_execute (hprint : settings.printTarget = false) (hplan : settings.plan? = some plan)
    (h : settings.LogApart world.tree) :
    settings.Reported plan world ((linkTo World.host plan settings.outfile).run world)
      ((execute World.host settings).run world) := by
  obtain ⟨stream?, file?, after, hrun, hopened⟩ := @Log.exists_opened settings.log world
    (plan.table :: plan.paths) h.opens fun place hplace path hpath =>
      h.inputs place hplace path (inputs_of_plan? hplan ▸ hpath)
  have hexecute : (execute World.host settings).run world =
      (linkAndReport World.host settings plan stream?).run after := by
    rw [execute_run World.host hprint hplan, hrun]
  have hlinked : settings.linkLogged plan world = (linkTo World.host plan settings.outfile).run after := by
    rw [linkLogged, hrun]
  obtain ⟨halike, hbeside⟩ := linkTo_beside hopened.beside fun path hpath place hplace =>
    h.output place hplace path hpath
  rw [hexecute, linkAndReport_run, ← hlinked]
  rw [← hlinked] at halike hbeside
  have hgains := hopened.gains _ _ hbeside (settings.lines (settings.linkLogged plan world).1)
  refine ⟨halike, ?_, ?_, ?_, fun place hplace => ?_, fun place hplace => ?_,
    fun hformat failure hfailure => ?_, fun hformat failure hfailure => ?_⟩
  · exact (Status.ofLinking_congr halike).symm
  · rw [hgains.stdout, hbeside.stdout]
  · rw [hgains.stderr, hbeside.stderr]
  · rw [hgains.elsewhere place hplace, hbeside.tree.node? place hplace]
  · rw [hgains.file place hplace, hopened.content _ _ hbeside place hplace]
  · rw [hfailure, lines, getLast?_failureLines, faultLine, hformat]
  · rw [hfailure, lines, getLast?_failureLines, faultLine, hformat]
    rfl

end Settings

/-! ### Invocations for the same program -/

def Switch.isDiagnostic : Switch → Bool
  | quiet | noWarn | errorAppend | noError => true
  | _ => false

def Setting.isDiagnostic : Setting → Bool
  | format | errorFile => true
  | _ => false

/-- Whether an argument is about diagnostics only. -/
def Item.isDiagnostic : Item → Bool
  | .switch option => option.isDiagnostic
  | .setting option _ => option.isDiagnostic
  | .entry _ => false

/-- Whether a variable is about diagnostics only. -/
def Variable.isDiagnostic : Variable → Bool
  | quiet | noWarn | errorFile | errorAppend | noError => true
  | _ => false

namespace Arguments

/-- The arguments without those about diagnostics. -/
def program (arguments : Arguments) : Arguments :=
  ⟨arguments.items.filter (!·.isDiagnostic)⟩

variable {arguments other : Arguments}

theorem has_program {switch : Switch} (h : switch.isDiagnostic = false) :
    arguments.program.has switch = arguments.has switch := by
  rw [Bool.eq_iff_iff]
  simp [has, program, Item.isDiagnostic, h]

/-- What is gathered from arguments that are not about diagnostics can do without the others. -/
theorem filterMap_program {α : Type} {f : Item → Option α}
    (h : ∀ item, item.isDiagnostic = true → f item = none) (arguments : Arguments) :
    arguments.program.items.filterMap f = arguments.items.filterMap f := by
  rw [program, List.filterMap_filter]
  congr 1
  funext item
  cases hitem : item.isDiagnostic with
  | true => simp [h item hitem]
  | false => simp

theorem values_program {setting : Setting} (h : setting.isDiagnostic = false) :
    arguments.program.values setting = arguments.values setting := by
  refine filterMap_program (fun item hitem => ?_) arguments
  rcases item with switch | ⟨other, value⟩ | path
  · rfl
  · refine if_neg fun heq => ?_
    rw [Item.isDiagnostic, heq, h] at hitem
    cases hitem
  · rfl

theorem entry?_program : arguments.program.entry? = arguments.entry? := by
  unfold entry?
  rw [← List.head?_filterMap, ← List.head?_filterMap]
  congr 1
  refine filterMap_program (fun item hitem => ?_) arguments
  rcases item with switch | ⟨setting, value⟩ | path
  · rfl
  · rfl
  · cases hitem

end Arguments

/-- Whether an invocation comes down to arguments and settings. -/
structure Invocation.Settles (invocation : Invocation) (arguments : Arguments) (settings : Settings) :
    Prop where
  parse : Arguments.parse invocation.arguments = .ok arguments
  resolve : Settings.resolve arguments invocation.environment invocation.defaultTable = .ok settings

/-- Whether two invocations differ in nothing but what they say about diagnostics. -/
structure Invocation.SameProgram (first second : Invocation) (arguments other : Arguments) : Prop where
  arguments : arguments.program = other.program
  environment : ∀ key : Variable, key.isDiagnostic = false →
    first.environment key = second.environment key
  defaultTable : first.defaultTable = second.defaultTable

variable {first second : Invocation} {arguments other : Arguments} {settings settings' : Settings}

/-- Invocations for the same program agree on all settings but those about diagnostics. -/
theorem Invocation.SameProgram.settings_eq (h : first.SameProgram second arguments other)
    (hfirst : first.Settles arguments settings) (hsecond : second.Settles other settings') :
    settings.plan? = settings'.plan? ∧ settings.outfile = settings'.outfile ∧
      settings.printTarget = settings'.printTarget := by
  obtain ⟨-, -, stackBase, hbase, rfl⟩ := Settings.resolve_eq_ok_iff.1 hfirst.resolve
  obtain ⟨-, -, stackBase', hbase', rfl⟩ := Settings.resolve_eq_ok_iff.1 hsecond.resolve
  have hvalues {setting : Setting} (hsetting : setting.isDiagnostic = false) :
      arguments.values setting = other.values setting := by
    rw [← Arguments.values_program hsetting, h.arguments, Arguments.values_program hsetting]
  have hvalue {setting : Setting} (hsetting : setting.isDiagnostic = false) :
      arguments.value? setting = other.value? setting := by
    rw [Arguments.value?, Arguments.value?, hvalues hsetting]
  have hhas {switch : Switch} (hswitch : switch.isDiagnostic = false) :
      arguments.has switch = other.has switch := by
    rw [← Arguments.has_program hswitch, h.arguments, Arguments.has_program hswitch]
  have hentry : arguments.entry? = other.entry? := by
    rw [← Arguments.entry?_program, h.arguments, Arguments.entry?_program]
  have hstack : stackBase = stackBase' := by
    rw [Settings.stackBaseText, hvalue rfl, Environment.text?_congr (h.environment .stackBase rfl)] at hbase
    exact Except.ok.inj (hbase.symm.trans hbase')
  refine ⟨?_, hvalue rfl, hhas rfl⟩
  simp only [Settings.plan?, Settings.gather, Settings.target, hentry, hstack,
    hvalues (rfl : Setting.runtime.isDiagnostic = _), hvalue (rfl : Setting.mnemonics.isDiagnostic = _),
    hhas (rfl : Switch.uniquifyLabels.isDiagnostic = _),
    Environment.paths_congr (h.environment .runtimeObjects rfl),
    Environment.text?_congr (h.environment .mnemonics rfl),
    Environment.flag_congr (h.environment .uniquifyLabels rfl), h.defaultTable]

theorem exists_plan (h : first.Settles arguments settings) (hprint : settings.printTarget = false) :
    ∃ plan, settings.plan? = some plan := by
  obtain ⟨-, hnamed, stackBase, -, rfl⟩ := Settings.resolve_eq_ok_iff.1 h.resolve
  have hentry : arguments.entry?.isSome = true :=
    hnamed.resolve_right fun hhas => Bool.false_ne_true (hprint.symm.trans hhas)
  obtain ⟨entry, hentry⟩ := Option.isSome_iff_exists.1 hentry
  exact ⟨_, by simp only [Settings.plan?, Settings.gather, hentry]; rfl⟩

theorem run_eq_execute {m : Type → Type} [Monad m] {Stream : Type} (host : Host m Stream)
    (h : first.Settles arguments settings) : run host first = execute host settings := by
  simp only [run, h.parse, h.resolve]

/-- Options about diagnostics do not change the program. Two runs whose command lines and environments
differ in such options only, whose logs can be opened and are apart from what is linked, end with the same
status, which tells whether linking succeeded. They leave the same files but for those that their logs go
to, and have printed the same but for their own diagnostics behind it. The last line of what a run reports
on a failure is the fault: its message, or in JSON an error with its code and message. -/
theorem run_of_same_program {world : World} (hsame : first.SameProgram second arguments other)
    (hfirst : first.Settles arguments settings) (hsecond : second.Settles other settings')
    (hprint : settings.printTarget = false) (hlog : settings.LogApart world.tree)
    (hlog' : settings'.LogApart world.tree) :
    ∃ plan, settings.plan? = some plan ∧ settings'.plan? = some plan ∧
      settings'.outfile = settings.outfile ∧
      let linked := (linkTo World.host plan settings.outfile).run world
      let run₁ := (run World.host first).run world
      let run₂ := (run World.host second).run world
      run₁.1 = run₂.1 ∧ (run₁.1.code = 0 ↔ ∃ report, linked.1 = .ok report) ∧
      (∀ path ∈ settings.outfile, ∀ place, world.tree.locate path = .ok place →
        run₁.2.tree.node? place = run₂.2.tree.node? place) ∧
      settings.Reported plan world linked run₁ ∧ settings'.Reported plan world linked run₂ := by
  obtain ⟨hplan, houtfile, hprint'⟩ := hsame.settings_eq hfirst hsecond
  obtain ⟨plan, hplan₁⟩ := exists_plan hfirst hprint
  have hplan₂ : settings'.plan? = some plan := hplan ▸ hplan₁
  refine ⟨plan, hplan₁, hplan₂, houtfile.symm, ?_⟩
  intro linked run₁ run₂
  have hreported₁ : settings.Reported plan world linked run₁ := by
    have h := Settings.reported_execute hprint hplan₁ hlog
    rwa [← run_eq_execute World.host hfirst] at h
  have hreported₂ : settings'.Reported plan world linked run₂ := by
    have h := Settings.reported_execute (hprint' ▸ hprint) hplan₂ hlog'
    rwa [← run_eq_execute World.host hsecond, ← houtfile] at h
  refine ⟨hreported₁.status.trans hreported₂.status.symm, ?_, fun path hpath place hplace => ?_,
    hreported₁, hreported₂⟩
  · rw [hreported₁.status]
    rcases linked.1 with failure | report
    · simp [Status.ofLinking, Status.code]
    · simp [Status.ofLinking, Status.code]
  · have hapart₁ : ¬ settings.log.Covers world.tree place := fun h => hlog.output place h path hpath hplace
    have hapart₂ : ¬ settings'.log.Covers world.tree place := fun h =>
      hlog'.output place h path (houtfile ▸ hpath) hplace
    rw [hreported₁.elsewhere place hapart₁, hreported₂.elsewhere place hapart₂]

/-- A rename table without names, and a module that does nothing. -/
def shelf : FileTree where
  node? place :=
    if place = [] then some .directory
    else if place = [['t']] then some (.file [])
    else if place = [['m']] then some (.file (Utf8.encode "main: nop\n".toList))
    else none
  workDirectory := []

/-- An invocation for what is on the shelf, with some options in front. -/
def shelfInvocation (options : List Text) : Invocation where
  arguments := options ++ [['-', 'm'], ['t'], ['m']]
  environment _ := none
  defaultTable := []

def shelfArguments (options : List Item) : Arguments :=
  ⟨options ++ [.setting .mnemonics ['t'], .entry ['m']]⟩

def shelfSettings (options : List Item) : Settings :=
  .gather (shelfArguments options) (fun _ => none) [] 8192

/-- Options for a run that fails, as there is no such module on the shelf. -/
def failingOptions : List Text :=
  [['-', 'r'], ['x'], ['-', 'o'], ['o']]

def failingItems : List Item :=
  [.setting .runtime ['x'], .setting .outfile ['o']]

/-- Options for a file in JSON that says nothing unless linking fails. -/
def terseOptions : List Text :=
  [['-', 'q'], "--format".toList, "json".toList, ['-', 'E'], ['l']]

def terseItems : List Item :=
  [.switch .quiet, .setting .format "json".toList, .setting .errorFile ['l']]

/-- The line in JSON on the module that is not on the shelf. -/
def missingLine : Text :=
  "\x7b\"code\":\"lnk501\",\"file\":null,".toList ++ "\"line\":0,\"message\":\"".toList ++
    "Failed to open module: x: ".toList ++ "No such file or directory (os error 2)".toList ++
    "\",\"severity\":\"error\",".toList ++ "\"source\":null\x7d".toList

/-- A run with some options for what is on the shelf. -/
def shelfRun (options : List Text) : Status × World :=
  (run World.host (shelfInvocation options)).run { tree := shelf }

theorem Settings.logApart_of_stderr {settings : Settings} (h : settings.log = .stderr) (tree : FileTree) :
    settings.LogApart tree := by
  have hcovers (place : Location) : ¬ settings.log.Covers tree place := by
    rw [h]
    nofun
  refine ⟨fun path mode hfile => ?_, fun place hplace => ?_, fun place hplace => ?_⟩
  · cases h.symm.trans hfile
  · exact absurd hplace (hcovers place)
  · exact absurd hplace (hcovers place)

theorem logApart_shelf {settings : Settings} (hlog : settings.log = .file ['l'] .truncate)
    (hinputs : settings.inputs ⊆ [['t'], ['m'], ['x']]) (houtfile : settings.outfile = some ['o']) :
    settings.LogApart shelf := by
  have hlocate : shelf.locate ['l'] = .ok [['l']] := rfl
  have hcovers {place : Location} (h : settings.log.Covers shelf place) : place = [['l']] := by
    rw [Log.Covers, hlog, Log.outlet?_file hlocate] at h
    exact (Outlet.file.inj (Option.some.inj h)).symm
  refine ⟨fun path mode h => ?_, fun place h path hpath hleads => ?_, fun place h path hpath hleads => ?_⟩
  · rw [hlog] at h
    cases h
    exact ⟨_, hlocate⟩
  · rw [hcovers h] at hleads
    have hname := hinputs hpath
    rw [List.mem_cons, List.mem_cons, List.mem_singleton] at hname
    rcases hname with rfl | rfl | rfl
    · exact absurd (Except.ok.inj hleads : [['t']] = [['l']]) (by decide)
    · exact absurd (Except.ok.inj hleads : [['m']] = [['l']]) (by decide)
    · exact absurd (Except.ok.inj hleads : [['x']] = [['l']]) (by decide)
  · rw [hcovers h] at hleads
    rw [houtfile] at hpath
    cases hpath
    exact absurd (Except.ok.inj hleads : [['o']] = [['l']]) (by decide)

/-- A module that is not on the shelf is missing. -/
theorem exists_missing {plan : Plan}
    (hplan : (shelfSettings (terseItems ++ failingItems)).plan? = some plan) :
    ∃ failure,
      ((shelfSettings (terseItems ++ failingItems)).linkLogged plan { tree := shelf }).1 = .error failure ∧
      failure.fault = .moduleUnreadable ['x'] .notFound := by
  have hmissing : ((shelfSettings (terseItems ++ failingItems)).plan?.bind fun plan =>
      match ((shelfSettings (terseItems ++ failingItems)).linkLogged plan { tree := shelf }).1 with
      | .ok _ => none
      | .error failure => some failure.fault) = some (.moduleUnreadable ['x'] .notFound) := by
    decide +kernel
  rw [hplan, Option.bind_some] at hmissing
  cases hlinked : ((shelfSettings (terseItems ++ failingItems)).linkLogged plan { tree := shelf }).1 with
  | ok report =>
      rw [hlinked] at hmissing
      cases hmissing
  | error failure =>
      rw [hlinked] at hmissing
      exact ⟨failure, rfl, Option.some.inj hmissing⟩

theorem run_of_same_program_shelf :
    let linking := [['-', 'o'], ['o']]
    (shelfRun linking).1 = (shelfRun (terseOptions ++ linking)).1 ∧
    (shelfRun linking).2.tree.node? [['o']] = (shelfRun (terseOptions ++ linking)).2.tree.node? [['o']] ∧
    (shelfRun failingOptions).1 = (shelfRun (terseOptions ++ failingOptions)).1 ∧
    ∃ earlier, (shelfRun (terseOptions ++ failingOptions)).2.tree.node? [['l']] =
      some (.file (earlier ++ bytesOfLines [missingLine])) := by
  intro linking
  obtain ⟨-, -, -, -, hstatus, -, houtput, -⟩ :=
    @run_of_same_program (shelfInvocation linking) (shelfInvocation (terseOptions ++ linking))
      (shelfArguments [.setting .outfile ['o']]) (shelfArguments (terseItems ++ [.setting .outfile ['o']]))
      (shelfSettings [.setting .outfile ['o']]) (shelfSettings (terseItems ++ [.setting .outfile ['o']]))
      { tree := shelf } ⟨rfl, fun _ _ => rfl, rfl⟩ ⟨rfl, rfl⟩ ⟨rfl, rfl⟩ rfl
      (Settings.logApart_of_stderr rfl shelf) (logApart_shelf rfl (by decide) rfl)
  obtain ⟨plan, -, hplan, -, hstatus', -, -, -, hreported⟩ :=
    @run_of_same_program (shelfInvocation failingOptions) (shelfInvocation (terseOptions ++ failingOptions))
      (shelfArguments failingItems) (shelfArguments (terseItems ++ failingItems))
      (shelfSettings failingItems) (shelfSettings (terseItems ++ failingItems))
      { tree := shelf } ⟨rfl, fun _ _ => rfl, rfl⟩ ⟨rfl, rfl⟩ ⟨rfl, rfl⟩ rfl
      (Settings.logApart_of_stderr rfl shelf) (logApart_shelf rfl (by decide) rfl)
  unfold shelfRun
  refine ⟨hstatus, houtput ['o'] (by decide) [['o']] rfl, hstatus', ?_⟩
  obtain ⟨failure, hlinked, hfault⟩ := exists_missing hplan
  have hlast := hreported.last_json rfl failure hlinked
  rw [hfault, show Json.render _ = missingLine by decide +kernel] at hlast
  obtain ⟨earlier, hlines⟩ := List.getLast?_eq_some_iff.1 hlast
  have hcontent := hreported.log [['l']] rfl
  rw [hlines, bytesOfLines, Text.unlines_append, Utf8.encode_append, ← List.append_assoc] at hcontent
  exact ⟨_, hcontent⟩

end CommandLine

end AsmLink
