import AsmLink.CommandLine.Run
import AsmLink.Proofs.Places

/-! Two worlds side by side, of which the second has a log open. They agree but for the place of that
log, where no module and no rename table is read from and no program is written to. Main statement:
linking a program has the same outcome in both, leaves them side by side, and does not touch the log
(`linkTo_beside`). -/

namespace AsmLink

open CommandLine

/-- Whether two failures tell the same, but for the words of the system about the fault. -/
def Failure.SameKind (failure other : Failure) : Prop :=
  failure.fault.kind = other.fault.kind ∧ failure.diagnostics = other.diagnostics

/-- A file that is open for the log, under its number, and what lies at its place. -/
structure LogFile where
  index : Nat
  file : OpenFile
  node : Node

namespace World

/-- Whether a file is open for the log, and what lies at its place is a device or set apart. -/
structure Holds (places : Location → Prop) (world : World) (log : LogFile) : Prop where
  opened : world.opened[log.index]? = some log.file
  node : world.tree.node? log.file.place = some log.node
  apart : ∀ content, log.node = .file content → places log.file.place

/-- Two worlds that agree but for some places. Files are read elsewhere, and the second world holds the
log. -/
structure Beside (places : Location → Prop) (paths : List Text) (log : Option LogFile)
    (left right : World) : Prop where
  tree : left.tree.AgreeOff places right.tree
  stdout : left.stdout = right.stdout
  stderr : left.stderr = right.stderr
  inputs : ∀ path ∈ paths, ∀ place, places place → ¬ left.tree.LeadsTo path place
  log : ∀ file ∈ log, right.Holds places file

/-- Streams of two worlds that lead to the same. A file of theirs is not the log. -/
inductive SameStream (places : Location → Prop) (log : Option LogFile) (left right : World) :
    Stream → Stream → Prop
  | stdout : SameStream places log left right .stdout .stdout
  | opened {index other : Nat} {file : OpenFile} (hleft : left.opened[index]? = some file)
      (hright : right.opened[other]? = some file) (hplace : ¬ places file.place)
      (hlog : ∀ logFile ∈ log, logFile.index ≠ other) :
      SameStream places log left right (.opened index) (.opened other)

variable {places : Location → Prop} {paths : List Text} {log : Option LogFile} {left right : World}
  {stream other : Stream}

/-- Worlds side by side remain so when both print the same. -/
theorem Beside.print (h : Beside places paths log left right) (out err : Bytes) :
    Beside places paths log { left with stdout := left.stdout ++ out, stderr := left.stderr ++ err }
      { right with stdout := right.stdout ++ out, stderr := right.stderr ++ err } where
  tree := h.tree
  stdout := by rw [h.stdout]
  stderr := by rw [h.stderr]
  inputs := h.inputs
  log file hlog := ⟨(h.log file hlog).opened, (h.log file hlog).node, (h.log file hlog).apart⟩

/-- Worlds side by side remain so when the same is put into a file elsewhere. -/
theorem Beside.put (h : Beside places paths log left right) {place : Location} (hplace : ¬ places place)
    (hdirectory : left.tree.node? place ≠ some .directory)
    (hdevice : ∀ device, left.tree.node? place ≠ some (.device device)) (content : Bytes)
    {opened opened' : List OpenFile} (hopened : ∀ file ∈ log, opened'[file.index]? = some file.file) :
    Beside places paths log { left with tree := left.tree.put place (.file content), opened }
      { right with tree := right.tree.put place (.file content), opened := opened' } where
  tree := h.tree.put hplace _
  stdout := h.stdout
  stderr := h.stderr
  inputs path hpath elsewhere helsewhere := by
    rw [FileTree.leadsTo_put_file hdirectory]
    exact h.inputs path hpath elsewhere helsewhere
  log file hlog := by
    obtain ⟨-, hnode, hapart⟩ := h.log file hlog
    have hne : file.file.place ≠ place := by
      intro heq
      rw [heq, ← h.tree.node? place hplace] at hnode
      cases hfile : file.node with
      | directory => exact hdirectory (hfile ▸ hnode)
      | device device => exact hdevice device (hfile ▸ hnode)
      | file content => exact hplace (heq ▸ hapart content hfile)
    refine ⟨hopened file hlog, ?_, hapart⟩
    rw [FileTree.node?_put_of_ne _ _ hne, hnode]

/-- A write to streams that lead to the same has the same result, and leaves the worlds side by side. -/
theorem Beside.write (h : Beside places paths log left right)
    (hstream : SameStream places log left right stream other) (bytes : Bytes) :
    (left.write stream bytes).1 = (right.write other bytes).1 ∧
      Beside places paths log (left.write stream bytes).2 (right.write other bytes).2 ∧
      SameStream places log (left.write stream bytes).2 (right.write other bytes).2 stream other := by
  cases hstream with
  | stdout =>
      have hprint := h.print bytes []
      rw [List.append_nil, List.append_nil] at hprint
      exact ⟨rfl, hprint, .stdout⟩
  | @opened index other file hleft hright hplace hlog =>
      have hsame : SameStream places log left right (.opened index) (.opened other) :=
        .opened hleft hright hplace hlog
      simp only [World.write, hleft, hright, World.writeFile, ← h.tree.node? _ hplace]
      rcases hfile : left.tree.node? file.place with _ | _ | content | _ | _ | _ | _
      · exact ⟨rfl, h, hsame⟩
      · exact ⟨rfl, h, hsame⟩
      · refine ⟨rfl, h.put hplace (by simp [hfile]) (by simp [hfile]) _ fun logFile hlogFile => ?_, ?_⟩
        · rw [List.getElem?_set_ne (hlog logFile hlogFile).symm]
          exact (h.log logFile hlogFile).opened
        · exact .opened (List.getElem?_set_self (List.getElem?_eq_some_iff.1 hleft).1)
            (List.getElem?_set_self (List.getElem?_eq_some_iff.1 hright).1) hplace hlog
      · exact ⟨rfl, h, hsame⟩
      · exact ⟨rfl, h, hsame⟩
      · have hprint := h.print bytes []
        rw [List.append_nil, List.append_nil] at hprint
        exact ⟨rfl, hprint, .opened hleft hright hplace hlog⟩
      · have hprint := h.print [] bytes
        rw [List.append_nil, List.append_nil] at hprint
        exact ⟨rfl, hprint, .opened hleft hright hplace hlog⟩

theorem run_readFile (path : Text) (world : World) :
    (host.readFile path).run world = (world.tree.read path, world) := rfl

theorem run_openFile (path : Text) (mode : OpenMode) (world : World) :
    (host.openFile path mode).run world = world.openFile path mode := rfl

theorem Beside.read (h : Beside places paths log left right) {path : Text} (hpath : path ∈ paths) :
    Alike (fun _ _ => True) (left.tree.read path) (right.tree.read path) :=
  h.tree.read (h.inputs path hpath)

end World

/-! ### Linking -/

variable {places : Location → Prop} {paths : List Text} {log : Option LogFile} {left right : World}
  {stream other : Stream} {plan : Plan}

theorem medium_lockstep (hpaths : plan.paths ⊆ paths) :
    (medium World.host stream).Lockstep
      (fun left right => World.Beside places paths log left right ∧
        World.SameStream places log left right stream other)
      (fun fault other => fault.kind = other.kind) plan.paths (medium World.host other) where
  read _ hpath _ _ h := ⟨(h.1.read (hpaths hpath)).mono fun _ _ _ => rfl, h⟩
  write bytes _ _ h :=
    have hwrite := h.1.write h.2 bytes
    ⟨.of_eq (fun _ => rfl) hwrite.1, hwrite.2⟩
  flush _ _ h := ⟨.ok (), h⟩

theorem link_beside (h : World.Beside places paths log left right)
    (hstream : World.SameStream places log left right stream other) (hpaths : plan.paths ⊆ paths)
    (table : RenameTable) :
    Alike Failure.SameKind ((plan.link (medium World.host stream) table).run left).1
        ((plan.link (medium World.host other) table).run right).1 ∧
      World.Beside places paths log ((plan.link (medium World.host stream) table).run left).2
        ((plan.link (medium World.host other) table).run right).2 := by
  obtain ⟨halike, hbeside, -⟩ := Plan.link_lockstep (medium_lockstep hpaths) table left right ⟨h, hstream⟩
  exact ⟨halike, hbeside⟩

/-- The rename table in a file that is read with the given result. -/
def RenameTable.ofFile (path : Text) (content : Except FileError Bytes) : Except Fault RenameTable :=
  match content with
  | .error cause => .error (.tableUnreadable path cause)
  | .ok bytes =>
    match Utf8.decode? bytes with
    | some text => .ok (.ofText text)
    | none => .error (.tableUnreadable path .notUtf8)

theorem RenameTable.of_ofFile_ok {path : Text} {content : Except FileError Bytes} {table : RenameTable}
    (h : RenameTable.ofFile path content = .ok table) :
    ∃ bytes text, content = .ok bytes ∧ Utf8.decode? bytes = some text ∧ table = .ofText text := by
  cases content with
  | error cause => cases h
  | ok bytes =>
      simp only [ofFile] at h
      cases htext : Utf8.decode? bytes with
      | none => simp [htext] at h
      | some text =>
          rw [htext] at h
          cases h
          exact ⟨bytes, text, rfl, htext, rfl⟩

section

variable {S Stream : Type} (host : Host (StateM S) Stream)

theorem load_run (path : Text) (s : S) :
    (RenameTable.load host.readFile path).run s =
      (RenameTable.ofFile path ((host.readFile path).run s).1, ((host.readFile path).run s).2) := by
  rw [RenameTable.load, StateT.run_bind]
  unfold RenameTable.ofFile
  rcases (host.readFile path).run s with ⟨cause | bytes, s⟩
  · rfl
  · dsimp only
    change StateT.run (match Utf8.decode? bytes with | some text => _ | none => _) s = _
    cases Utf8.decode? bytes <;> rfl

theorem openOutput_run (path : Text) (s : S) :
    (openOutput host (some path)).run s =
      match (host.openFile path .truncate).run s with
      | (.ok stream, s) => (.ok stream, s)
      | (.error cause, s) => (.error (.outputNotCreated path cause), s) := by
  rw [openOutput, StateT.run_bind]
  rcases (host.openFile path .truncate).run s with ⟨_ | _, _⟩ <;> rfl

/-- Linking a program, with what is read and opened before it written out. -/
theorem linkTo_run (plan : Plan) (outfile : Option Text) (s : S) :
    (linkTo host plan outfile).run s =
      match RenameTable.ofFile plan.table ((host.readFile plan.table).run s).1 with
      | .error fault => (.error { fault }, ((host.readFile plan.table).run s).2)
      | .ok table =>
        match (openOutput host outfile).run ((host.readFile plan.table).run s).2 with
        | (.error fault, s) => (.error { fault }, s)
        | (.ok stream, s) => (plan.link (medium host stream) table).run s := by
  rw [linkTo, StateT.run_bind, load_run]
  cases RenameTable.ofFile plan.table ((host.readFile plan.table).run s).1 with
  | error fault => rfl
  | ok table =>
      change StateT.run (openOutput host outfile >>= _) _ = _
      rw [StateT.run_bind]
      rcases (openOutput host outfile).run ((host.readFile plan.table).run s).2 with ⟨_ | _, _⟩ <;> rfl

end

/-- The output is opened in both worlds, or in neither. -/
theorem openOutput_beside (h : World.Beside places paths log left right) {outfile : Option Text}
    (houtfile : ∀ path ∈ outfile, ∀ place, places place → left.tree.locate path ≠ .ok place) :
    (∃ fault fault' : Fault, fault.kind = fault'.kind ∧
      (openOutput World.host outfile).run left = (.error fault, left) ∧
      (openOutput World.host outfile).run right = (.error fault', right)) ∨
    ∃ stream stream' left' right',
      (openOutput World.host outfile).run left = (.ok stream, left') ∧
      (openOutput World.host outfile).run right = (.ok stream', right') ∧
      World.Beside places paths log left' right' ∧
      World.SameStream places log left' right' stream stream' := by
  cases outfile with
  | none => exact .inr ⟨_, _, _, _, rfl, rfl, h, .stdout⟩
  | some path =>
      have hlocate := h.tree.locate path
      rw [openOutput_run, openOutput_run, World.run_openFile, World.run_openFile]
      rcases hleft : left.tree.locate path with cause | place
      · obtain ⟨cause', hright⟩ := (hleft ▸ hlocate).exists_error
        rw [World.openFile_of_locate_error hleft, World.openFile_of_locate_error hright]
        exact .inl ⟨.outputNotCreated path cause, .outputNotCreated path cause', rfl, rfl, rfl⟩
      · have hright := (hlocate.ok_iff place).1 hleft
        have hplace : ¬ places place := fun hplace => houtfile path rfl place hplace hleft
        have hlog : ∀ file ∈ log, right.opened[file.index]? = some file.file :=
          fun file hfile => (h.log file hfile).opened
        have hlength : ∀ file ∈ log, file.index < right.opened.length :=
          fun file hfile => (List.getElem?_eq_some_iff.1 (hlog file hfile)).1
        rw [World.openFile_of_locate hleft, World.openFile_of_locate hright]
        refine .inr ⟨_, _, _, _, rfl, rfl, ?_, ?_⟩
        · have hopened : ∀ file ∈ log,
              (right.opened ++ [{ place, mode := .truncate }])[file.index]? = some file.file := by
            intro file hfile
            rw [List.getElem?_append_left (hlength file hfile)]
            exact hlog file hfile
          by_cases hempties : left.tree.Empties place .truncate
          · have hempties' : right.tree.Empties place .truncate := by
              rwa [FileTree.Empties, ← h.tree.node? place hplace]
            rw [FileTree.afterOpening_of_empties hempties, FileTree.afterOpening_of_empties hempties']
            exact h.put hplace (FileTree.node?_of_locate hleft) hempties.1 [] hopened
          · have hempties' : ¬ right.tree.Empties place .truncate := by
              rwa [FileTree.Empties, ← h.tree.node? place hplace]
            rw [FileTree.afterOpening_of_not_empties hempties, FileTree.afterOpening_of_not_empties hempties']
            exact ⟨h.tree, h.stdout, h.stderr, h.inputs, fun file hfile =>
              ⟨hopened file hfile, (h.log file hfile).node, (h.log file hfile).apart⟩⟩
        · exact .opened List.getElem?_concat_length List.getElem?_concat_length hplace
            fun file hfile => Nat.ne_of_lt (hlength file hfile)

/-- Linking a program has the same outcome in worlds side by side, and leaves them so. -/
theorem linkTo_beside (h : World.Beside places (plan.table :: plan.paths) log left right)
    {outfile : Option Text}
    (houtfile : ∀ path ∈ outfile, ∀ place, places place → left.tree.locate path ≠ .ok place) :
    Alike Failure.SameKind ((linkTo World.host plan outfile).run left).1
        ((linkTo World.host plan outfile).run right).1 ∧
      World.Beside places (plan.table :: plan.paths) log
        ((linkTo World.host plan outfile).run left).2 ((linkTo World.host plan outfile).run right).2 := by
  have htable : Alike (fun fault other => fault.kind = other.kind)
      (RenameTable.ofFile plan.table (left.tree.read plan.table))
      (RenameTable.ofFile plan.table (right.tree.read plan.table)) := by
    have hread := h.read (List.mem_cons_self ..)
    generalize left.tree.read plan.table = content at hread
    generalize right.tree.read plan.table = content' at hread
    cases hread with
    | ok bytes => exact .of_eq (fun _ => rfl) rfl
    | error => exact .error rfl
  rw [linkTo_run, linkTo_run, World.run_readFile, World.run_readFile]
  dsimp only
  generalize RenameTable.ofFile plan.table (left.tree.read plan.table) = found at htable
  generalize RenameTable.ofFile plan.table (right.tree.read plan.table) = found' at htable
  cases htable with
  | error hkind => exact ⟨.error ⟨hkind, rfl⟩, h⟩
  | ok table =>
      rcases openOutput_beside h houtfile with ⟨fault, fault', hkind, hleft, hright⟩ |
        ⟨stream, stream', left', right', hleft, hright, hbeside, hstream⟩
      · rw [hleft, hright]
        exact ⟨.error ⟨hkind, rfl⟩, h⟩
      · rw [hleft, hright]
        exact link_beside hbeside hstream (List.subset_cons_self ..) table

end AsmLink
