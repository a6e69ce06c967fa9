import AsmLink.Proofs.Logging

/-! Watching what a run reads and writes. A system can keep a record of that without changing anything
else. Main statement: a run on the system that keeps a record ends as it would on the system itself
(`run_watched`). -/

namespace AsmLink

open CommandLine

/-! ### Systems in lockstep -/

/-- Whether the operations of two systems have the same results from related states and lead to related
states again. -/
structure Host.Lockstep {S T Stream : Type} (R : S → T → Prop) (left : Host (StateM S) Stream)
    (right : Host (StateM T) Stream) : Prop where
  stdout : left.stdout = right.stdout
  stderr : left.stderr = right.stderr
  read : ∀ path, AsmLink.Lockstep R Eq (left.readFile path) (right.readFile path)
  openFile : ∀ path mode, AsmLink.Lockstep R Eq (left.openFile path mode) (right.openFile path mode)
  write : ∀ stream bytes, AsmLink.Lockstep R Eq (left.write stream bytes) (right.write stream bytes)
  flush : ∀ stream, AsmLink.Lockstep R Eq (left.flush stream) (right.flush stream)

namespace Host.Lockstep

variable {S T Stream : Type} {R : S → T → Prop} {left : Host (StateM S) Stream}
  {right : Host (StateM T) Stream}

theorem medium (h : left.Lockstep R right) (stream : Stream) (paths : List Text) :
    (medium left stream).Lockstep R Eq paths (CommandLine.medium right stream) where
  read path _ := (h.read path).mono fun _ _ => .of_eq fun _ => rfl
  write bytes := (h.write stream bytes).mono fun _ _ => .of_eq fun _ => rfl
  flush := (h.flush stream).mono fun _ _ => .of_eq fun _ => rfl

theorem link (h : left.Lockstep R right) (stream : Stream) (plan : Plan) (table : RenameTable) :
    AsmLink.Lockstep R Eq (plan.link (CommandLine.medium left stream) table)
      (plan.link (CommandLine.medium right stream) table) := by
  refine (Plan.link_lockstep (h.medium stream plan.paths) table).mono fun result other halike => ?_
  refine (halike.mono fun failure other heq => ?_).eq
  cases failure
  cases other
  rw [Failure.mk.injEq]
  exact heq

theorem load (h : left.Lockstep R right) (path : Text) :
    AsmLink.Lockstep R Eq (RenameTable.load left.readFile path) (RenameTable.load right.readFile path) := by
  refine (h.read path).bind ?_
  rintro content _ rfl
  cases content with
  | error cause => exact .pure rfl
  | ok bytes =>
      dsimp only
      cases Utf8.decode? bytes <;> exact .pure rfl

theorem openOutput (h : left.Lockstep R right) (outfile : Option Text) :
    AsmLink.Lockstep R Eq (openOutput left outfile) (CommandLine.openOutput right outfile) := by
  cases outfile with
  | none => exact .pure (by rw [h.stdout])
  | some path =>
      refine (h.openFile path .truncate).bind ?_
      rintro result _ rfl
      cases result <;> exact .pure rfl

theorem linkTo (h : left.Lockstep R right) (plan : Plan) (outfile : Option Text) :
    AsmLink.Lockstep R Eq (linkTo left plan outfile) (CommandLine.linkTo right plan outfile) := by
  refine (h.load plan.table).bind ?_
  rintro result _ rfl
  cases result with
  | error fault => exact .pure rfl
  | ok table =>
      refine (h.openOutput outfile).bind ?_
      rintro result _ rfl
      cases result with
      | error fault => exact .pure rfl
      | ok stream => exact h.link stream plan table

theorem openLog (h : left.Lockstep R right) (log : Log) :
    AsmLink.Lockstep R Eq (openLog left log) (CommandLine.openLog right log) := by
  cases log with
  | disabled => exact .pure rfl
  | stderr => exact .pure (by rw [h.stderr])
  | file path mode =>
      refine (h.openFile path mode).bind ?_
      rintro result _ rfl
      cases result <;> exact .pure rfl

theorem print (h : left.Lockstep R right) (stream : Stream) (text : Text) :
    AsmLink.Lockstep R Eq (print left stream text) (CommandLine.print right stream text) :=
  (h.write stream _).bind fun _ _ _ => (h.flush stream).bind fun _ _ _ => .pure rfl

theorem emit (h : left.Lockstep R right) (log : Option Stream) (lines : List Text) :
    AsmLink.Lockstep R Eq (emit left log lines) (CommandLine.emit right log lines) := by
  cases log with
  | none => exact .pure rfl
  | some stream =>
      induction lines with
      | nil => exact .pure rfl
      | cons line rest ih => exact (h.print stream _).bind fun _ _ _ => ih

theorem linkAndReport (h : left.Lockstep R right) (settings : Settings) (plan : Plan) (log : Option Stream) :
    AsmLink.Lockstep R Eq (linkAndReport left settings plan log)
      (CommandLine.linkAndReport right settings plan log) := by
  refine (h.linkTo plan settings.outfile).bind ?_
  rintro result _ rfl
  cases result <;> exact (h.emit log _).bind fun _ _ _ => .pure rfl

theorem complain (h : left.Lockstep R right) (message : Text) :
    AsmLink.Lockstep R Eq (complain left message) (CommandLine.complain right message) := by
  have hprint := h.print left.stderr message.terminated
  refine .bind (V := Eq) ?_ fun _ _ _ => .pure rfl
  rwa [← h.stderr]

theorem execute (h : left.Lockstep R right) (settings : Settings) :
    AsmLink.Lockstep R Eq (execute left settings) (CommandLine.execute right settings) := by
  unfold CommandLine.execute
  split
  · rw [← h.stdout]
    exact (h.print left.stdout _).bind fun _ _ _ => .pure rfl
  · cases settings.plan? with
    | none => exact h.complain _
    | some plan =>
        refine (h.openLog settings.log).bind ?_
        rintro result _ rfl
        cases result with
        | error cause => exact h.complain _
        | ok log => exact h.linkAndReport settings plan log

theorem explain (h : left.Lockstep R right) (stop : Stop) :
    AsmLink.Lockstep R Eq (explain left stop) (CommandLine.explain right stop) := by
  unfold CommandLine.explain
  rw [← h.stdout, ← h.stderr]
  cases stop <;> exact (h.print _ _).bind fun _ _ _ => .pure rfl

/-- A run of the program is in lockstep on systems that are. -/
theorem run (h : left.Lockstep R right) (invocation : Invocation) :
    AsmLink.Lockstep R Eq (run left invocation) (CommandLine.run right invocation) := by
  unfold CommandLine.run
  cases Arguments.parse invocation.arguments with
  | error stop => exact h.explain stop
  | ok arguments =>
      dsimp only
      cases Settings.resolve arguments invocation.environment invocation.defaultTable with
      | error fault => exact h.complain _
      | ok settings => exact h.execute settings

end Host.Lockstep

/-! ### Keeping a record -/

/-- What was read from a path. -/
structure Reading where
  path : Text
  content : Except FileError Bytes

/-- A world with a record of what was read from it and of what was written to it, to which stream. -/
structure Watched where
  world : World
  readings : List Reading := []
  writings : List (Stream × Bytes) := []

namespace Watched

/-- The operations of a system that is a value, with a record of what is read and written. -/
def host : Host (StateM Watched) Stream where
  stdout := .stdout
  stderr := .stderr
  readFile path := fun watched =>
    (watched.world.tree.read path,
      { watched with readings := watched.readings ++ [⟨path, watched.world.tree.read path⟩] })
  openFile path mode := fun watched =>
    ((watched.world.openFile path mode).1, { watched with world := (watched.world.openFile path mode).2 })
  write stream bytes := fun watched =>
    ((watched.world.write stream bytes).1, { watched with
      world := (watched.world.write stream bytes).2
      writings := watched.writings ++ [(stream, bytes)] })
  flush _ := pure (.ok ())

theorem run_readFile (path : Text) (watched : Watched) :
    (host.readFile path).run watched = (watched.world.tree.read path,
      { watched with readings := watched.readings ++ [⟨path, watched.world.tree.read path⟩] }) := rfl

theorem run_openFile (path : Text) (mode : OpenMode) (watched : Watched) :
    (host.openFile path mode).run watched = ((watched.world.openFile path mode).1,
      { watched with world := (watched.world.openFile path mode).2 }) := rfl

theorem run_write (stream : Stream) (bytes : Bytes) (watched : Watched) :
    (host.write stream bytes).run watched = ((watched.world.write stream bytes).1, { watched with
      world := (watched.world.write stream bytes).2
      writings := watched.writings ++ [(stream, bytes)] }) := rfl

theorem host_lockstep : host.Lockstep (fun watched world => watched.world = world) World.host where
  stdout := rfl
  stderr := rfl
  read _ _ _ h := ⟨by rw [← h]; rfl, h⟩
  openFile _ _ _ _ h := ⟨by rw [← h]; rfl, by rw [← h]; rfl⟩
  write _ _ _ _ h := ⟨by rw [← h]; rfl, by rw [← h]; rfl⟩
  flush _ _ _ h := ⟨rfl, h⟩

end Watched

/-- Keeping a record changes neither how a run ends nor what it leaves behind. -/
theorem run_watched (invocation : Invocation) (watched : Watched) :
    ((run Watched.host invocation).run watched).1 = ((run World.host invocation).run watched.world).1 ∧
      ((run Watched.host invocation).run watched).2.world =
        ((run World.host invocation).run watched.world).2 :=
  Watched.host_lockstep.run invocation watched watched.world rfl

end AsmLink
