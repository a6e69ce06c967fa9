import AsmLink.Boilerplate
import AsmLink.Module
import AsmLink.Path

/-! Linking a program: the preamble, the entry module, the runtime objects it calls for, and the
stubs. Only what the entry module refers to decides which runtime objects and stubs follow it. -/

namespace AsmLink

/-- What is to be linked, and how. -/
structure Plan where
  /-- The path of the entry module. -/
  entry : Text
  /-- The paths of the runtime objects. -/
  runtimeObjects : List Text := []
  /-- The path of the rename table. -/
  table : Text
  target : Target := {}
  uniquifyLabels : Bool := false

/-- The account of a run that succeeded. -/
structure Report where
  diagnostics : List Diagnostic
  modules : List ModuleSummary
  /-- The runtime objects that were not called for. -/
  skipped : List Text
  /-- The symbols that stubs were added for. -/
  stubs : List Text
  routines : RoutineSet
  outputLines : Nat

/-- The fault that ended a run, and what was reported before. -/
structure Failure where
  fault : Fault
  diagnostics : List Diagnostic := []

/-! ### Runtime objects -/

/-- The routine that a runtime object provides, judged by the name of its file. -/
def Routine.ofPath? (path : Text) : Option Routine :=
  (Path.fileName? path).bind fun name => ofSymbol? (Path.stem name)

/-- Whether a runtime object is called for. One that provides no routine always is. -/
def RoutineSet.callsFor (used : RoutineSet) (path : Text) : Bool :=
  match Routine.ofPath? path with
  | some routine => used.contains routine
  | none => true

namespace Plan

/-- What all modules of the program are linked with. -/
def linker (plan : Plan) (table : RenameTable) : Linker where
  table
  registers := plan.target.registers
  uniquifyLabels := plan.uniquifyLabels

/-- The runtime objects that are called for, with their numbers, which count the others too. -/
def linked (plan : Plan) (used : RoutineSet) : List (Text × Nat) :=
  (plan.runtimeObjects.zipIdx 1).filter fun object => used.callsFor object.1

def skipped (plan : Plan) (used : RoutineSet) : List Text :=
  plan.runtimeObjects.filter fun path => !used.callsFor path

end Plan

/-- Whether the promotion of floating-point numbers is called for and no module defines it. -/
def RoutineSet.needsFloatStub (used : RoutineSet) (modules : List ModuleSummary) : Bool :=
  used.contains .floatPromotion && !modules.any (·.defines.contains .floatPromotion)

def RoutineSet.stubs (used : RoutineSet) (modules : List ModuleSummary) : List Text :=
  (if used.needsFloatStub modules then [Routine.floatPromotion.symbol] else []) ++
    [Boilerplate.stackGuard, Boilerplate.stackFail]

/-- The lines behind the modules of a program. -/
def RoutineSet.stubLines (used : RoutineSet) (modules : List ModuleSummary) (target : Target) :
    List Text :=
  (if used.needsFloatStub modules then Boilerplate.floatStub else []) ++
    Boilerplate.terminal target

/-! ### The run -/

/-- The modules of a program, and the routines that its entry module refers to. -/
structure Assembly where
  modules : List ModuleSummary
  used : RoutineSet

namespace Plan

variable {m : Type → Type} [Monad m]

/-- Reads a module and links it. Bytes that are no text are replaced and not refused. -/
def linkFile (medium : Medium m) (linker : Linker) (file : Text × Nat) : Link m ModuleSummary := do
  Link.report (.reading file.1)
  let bytes ← Link.attempt (.moduleUnreadable file.1) (medium.readFile file.1)
  let summary ← (Module.ofText file.2 file.1 (Utf8.decodeLossy bytes)).link medium linker
  Link.flush medium
  return summary

def assemble (plan : Plan) (medium : Medium m) (table : RenameTable) : Link m Assembly := do
  let linker := plan.linker table
  Link.writeLines medium (Boilerplate.preamble plan.target)
  Link.flush medium
  let entry ← linkFile medium linker (plan.entry, 0)
  let used := (← getThe Progress).routines
  let objects ← (plan.linked used).mapM (linkFile medium linker)
  let modules := entry :: objects
  Link.writeLines medium (used.stubLines modules plan.target)
  Link.flush medium
  return { modules, used }

/-- Links the program with a rename table. A run that fails flushes what it has written. -/
def link (plan : Plan) (medium : Medium m) (table : RenameTable) : m (Except Failure Report) := do
  let (result, progress) ← (plan.assemble medium table).run.run {}
  match result with
  | .ok { modules, used } =>
    return .ok {
      diagnostics := progress.diagnostics
      modules
      skipped := plan.skipped used
      stubs := used.stubs modules
      routines := progress.routines
      outputLines := progress.lines }
  | .error fault =>
    let _ ← medium.flush
    return .error { fault, diagnostics := progress.diagnostics }

end Plan

/-- Reads a rename table, which has to be well-formed text. -/
def RenameTable.load {m : Type → Type} [Monad m]
    (readFile : Text → m (Except FileError Bytes)) (path : Text) :
    m (Except Fault RenameTable) := do
  match ← readFile path with
  | .error cause => return .error (.tableUnreadable path cause)
  | .ok bytes =>
    match Utf8.decode? bytes with
    | some text => return .ok (.ofText text)
    | none => return .error (.tableUnreadable path .notUtf8)

/-- Links the program with the rename table that the plan names. -/
def Plan.linkWithFile {m : Type → Type} [Monad m] (plan : Plan) (medium : Medium m) :
    m (Except Failure Report) := do
  match ← RenameTable.load medium.readFile plan.table with
  | .error fault => return .error { fault }
  | .ok table => plan.link medium table

def Report.warningCount (report : Report) : Nat :=
  report.diagnostics.countP (·.severity == .warning)

end AsmLink
