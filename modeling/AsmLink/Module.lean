import AsmLink.Line
import AsmLink.Link
import AsmLink.Renamer

/-! Linking one module: each line of it becomes one line of the program. What a line becomes
depends on the line and on the labels of its module alone, so it is settled before anything is
written. -/

namespace AsmLink

/-- The lines of a module, the path they come from, and the module's number in the program. -/
structure Module where
  id : Nat
  path : Text
  lines : List Text

/-- What all modules of a program are linked with. -/
structure Linker where
  table : RenameTable
  registers : List Text
  uniquifyLabels : Bool := false

/-! ### Rendering a line -/

inductive Outcome
  | passed
  | suppressed
  | label
  | instruction
  | malformed (fault : Fault)
  deriving DecidableEq

/-- What is wrong with a line, if anything is. -/
def Outcome.fault? : Outcome → Option Fault
  | malformed fault => some fault
  | _ => none

/-- What a line becomes, and the routines it refers to. -/
structure Rendition where
  text : Text
  outcome : Outcome
  routines : RoutineSet := .empty

/-- Renders a line. An instruction without tokens leaves an empty line behind. -/
def Renamer.render (renamer : Renamer) (line : Text) : Rendition :=
  match Line.classify line with
  | .verbatim text => ⟨text, .passed, .empty⟩
  | .quoted text => ⟨text, .passed, .empty⟩
  | .suppressed text => ⟨text, .suppressed, .empty⟩
  | .label text => ⟨renamer.unique text, .label, .empty⟩
  | .instruction text =>
    match renamer.line? text with
    | some renamed => ⟨renamed, .instruction, .ofTokens (Token.tokenize text)⟩
    | none => ⟨[], .malformed .noTokens, .empty⟩
  | .malformed text fault => ⟨text, .malformed fault, .empty⟩

/-- What a module's line contributes: its rendition, and a warning if it is malformed. -/
structure Emission extends Rendition where
  warning : Option Diagnostic

/-! ### Linking a module -/

/-- What there is to say about a module once it is linked. -/
structure ModuleSummary where
  id : Nat
  path : Text
  inputLines : Nat
  instructions : Nat
  labels : Nat
  suppressed : Nat
  passthrough : Nat
  malformed : Nat
  /-- The routines that the module defines. -/
  defines : List Routine

namespace Module

def ofText (id : Nat) (path text : Text) : Module :=
  ⟨id, path, text.lines⟩

def labels (module : Module) : LabelSet :=
  .ofLines module.lines

/-- What decides the names on the lines of the module. -/
def renamer (module : Module) (linker : Linker) : Renamer where
  labels := module.labels
  table := linker.table
  uniquifier :=
    if linker.uniquifyLabels then some ⟨module.id, linker.registers⟩ else none

/-- What the line at a position contributes. Line numbers count from one. -/
def emission (module : Module) (renamer : Renamer) (position : Nat) (line : Text) : Emission :=
  let rendition := renamer.render line
  { rendition with
    warning := rendition.outcome.fault?.map fun fault =>
      .malformed fault module.path (UInt32.ofNat position + 1) line }

/-- What the module contributes, line by line. -/
def emissions (module : Module) (linker : Linker) : List Emission :=
  module.lines.mapIdx (module.emission (module.renamer linker))

/-- The summary of the module, given what it contributes. -/
def summary (module : Module) (emissions : List Emission) : ModuleSummary where
  id := module.id
  path := module.path
  inputLines := module.lines.length
  instructions := emissions.countP (·.outcome == .instruction)
  labels := module.labels.size
  suppressed := emissions.countP (·.outcome == .suppressed)
  passthrough := emissions.countP (·.outcome == .passed)
  malformed := emissions.countP (·.outcome.fault?.isSome)
  defines := Routine.all.filter fun routine => routine.symbol ∈ module.labels

variable {m : Type → Type} [Monad m]

/-- Emits a line: notes the routines it refers to, warns if it is malformed, and writes it. -/
def emit (medium : Medium m) (emission : Emission) : Link m Unit := do
  Link.observe emission.routines
  match emission.warning with
  | some warning => Link.report warning
  | none => pure ()
  Link.writeLine medium emission.text

/-- Links the module. Only a failing output stops it. -/
def link (medium : Medium m) (linker : Linker) (module : Module) : Link m ModuleSummary := do
  let emissions := module.emissions linker
  forM emissions (emit medium)
  return module.summary emissions

end Module

end AsmLink
