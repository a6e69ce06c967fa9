import AsmLink.CommandLine.Arguments
import AsmLink.Host.Basic
import AsmLink.Program
import AsmLink.StackBase

/-! The settings of a run, from the arguments and the environment. Arguments win over the
environment, but what is wrong in the environment is reported first. -/

namespace AsmLink.CommandLine

/-! ### The environment -/

/-- The environment keys that the program reads. -/
inductive Variable
  | mnemonics
  | runtimeObjects
  | stackBase
  | uniquifyLabels
  | quiet
  | noWarn
  | errorFile
  | errorAppend
  | noError
  deriving DecidableEq

def Variable.all : List Variable :=
  [mnemonics, runtimeObjects, stackBase, uniquifyLabels, quiet, noWarn, errorFile, errorAppend,
    noError]

def Variable.name : Variable → Text
  | mnemonics => "TRAXLINK_MNEMONICS".toList
  | runtimeObjects => "TRAXLINK_RUNTIME_OBJECTS".toList
  | stackBase => "TRAXLINK_STACK_BASE".toList
  | uniquifyLabels => "TRAXLINK_UNIQUIFY_LABELS".toList
  | quiet => "TRAXLINK_QUIET".toList
  | noWarn => "TRAXLINK_NO_WARN".toList
  | errorFile => "TRAXLINK_ERROR_FILE".toList
  | errorAppend => "TRAXLINK_ERROR_APPEND".toList
  | noError => "TRAXLINK_NO_ERROR".toList

/-- The variables that are set, with their values. -/
abbrev Environment := Variable → Option Text

namespace Environment

/-- The trimmed value of a variable. A blank one counts as unset. -/
def text? (environment : Environment) (key : Variable) : Option Text :=
  ((environment key).map Text.trim).filter (!·.isEmpty)

/-- The paths that a variable lists with colons between them. -/
def paths (environment : Environment) (key : Variable) : List Text :=
  match environment key with
  | some list => (list.splitOn ':').filter (!·.isEmpty)
  | none => []

def affirmations : List Text :=
  ["1".toList, "true".toList, "yes".toList, "on".toList]

def negations : List Text :=
  ["0".toList, "false".toList, "no".toList, "off".toList]

/-- The truth value of a variable, in any case of letters, or nothing if it is unset or blank. -/
def truth? (environment : Environment) (key : Variable) : Except Fault (Option Bool) :=
  match environment key with
  | none => .ok none
  | some raw =>
    let value := (Text.trim raw).map Char.toLower
    if affirmations.contains value then .ok (some true)
    else if negations.contains value then .ok (some false)
    else if value.isEmpty then .ok none
    else .error (.invalidBoolean key.name value)

end Environment

/-! ### Settings -/

/-- The name of the rename table that lies beside the program. -/
def defaultTableName : Text :=
  "mipsnames.txt".toList

inductive Log
  | stderr
  | file (path : Text) (mode : OpenMode)
  | disabled

structure Settings where
  entry : Option Text
  runtimeObjects : List Text
  table : Text
  stackBase : UInt32
  uniquifyLabels : Bool
  outfile : Option Text
  printTarget : Bool
  quiet : Bool
  showWarnings : Bool
  format : Format
  log : Log

namespace Settings

/-- Where diagnostics go, given whether they are switched off, appended, and routed to a file. -/
def route (disabled append : Bool) (file : Option Text) : Log :=
  if disabled then .disabled
  else match file with
    | some path => .file path (if append then .append else .truncate)
    | none => .stderr

/-- The stack base that a text denotes, or the usual one if there is no text. -/
def readStackBase : Option Text → Except Fault UInt32
  | none => .ok ({} : Target).stackBase
  | some text =>
    match StackBase.ofText? text with
    | some base => .ok base
    | none => .error (.invalidStackBase text)

/-- Settles a run. `defaultTable` is the rename table that is used if none is named. -/
def resolve (arguments : Arguments) (environment : Environment) (defaultTable : Text) :
    Except Fault Settings := do
  let uniquifyLabels ← environment.truth? .uniquifyLabels
  let quiet ← environment.truth? .quiet
  let noWarn ← environment.truth? .noWarn
  let errorAppend ← environment.truth? .errorAppend
  let noError ← environment.truth? .noError
  if arguments.entry?.isNone && !arguments.has .printTarget then throw .missingEntry
  let stackBase ←
    readStackBase ((arguments.value? .stackBase).or (environment.text? .stackBase))
  let errorFile := arguments.value? .errorFile
  return {
    entry := arguments.entry?
    runtimeObjects := environment.paths .runtimeObjects ++ arguments.values .runtime
    table := ((arguments.value? .mnemonics).or (environment.text? .mnemonics)).getD defaultTable
    stackBase
    uniquifyLabels := arguments.has .uniquifyLabels || uniquifyLabels.getD false
    outfile := arguments.value? .outfile
    printTarget := arguments.has .printTarget
    quiet := arguments.has .quiet || quiet.getD false
    showWarnings := !(arguments.has .noWarn || noWarn.getD false)
    format := arguments.format
    log := route (arguments.has .noError || errorFile.isNone && noError.getD false)
      (arguments.has .errorAppend || errorAppend.getD false)
      (errorFile.or (environment.text? .errorFile)) }

def target (settings : Settings) : Target :=
  { stackBase := settings.stackBase }

/-- What is to be linked, if an entry module is named. -/
def plan? (settings : Settings) : Option Plan :=
  settings.entry.map fun entry => {
    entry
    runtimeObjects := settings.runtimeObjects
    table := settings.table
    target := settings.target
    uniquifyLabels := settings.uniquifyLabels }

end Settings

end AsmLink.CommandLine
