import AsmLink.CommandLine.Settings
import AsmLink.Summary

/-! A run of the program from its command line to its exit status. -/

namespace AsmLink.CommandLine

structure Invocation where
  arguments : List Text
  environment : Environment
  /-- The rename table that is used if none is named. -/
  defaultTable : Text

inductive Status
  | success
  | failure
  /-- The arguments make no sense. -/
  | usage
  deriving DecidableEq

def Status.code : Status → UInt32
  | success => 0
  | failure => 1
  | usage => 2

/-! ### Texts -/

def usage : Text :=
  Text.unlines [
    "Usage: ".toList ++ programName ++ " [OPTIONS] [ENTRY]".toList,
    [],
    "Links assembly modules into a program for the TRaX simulator, beginning with ENTRY.".toList,
    [],
    "  -o, --outfile FILE     where the program goes (standard output)".toList,
    "  -r, --runtime FILE     a module to link after ENTRY; may be repeated".toList,
    "  -m, --mnemonics FILE   the mnemonics to rename (mipsnames.txt beside the program)".toList,
    "      --stack-base N     the first stack pointer (8192)".toList,
    "      --uniquify-labels  tell the local labels of the modules apart".toList,
    "      --format FORMAT    the form of diagnostics: text or json (text)".toList,
    "  -E, --error FILE       where diagnostics go (standard error output)".toList,
    "      --error-append     append to that file".toList,
    "      --no-error         no diagnostics".toList,
    "  -w, --no-warn          no warnings".toList,
    "  -q, --quiet            no diagnostics unless linking fails".toList,
    "      --print-target     describe the simulator and stop".toList,
    "  -h, --help             print this text".toList,
    "  -V, --version          print the version".toList]

/-- What is printed if the arguments do not lead to a run. -/
def Stop.message : Stop → Text
  | .help => usage
  | .version => programTitle.terminated
  | .unknownArgument => Text.terminated "error: there is no such argument".toList
  | .invalidValue => Text.terminated "error: an option has no value or not a valid one".toList
  | .unexpectedValue => Text.terminated "error: an option takes no value".toList
  | .conflict => Text.terminated "error: arguments exclude each other".toList
  | .missingArgument => Text.terminated "error: --error-append requires --error".toList

/-- A diagnostic as a line of the log, without the line end. -/
def Format.line : Format → Diagnostic → Text
  | text, diagnostic => diagnostic.format
  | json, diagnostic => diagnostic.toJson.render

/-- The description of a target that is printed on request. -/
def Format.target : Format → Target → Text
  | text, target => target.describe
  | json, target => target.toJson.render

namespace Settings

def visible (settings : Settings) (diagnostics : List Diagnostic) : List Diagnostic :=
  diagnostics.filter fun diagnostic =>
    settings.showWarnings || diagnostic.severity != .warning

def successLines (settings : Settings) (report : Report) : List Text :=
  if settings.quiet then []
  else
    (settings.visible report.diagnostics).map settings.format.line ++
      match settings.format with
      | .json => [report.toJson.render]
      | .text => []

def faultLine (settings : Settings) (fault : Fault) : Text :=
  match settings.format with
  | .json => (Diagnostic.ofFault .error fault).toJson.render
  | .text => fault.message

/-- The lines that report a failure, the fault last. -/
def failureLines (settings : Settings) (failure : Failure) : List Text :=
  (settings.visible failure.diagnostics).map settings.format.line ++
    [settings.faultLine failure.fault]

end Settings

/-! ### The run -/

section

variable {m : Type → Type} [Monad m] {Stream : Type} (host : Host m Stream)

/-- Prints a text. Whether that works is not asked. -/
def print (stream : Stream) (text : Text) : m Unit := do
  let _ ← host.write stream (Utf8.encode text)
  let _ ← host.flush stream

/-- The surrounding in which a program is written to a stream. -/
def medium (stream : Stream) : Medium m where
  readFile := host.readFile
  write := host.write stream
  flush := host.flush stream

/-- Opens the stream that the program is written to. -/
def openOutput : Option Text → m (Except Fault Stream)
  | none => return .ok host.stdout
  | some path => do
    match ← host.openFile path .truncate with
    | .ok stream => return .ok stream
    | .error cause => return .error (.outputNotCreated path cause)

/-- Links a program. Without a rename table no output is opened. -/
def linkTo (plan : Plan) (outfile : Option Text) : m (Except Failure Report) := do
  match ← RenameTable.load host.readFile plan.table with
  | .error fault => return .error { fault }
  | .ok table =>
    match ← openOutput host outfile with
    | .error fault => return .error { fault }
    | .ok stream => plan.link (medium host stream) table

/-- Opens the stream that diagnostics go to, if they go anywhere. -/
def openLog : Log → m (Except FileError (Option Stream))
  | .disabled => return .ok none
  | .stderr => return .ok (some host.stderr)
  | .file path mode => do
    match ← host.openFile path mode with
    | .ok stream => return .ok (some stream)
    | .error cause => return .error cause

/-- Writes lines to the log, if there is one. -/
def emit (log : Option Stream) (lines : List Text) : m Unit :=
  match log with
  | some stream => forM lines fun line => print host stream line.terminated
  | none => return ()

/-- Links a program, and reports on it to the log. -/
def linkAndReport (settings : Settings) (plan : Plan) (log : Option Stream) : m Status := do
  match ← linkTo host plan settings.outfile with
  | .ok report =>
    emit host log (settings.successLines report)
    return .success
  | .error failure =>
    emit host log (settings.failureLines failure)
    return .failure

def complain (message : Text) : m Status := do
  print host host.stderr message.terminated
  return .failure

def execute (settings : Settings) : m Status := do
  if settings.printTarget then
    print host host.stdout (settings.format.target settings.target).terminated
    return .success
  else
    match settings.plan? with
    | none => complain host Fault.missingEntry.message
    | some plan =>
      match ← openLog host settings.log with
      | .error cause =>
        complain host
          (Text.withDetail "Failed to open diagnostics sink".toList (some cause.message))
      | .ok log => linkAndReport host settings plan log

/-- Says why the arguments do not lead to a run. -/
def explain (stop : Stop) : m Status := do
  match stop with
  | .help | .version =>
    print host host.stdout stop.message
    return .success
  | _ =>
    print host host.stderr stop.message
    return .usage

def run (invocation : Invocation) : m Status :=
  match Arguments.parse invocation.arguments with
  | .error stop => explain host stop
  | .ok arguments =>
    match Settings.resolve arguments invocation.environment invocation.defaultTable with
    | .error fault => complain host fault.message
    | .ok settings => execute host settings

end

end AsmLink.CommandLine
