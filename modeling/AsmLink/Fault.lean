import AsmLink.FileError

/-! What can go wrong in a run: the causes, the kind of each, and its wording. -/

namespace AsmLink

inductive FaultKind
  | commandLine
  | configuration
  | malformedLine
  | unreadable
  | output
  deriving DecidableEq

/-- The code under which faults of a kind are reported. -/
def FaultKind.code : FaultKind → Text
  | commandLine => "lnk101".toList
  | configuration => "lnk102".toList
  | malformedLine => "lnk201".toList
  | unreadable => "lnk501".toList
  | output => "lnk502".toList

/-- A fault, by its cause. -/
inductive Fault
  /-- No entry module was named. -/
  | missingEntry
  /-- An environment variable that takes a truth value holds something else. -/
  | invalidBoolean (variableName value : Text)
  | invalidStackBase (text : Text)
  | tableUnreadable (path : Text) (cause : FileError)
  | moduleUnreadable (path : Text) (cause : FileError)
  | outputNotCreated (path : Text) (cause : FileError)
  | outputNotWritten (cause : FileError)
  /-- A line that is read as an instruction has no tokens. -/
  | noTokens
  /-- A string directive has no quoted string. -/
  | unquotedString
  deriving DecidableEq

namespace Fault

def kind : Fault → FaultKind
  | missingEntry | invalidBoolean .. | invalidStackBase .. => .commandLine
  | tableUnreadable .. => .configuration
  | moduleUnreadable .. => .unreadable
  | outputNotCreated .. | outputNotWritten .. => .output
  | noTokens | unquotedString => .malformedLine

/-- What failed with a file, the file, and why. -/
private def aboutFile (what path : Text) (cause : FileError) : Text :=
  what.withDetail (some (path.withDetail (some cause.message)))

def message : Fault → Text
  | missingEntry => "Missing entry module; pass the assembly file defining main".toList
  | invalidBoolean variableName value =>
    Text.withDetail ("Invalid boolean value for ".toList ++ variableName) (some value)
  | invalidStackBase text => Text.withDetail "Invalid stack base".toList (some text)
  | tableUnreadable path cause => aboutFile "Failed to open mnemonic table".toList path cause
  | moduleUnreadable path cause => aboutFile "Failed to open module".toList path cause
  | outputNotCreated path cause => aboutFile "Failed to create output file".toList path cause
  | outputNotWritten cause =>
    Text.withDetail "Failed to write output".toList (some cause.message)
  | noTokens => "Instruction line has no tokens".toList
  | unquotedString => "String directive without a quoted payload".toList

end Fault

end AsmLink
