import AsmLink.Fault

/-! Diagnostics: progress notes, warnings about lines, and the fault that ends a run. -/

namespace AsmLink

inductive Severity
  | note
  | warning
  | error
  deriving DecidableEq

namespace Severity

def name : Severity → Text
  | note => "note".toList
  | warning => "warning".toList
  | error => "error".toList

/-- The name of a severity as the header of a diagnostic shows it. -/
def heading : Severity → Text
  | note => "NOTE".toList
  | warning => "WARNING".toList
  | error => "ERROR".toList

end Severity

/-- A message about a module, one of its lines, or the run as a whole. -/
structure Diagnostic where
  severity : Severity
  kind : FaultKind
  message : Text
  /-- The number of the line it is about, counted from one, or zero if it is about none. -/
  line : UInt32 := 0
  /-- The file it is about. -/
  file : Option Text := none
  /-- The line it is about, as it was read. -/
  source : Option Text := none
  deriving DecidableEq

namespace Diagnostic

def ofFault (severity : Severity) (fault : Fault) : Diagnostic where
  severity
  kind := fault.kind
  message := fault.message

def reading (path : Text) : Diagnostic where
  severity := .note
  kind := .unreadable
  message := "Reading ".toList ++ path ++ ['.']
  file := some path

def malformed (fault : Fault) (path : Text) (line : UInt32) (source : Text) : Diagnostic :=
  { ofFault .warning fault with line, file := some path, source := some source }

/-- The code under which a diagnostic is reported: notes share one. -/
def code (diagnostic : Diagnostic) : Text :=
  if diagnostic.severity = .note then "lnk001".toList else diagnostic.kind.code

/-- The number of the line a diagnostic is about, in decimal. -/
def lineText (diagnostic : Diagnostic) : Text :=
  Text.ofNat diagnostic.line.toNat

/-- Where a diagnostic points, as far as that is known. -/
def location (diagnostic : Diagnostic) : Text :=
  match diagnostic.file with
  | some file =>
    if diagnostic.line = 0 then file ++ ": ".toList
    else file ++ ':' :: diagnostic.lineText ++ ": ".toList
  | none => if diagnostic.line = 0 then [] else diagnostic.lineText ++ ": ".toList

/-- A diagnostic as text. A note is its message; anything else says where, how serious and under
which code first, and shows the source line below. -/
def format (diagnostic : Diagnostic) : Text :=
  if diagnostic.severity = .note then diagnostic.message
  else
    let header := diagnostic.location ++ diagnostic.severity.heading ++ " [".toList ++
      diagnostic.code ++ "] - ".toList ++ diagnostic.message
    match diagnostic.source with
    | some source => header ++ '\n' :: diagnostic.lineText.padLeft 5 ++ " | ".toList ++ source
    | none => header

end Diagnostic

end AsmLink
