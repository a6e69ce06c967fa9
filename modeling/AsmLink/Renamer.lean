import AsmLink.RenameTable
import AsmLink.Routine
import AsmLink.Token
import AsmLink.Uniquifier

/-! Renaming what stands on a line. Mnemonics that the simulator's assembler claims get new names,
and local labels are made unique if that is asked for. Each token is renamed by itself. -/

namespace AsmLink

/-- What decides the names on the lines of one module. -/
structure Renamer where
  labels : LabelSet
  table : RenameTable
  uniquifier : Option Uniquifier := none

namespace Renamer

/-- Whether a token refers to a label of the module. Directives and names with a dollar sign do
not count. -/
def refersToLabel (renamer : Renamer) (token : Text) : Bool :=
  !token.startsWith '.' && !token.startsWith '$' && renamer.labels.mentionedIn token

/-- A token spelled so that the assembler can read it: dots give way in a listed mnemonic, but not
in a reference to a label. -/
def respell (renamer : Renamer) (token : Text) : Text :=
  if !renamer.refersToLabel token && renamer.table.isDotted token then
    RenameTable.undotted token
  else token

/-- A token under its new name, if the table lists its spelling. -/
def renamed (renamer : Renamer) (token : Text) : Text :=
  let spelling := renamer.respell token
  (renamer.table.rename? spelling).getD spelling

/-- A text with the labels in it made unique, if that is asked for. -/
def unique (renamer : Renamer) (token : Text) : Text :=
  match renamer.uniquifier with
  | some uniquifier => uniquifier.apply renamer.labels token
  | none => token

def token (renamer : Renamer) (token : Text) : Text :=
  renamer.unique (renamer.renamed token)

/-- Tokens as they follow the first on a line: a tab before each. -/
def spaced (tokens : List Text) : Text :=
  tokens.flatMap ('\t' :: ·)

/-- Tokens as a line. A definition in front stands at the margin; a tab precedes all else. -/
def join : List Text → Text
  | [] => []
  | first :: rest =>
    if first.endsWith ':' then first ++ spaced rest else spaced (first :: rest)

/-- A line as it is emitted, or nothing for a line without tokens. -/
def line? (renamer : Renamer) (line : Text) : Option Text :=
  match Token.tokenize line with
  | [] => none
  | tokens => some (join (tokens.map renamer.token))

/-! ### Keeping account of routines -/

def tokenWith (renamer : Renamer) (seen : RoutineSet) (token : Text) : Text × RoutineSet :=
  (renamer.token token, seen.observe [token])

def lineWith (renamer : Renamer) (seen : RoutineSet) (line : Text) : Option Text × RoutineSet :=
  (renamer.line? line, seen.observe (Token.tokenize line))

end Renamer

end AsmLink
