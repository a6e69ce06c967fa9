import AsmLink.Fault
import AsmLink.Text.Blank
import AsmLink.Token

/-! The classes of source lines. A line is kept, commented out, or left to be renamed by its
first character, its directive and the shape of its tokens. -/

namespace AsmLink

/-- A source line by what becomes of it. -/
inductive Line
  /-- A blank line, a comment, or a line about constructor tables: emitted as it stands. -/
  | verbatim (text : Text)
  /-- A string directive in its one spelling: the directive, a tab, the quoted string. -/
  | quoted (text : Text)
  /-- A directive that the simulator's assembler does not know, commented out. -/
  | suppressed (text : Text)
  /-- A label on a line of its own, without white space around it. -/
  | label (text : Text)
  /-- Anything else: the tokens on it are renamed. -/
  | instruction (text : Text)
  /-- A line that is reported and emitted as it stands. -/
  | malformed (text : Text) (fault : Fault)
  deriving DecidableEq

namespace Line

/-! ### Directives -/

/-- The directives that the simulator's assembler knows. -/
def keptDirectives : List Text :=
  [".byte".toList, ".2byte".toList, ".4byte".toList, ".space".toList, ".file".toList,
    ".loc".toList, ".section".toList, ".ascii".toList, ".text".toList]

/-- The directives that carry a quoted string. -/
def stringDirectives : List Text :=
  [".asciz".toList, ".ascii".toList]

/-- The mark of lines about constructor tables. -/
def constructorTable : Text :=
  ".ctors".toList

/-- Whether a character ends the name of a directive. -/
def endsName (c : Char) : Bool :=
  Text.isBlank c || c == ',' || c == '"'

/-- The name of the directive that a trimmed line begins with. -/
def directiveName (trimmed : Text) : Text :=
  trimmed.takeWhile (!endsName ·)

/-- The line as a comment. A line that is one already stays as it is. -/
def commentOut (line : Text) : Text :=
  if line.trimStart.startsWith '#' then line else '#' :: line

/-! ### Classes -/

/-- Whether a text is a label and nothing else: one token, with a colon at its end. -/
def isLabel (text : Text) : Bool :=
  2 ≤ text.length && text.endsWith ':' && (Token.tokenize text).length == 1

/-- The class of a line that carries the string directive `name`. -/
def ofString (line trimmed name : Text) : Line :=
  match trimmed.dropWhile (· != '"') with
  | [] => malformed line .unquotedString
  | payload => quoted (name ++ '\t' :: payload)

/-- The class of a line whose directive, if it has one, is known. -/
def ofPlain (line trimmed : Text) : Line :=
  if isLabel trimmed then label trimmed else instruction line

/-- The class of a line that begins with a directive. -/
def ofDirective (line trimmed : Text) : Line :=
  let name := directiveName trimmed
  if stringDirectives.contains name then ofString line trimmed name
  else if trimmed.mentions constructorTable then verbatim line
  else if keptDirectives.contains name then ofPlain line trimmed
  else suppressed (commentOut line)

/-- The class of a line. Line ends that are still attached to it do not count. -/
def classify (line : Text) : Line :=
  let line := line.dropTrailing fun c => c == '\r' || c == '\n'
  let trimmed := line.trim
  if trimmed.isEmpty || trimmed.startsWith '#' then verbatim line
  else if trimmed.startsWith '.' then ofDirective line trimmed
  else ofPlain line trimmed

end Line

end AsmLink
