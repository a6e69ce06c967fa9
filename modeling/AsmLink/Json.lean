import AsmLink.Text.Basic

/-! Values in JSON, written without spaces. -/

namespace AsmLink

/-- A value. Fields are written in the order in which they stand. -/
inductive Json
  | null
  | number (n : Nat)
  | string (text : Text)
  | array (values : List Json)
  | object (fields : List (Text × Json))

namespace Json

/-- The four hexadecimal digits of a code unit. -/
def unitDigits (n : Nat) : Text :=
  let digits := Nat.toDigits 16 n
  List.replicate (4 - digits.length) '0' ++ digits

/-- A character inside a quoted string. Quotes, backslashes and control characters are escaped,
the common ones with a letter. -/
def escape (c : Char) : Text :=
  if c = '"' then ['\\', '"']
  else if c = '\\' then ['\\', '\\']
  else if c = '\x08' then ['\\', 'b']
  else if c = '\t' then ['\\', 't']
  else if c = '\n' then ['\\', 'n']
  else if c = '\x0c' then ['\\', 'f']
  else if c = '\r' then ['\\', 'r']
  else if c.toNat < 0x20 then '\\' :: 'u' :: unitDigits c.toNat
  else [c]

/-- A quoted string. -/
def quote (text : Text) : Text :=
  '"' :: text.flatMap escape ++ ['"']

/-- Written values, with commas between them. -/
def separated (items : List Text) : Text :=
  [','].intercalate items

mutual

def render : Json → Text
  | null => "null".toList
  | number n => Text.ofNat n
  | string text => quote text
  | array values => '[' :: separated (renderValues values) ++ [']']
  | object fields => '\x7b' :: separated (renderFields fields) ++ ['\x7d']

def renderValues : List Json → List Text
  | [] => []
  | value :: rest => render value :: renderValues rest

def renderFields : List (Text × Json) → List Text
  | [] => []
  | (key, value) :: rest => (quote key ++ ':' :: render value) :: renderFields rest

end

def strings (texts : List Text) : Json :=
  array (texts.map string)

/-- A string, or nothing. -/
def optional : Option Text → Json
  | some text => string text
  | none => null

end Json

end AsmLink
