import AsmLink.Text.Blank
import AsmLink.Text.Numeral

/-! The notation for stack bases: decimal, or hexadecimal behind `0x`, with underscores anywhere
among the digits and white space around. -/

namespace AsmLink.StackBase

/-- A numeral without its underscores. -/
def compact (numeral : Text) : Text :=
  numeral.filter (· != '_')

/-- The stack base that a trimmed text denotes. -/
def ofTrimmed? : Text → Option UInt32
  | '0' :: 'x' :: numeral => Text.word? 16 (compact numeral)
  | '0' :: 'X' :: numeral => Text.word? 16 (compact numeral)
  | numeral => Text.word? 10 (compact numeral)

def ofText? (text : Text) : Option UInt32 :=
  ofTrimmed? text.trim

end AsmLink.StackBase
