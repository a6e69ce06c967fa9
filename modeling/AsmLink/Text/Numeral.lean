import AsmLink.Text.Basic

/-! Reading numbers of 32 bits from their digits. -/

namespace AsmLink.Text

/-- The value of a character as a digit, letters of either case counting on from ten. -/
def digitValue? (c : Char) : Option Nat :=
  if '0' ≤ c ∧ c ≤ '9' then some (c.toNat - '0'.toNat)
  else if 'a' ≤ c ∧ c ≤ 'z' then some (c.toNat - 'a'.toNat + 10)
  else if 'A' ≤ c ∧ c ≤ 'Z' then some (c.toNat - 'A'.toNat + 10)
  else none

/-- The value of a character as a digit of the given base. -/
def digit? (base : Nat) (c : Char) : Option Nat :=
  (digitValue? c).filter (· < base)

/-- The number that one or more digits stand for. -/
def digitsValue? (base : Nat) (digits : Text) : Option Nat :=
  if digits.isEmpty then none
  else digits.foldlM (fun value c => (digit? base c).map (value * base + ·)) 0

/-- A numeral without the plus sign that may stand in front of it. -/
def withoutPlus : Text → Text
  | '+' :: digits => digits
  | digits => digits

/-- The number of 32 bits that a numeral stands for. -/
def word? (base : Nat) (numeral : Text) : Option UInt32 :=
  ((digitsValue? base (withoutPlus numeral)).filter (· < UInt32.size)).map UInt32.ofNat

end AsmLink.Text
