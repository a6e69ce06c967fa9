import AsmLink.LabelSet

/-! Telling the local labels of linked modules apart. A label that begins with a dollar sign gets
the number of its module put behind that sign. Registers begin with a dollar sign too and keep
their names. -/

namespace AsmLink

/-- The number of a module and the registers that are not to be taken for its labels. -/
structure Uniquifier where
  moduleId : Nat
  registers : List Text

namespace Uniquifier

/-- The text with the digits put behind each dollar sign at which one of the labels is read. The
longest label that fits is read, the first `inside` characters belong to a label already read, and
a dollar sign inside a label that is being read is left alone. -/
def mark (digits : Text) (labels : LabelSet) : Nat → Text → Text
  | _, [] => []
  | inside + 1, c :: rest => c :: mark digits labels inside rest
  | 0, c :: rest =>
    if c = '$' then
      match labels.longestDollar? (c :: rest) with
      | some label => '$' :: digits ++ mark digits labels (label.length - 1) rest
      | none => '$' :: mark digits labels 0 rest
    else c :: mark digits labels 0 rest

/-- A token with the labels in it made unique. A token that begins with a dollar sign names a
label there in any case, unless it is a register, with or without colons behind it. -/
def apply (uniquifier : Uniquifier) (labels : LabelSet) (token : Text) : Text :=
  let digits := Text.ofNat uniquifier.moduleId
  match token with
  | '$' :: rest =>
    if uniquifier.registers.contains (token.dropTrailing (· == ':')) then token
    else '$' :: digits ++ mark digits labels 0 rest
  | _ => mark digits labels 0 token

end Uniquifier

end AsmLink
