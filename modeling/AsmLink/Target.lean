import AsmLink.Text.Basic

/-! The simulator that programs are linked for: its registers, and the labels and values its
start-up code uses. -/

namespace AsmLink

/-- What start-up code establishes before a program runs. -/
structure Target where
  /-- The first value of the stack pointer. -/
  stackBase : UInt32 := 8192
  /-- How many numbered registers there are, counted from one. -/
  generalRegisters : UInt8 := 27
  /-- How many floating-point registers there are, counted from zero. -/
  floatRegisters : UInt8 := 32
  /-- The label at which a program begins. -/
  entryLabel : Text := "main".toList
  startLabel : Text := ".start".toList
  initLabel : Text := ".TRaX_INIT".toList
  preambleStartLabel : Text := ".TRaX_START_PREAMBLE".toList
  preambleEndLabel : Text := ".TRaX_END_PREAMBLE".toList
  /-- The register in which an aborted program reports `errorSentinel`. -/
  errorRegister : Text := "$5".toList
  errorSentinel : Int32 := -1

namespace Target

/-- The numbered registers `$1`, `$2` and so on. -/
def numberedRegisters (target : Target) : List Text :=
  (List.range' 1 target.generalRegisters.toNat).map fun n => '$' :: Text.ofNat n

/-- The floating-point registers `$f0`, `$f1` and so on. -/
def floatingRegisters (target : Target) : List Text :=
  (List.range target.floatRegisters.toNat).map fun n => "$f".toList ++ Text.ofNat n

def registers (target : Target) : List Text :=
  ["$HI".toList, "$LO".toList, "$zero".toList, "$at".toList] ++ target.numberedRegisters ++
    ["$gp".toList, "$sp".toList, "$fp".toList, "$ra".toList] ++ target.floatingRegisters ++
    ["$fcc0".toList]

end Target

end AsmLink
