import AsmLink.RenameTable
import AsmLink.Routine
import AsmLink.Target

/-! The fixed lines around the modules of a program: the start-up code in front, and the stubs of
routines that the simulator supplies in name only. -/

namespace AsmLink.Boilerplate

def stackGuard : Text :=
  "__stack_chk_guard".toList

/-- The symbol of the routine that is called when the stack guard is found damaged. -/
def stackFail : Text :=
  "__stack_chk_fail".toList

/-- The line that defines a label. -/
def definition (label : Text) : Text :=
  label ++ [':']

theorem endsWith_definition (label : Text) : (definition label).endsWith ':' = true := by
  rw [Text.endsWith, definition, List.getLast?_concat]
  rfl

/-- The line that jumps to a label and comes back. -/
def call (label : Text) : Text :=
  "\tbal\t$ra, ".toList ++ label

/-- The line that sets a register to zero with the renamed exclusive or. -/
def clear (register : Text) : Text :=
  "\txor".toList ++ RenameTable.suffix ++ '\t' :: register ++ ", ".toList ++ register ++
    ", ".toList ++ register

/-- Start-up code: the registers are declared, the stack is set up, the program is called, and a
program that aborts says so. -/
def preamble (target : Target) : List Text :=
  ["#BEGIN Preamble".toList] ++
  target.registers.map ("\tREG\t".toList ++ ·) ++
  [definition target.preambleStartLabel,
    clear "$zero".toList,
    clear "$gp".toList,
    "\tLOADIMM\t$sp, ".toList ++ Text.ofNat target.stackBase.toNat,
    call target.initLabel,
    "\tnop".toList,
    definition target.startLabel,
    call target.entryLabel,
    "\tnop".toList,
    "\tHALT".toList,
    definition "abort".toList,
    "\taddi\t".toList ++ target.errorRegister ++ ", $zero, ".toList ++
      Text.ofInt target.errorSentinel.toInt,
    "\tPRINT\t".toList ++ target.errorRegister,
    "\tHALT".toList,
    "#END Preamble".toList,
    definition target.preambleEndLabel]

/-- A stand-in for the promotion of floating-point numbers. The simulator has no wide ones, so
half of the result stays undefined. -/
def floatStub : List Text :=
  ["#promote a float to a double".toList,
    "#since TRaX does not support double, this does nothing".toList,
    "#other 32 bits of the double will be undefined".toList,
    definition Routine.floatPromotion.symbol,
    "\tFTOD $2 $3 $f12".toList,
    "\tjr $ra".toList,
    "\tnop".toList]

/-- The stack protection, which never triggers, and the label at which the assembler adds its own
initialization. -/
def terminal (target : Target) : List Text :=
  [definition stackGuard,
    ".4byte 0".toList,
    definition stackFail,
    "jr $ra".toList,
    "nop".toList,
    definition target.initLabel,
    "# ".toList ++ target.initLabel ++
      " instructions are not emitted by compiler, but added by assembler".toList]

end AsmLink.Boilerplate
