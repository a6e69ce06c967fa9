import AsmLink.Text.Blank
import AsmLink.Text.Lines

/-! The table of mnemonics that the simulator's assembler uses for itself, so that a program's own
use of one is renamed. -/

namespace AsmLink

structure RenameTable where
  names : List Text

namespace RenameTable

/-- What is put behind a renamed mnemonic. -/
def suffix : Text :=
  "_m".toList

/-- The table of the given names, white space around them and blank ones left out. -/
def ofNames (names : List Text) : RenameTable :=
  ⟨(names.map Text.trim).filter (!·.isEmpty)⟩

def ofText (text : Text) : RenameTable :=
  ofNames text.lines

def contains (table : RenameTable) (token : Text) : Bool :=
  table.names.contains token

/-- Whether the token is a listed mnemonic spelled with dots, which the assembler cannot read. -/
def isDotted (table : RenameTable) (token : Text) : Bool :=
  token.contains '.' && table.contains token

/-- The new name of a listed mnemonic. -/
def rename? (table : RenameTable) (token : Text) : Option Text :=
  if table.contains token then some (token ++ suffix) else none

/-- A token with underscores for its dots. -/
def undotted (token : Text) : Text :=
  token.map fun c => if c = '.' then '_' else c

end RenameTable

end AsmLink
