import AsmLink.FileError
import AsmLink.Text.Utf8

/-! What linking needs from its surroundings: files to read modules from, and a place to write the
program to. -/

namespace AsmLink

/-- The operations of a surrounding whose effects are those of `m`. -/
structure Medium (m : Type → Type) where
  /-- The content of the file that a path names. -/
  readFile : Text → m (Except FileError Bytes)
  /-- Puts bytes behind what has been written of the program. -/
  write : Bytes → m (Except FileError Unit)
  /-- Makes what has been written visible to all. -/
  flush : m (Except FileError Unit)

end AsmLink
