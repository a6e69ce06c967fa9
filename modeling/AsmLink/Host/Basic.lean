import AsmLink.FileError
import AsmLink.Text.Utf8

/-! What a run of the program needs from the system it runs on. -/

namespace AsmLink

/-- How a file is opened for writing. It is created if it does not exist. -/
inductive OpenMode
  /-- The file is emptied, and writing starts at its front. -/
  | truncate
  /-- The file is kept, and whatever is written goes to its end. -/
  | append
  deriving DecidableEq

/-- The operations of a system whose effects are those of `m`, with its streams of output. -/
structure Host (m : Type → Type) (Stream : Type) where
  stdout : Stream
  stderr : Stream
  /-- The content of the file that a path names. -/
  readFile : Text → m (Except FileError Bytes)
  openFile : Text → OpenMode → m (Except FileError Stream)
  write : Stream → Bytes → m (Except FileError Unit)
  flush : Stream → m (Except FileError Unit)

end AsmLink
