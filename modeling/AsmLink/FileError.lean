import AsmLink.Text.Basic

/-! Why an operation on a file or stream fails, and how the operating system words it. -/

namespace AsmLink

/-- The cause of a failed operation. -/
inductive FileError
  | notFound
  | notDirectory
  | isDirectory
  | noSpace
  | nameTooLong
  /-- A file name that holds the character that ends names. -/
  | nulInName
  /-- Bytes that had to be UTF-8 and are not. -/
  | notUtf8
  /-- Any other cause, in the words of whoever refused. -/
  | refused (reason : Text)
  deriving DecidableEq

namespace FileError

def message : FileError → Text
  | notFound => "No such file or directory (os error 2)".toList
  | notDirectory => "Not a directory (os error 20)".toList
  | isDirectory => "Is a directory (os error 21)".toList
  | noSpace => "No space left on device (os error 28)".toList
  | nameTooLong => "File name too long (os error 36)".toList
  | nulInName => "file name contained an unexpected NUL byte".toList
  | notUtf8 => "stream did not contain valid UTF-8".toList
  | refused reason => reason

end FileError

end AsmLink
