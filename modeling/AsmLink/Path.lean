import AsmLink.Text.Basic

/-! Paths as text. Slashes separate the names on the way to a file. -/

namespace AsmLink.Path

/-- The name of the file or directory that a path ends in. Empty names and single dots do not
count, and a path that climbs last has no name. -/
def fileName? (path : Text) : Option Text :=
  let names := (path.splitOn '/').filter fun name => !name.isEmpty && name != ['.']
  names.getLast?.filter (· != ['.', '.'])

/-- A name without its extension, which begins at the last dot. A dot in front begins none. -/
def stem (name : Text) : Text :=
  match name.reverse.dropWhile (· != '.') with
  | [] => name
  | [_] => name
  | _ :: before => before.reverse

end AsmLink.Path
