import AsmLink.FileError
import AsmLink.Text.Utf8

/-! A tree of directories, files and devices, and how paths are resolved in it. -/

namespace AsmLink

/-- Where something lies in a tree: the names on the way from the root. -/
abbrev Location := List Text

/-- A device that stands in the place of a file. -/
inductive Device
  /-- Takes everything and holds nothing. -/
  | null
  /-- Has no room for anything. -/
  | full
  /-- Passes everything on to the standard output. -/
  | stdout
  /-- Passes everything on to the standard error output. -/
  | stderr
  deriving DecidableEq

/-- What lies at a location. -/
inductive Node
  | directory
  | file (content : Bytes)
  | device (device : Device)
  deriving DecidableEq

/-- What lies where, and the directory at which relative paths start. -/
structure FileTree where
  node? : Location → Option Node
  workDirectory : Location

namespace FileTree

/-- The tree with something else at one location. -/
def put (tree : FileTree) (place : Location) (node : Node) : FileTree :=
  { tree with node? := fun other => if other = place then some node else tree.node? other }

@[simp]
theorem node?_put_self (tree : FileTree) (place : Location) (node : Node) :
    (tree.put place node).node? place = some node := by
  simp [put]

theorem node?_put_of_ne (tree : FileTree) {place other : Location} (node : Node)
    (h : other ≠ place) : (tree.put place node).node? other = tree.node? other := by
  simp [put, h]

/-! ### Resolving paths -/

/-- The greatest length of a name, in bytes. -/
def maxName : Nat := 255

/-- The greatest length of a path, in bytes. -/
def maxPath : Nat := 4095

/-- The location that a name leads to from a directory. An empty name and a single dot lead
nowhere else, two dots lead up, and anything else leads down, whether or not something is there. -/
def step (tree : FileTree) (place : Location) (name : Text) : Except FileError Location :=
  match tree.node? place with
  | none => .error .notFound
  | some .directory =>
    if name.isEmpty || name == ['.'] then .ok place
    else if name == ['.', '.'] then .ok place.dropLast
    else if maxName < (Utf8.encode name).length then .error .nameTooLong
    else .ok (place ++ [name])
  | some _ => .error .notDirectory

/-- The location that a path leads to, by the names between its slashes. -/
def walk (tree : FileTree) (path : Text) (names : List Text) : Except FileError Location :=
  if path.contains '\x00' then .error .nulInName
  else if path.isEmpty then .error .notFound
  else if maxPath < (Utf8.encode path).length then .error .nameTooLong
  else names.foldlM tree.step (if path.startsWith '/' then [] else tree.workDirectory)

def read (tree : FileTree) (path : Text) : Except FileError Bytes := do
  match tree.node? (← tree.walk path (path.splitOn '/')) with
  | none => .error .notFound
  | some .directory => .error .isDirectory
  | some (.file content) => .ok content
  | some (.device _) => .ok []

/-- The location of the file that a path names for writing. There need not be a file yet, but its
directory must exist. A slash at the end asks for a directory, whatever the name before it is. -/
def locate (tree : FileTree) (path : Text) : Except FileError Location := do
  if path.endsWith '/' then
    let names := (path.dropTrailing (· == '/')).splitOn '/'
    let _ ← tree.walk path (names.dropLast ++ [[]])
    .error .isDirectory
  else
    let place ← tree.walk path (path.splitOn '/')
    if tree.node? place == some .directory then .error .isDirectory else .ok place

end FileTree

end AsmLink
