import AsmLink.Host.Basic
import AsmLink.Host.FileTree

/-! A system as a value: a tree of files, the files that are open for writing, and what has gone to
the standard streams. Writes are visible to later reads at once. -/

namespace AsmLink

structure OpenFile where
  place : Location
  mode : OpenMode
  /-- Where the next write goes, unless writes are appended. -/
  offset : Nat := 0

inductive Stream
  | stdout
  | stderr
  /-- The file that was opened after so many others. -/
  | opened (index : Nat)

structure World where
  tree : FileTree
  opened : List OpenFile := []
  stdout : Bytes := []
  stderr : Bytes := []

/-- The content after `bytes` are written over it from `offset` on. A gap is filled with zeros. -/
def Bytes.overwrite (content : Bytes) (offset : Nat) (bytes : Bytes) : Bytes :=
  content.take offset ++ List.replicate (offset - content.length) 0 ++ bytes ++
    content.drop (offset + bytes.length)

namespace World

def openFile (path : Text) (mode : OpenMode) (world : World) : Except FileError Stream × World :=
  match world.tree.locate path with
  | .error cause => (.error cause, world)
  | .ok place =>
    let tree :=
      match world.tree.node? place, mode with
      | some (.device _), _ => world.tree
      | some _, .append => world.tree
      | _, _ => world.tree.put place (.file [])
    (.ok (.opened world.opened.length),
      { world with tree, opened := world.opened ++ [{ place, mode }] })

/-- Writes to an open file, and moves on in it. -/
def writeFile (index : Nat) (file : OpenFile) (bytes : Bytes) (world : World) :
    Except FileError Unit × World :=
  match world.tree.node? file.place with
  | some (.file content) =>
    let offset := if file.mode = .append then content.length else file.offset
    (.ok (), { world with
      tree := world.tree.put file.place (.file (Bytes.overwrite content offset bytes))
      opened := world.opened.set index { file with offset := offset + bytes.length } })
  | some (.device .null) => (.ok (), world)
  | some (.device .full) => (.error .noSpace, world)
  | some (.device .stdout) => (.ok (), { world with stdout := world.stdout ++ bytes })
  | some (.device .stderr) => (.ok (), { world with stderr := world.stderr ++ bytes })
  | some .directory => (.error .isDirectory, world)
  | none => (.error .notFound, world)

def write (stream : Stream) (bytes : Bytes) (world : World) : Except FileError Unit × World :=
  match stream with
  | .stdout => (.ok (), { world with stdout := world.stdout ++ bytes })
  | .stderr => (.ok (), { world with stderr := world.stderr ++ bytes })
  | .opened index =>
    match world.opened[index]? with
    | some file => world.writeFile index file bytes
    | none => (.error .notFound, world)

/-- The operations of a system that is a value. -/
def host : Host (StateM World) Stream where
  stdout := .stdout
  stderr := .stderr
  readFile path := fun world => (world.tree.read path, world)
  openFile path mode := fun world => world.openFile path mode
  write stream bytes := fun world => world.write stream bytes
  flush _ := pure (.ok ())

end World

end AsmLink
