import AsmLink.CommandLine.Run

/-! The program on the system it is started on. -/

namespace AsmLink

open CommandLine

/-- The cause of a failed operation, in the words of the system. -/
def FileError.ofSystem (error : IO.Error) : FileError :=
  let worded (code : UInt32) (details : String) : FileError :=
    .refused (details.toList ++ " (os error ".toList ++ Text.ofNat code.toNat ++ [')'])
  match error with
  | .alreadyExists _ code details | .interrupted _ code details
  | .noFileOrDirectory _ code details | .invalidArgument _ code details
  | .permissionDenied _ code details | .resourceExhausted _ code details
  | .inappropriateType _ code details | .noSuchThing _ code details => worded code details
  | .otherError code details | .resourceBusy code details | .resourceVanished code details
  | .unsupportedOperation code details | .hardwareFault code details
  | .unsatisfiedConstraints code details | .illegalOperation code details
  | .protocolError code details | .timeExpired code details => worded code details
  | .unexpectedEof => .refused "unexpected end of file".toList
  | .userError reason => .refused reason.toList

/-- Runs an operation of the system on a path, which cannot hold the character that ends names. -/
def onPath {α : Type} (path : Text) (operation : String → IO α) : IO (Except FileError α) :=
  if path.contains '\x00' then return .error .nulInName
  else try return .ok (← operation (String.ofList path)) catch error =>
    return .error (.ofSystem error)

def systemHost : IO (Host IO IO.FS.Stream) := do
  return {
    stdout := ← IO.getStdout
    stderr := ← IO.getStderr
    readFile := fun path => onPath path fun name => do
      return (← (← IO.FS.Handle.mk name .read).readBinToEnd).toList
    openFile := fun path mode => onPath path fun name => do
      return .ofHandle (← IO.FS.Handle.mk name (if mode = .append then .append else .write))
    write := fun stream bytes => do
      try return .ok (← stream.write ⟨bytes.toArray⟩) catch error =>
        return .error (.ofSystem error)
    flush := fun stream => do
      try return .ok (← stream.flush) catch error => return .error (.ofSystem error) }

def systemEnvironment : IO Environment := do
  let values ← Variable.all.mapM fun key => do
    return (key, ← IO.getEnv (String.ofList key.name))
  return fun key => ((values.lookup key).join).map String.toList

def systemTable : IO Text := do
  let name := String.ofList defaultTableName
  match (← IO.appPath).parent with
  | some directory => return (directory / name).toString.toList
  | none => return defaultTableName

end AsmLink

/-- Runs the program with the arguments and the environment it was started with. -/
def main (arguments : List String) : IO UInt32 := do
  let status ← AsmLink.CommandLine.run (← AsmLink.systemHost) {
    arguments := arguments.map String.toList
    environment := ← AsmLink.systemEnvironment
    defaultTable := ← AsmLink.systemTable }
  return status.code
