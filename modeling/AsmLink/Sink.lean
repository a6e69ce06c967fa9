import AsmLink.Medium

/-! A sink of limited capacity, as a surrounding for linking from a fixed collection of files. A write
for which there is no room leaves as many of its bytes as there is room for. -/

namespace AsmLink

/-- A sink that takes so many bytes, and so many flushes, and then refuses. -/
structure Sink where
  /-- What it has taken. -/
  written : Bytes := []
  /-- How many bytes it still takes, if there is a limit. -/
  room : Option Nat := none
  /-- How many flushes it still takes, if there is a limit. -/
  flushes : Option Nat := none

namespace Sink

/-- Writes as many of the bytes as there is room for. -/
def write (bytes : Bytes) (sink : Sink) : Except FileError Unit × Sink :=
  match sink.room with
  | none => (.ok (), { sink with written := sink.written ++ bytes })
  | some room =>
    if bytes.length ≤ room then
      (.ok (), { sink with written := sink.written ++ bytes, room := some (room - bytes.length) })
    else
      (.error (.refused "sink full".toList),
        { sink with written := sink.written ++ bytes.take room, room := some 0 })

/-- Flushes, which is refused once the last flush is used up. -/
def flush (sink : Sink) : Except FileError Unit × Sink :=
  match sink.flushes with
  | none => (.ok (), sink)
  | some 0 => (.error (.refused "flush refused".toList), sink)
  | some (left + 1) => (.ok (), { sink with flushes := some left })

/-- The surrounding in which `files` says what each path holds and the program goes to a sink. -/
def medium (files : Text → Except FileError Bytes) : Medium (StateM Sink) where
  readFile path := pure (files path)
  write bytes := fun sink => sink.write bytes
  flush := fun sink => sink.flush

end Sink

end AsmLink
