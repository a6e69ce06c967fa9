import AsmLink.Diagnostic
import AsmLink.Medium
import AsmLink.Routine
import AsmLink.Text.Lines

/-! Linking as a computation: it reads and writes through a medium, keeps account of its progress,
and ends at the first fault. What was done before a fault stays done. -/

namespace AsmLink

/-- How far a run has come. -/
structure Progress where
  /-- How many lines have been written in full. -/
  lines : Nat := 0
  /-- The routines that the lines so far refer to. -/
  routines : RoutineSet := .empty
  diagnostics : List Diagnostic := []

/-- A computation that takes part in a run. -/
abbrev Link (m : Type → Type) :=
  ExceptT Fault (StateT Progress m)

namespace Link

variable {m : Type → Type} [Monad m] {α : Type}

/-- Runs an operation of the medium; if that fails, so does the run. -/
def attempt (fault : FileError → Fault) (operation : m (Except FileError α)) : Link m α := do
  match ← (operation : m (Except FileError α)) with
  | .ok value => pure value
  | .error cause => throw (fault cause)

/-- Adds a diagnostic to those of the run. -/
def report (diagnostic : Diagnostic) : Link m Unit :=
  modify fun progress => { progress with diagnostics := progress.diagnostics ++ [diagnostic] }

/-- Adds to the routines that the run has seen. -/
def observe (routines : RoutineSet) : Link m Unit :=
  modify fun progress => { progress with routines := progress.routines.union routines }

/-- Writes a line. It is counted once it is written in full. -/
def writeLine (medium : Medium m) (line : Text) : Link m Unit := do
  attempt .outputNotWritten (medium.write (Utf8.encode line.terminated))
  modify fun progress => { progress with lines := progress.lines + 1 }

def writeLines (medium : Medium m) (lines : List Text) : Link m Unit :=
  forM lines (writeLine medium)

def flush (medium : Medium m) : Link m Unit :=
  attempt .outputNotWritten medium.flush

end Link

end AsmLink
