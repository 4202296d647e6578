/-
The command line: an interactive session on a machine of its own.

The input of the program is the input of the session.  What the session wrote
to its streams is written when it is over, and its exit code is the program's.
-/
import PipelineShell.Session

namespace PipelineShell

/-- Reads a stream to its end. -/
partial def readAll (stream : IO.FS.Stream) (before : ByteArray) : IO ByteArray := do
  let block ← stream.read 65536
  if block.isEmpty then return before else readAll stream (before ++ block)

def writeBytes (stream : IO.FS.Stream) (b : Bytes) : IO Unit := do
  stream.write ⟨b.toArray⟩
  stream.flush

/-- The exit code of a session that would never end. -/
def stuck : UInt32 := 124

/-- Runs a session on the input. -/
def runInteractive : IO UInt32 := do
  let input ← readAll (← IO.getStdin) .empty
  match Session.complete { input := .file input.data.toList } .plain none with
  | none => return stuck
  | some outcome =>
    writeBytes (← IO.getStdout) (outcome.place.stream outcome.place.output)
    writeBytes (← IO.getStderr) (outcome.place.stream outcome.place.error)
    return outcome.code.toUInt32

end PipelineShell

def main : IO UInt32 := PipelineShell.runInteractive
