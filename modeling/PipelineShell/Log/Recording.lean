/-
Recording how lines are parsed.

The log is opened as often as it is asked for; the lines are recorded in the
log that was opened first, if there is one.
-/
import PipelineShell.Log
import PipelineShell.Workplace

namespace PipelineShell

namespace Log

open Program

variable {τ : Type}

/-- Opens the log a number of times: what came of each, and the log that is open at the end. -/
def startTimes (level path : String) : Nat → Option Log →
    Program τ (List (Except LogError Unit) × Option Log)
  | 0, log => return ([], log)
  | times + 1, log => do
    match ← start level path log with
    | .ok log =>
      let (results, log) ← startTimes level path times log
      return (.ok () :: results, log)
    | .error e =>
      let (results, log) ← startTimes level path times log
      return (.error e :: results, log)

/-- Records how lines are parsed. -/
def recordLines (log : Option Log) (ops : OperatorSet) (lines : List String) : Program τ Unit :=
  match log with
  | none => return ()
  | some log => log.write (lines.flatMap (CommandLine.records · ops))

/-- How much of a file is read at once. -/
def blockSize : Nat := 65536

/-- The rest of an open file. -/
def readRest (fd : Descriptor) : Nat → Bytes → Program τ Bytes
  | 0, gathered => return gathered
  | fuel + 1, gathered => do
    match ← ask (.read fd blockSize) with
    | .ok (b :: data) => readRest fd fuel (gathered ++ b :: data)
    | _ => return gathered

/-- The number of lines in a regular file. -/
def countLines (path : String) : Program τ (Option Nat) := do
  if (nulPosition? path).isSome then return none
  match ← ask (.inspect path true) with
  | .error _ => return none
  | .ok info =>
    if info.kind ≠ .regular then return none
    match ← ask (.open path { reads := true }) with
    | .error _ => return none
    | .ok fd =>
      let content ← readRest fd (info.size / blockSize + 2) []
      let _ ← ask (.close fd)
      return some content.lines.length

/-- What comes of recording. -/
structure Recording where
  results : List (Except LogError Unit)
  /-- The lines of the log file, if it is one. -/
  lines : Option Nat

/-- Opens the log, records how lines are parsed, and counts what the log holds then. -/
def record (level path : String) (times : Nat) (lines : List String) : Program τ Recording := do
  let (results, log) ← startTimes level path times none
  recordLines log .full lines
  return { results, lines := ← countLines path }

end Log

/-- Records at a workplace, with the files that there are afterwards. -/
def Furnishing.record (f : Furnishing) (log : LogSettings) (times : Nat) (lines : List String) :
    Option (Log.Recording × List (String × Option Bytes)) :=
  let path := { Settings.standard with log }.logPath Furnishing.homePath
  (f.workplace.run (Log.record log.level path times lines)).map fun (recording, w) =>
    (recording, w.files)

end PipelineShell
