/-
Running lines one after the other, with nobody to read on for.

Each line is run to its end before the next one begins: its processes are
waited for in the order of their stages, also those in the background.  A
directory that a line changes to stays for the lines behind it.
-/
import PipelineShell.Directory
import PipelineShell.Workplace

namespace PipelineShell

namespace Batch

/-- What comes of a line. -/
inductive Result where
  | refused (e : ParseError)
  /-- The line asks to leave, which is not done. -/
  | exit (argument : Option String)
  /-- The name that the line gave, and that of the directory. -/
  | changed (directory path : String)
  | notChanged (e : DirectoryError)
  /-- The statuses of the stages. -/
  | ended (statuses : List Nat)
  | notLaunched (e : LaunchError)

/-- The result of a line, and what it added to the output and error streams. -/
structure Report where
  result : Result
  output : Bytes
  error : Bytes

open Program

variable {τ : Type}

/-- The command line of a text, checked or, on request, as it is. -/
def commandLine (ops : OperatorSet) (checked : Bool) (text : String) :
    Except ParseError CommandLine :=
  if checked then CommandLine.parse text ops
  else ((tokenize text ops).map CommandLine.ofWords).mapError .lex

/-- Waits for processes, one after the other. -/
def waitAll : List Pid → Program τ (List Nat)
  | [] => return []
  | pid :: rest => do
    let answer ← ask (.wait (some pid) true false)
    let rest ← waitAll rest
    match answer with
    | .ok (some (_, status)) => return status.code :: rest
    | _ => return rest

/-- Runs a command line to its end. -/
def runLine (line : CommandLine) (enter : Stage → τ) : Program τ Result := do
  match line.builtin? with
  | some (.exit argument) => return .exit argument
  | some (.changeDirectory directory) =>
    match ← changeDirectory directory with
    | .ok path => return .changed directory path
    | .error e => return .notChanged e
  | none =>
    match ← line.launch enter none with
    | .ok spawned => return .ended (← waitAll spawned.pids)
    | .error e =>
      match e with
      | .fork started _ =>
        let _ ← waitAll started
        return .notLaunched e
      | e => return .notLaunched e

/-- Runs a line at a workplace. -/
def runText (w : Workplace) (ops : OperatorSet) (checked : Bool) (text : String) :
    Option (Report × Workplace) := do
  let outputBefore := (w.stream w.output).length
  let errorBefore := (w.stream w.error).length
  let (result, w) ← match commandLine ops checked text with
    | .error e => some (Result.refused e, w)
    | .ok line => w.run (runLine line .stage)
  return ({ result, output := (w.stream w.output).drop outputBefore
            error := (w.stream w.error).drop errorBefore }, w)

/-- Runs lines at a workplace. -/
def runAll (ops : OperatorSet) (checked : Bool) : Workplace → List String →
    Option (List Report × Workplace)
  | w, [] => some ([], w)
  | w, text :: rest => do
    let (report, w) ← runText w ops checked text
    let (reports, w) ← runAll ops checked w rest
    return (report :: reports, w)

/-- Ignores what a process of its own must not die of. -/
def prepare : Program τ Unit := do
  let _ ← ask (.setDisposition .brokenPipe .ignored)

/-- Runs lines at a new workplace. -/
def run (f : Furnishing) (ops : OperatorSet) (checked : Bool) (lines : List String) :
    Option (List Report × Workplace) := do
  let ((), w) ← f.workplace.run prepare
  runAll ops checked w lines

end Batch

end PipelineShell
