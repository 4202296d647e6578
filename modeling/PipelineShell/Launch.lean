/-
Starting a pipeline: a process for each stage, joined by pipes.

`Plan.ofCommandLine` makes the arguments and file names ready; a NUL in one of
them is an error before anything has happened.  `Plan.launch` makes the pipes,
one fewer than there are stages, and forks the stages in order; whatever goes
wrong, the caller keeps no end of a pipe.  `Stage.program` is what a stage does
between the fork and its command: it joins the group of the first stage, takes
the terminal if it is given one, connects its ends of the pipes, opens the
files that it is redirected to and executes the command.

A call that is interrupted is made again and counts as one call.
-/
import PipelineShell.CommandLine
import PipelineShell.Machine.Request

namespace PipelineShell

/-- A pipe, by its end to read and its end to write. -/
abbrev Pipe := Descriptor × Descriptor

structure Spawned where
  /-- The process of the first stage. -/
  group : Pid
  /-- In the order of the stages. -/
  pids : List Pid
deriving DecidableEq, Repr

inductive LaunchError where
  /-- An argument or a file name holds a NUL behind this many bytes. -/
  | invalidArgument (position : Nat)
  | pipe (e : Errno)
  /-- These stages had been started before. -/
  | fork (spawned : List Pid) (e : Errno)
deriving DecidableEq, Repr

namespace LaunchError

/-- What lies behind the error. -/
def cause : LaunchError → String
  | .invalidArgument position =>
    "nul byte found in provided data at position: " ++ toString position
  | .pipe e => e.message
  | .fork _ e => e.message

def message (e : LaunchError) : String :=
  match e with
  | .invalidArgument _ => "不正な引数: " ++ e.cause
  | .pipe _ => "パイプの生成に失敗: " ++ e.cause
  | .fork _ _ => "プロセス生成エラー: " ++ e.cause

end LaunchError

/-- What has to be started. -/
structure Plan where
  /-- The arguments of each stage. -/
  stages : List (List String)
  modifier : Modifier
deriving DecidableEq, Repr

/-- What a stage has to know. -/
structure Stage where
  arguments : List String
  /-- The group to join; 0 for a group of its own. -/
  group : Pid
  /-- The terminal to take. -/
  terminal : Option Descriptor
  input : Option Descriptor
  output : Option Descriptor
  /-- All pipes of the pipeline. -/
  pipes : List Pipe
  redirectInput : Option String
  /-- The file for the output, and whether to append to it. -/
  redirectOutput : Option (String × Bool)
deriving DecidableEq, Repr

/-- A text without NUL. -/
def checkedText (s : String) : Except LaunchError String :=
  match nulPosition? s with
  | some position => .error (.invalidArgument position)
  | none => .ok s

/-- The text of a word as an argument. -/
def Word.argument (w : Word) : String := w.unquoted.getD w.text

/-- The exit code of a stage whose input or output cannot be connected. -/
def redirectFailure : Nat := 1

/-- The exit code of a stage whose command cannot be executed. -/
def executeFailure : Nat := 127

namespace Program

variable {τ α : Type}

/-- Reports an error under a name. -/
def report (name : String) (e : Errno) : Program τ Unit :=
  say .error ("PipeSh: " ++ name ++ ": " ++ e.description ++ "\n")

/-- Goes on only if a call succeeded. -/
def orExit (name : String) (code : Nat) : Except Errno α → Program τ α
  | .ok a => return a
  | .error e => do
    report name e
    exit code

/-- Opens a file on a descriptor. -/
def openOn (path : String) (target : Descriptor) (mode : OpenMode) :
    Program τ (Except Errno Unit) := do
  match ← ask (.open path mode) with
  | .error e => return .error e
  | .ok fd =>
    if fd = target then return .ok ()
    let result ← ask (.duplicate fd target)
    let _ ← ask (.close fd)
    return result

/-- Closes both ends of every pipe. -/
def closePipes : List Pipe → Program τ Unit
  | [] => return ()
  | (readEnd, writeEnd) :: pipes => do
    let _ ← ask (.close readEnd)
    let _ ← ask (.close writeEnd)
    closePipes pipes

/-- Makes pipes behind those that have been made.  If one cannot be made, all are closed. -/
def createPipes : Nat → List Pipe → Program τ (Except Errno (List Pipe))
  | 0, made => return .ok made
  | count + 1, made => do
    match ← ask .pipe with
    | .ok pipe => createPipes count (made ++ [pipe])
    | .error e =>
      closePipes made
      return .error e

end Program

namespace Stage

variable {τ α : Type}

open Program

/-- How the file for the output is opened. -/
def outputMode (append : Bool) : OpenMode :=
  { writes := true, create := true, append, truncate := !append }

/-- Joins the group and takes the terminal. -/
def settle (s : Stage) : Program τ Unit := do
  let _ ← ask (.setGroup 0 s.group)
  match s.terminal with
  | none => pure ()
  | some fd =>
    let group ← if s.group = 0 then ask .processId else pure s.group
    let _ ← ask (.setForeground fd group)
  let _ ← ask (.setDisposition .terminalOutput .standard)
  let _ ← ask (.setDisposition .brokenPipe .standard)

/-- Puts the ends of the pipes in their places and closes all others. -/
def connect (s : Stage) : Program τ Unit := do
  match s.input with
  | none => pure ()
  | some fd => orExit "stdin" redirectFailure (← ask (.duplicate fd .input))
  match s.output with
  | none => pure ()
  | some fd => orExit "stdout" redirectFailure (← ask (.duplicate fd .output))
  closePipes s.pipes

/-- Opens the files. -/
def redirect (s : Stage) : Program τ Unit := do
  match s.redirectInput with
  | none => pure ()
  | some path => orExit path redirectFailure (← openOn path .input { reads := true })
  match s.redirectOutput with
  | none => pure ()
  | some (path, append) =>
    orExit path redirectFailure (← openOn path .output (outputMode append))

/-- Everything that a stage does before its command.  Without a command it breaks off. -/
def program (s : Stage) : Program τ α := do
  s.settle
  s.connect
  s.redirect
  match s.arguments with
  | [] =>
    let pid ← ask .processId
    let _ ← ask (.kill pid (some .abort))
    exit executeFailure
  | name :: _ =>
    let e ← ask (.executeCommand name s.arguments)
    report name e
    exit executeFailure

end Stage

namespace Plan

variable {τ : Type}

open Program

/-- The arguments and file names of a command line. -/
def ofCommandLine (line : CommandLine) : Except LaunchError Plan := do
  let stages ← line.pipeline.stages.mapM fun stage => stage.mapM fun w => checkedText w.argument
  let input ← line.modifier.input.mapM checkedText
  let output ← line.modifier.output.mapM checkedText
  return { stages, modifier := { line.modifier with input, output } }

def size (plan : Plan) : Nat := plan.stages.length

/-- The stage at a position. -/
def stage (plan : Plan) (terminal : Option Descriptor) (pipes : List Pipe) (group : Pid) (i : Nat)
    (arguments : List String) : Stage where
  arguments
  group
  terminal := if plan.modifier.background then none else terminal
  input := if i = 0 then none else pipes[i - 1]?.map (·.1)
  output := pipes[i]?.map (·.2)
  pipes
  redirectInput := if i = 0 then plan.modifier.input else none
  redirectOutput :=
    if i + 1 = plan.size then plan.modifier.output.map (·, plan.modifier.append) else none

/-- Forks stages, in order, from position `i` on; `spawned` are the processes of those before. -/
def forkStages (plan : Plan) (enter : Stage → τ) (terminal : Option Descriptor)
    (pipes : List Pipe) :
    List (List String) → List Pid → Program τ (Except LaunchError (List Pid))
  | [], spawned => return .ok spawned
  | arguments :: rest, spawned => do
    let group := spawned.head?.getD 0
    let stage := plan.stage terminal pipes group spawned.length arguments
    match ← ask (.fork (enter stage)) with
    | .error e => return .error (.fork spawned e)
    | .ok child =>
      let _ ← ask (.setGroup child group)
      forkStages plan enter terminal pipes rest (spawned ++ [child])

/-- Starts all stages.  `enter` tells how a process of a stage begins. -/
def launch (plan : Plan) (enter : Stage → τ) (terminal : Option Descriptor) :
    Program τ (Except LaunchError Spawned) := do
  match ← createPipes (plan.size - 1) [] with
  | .error e => return .error (.pipe e)
  | .ok pipes =>
    let result ← forkStages plan enter terminal pipes plan.stages []
    closePipes pipes
    return result.map fun pids => { group := pids.head?.getD 0, pids }

end Plan

/-- Starts a command line. -/
def CommandLine.launch {τ : Type} (line : CommandLine) (enter : Stage → τ)
    (terminal : Option Descriptor) : Program τ (Except LaunchError Spawned) :=
  match Plan.ofCommandLine line with
  | .error e => return .error e
  | .ok plan => plan.launch enter terminal

end PipelineShell
