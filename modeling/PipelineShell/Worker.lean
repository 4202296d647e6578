/-
The part of the shell that runs lines and looks after their processes.

A worker listens to messages: lines, the end of the input, and notices that
some process has changed.  While it handles one it asks for at most one thing at
a time: to change the directory, to launch a command line, or to look for a
child that has ended or stopped.  `Worker.step` takes what came of it and gives
the new worker, what it puts out, and what it asks for next.

A line is answered by one reply.  The line of a foreground job is answered when
the job's last process has been collected or when one of them stops; until then
the worker listens and collects.
-/
import PipelineShell.Directory
import PipelineShell.JobTable
import PipelineShell.Launch
import PipelineShell.Text.Blank

namespace PipelineShell

inductive Message where
  /-- A line to run. -/
  | line (text : String)
  | endOfInput
  /-- Some child has ended or stopped. -/
  | childChanged
  /-- A signal that means nothing to the shell. -/
  | signal
deriving DecidableEq, Repr

/-- The answer to a line or to the end of the input. -/
inductive Reply where
  /-- Read on; the status of the last line. -/
  | resume (status : Int)
  /-- Leave with this status. -/
  | quit (status : Int)
deriving DecidableEq, Repr

/-- What a worker puts out. -/
inductive Output where
  /-- A line for the user. -/
  | report (text : String)
  /-- The terminal goes to a group. -/
  | terminal (group : Pid)
  | reply (r : Reply)
deriving DecidableEq, Repr

/-- What looking for a changed child may find. -/
abbrev Poll := Except Errno (Option (Pid × WaitStatus))

/-- What the shell makes of a collected child.  A child that a real-time signal ended is collected,
but its status is not understood. -/
def Poll.understood : Poll → Poll
  | .ok (some (pid, .killed s)) =>
    if s.isRealTime then .error .einval else .ok (some (pid, .killed s))
  | poll => poll

/-- What a worker is doing. -/
inductive Activity where
  | listening
  /-- Looking for changed children; `ending` if the input has ended. -/
  | collecting (ending : Bool)
  | changing (directory : String)
  | launching (text : String) (line : CommandLine)
deriving DecidableEq

/-- What comes of an activity. -/
def Activity.Event : Activity → Type
  | .listening => Message
  | .collecting _ => Poll
  | .changing _ => Except DirectoryError String
  | .launching _ _ => Except LaunchError Spawned

structure Worker where
  /-- The status of the last line. -/
  status : Int := 0
  /-- The job that the reader waits for. -/
  foreground : Option Nat := none
  jobs : JobTable := .empty
  /-- The shell's own group, if it has a terminal. -/
  terminalGroup : Option Pid
  operators : OperatorSet

/-- What a step of a worker comes to. -/
structure Step where
  worker : Worker
  outputs : List Output := []
  next : Activity := .listening

/-- A number with an optional sign, within 32 bits. -/
def parseStatus? (s : String) : Option Int :=
  let (negative, digits) := match s.toList with
    | '-' :: rest => (true, rest)
    | '+' :: rest => (false, rest)
    | rest => (false, rest)
  if digits.isEmpty || !digits.all Char.isDigit then none
  else
    let magnitude : Nat := digits.foldl (fun n c => n * 10 + (c.toNat - '0'.toNat)) 0
    let n : Int := if negative then -magnitude else magnitude
    if -2147483648 ≤ n && n ≤ 2147483647 then some n else none

namespace Worker

/-- A message to the user. -/
def complaint (text : String) : Output := .report ("PipeSh: " ++ text ++ "\n")

def jobLabel (id : Nat) : String := "[" ++ toString id ++ "]"

/-- Sets the status and lets the reader read on. -/
def answer (w : Worker) (status : Int) (outputs : List Output) : Step where
  worker := { w with status }
  outputs := outputs ++ [.reply (.resume status)]

/-- A failure that is reported and gives the status 1. -/
def refuse (w : Worker) (text : String) : Step := w.answer 1 [complaint text]

/-- The shell is in the foreground again. -/
def takeOver (w : Worker) : Worker × List Output :=
  ({ w with foreground := none },
    (w.terminalGroup.map Output.terminal).toList ++ [.reply (.resume w.status)])

/-- A process has ended. -/
def processEnded (w : Worker) (pid : Pid) (status : Int) : Worker × List Output :=
  match w.jobs.remove pid status with
  | (some (.finished id job), jobs) =>
    if w.foreground = some id then takeOver { w with jobs, status := job.status.getD status }
    else ({ w with jobs }, [.report (jobLabel id ++ " 終了\t" ++ job.line ++ "\n")])
  | (_, jobs) => ({ w with jobs }, [])

/-- A process has stopped.  Its job goes to the background if it is the one in the foreground. -/
def processStopped (w : Worker) (pid : Pid) : Worker × List Output :=
  match w.foreground with
  | none => (w, [])
  | some id =>
    match w.jobs.get? id with
    | none => (w, [])
    | some job =>
      if !job.pids.contains pid then (w, [])
      else
        let status : Int := 128 + Signal.terminalStop.number
        let (w, outputs) := takeOver { w with jobs := w.jobs.setBackground id, status }
        (w, .report ("\n" ++ jobLabel id ++ " 停止\t" ++ job.line ++ "\n") :: outputs)

/-- Nothing is left to collect. -/
def collected (w : Worker) (ending : Bool) (outputs : List Output) : Step :=
  if !ending then { worker := w, outputs }
  else
    let left := if w.jobs.isEmpty then [] else
      [complaint (toString w.jobs.size ++ "個のジョブを残して終了します")]
    { worker := w, outputs := outputs ++ left ++ [.reply (.quit w.status)] }

/-- What looking for a changed child has found. -/
def polled (w : Worker) (ending : Bool) : Poll → Step
  | .ok (some (pid, .stopped _)) =>
    let (w, outputs) := w.processStopped pid
    { worker := w, outputs, next := .collecting ending }
  | .ok (some (pid, status)) =>
    let (w, outputs) := w.processEnded pid status.code
    { worker := w, outputs, next := .collecting ending }
  | .ok none => w.collected ending []
  | .error .echild => w.collected ending []
  | .error .eintr => { worker := w, next := .collecting ending }
  | .error e => w.collected ending [.report ("\nPipeSh: waitが失敗: " ++ e.message ++ "\n")]

/-- The directory has been changed, or not. -/
def directoryChanged (w : Worker) : Except DirectoryError String → Step
  | .ok _ => w.answer 0 []
  | .error e => w.refuse e.message

/-- Processes of a line are running. -/
def started (w : Worker) (text : String) (line : CommandLine) (spawned : Spawned)
    (outputs : List Output) : Step :=
  let background := line.modifier.background
  let text := String.ofList (Text.trim text.toList)
  match w.jobs.insert? text spawned.group spawned.pids background with
  | none => { worker := w, outputs }
  | some (id, jobs) =>
    let w := { w with jobs }
    if background then
      w.answer 0 (outputs ++ [.report (jobLabel id ++ " " ++ toString spawned.group ++ "\n")])
    else
      { worker := { w with foreground := some id }
        outputs := outputs ++ (w.terminalGroup.map fun _ => Output.terminal spawned.group).toList
        next := .collecting false }

/-- A command line has been launched, or not, or in part. -/
def launched (w : Worker) (text : String) (line : CommandLine) :
    Except LaunchError Spawned → Step
  | .ok spawned => w.started text line spawned []
  | .error e =>
    match e with
    | .fork (first :: rest) _ =>
      w.started text line { group := first, pids := first :: rest } [complaint e.message]
    | e => w.refuse e.message

/-- Leaves the shell, unless jobs are left or the argument is no status. -/
def leave (w : Worker) (argument : Option String) : Step :=
  if !w.jobs.isEmpty then w.refuse "ジョブが実行中なので終了できません"
  else
    match argument with
    | none => { worker := w, outputs := [.reply (.quit w.status)] }
    | some argument =>
      match parseStatus? argument with
      | some status => { worker := w, outputs := [.reply (.quit status)] }
      | none => w.refuse (argument ++ "は不正な引数です")

/-- A line has come. -/
def lineRead (w : Worker) (text : String) : Step :=
  match CommandLine.parse text w.operators with
  | .error e => w.refuse e.message
  | .ok line =>
    match line.builtin? with
    | some (.changeDirectory directory) => { worker := w, next := .changing directory }
    | some (.exit argument) => w.leave argument
    | none => { worker := w, next := .launching text line }

/-- A message has come. -/
def received (w : Worker) : Message → Step
  | .line text => w.lineRead text
  | .endOfInput => { worker := w, next := .collecting true }
  | .childChanged => { worker := w, next := .collecting false }
  | .signal => { worker := w }

/-- One step of a worker, from what came of its activity. -/
def step (w : Worker) : (a : Activity) → a.Event → Step
  | .listening, message => w.received message
  | .collecting ending, poll => w.polled ending poll.understood
  | .changing _, result => w.directoryChanged result
  | .launching text line, result => w.launched text line result

end Worker

end PipelineShell
