/-
The interactive shell at a workplace.

A reader prompts for lines and hands them to the worker, one at a time; it goes
on when it is answered.  In between the worker is told of children that have
ended or stopped.  `Session.step` lets the worker finish what it is doing, then
hands it its messages, then lets the reader go on, and only when all of them
have to wait lets the other processes run.
-/
import PipelineShell.LineReader
import PipelineShell.Session.Startup
import PipelineShell.Typist
import PipelineShell.Worker
import PipelineShell.Workplace

namespace PipelineShell

/-- How the reader gets at lines. -/
inductive Reading where
  /-- Lines come from the input. -/
  | plain
  /-- Single keys come from the typist. -/
  | keys
deriving DecidableEq, Repr

/-- What the reader is doing. -/
inductive Phase where
  | prompting
  | reading
  /-- A line is with the worker. -/
  | waiting
  | leaving (status : Int)
deriving DecidableEq, Repr

structure Session where
  place : Workplace
  startup : Startup
  worker : Worker
  activity : Activity := .listening
  /-- What the worker has not been told yet. -/
  inbox : List Message := []
  reading : Reading
  phase : Phase := .prompting
  /-- What has been read and not yet used. -/
  buffer : Bytes := []
  /-- The status of the last line. -/
  status : Int := 0
  history : History
  /-- How many times there was a prompt. -/
  prompts : Nat := 0
  typist : Option Typist := none

namespace Session

open Program

/-- Begins a session. -/
def start (f : Furnishing) (reading : Reading) (typist : Option Typist) : Option Session := do
  let (startup, place) ← f.workplace.run Startup.program
  return {
    place, startup, reading, typist
    worker := { terminalGroup := startup.terminalGroup, operators := startup.operators }
    history := startup.history }

/-- Does something in the shell's process. -/
def run {α : Type} (s : Session) (program : Program Task α) : Option (α × Session) :=
  (s.place.run program).map fun (a, place) => (a, { s with place })

/-! The worker. -/

/-- Puts out what a step of the worker gives. -/
def put (s : Session) : Output → Option Session
  | .report text => (s.run (say .error text)).map (·.2)
  | .terminal group => (s.run (ask (.setForeground .input group))).map (·.2)
  | .reply (.resume status) => some { s with status, phase := .prompting }
  | .reply (.quit status) => some { s with phase := .leaving status }

/-- Takes over what a step of the worker comes to. -/
def take (s : Session) (step : Step) : Option Session :=
  step.outputs.foldlM put { s with worker := step.worker, activity := step.next }

/-- Does what the worker asks for. -/
def act (s : Session) : Activity → Option Session
  | .listening => some s
  | .collecting ending => do
    let (poll, s) ← s.run (ask (.wait none false true))
    s.take (s.worker.step (.collecting ending) poll)
  | .changing directory => do
    let (result, s) ← s.run (changeDirectory directory)
    s.take (s.worker.step (.changing directory) result)
  | .launching text line => do
    let terminal := s.worker.terminalGroup.map fun _ => Descriptor.input
    let (result, s) ← s.run (line.launch .stage terminal)
    s.take (s.worker.step (.launching text line) result)

/-- What a caught signal tells the worker. -/
def messageOf (signal : Signal) : Message :=
  if signal = .childChanged then .childChanged else .signal

/-! The reader. -/

/-- The prompt shows how the last line went. -/
def prompt (s : Session) : String :=
  let face := if s.status = 0 then "🙂" else "💀"
  s.startup.settings.shell.prompt ++ " " ++ face ++ " %> "

/-- Prompts for a line.  A reader that edits lines draws its prompt itself. -/
def promptForLine (s : Session) : Option Session := do
  let s := { s with phase := .reading, prompts := s.prompts + 1 }
  match s.reading with
  | .plain => (s.run (say .output s.prompt)).map (·.2)
  | .keys => some s

/-- The input cannot be read any more. -/
def readFailed (s : Session) (cause : String) : Option Session :=
  (s.run (Startup.complain ("読み込みエラー\n" ++ cause))).map fun ((), s) =>
    { s with phase := .leaving 1 }

/-- The reader has got something.  A blank line is not handed on; `enter` is how the history takes
up another one. -/
def entered (s : Session) (enter : History → String → History) : Entry → Option Session
  | .line text =>
    let trimmed := Text.trim text.toList
    if trimmed.isEmpty then some { s with phase := .prompting }
    else
      some { s with
        phase := .waiting, inbox := s.inbox ++ [.line text]
        history := enter s.history (String.ofList trimmed) }
  | .interrupted =>
    (s.run (Startup.complain "終了はCtrl+d")).map fun ((), s) => { s with phase := .prompting }
  | .endOfInput => some { s with phase := .waiting, inbox := s.inbox ++ [.endOfInput] }
  | .unreadable => s.readFailed "stream did not contain valid UTF-8"
  | .torn => some { s with phase := .leaving (128 + Signal.abort.number) }

/-- How much of the input is read at once. -/
def blockSize : Nat := 8192

/-! All others. -/

/-- How many prompts the typist sees. -/
def visiblePrompts (s : Session) : Nat :=
  match s.reading with
  | .plain => Typist.countPrompts (s.place.stream s.place.output)
  | .keys => s.prompts

/-- Types the next entry. -/
def press (s : Session) (t : Typist) : Session :=
  let (keys, t) := t.press
  let s := { s with typist := some t }
  match s.reading with
  | .plain => { s with place := { s.place with machine := s.place.machine.typeKeys keys } }
  | .keys => { s with buffer := s.buffer ++ keys }

/-- Lets time pass. -/
def passTime (s : Session) (moment : Nat) : Session :=
  { s with place := { s.place with machine := s.place.machine.passTime moment } }

/-- Lets the other processes and the typist go on; `none` if nothing ever happens any more. -/
def idle (s : Session) : Option Session :=
  let (machine, moved) := s.place.machine.round
  let s := { s with place := { s.place with machine } }
  let now := machine.clock
  let typist := s.typist.map fun t => if t.due.isNone then t.watch s.visiblePrompts now else t
  let s := { s with typist }
  match typist.bind fun t => t.due.map fun due => (t, due) with
  | some (t, due) =>
    if moved then
      if due + Typist.tolerance ≤ now then some (s.press t)
      else some (s.passTime (now + Machine.roundTime))
    else
      match machine.nextWake? with
      | some moment =>
        if moment < due then some (s.passTime moment) else some ((s.passTime due).press t)
      | none => some ((s.passTime due).press t)
  | none =>
    if moved then some (s.passTime (now + Machine.roundTime))
    else machine.nextWake?.map s.passTime

/-- Reads from the input what there is, and goes on with it.  Without the terminal nothing can be
read from it. -/
def readInput (s : Session) (proceed : Session → Bytes → Option Session) : Option Session :=
  match s.place.machine.perform s.place.process (.read .input blockSize) with
  | .answered (.ok data) machine => proceed { s with place := { s.place with machine } } data
  | .answered (.error e) machine =>
    { s with place := { s.place with machine } }.readFailed e.numbered
  | .blocked machine => { s with place := { s.place with machine } }.idle
  | .gone _ => none

/-- Asks for a line. -/
def readLine (s : Session) : Option Session :=
  match s.reading with
  | .keys =>
    match LineReader.edit [] s.buffer with
    | some (entry, rest) => { s with buffer := rest }.entered History.enter entry
    | none => s.readInput fun s _ => s.idle
  | .plain =>
    match LineReader.next? s.buffer with
    | some (entry, rest) => { s with buffer := rest }.entered History.enter entry
    | none =>
      s.readInput fun s data =>
        if data.isEmpty then
          { s with buffer := [] }.entered History.enter (LineReader.last s.buffer)
        else some { s with buffer := s.buffer ++ data }

/-- One step of a session. -/
def step (s : Session) : Option Session :=
  match s.activity with
  | .listening =>
    match s.inbox with
    | message :: rest => { s with inbox := rest }.take (s.worker.step .listening message)
    | [] => do
      let (signals, s) ← s.run (ask .caughtSignals)
      match signals.map messageOf with
      | message :: rest => return { s with inbox := message :: rest }
      | [] =>
        match s.phase with
        | .prompting => s.promptForLine
        | .reading => s.readLine
        | .waiting => s.idle
        | .leaving _ => return s
  | activity => s.act activity

/-- Steps until the session is over. -/
def finish : Nat → Session → Option (Int × Session)
  | 0, _ => none
  | fuel + 1, s =>
    match s.phase with
    | .leaving status => some (status, s)
    | _ =>
      match s.step with
      | some s => finish fuel s
      | none => none

/-- What a session leaves behind. -/
structure Outcome where
  /-- The exit code, as the system keeps it. -/
  code : Nat
  place : Workplace

/-- How many steps a session may take. -/
def patience : Nat := 10000000

/-- A whole session; `none` if it does not come to its end. -/
def complete (f : Furnishing) (reading : Reading) (typist : Option Typist) : Option Outcome := do
  let s ← start f reading typist
  let (status, s) ← finish patience s
  let path := s.startup.settings.historyPath s.startup.home
  let ((), s) ← s.run (Startup.saveHistory path s.history)
  return { code := (status % 256).toNat, place := s.place }

end Session

end PipelineShell
