/-
Running the processes of the machine.

Every process that can run gets a turn, in the order of their numbers.  A turn
ends when the process has to wait, when it has ended or executes a file, and
after a number of requests.  A round in which something got done takes a moment;
if nothing can go on, time passes up to the next waking.
-/
import PipelineShell.Machine.Call

namespace PipelineShell.Machine

variable {τ : Type}

/-- A turn of a process, and whether it got anything done. -/
def turn : Nat → Machine τ → Pid → Bool → Machine τ × Bool
  | 0, m, _, moved => (m, moved)
  | quantum + 1, m, pid, moved =>
    match m.process? pid with
    | none => (m, moved)
    | some p =>
      if !p.isRunning then (m, moved)
      else
        match p.task with
        | none => (m, moved)
        | some (.done next) =>
          let m := m.modify pid fun p => { p with task := some (m.software.round next) }
          turn quantum m pid true
        | some (.call r next) =>
          match m.answer p r with
          | .answered a m =>
            turn quantum (m.modify pid fun p => { p with task := some (next a) }) pid true
          | .blocked m => (m, moved)
          | .gone m => (m, true)

/-- How many requests a process makes in one turn. -/
def quantum : Nat := 32

/-- A turn of every process, and whether anything got done. -/
def round (m : Machine τ) : Machine τ × Bool :=
  (m.processes.map (·.pid)).foldl
    (fun (m, moved) pid =>
      let (m, here) := turn quantum m pid false
      (m, moved || here))
    (m, false)

/-- The time at which the first process wakes up. -/
def nextWake? (m : Machine τ) : Option Nat :=
  (m.processes.filterMap fun p => if p.isRunning then p.wakeAt else none).min?

/-- Lets time pass up to a moment. -/
def passTime (m : Machine τ) (moment : Nat) : Machine τ := { m with clock := max m.clock moment }

/-- How many microseconds a round takes. -/
def roundTime : Nat := 10

/-- Runs the processes for a while: a turn of each, or, if nothing can go on, time up to the next
waking.  `false` if nothing will ever happen by itself. -/
def run (m : Machine τ) : Machine τ × Bool :=
  let (m, moved) := m.round
  if moved then (m.passTime (m.clock + roundTime), true)
  else
    match m.nextWake? with
    | some moment => (m.passTime moment, true)
    | none => (m, false)

/-- Runs a program in the place of a process, and all others while it has to wait.  `none` if it
does not come to its end. -/
def runProgram {α : Type} (fuel : Nat) (m : Machine τ) (pid : Pid) (program : Program τ α) :
    Option (α × Machine τ) :=
  match fuel with
  | 0 => none
  | fuel + 1 =>
    match program with
    | .done a => some (a, m)
    | .call r next =>
      match m.perform pid r with
      | .answered a m => runProgram fuel m pid (next a)
      | .gone _ => none
      | .blocked m =>
        match m.run with
        | (m, true) => runProgram fuel m pid (.call r next)
        | (_, false) => none

end PipelineShell.Machine
