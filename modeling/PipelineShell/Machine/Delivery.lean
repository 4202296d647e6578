/-
Signals on their way to processes, and the end of a process.

A process that ends closes its descriptors and leaves its children to process
1, which collects them at once.  It stays in the table until its parent
collects it.  A stopped process keeps the signals it gets until it runs again,
except the one that cannot be held.
-/
import PipelineShell.Machine.State

namespace PipelineShell.Machine

variable {τ : Type}

/-- The process that takes over the children of a process that ended. -/
def initial : Pid := 1

/-- Notes a signal for a process that catches it. -/
def noteCaught (m : Machine τ) (pid : Pid) (s : Signal) : Machine τ :=
  m.modify pid fun p =>
    if p.disposition s = .caught && !p.caught.contains s then { p with caught := p.caught ++ [s] }
    else p

/-- Takes a process out of the table. -/
def forget (m : Machine τ) (pid : Pid) : Machine τ :=
  { m with processes := m.processes.filter (·.pid ≠ pid) }

/-- Leaves the children of a process to the initial process. -/
def orphan (m : Machine τ) (pid : Pid) : Machine τ :=
  let remaining := m.processes.filter fun (q : Process τ) => !(q.parent = pid && q.hasEnded)
  { m with
    processes := remaining.map fun q => if q.parent = pid then { q with parent := initial } else q }

/-- Ends a process. -/
def finish (m : Machine τ) (pid : Pid) (status : WaitStatus) : Machine τ :=
  match m.process? pid with
  | none => m
  | some p =>
    let m := m.modify pid fun p =>
      { p with condition := .ended status, descriptors := [], held := [], wakeAt := none }
    let m := m.orphan pid
    if (m.process? p.parent).isSome then m.noteCaught p.parent .childChanged else m.forget pid

/-- Lets a signal act on a process that is not stopped. -/
def act (m : Machine τ) (pid : Pid) (s : Signal) : Machine τ :=
  match m.process? pid with
  | none => m
  | some p =>
    if p.hasEnded then m
    else
      let disposition := if s.isUncatchable then .standard else p.disposition s
      match disposition with
      | .ignored => m
      | .caught => m.noteCaught pid s
      | .standard =>
        match s.effect with
        | .ends => m.finish pid (.killed s)
        | .stops =>
          if s ≠ .stop && m.isOrphaned p.group then m
          else
            (m.modify pid fun p => { p with condition := .stopped s false }).noteCaught p.parent
              .childChanged
        | .continues => m
        | .nothing => m

/-- Lets a stopped process run again and gives it the signals that waited. -/
def resume (m : Machine τ) (pid : Pid) : Machine τ :=
  match m.process? pid with
  | none => m
  | some p =>
    let m := m.modify pid fun p => { p with condition := .running, held := [] }
    p.held.foldl (fun m s => m.act pid s) m

/-- Sends a signal to a process. -/
def deliver (m : Machine τ) (pid : Pid) (s : Signal) : Machine τ :=
  match m.process? pid with
  | none => m
  | some p =>
    match p.condition with
    | .ended _ => m
    | .running => m.act pid s
    | .stopped _ _ =>
      if s = .kill then m.finish pid (.killed s)
      else if s = .resume then (m.resume pid).act pid s
      else if s.effect = .stops then m
      else m.modify pid fun p => { p with held := p.held ++ [s] }

/-- Sends a signal to every process of a group. -/
def deliverToGroup (m : Machine τ) (group : Pid) (s : Signal) : Machine τ :=
  ((m.processes.filter (·.group = group)).map (·.pid)).foldl (fun m pid => m.deliver pid s) m

/-- Types on the terminal. -/
def typeKeys (m : Machine τ) (keys : Bytes) : Machine τ :=
  keys.foldl
    (fun m byte =>
      match m.terminal with
      | none => m
      | some t =>
        let (t, signal) := t.type byte
        let m := { m with terminal := some t }
        match signal with
        | none => m
        | some s => m.deliverToGroup t.foreground s)
    m

end PipelineShell.Machine
