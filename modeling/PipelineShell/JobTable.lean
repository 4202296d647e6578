/-
The table of jobs: which processes the shell has started and not yet collected.

A job is one pipeline.  The table finds jobs by number, in ascending order, and
finds the job of a process through an index of its own.  A job leaves the table
with its last process, and its status is that of its last stage, whenever that
stage was collected.

`insert?` refuses an empty list of processes and a process that it already
knows; a caller that starts processes and collects every one never meets that.
-/
import PipelineShell.Pid

namespace PipelineShell

structure Job where
  group : Pid
  /-- The line that started it. -/
  line : String
  /-- The processes that have not been collected, in the order of their stages. -/
  pids : List Pid
  /-- The process of the last stage. -/
  last : Pid
  background : Bool
  /-- The status of the last stage, once it has been collected. -/
  status : Option Int
deriving DecidableEq, Repr

/-- The job without a process that has ended with this status. -/
def Job.collect (job : Job) (pid : Pid) (status : Int) : Job :=
  { job with
    pids := job.pids.filter (· ≠ pid)
    status := if pid = job.last then some status else job.status }

/-- What collecting a process does to its job. -/
inductive Reaped where
  | running (id : Nat)
  | finished (id : Nat) (job : Job)
deriving DecidableEq, Repr

structure JobTable where
  /-- Ascending by number. -/
  jobs : List (Nat × Job)
  /-- The job of every process that has not been collected. -/
  owners : List (Pid × Nat)
deriving DecidableEq, Repr

namespace JobTable

def empty : JobTable := ⟨[], []⟩

instance : Inhabited JobTable := ⟨empty⟩

def size (t : JobTable) : Nat := t.jobs.length

def isEmpty (t : JobTable) : Bool := t.jobs.isEmpty

def get? (t : JobTable) (id : Nat) : Option Job := t.jobs.lookup id

def contains (t : JobTable) (id : Nat) : Bool := (t.get? id).isSome

/-- The job that a process belongs to. -/
def owner? (t : JobTable) (pid : Pid) : Option Nat := t.owners.lookup pid

/-- The least positive number that no job has.  One of the first `size + 1` is free, so the
fallback is never taken. -/
def freshId (t : JobTable) : Nat :=
  ((List.range' 1 (t.size + 1)).find? fun id => !t.contains id).getD 0

/-- Puts a job in its place by number. -/
def place (id : Nat) (job : Job) : List (Nat × Job) → List (Nat × Job)
  | [] => [(id, job)]
  | entry :: rest =>
    if id < entry.1 then (id, job) :: entry :: rest else entry :: place id job rest

/-- Enters the processes of a job into the index; a process that is there already is refused. -/
def register (id : Nat) : List Pid → List (Pid × Nat) → Option (List (Pid × Nat))
  | [], owners => some owners
  | pid :: pids, owners =>
    if (owners.lookup pid).isSome then none else register id pids (owners ++ [(pid, id)])

/-- Adds a job under the least free number. -/
def insert? (t : JobTable) (line : String) (group : Pid) (pids : List Pid) (background : Bool) :
    Option (Nat × JobTable) := do
  let last ← pids.getLast?
  let id := t.freshId
  let owners ← register id pids t.owners
  return (id, ⟨place id { group, line, pids, last, background, status := none } t.jobs, owners⟩)

/-- Replaces the job with this number. -/
def update (t : JobTable) (id : Nat) (f : Job → Job) : JobTable :=
  { t with jobs := t.jobs.map fun entry => if entry.1 = id then (id, f entry.2) else entry }

/-- Removes the job with this number. -/
def eraseJob (t : JobTable) (id : Nat) : JobTable :=
  { t with jobs := t.jobs.filter fun entry => entry.1 ≠ id }

/-- Collects a process: what became of its job, and the table afterwards.  Nothing happens for a
process that no job has. -/
def remove (t : JobTable) (pid : Pid) (status : Int) : Option Reaped × JobTable :=
  match t.owner? pid with
  | none => (none, t)
  | some id =>
    let t := { t with owners := t.owners.filter fun entry => entry.1 ≠ pid }
    match t.get? id with
    | none => (none, t)
    | some job =>
      let job := job.collect pid status
      if job.pids.isEmpty then (some (.finished id job), t.eraseJob id)
      else (some (.running id), t.update id fun _ => job)

/-- Marks a job as running in the background. -/
def setBackground (t : JobTable) (id : Nat) : JobTable :=
  t.update id fun job => { job with background := true }

end JobTable

end PipelineShell
