/-
The state of the machine: files, open files, pipes, processes, a terminal and a
clock.

Open files stand in one array and descriptor tables point into it, so that the
copies of a descriptor, in whatever process, share one position in the file.
How many processes hold an end of a pipe is counted in the descriptor tables
and stored nowhere.

The machine runs any kind of program.  `Software` says how a program that is
started from a file begins, and how a process goes on from one round to the
next.  A process may also be one whose requests come from outside.
-/
import PipelineShell.Machine.FileTree
import PipelineShell.Machine.Terminal

namespace PipelineShell

inductive Object where
  | node (id : NodeId)
  | readEnd (pipe : Nat)
  | writeEnd (pipe : Nat)
  /-- The line that tells about a process. -/
  | processStatus (pid : Pid)
deriving DecidableEq, Repr

structure OpenFile where
  object : Object
  offset : Nat := 0
  reads : Bool
  writes : Bool
  append : Bool := false
deriving DecidableEq, Repr

/-- An entry of a descriptor table. -/
structure Slot where
  /-- Where the open file stands. -/
  file : Nat
  closeOnExec : Bool := false
deriving DecidableEq, Repr

inductive Condition where
  | running
  /-- Stopped, and whether the parent has been told. -/
  | stopped (signal : Signal) (reported : Bool)
  /-- Ended, and not yet collected. -/
  | ended (status : WaitStatus)
deriving DecidableEq, Repr

structure Process (τ : Type) where
  pid : Pid
  parent : Pid
  group : Pid
  session : Pid
  name : String
  /-- What it does; `none` for a process whose requests are made for it from outside. -/
  task : Option (Program τ τ)
  condition : Condition := .running
  /-- It has executed a file since it was forked. -/
  executed : Bool := false
  directory : NodeId
  descriptors : List (Descriptor × Slot) := []
  /-- The signals that do not act in their standard way. -/
  dispositions : List (Signal × Disposition) := []
  /-- Signals that wait until it runs again. -/
  held : List Signal := []
  /-- Caught signals that it has not asked for. -/
  caught : List Signal := []
  environment : List (String × String) := []
  wakeAt : Option Nat := none

structure Software (τ : Type) where
  /-- The program of this name, with its arguments and environment. -/
  start : String → List String → List (String × String) → τ
  /-- One round of a process. -/
  round : τ → Program τ τ

structure Machine (τ : Type) where
  software : Software τ
  tree : FileTree
  files : Array OpenFile := #[]
  pipes : Array Bytes := #[]
  /-- Ascending by number. -/
  processes : List (Process τ) := []
  terminal : Option Terminal := none
  /-- Microseconds. -/
  clock : Nat := 0
  nextPid : Pid
  descriptorLimit : Nat := 1024
  /-- How many children one process may have that it has not collected. -/
  childLimit : Option Nat := none

namespace Process

variable {τ : Type}

def slot? (p : Process τ) (fd : Descriptor) : Option Slot := p.descriptors.lookup fd

def setSlot (p : Process τ) (fd : Descriptor) (slot : Slot) : Process τ :=
  { p with descriptors := (fd, slot) :: p.descriptors.filter (·.1 ≠ fd) }

def clearSlot (p : Process τ) (fd : Descriptor) : Process τ :=
  { p with descriptors := p.descriptors.filter (·.1 ≠ fd) }

/-- The least descriptor from `least` on that is not in use. -/
def freeDescriptor (p : Process τ) (least : Descriptor) : Descriptor :=
  ((List.range' least (p.descriptors.length + 1)).find? fun fd => (p.slot? fd).isNone).getD least

def disposition (p : Process τ) (s : Signal) : Disposition :=
  (p.dispositions.lookup s).getD .standard

def setDisposition (p : Process τ) (s : Signal) (d : Disposition) : Process τ :=
  let others := p.dispositions.filter (·.1 ≠ s)
  { p with dispositions := if d = .standard then others else (s, d) :: others }

def isRunning (p : Process τ) : Bool := p.condition = .running

def hasEnded (p : Process τ) : Bool :=
  match p.condition with
  | .ended _ => true
  | _ => false

/-- The letter that stands for what the process is doing. -/
def letter (p : Process τ) (reader : Pid) : String :=
  match p.condition with
  | .running => if p.pid = reader then "R" else "S"
  | .stopped _ _ => "T"
  | .ended _ => "Z"

end Process

namespace Machine

variable {τ : Type}

def process? (m : Machine τ) (pid : Pid) : Option (Process τ) :=
  m.processes.find? (·.pid = pid)

/-- Changes one process. -/
def modify (m : Machine τ) (pid : Pid) (f : Process τ → Process τ) : Machine τ :=
  { m with processes := m.processes.map fun p => if p.pid = pid then f p else p }

def childrenOf (m : Machine τ) (pid : Pid) : List (Process τ) :=
  m.processes.filter (·.parent = pid)

/-- Some process belongs to the group. -/
def hasGroup (m : Machine τ) (group : Pid) : Bool := m.processes.any (·.group = group)

def file? (m : Machine τ) (slot : Slot) : Option OpenFile := m.files[slot.file]?

/-- Adds an open file and tells where it stands. -/
def addFile (m : Machine τ) (file : OpenFile) : Nat × Machine τ :=
  (m.files.size, { m with files := m.files.push file })

/-- Some process has this object open. -/
def isOpen (m : Machine τ) (object : Object) : Bool :=
  m.processes.any fun p => p.descriptors.any fun entry =>
    match m.file? entry.2 with
    | some file => file.object = object
    | none => false

/-- The group has no process whose parent is in another group of the session. -/
def isOrphaned (m : Machine τ) (group : Pid) : Bool :=
  !m.processes.any fun p =>
    p.group = group && !p.hasEnded &&
      (match m.process? p.parent with
        | some parent => parent.group ≠ group && parent.session = p.session
        | none => false)

/-- The line that tells about a process. -/
def statusLine (m : Machine τ) (p : Process τ) (reader : Pid) : String :=
  let (terminal, foreground) := match m.terminal with
    | some t => if t.session = p.session then (34816, t.foreground) else (0, -1)
    | none => (0, -1)
  let numbers : List Int := [p.parent, p.group, p.session, terminal, foreground]
  toString p.pid ++ " (" ++ p.name ++ ") " ++ p.letter reader ++ " " ++
    String.intercalate " " (numbers.map toString ++ List.replicate 44 "0") ++ "\n"

end Machine

end PipelineShell
