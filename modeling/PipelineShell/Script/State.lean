/-
The state of a running shell script.

What is left to do stands on a stack of frames, the next one on top.  A round
takes the top frame off, does a bounded amount of work and puts back what
remains, so a loop of the script is never a loop of a round.
-/
import PipelineShell.Script.Expansion
import PipelineShell.Script.Token

namespace PipelineShell.Script

/-- A redirection whose target is known. -/
structure Redirection where
  fd : Descriptor
  kind : RedirectKind
  target : String
deriving DecidableEq, Repr

/-- A simple command whose words are known. -/
structure Invocation where
  line : Nat
  assignments : List (String × String)
  words : List String
  redirections : List Redirection
  /-- The shell was told to become the program. -/
  replacing : Bool := false
deriving DecidableEq, Repr

inductive Frame where
  /-- The script begins, with its arguments. -/
  | begin (arguments : List String)
  /-- The commands of a text; with `last`, nothing comes after them. -/
  | text (c : Cursor) (last : Bool)
  /-- The commands of a file, of which `c` has been read and not yet run. -/
  | input (fd : Descriptor) (c : Cursor)
  | run (c : Command) (last : Bool)
  /-- Becomes another program. -/
  | execute (i : Invocation)
  /-- Runs a command if the one before it succeeded, or, without `success`, if it failed. -/
  | whenStatus (success : Bool) (c : Command) (last : Bool)
  | negate
  | branch (yes no : Command) (last : Bool)
  /-- The condition of a loop has been run. -/
  | tested (untilTrue : Bool) (condition body : Command)
  /-- The body of a loop has been run. -/
  | again (untilTrue : Bool) (condition body : Command) (started : Bool)
  | each (name : String) (values : List String) (body : Command)
  /-- Puts descriptors back that were saved, or closes those that had not been open. -/
  | restore (saved : List (Descriptor × Option Descriptor))
  /-- Waits for processes; the status is that of the last one. -/
  | await (pids : List Pid) (last : Pid)
  /-- Reads what a command substitution puts out, for a command that waits for it. -/
  | collect (fd : Descriptor) (pid : Pid) (gathered : List Bytes) (c : Command) (last : Bool)
  /-- The command substitution has put out everything. -/
  | collected (pid : Pid) (text : String) (c : Command) (last : Bool)
  /-- The end of a function, with the caller's positional parameters and hidden variables. -/
  | call (positional : List String) (hidden : List (String × Option Variable))
  /-- Reads a line into variables; `line` is what has been read, the last byte first, with marks for
  those that were escaped. -/
  | reading (raw : Bool) (names : List String) (line : List (UInt8 × Bool)) (escaped : Bool)
  /-- Waits for children that run in the background. -/
  | pause (child : Option Pid)
  /-- Takes the place of the standard streams in a stage of a pipeline. -/
  | plumb (input output : Option Descriptor) (unused : List Descriptor)
  /-- Reads from nowhere. -/
  | detach
  /-- Signals act in their standard way again. -/
  | resetTraps (signals : List Signal)
  /-- The status before a trap. -/
  | status (n : Nat)
  /-- Ends the script, whatever comes before. -/
  | leave (code : Nat)

/-- What cuts the run of commands short. -/
inductive Unwinding where
  | breaking (loops : Nat)
  | continuing (loops : Nat)
  | returning
deriving DecidableEq, Repr

structure State where
  parameters : Parameters
  functions : List (String × Command) := []
  frames : List Frame
  /-- What to run on a signal, or, without one, at the end. -/
  traps : List (Option Signal × String) := []
  /-- Signals with a trap that have come. -/
  pending : List Signal := []
  parent : Pid := 0
  unwinding : Option Unwinding := none
  /-- The status of the last command substitution. -/
  substituted : Option Nat := none
  /-- A command that fails ends the script. -/
  strict : Bool := false

namespace State

def status (s : State) : Nat := s.parameters.status

def setStatus (s : State) (n : Nat) : State :=
  { s with parameters := { s.parameters with status := n } }

def push (s : State) (f : Frame) : State := { s with frames := f :: s.frames }

def assign (s : State) (name value : String) : State :=
  { s with parameters := s.parameters.assign name value }

/-- A script that begins with these arguments, its own name first. -/
def start (arguments : List String) (environment : List (String × String)) : State where
  parameters :=
    { name := arguments.head?.getD "sh"
      bindings := environment.map fun (name, value) => (name, ⟨value, true⟩) }
  frames := [.begin arguments.tail]

/-- The same script in a process of its own, with only these things to do. -/
def child (s : State) (frames : List Frame) : State :=
  let caught := s.traps.filterMap fun (signal, action) => if action = "" then none else signal
  { s with
    frames := if caught.isEmpty then frames else .resetTraps caught :: frames
    traps := s.traps.filter fun (signal, action) => signal.isSome && action = ""
    pending := [], unwinding := none, substituted := none }

/-- The start of the script's messages. -/
def label (s : State) (line : Nat) : String := s.parameters.name ++ ": " ++ toString line ++ ": "

variable {τ : Type}

def complain (s : State) (line : Nat) (text : String) : Program τ Unit :=
  Program.say .error (s.label line ++ text ++ "\n")

/-- Leaves the script; what is to be run at its end comes first. -/
def leave (s : State) (code : Nat) : State :=
  match s.traps.lookup none with
  | some action =>
    { s with
      frames := [.text ⟨action.toList, 1⟩ false, .leave code]
      traps := s.traps.filter (·.1.isSome), unwinding := none }
  | none => { s with frames := [.leave code], unwinding := none }

/-- A fault that ends the script. -/
def abandon (s : State) (line : Nat) (text : String) : Program τ State := do
  s.complain line text
  return s.leave 2

end State

end PipelineShell.Script
