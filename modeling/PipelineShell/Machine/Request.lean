/-
What a program asks of the machine it runs on, and programs as the trees of
what they ask.

A `Request` is one system call.  Its `Answer` is the type of what comes back;
nothing ever comes back from `exit`, and from `execute` and `executeCommand`
only an error does.  A `Program` is either done with a value or makes a request and goes on with the
answer, so whatever can answer requests can run it: the machine of this
library, or a list of prescribed answers.

The type `τ` is what a new process starts with.
-/
import PipelineShell.Errno
import PipelineShell.Machine.Signal
import PipelineShell.Pid
import PipelineShell.Text.Utf8

namespace PipelineShell

abbrev Descriptor := Nat

namespace Descriptor

def input : Descriptor := 0
def output : Descriptor := 1
def error : Descriptor := 2

end Descriptor

/-- How a file is opened. -/
structure OpenMode where
  reads : Bool := false
  writes : Bool := false
  create : Bool := false
  truncate : Bool := false
  append : Bool := false
  exclusive : Bool := false
  closeOnExec : Bool := false
deriving DecidableEq, Repr

inductive FileKind where
  | regular | directory | device | pipe | link
deriving DecidableEq, Repr

/-- What the machine tells about a file without opening it. -/
structure FileInfo where
  kind : FileKind
  size : Nat
  executable : Bool
  /-- Two names of the same file have the same number. -/
  node : Nat
  /-- When the contents changed last. -/
  modified : Nat
deriving DecidableEq, Repr

/-- What a process wants a signal to do. -/
inductive Disposition where
  | standard
  | ignored
  | caught
deriving DecidableEq, Repr

inductive Request (τ : Type) where
  | open (path : String) (mode : OpenMode)
  | close (fd : Descriptor)
  | duplicate (source target : Descriptor)
  /-- A copy on the least free descriptor from `least` on, closed by `execute`. -/
  | duplicateAbove (source least : Descriptor)
  /-- A pipe whose two ends are closed by `execute`: the end to read, the end to write. -/
  | pipe
  | read (fd : Descriptor) (count : Nat)
  | write (fd : Descriptor) (data : Bytes)
  | isTerminal (fd : Descriptor)
  | fork (child : τ)
  | execute (path : String) (arguments : List String) (environment : List (String × String))
  /-- Executes the file of a command, wherever the system finds it. -/
  | executeCommand (name : String) (arguments : List String)
  | environment
  | exit (code : Nat)
  /-- Collects a child, or any child; `hang` waits for one, `untraced` also tells of stops. -/
  | wait (child : Option Pid) (hang untraced : Bool)
  | kill (target : Pid) (signal : Option Signal)
  | processId
  | parentId
  | setGroup (pid group : Pid)
  | foreground (fd : Descriptor)
  | setForeground (fd : Descriptor) (group : Pid)
  | setDisposition (signal : Signal) (disposition : Disposition)
  /-- The caught signals that came since the last such request. -/
  | caughtSignals
  | changeDirectory (path : String)
  | workingDirectory
  | makeDirectory (path : String)
  | removeDirectory (path : String)
  | remove (path : String)
  | rename (source target : String)
  | setExecutable (path : String) (executable : Bool)
  | inspect (path : String) (follow : Bool)
  | inspectDescriptor (fd : Descriptor)
  | entries (path : String)
  /-- Waits for this many microseconds. -/
  | sleep (duration : Nat)

namespace Request

variable {τ : Type}

/-- What comes back from a request. -/
def Answer : Request τ → Type
  | .open _ _ => Except Errno Descriptor
  | .close _ => Except Errno Unit
  | .duplicate _ _ => Except Errno Unit
  | .duplicateAbove _ _ => Except Errno Descriptor
  | .pipe => Except Errno (Descriptor × Descriptor)
  | .read _ _ => Except Errno Bytes
  | .write _ _ => Except Errno Nat
  | .isTerminal _ => Bool
  | .fork _ => Except Errno Pid
  | .execute _ _ _ => Errno
  | .executeCommand _ _ => Errno
  | .environment => List (String × String)
  | .exit _ => Empty
  | .wait _ _ _ => Except Errno (Option (Pid × WaitStatus))
  | .kill _ _ => Except Errno Unit
  | .processId => Pid
  | .parentId => Pid
  | .setGroup _ _ => Except Errno Unit
  | .foreground _ => Except Errno Pid
  | .setForeground _ _ => Except Errno Unit
  | .setDisposition _ _ => Except Errno Unit
  | .caughtSignals => List Signal
  | .changeDirectory _ => Except Errno Unit
  | .workingDirectory => Except Errno String
  | .makeDirectory _ => Except Errno Unit
  | .removeDirectory _ => Except Errno Unit
  | .remove _ => Except Errno Unit
  | .rename _ _ => Except Errno Unit
  | .setExecutable _ _ => Except Errno Unit
  | .inspect _ _ => Except Errno FileInfo
  | .inspectDescriptor _ => Except Errno FileInfo
  | .entries _ => Except Errno (List String)
  | .sleep _ => Unit

end Request

/-- A computation of a process. -/
inductive Program (τ α : Type) where
  | done (value : α)
  | call (request : Request τ) (next : request.Answer → Program τ α)

namespace Program

variable {τ α β γ : Type}

def bind : Program τ α → (α → Program τ β) → Program τ β
  | .done a, f => f a
  | .call r next, f => .call r fun answer => bind (next answer) f

instance : Monad (Program τ) where
  pure := .done
  bind := bind

@[simp] theorem pure_eq (a : α) : (pure a : Program τ α) = .done a := rfl

@[simp] theorem done_bind (a : α) (f : α → Program τ β) :
    ((.done a : Program τ α) >>= f) = f a := rfl

@[simp] theorem call_bind (r : Request τ) (next : r.Answer → Program τ α) (f : α → Program τ β) :
    ((.call r next : Program τ α) >>= f) = .call r fun answer => next answer >>= f := rfl

theorem bind_done : ∀ p : Program τ α, (p >>= .done) = p
  | .done _ => rfl
  | .call r next => congrArg (Program.call r) (funext fun answer => bind_done (next answer))

theorem bind_bind : ∀ (p : Program τ α) (f : α → Program τ β) (g : β → Program τ γ),
    (p >>= f >>= g) = (p >>= fun a => f a >>= g)
  | .done _, _, _ => rfl
  | .call r next, f, g =>
    congrArg (Program.call r) (funext fun answer => bind_bind (next answer) f g)

/-- The program of one request. -/
def ask (r : Request τ) : Program τ r.Answer := .call r .done

/-- Ends the process. -/
def exit (code : Nat) : Program τ α := .call (.exit code) Empty.elim

/-- Writes all of the data, as far as nothing goes wrong. -/
def writeAll (fd : Descriptor) (data : Bytes) : Program τ (Except Errno Unit) :=
  go data.length data
where
  go : Nat → Bytes → Program τ (Except Errno Unit)
    | 0, _ => return .ok ()
    | fuel + 1, data => do
      if data.isEmpty then return .ok ()
      match ← ask (.write fd data) with
      | .error e => return .error e
      | .ok n => go fuel (data.drop n)

/-- Writes a text and does not care whether that works. -/
def say (fd : Descriptor) (text : String) : Program τ Unit := do
  let _ ← writeAll fd (Bytes.ofText text)

end Program

end PipelineShell
