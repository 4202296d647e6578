/-
Signals: their numbers, their names, what they do to a process that has not
asked for anything else, and the text for a process that one of them ended.

The numbers 1 to 31 have names.  From 34 on signals are real-time signals;
they end a process like most others.
-/

namespace PipelineShell

structure Signal where
  number : Nat
  valid : 1 ≤ number ∧ number ≤ 64
deriving DecidableEq, Repr

namespace Signal

def ofNumber? (n : Nat) : Option Signal := if h : 1 ≤ n ∧ n ≤ 64 then some ⟨n, h⟩ else none

def interrupt : Signal := ⟨2, by decide⟩
def quit : Signal := ⟨3, by decide⟩
def abort : Signal := ⟨6, by decide⟩
def kill : Signal := ⟨9, by decide⟩
def brokenPipe : Signal := ⟨13, by decide⟩
def terminate : Signal := ⟨15, by decide⟩
def childChanged : Signal := ⟨17, by decide⟩
def resume : Signal := ⟨18, by decide⟩
def stop : Signal := ⟨19, by decide⟩
def terminalStop : Signal := ⟨20, by decide⟩
def terminalInput : Signal := ⟨21, by decide⟩
def terminalOutput : Signal := ⟨22, by decide⟩

/-- The names of the signals 1 to 31, with the text for a process that one of them ended. -/
def table : List (String × String) :=
  [("HUP", "Hangup"), ("INT", "Interrupt"), ("QUIT", "Quit"), ("ILL", "Illegal instruction"),
    ("TRAP", "Trace/breakpoint trap"), ("ABRT", "Aborted"), ("BUS", "Bus error"),
    ("FPE", "Floating point exception"), ("KILL", "Killed"), ("USR1", "User defined signal 1"),
    ("SEGV", "Segmentation fault"), ("USR2", "User defined signal 2"), ("PIPE", "Broken pipe"),
    ("ALRM", "Alarm clock"), ("TERM", "Terminated"), ("STKFLT", "Stack fault"),
    ("CHLD", "Child exited"), ("CONT", "Continued"), ("STOP", "Stopped (signal)"),
    ("TSTP", "Stopped"), ("TTIN", "Stopped (tty input)"), ("TTOU", "Stopped (tty output)"),
    ("URG", "Urgent I/O condition"), ("XCPU", "CPU time limit exceeded"),
    ("XFSZ", "File size limit exceeded"), ("VTALRM", "Virtual timer expired"),
    ("PROF", "Profiling timer expired"), ("WINCH", "Window changed"), ("IO", "I/O possible"),
    ("PWR", "Power failure"), ("SYS", "Bad system call")]

def ofName? (name : String) : Option Signal :=
  (table.findIdx? fun entry => entry.1 == name).bind fun i => ofNumber? (i + 1)

def name (s : Signal) : String :=
  match table[s.number - 1]? with
  | some entry => entry.1
  | none => toString s.number

def text (s : Signal) : String :=
  match table[s.number - 1]? with
  | some entry => entry.2
  | none =>
    if s.number ≥ 34 then "Real-time signal " ++ toString (s.number - 34)
    else "Unknown signal " ++ toString s.number

/-- What a signal does to a process. -/
inductive Effect where
  | ends
  | stops
  | continues
  | nothing
deriving DecidableEq, Repr

/-- What the signal does to a process that has not chosen otherwise. -/
def effect (s : Signal) : Effect :=
  if s = resume then .continues
  else if s.number ∈ [17, 23, 28] then .nothing
  else if s.number ∈ [19, 20, 21, 22] then .stops
  else .ends

/-- A real-time signal has no name of its own. -/
def isRealTime (s : Signal) : Bool := s.number > 31

/-- A process cannot choose what these two do. -/
def isUncatchable (s : Signal) : Bool := s = kill || s = stop

end Signal

/-- What became of a process, as its parent learns it. -/
inductive WaitStatus where
  | exited (code : Nat)
  | killed (signal : Signal)
  | stopped (signal : Signal)
deriving DecidableEq, Repr

/-- The status as one number: the exit code, or 128 and the signal. -/
def WaitStatus.code : WaitStatus → Nat
  | .exited code => code
  | .killed signal => 128 + signal.number
  | .stopped signal => 128 + signal.number

end PipelineShell
