/-
The commands that are part of the shell's language.

They run in the shell's own process.  A special one keeps the assignments
before it and ends the script if its redirections fail.
-/
import PipelineShell.Script.Streams
import PipelineShell.Utility.Commands

namespace PipelineShell.Script

open Program

variable {τ : Type}

/-- A command of the language: the line it stands on, its arguments, and the shell. -/
abbrev Builtin (τ : Type) := Nat → List String → State → Program τ State

namespace Builtin

def isSpecial (name : String) : Bool :=
  name ∈ [":", ".", "break", "continue", "eval", "exec", "exit", "export", "readonly", "return",
    "set", "shift", "trap", "unset"]

def put (s : State) (line : Nat) (command : String) (data : Bytes) : Program τ State := do
  match ← writeAll .output data with
  | .ok () => return s.setStatus 0
  | .error _ =>
    s.complain line (command ++ ": " ++ command ++ ": I/O error")
    return s.setStatus 1

def echo : Builtin τ := fun line arguments s =>
  put s line "echo" (Utility.Echo.shellOutput arguments)

def numberComplaint : String × Utility.Printf.NumberProblem → String
  | (text, .notNumeric) => "printf: " ++ text ++ ": expected numeric value"
  | (text, .trailing) => "printf: " ++ text ++ ": not completely converted"

def complainAll (s : State) (line : Nat) : List String → Program τ Unit
  | [] => return ()
  | text :: rest => do
    s.complain line text
    complainAll s line rest

def printf : Builtin τ := fun line arguments s => do
  let arguments := if arguments.head? = some "--" then arguments.tail else arguments
  match arguments with
  | [] =>
    s.complain line "printf: usage: printf format [arg ...]"
    return s.setStatus 2
  | format :: arguments =>
    let r := Utility.Printf.format {} format arguments
    complainAll s line (r.problems.map numberComplaint)
    let s ← put s line "printf" r.output
    return if r.problems.isEmpty then s else s.setStatus 1

def test (name : String) : Builtin τ := fun line arguments s => do
  let arguments? := if name ≠ "[" then some arguments
    else if arguments.getLast? = some "]" then some arguments.dropLast else none
  match arguments? with
  | none =>
    s.complain line "[: missing ]"
    return s.setStatus 2
  | some arguments =>
    match ← Utility.Condition.evaluate arguments with
    | .ok verdict => return s.setStatus (if verdict then 0 else 1)
    | .error e =>
      s.complain line (name ++ ": " ++ e.message)
      return s.setStatus 2

/-- A number from the argument of a command. -/
def readCount? (text : String) : Option Nat :=
  if text.toList.all Char.isDigit then text.toNat? else none

def exitCommand : Builtin τ := fun line arguments s => do
  match arguments with
  | [] => return s.leave s.status
  | text :: _ =>
    match readCount? text with
    | some n => return s.leave (n % 256)
    | none => s.abandon line ("exit: Illegal number: " ++ text)

def returnCommand : Builtin τ := fun line arguments s => do
  match arguments with
  | [] => return { s with unwinding := some .returning }
  | text :: _ =>
    match readCount? text with
    | some n => return { s.setStatus (n % 256) with unwinding := some .returning }
    | none => s.abandon line ("return: Illegal number: " ++ text)

/-- The shell is within a loop of this function. -/
def inLoop : List Frame → Bool
  | [] => false
  | .call _ _ :: _ => false
  | .again _ _ _ _ :: _ => true
  | .tested _ _ _ :: _ => true
  | .each _ _ _ :: _ => true
  | _ :: rest => inLoop rest

def leaveLoop (name : String) (unwind : Nat → Unwinding) : Builtin τ := fun line arguments s => do
  if !inLoop s.frames then return s.setStatus 0
  match arguments with
  | [] => return { s.setStatus 0 with unwinding := some (unwind 1) }
  | text :: _ =>
    match readCount? text with
    | some (n + 1) => return { s.setStatus 0 with unwinding := some (unwind (n + 1)) }
    | _ => s.abandon line (name ++ ": Illegal number: " ++ text)

def eval : Builtin τ := fun _ arguments s =>
  return (s.setStatus 0).push (.text ⟨(String.intercalate " " arguments).toList, 1⟩ false)

/-- More than any file holds. -/
def everything : Nat := 1000000000

def source : Builtin τ := fun line arguments s => do
  match arguments with
  | [] => return s.setStatus 0
  | path :: _ =>
    match ← ask (.open path { reads := true }) with
    | .error e => s.abandon line (".: cannot open " ++ path ++ ": " ++ fileProblem false e)
    | .ok fd =>
      let content ← ask (.read fd everything)
      let _ ← ask (.close fd)
      let text := match content with
        | .ok data => Bytes.readable data
        | .error _ => ""
      return (s.setStatus 0).push (.text ⟨text.toList, 1⟩ false)

/-- Splits `name=value`. -/
def splitAssignment (argument : String) : String × Option String :=
  let cs := argument.toList
  let name := cs.takeWhile (· ≠ '=')
  match cs.drop name.length with
  | _ :: value => (String.ofList name, some (String.ofList value))
  | [] => (argument, none)

def exportCommand : Builtin τ := fun _ arguments s =>
  return (arguments.foldl
    (fun s argument =>
      let (name, value) := splitAssignment argument
      let p := (value.map (s.parameters.assign name)).getD s.parameters
      { s with parameters := p.publish name })
    s).setStatus 0

def assignCommand : Builtin τ := fun _ arguments s =>
  return (arguments.foldl
    (fun s argument =>
      let (name, value) := splitAssignment argument
      (value.map (s.assign name)).getD s)
    s).setStatus 0

def localCommand : Builtin τ := fun _ arguments s =>
  let hide := fun (s : State) (argument : String) =>
    let (name, value) := splitAssignment argument
    let old := s.parameters.binding? name
    let rec mark : List Frame → List Frame
      | .call positional hidden :: rest => .call positional ((name, old) :: hidden) :: rest
      | frame :: rest => frame :: mark rest
      | [] => []
    let s := { s with frames := mark s.frames }
    (value.map (s.assign name)).getD s
  return (arguments.foldl hide s).setStatus 0

def unset : Builtin τ := fun _ arguments s =>
  let names := arguments.filter fun name => !name.startsWith "-"
  return { s with
    parameters := names.foldl Parameters.unset s.parameters
    functions := if arguments.head? = some "-f" then s.functions.filter fun f => !names.contains f.1
      else s.functions }.setStatus 0

def shift : Builtin τ := fun line arguments s => do
  let count := match arguments with
    | [] => some 1
    | text :: _ => readCount? text
  match count with
  | some n =>
    if n ≤ s.parameters.positional.length then
      let p := s.parameters
      return { s with parameters := { p with positional := p.positional.drop n } }.setStatus 0
    else s.abandon line "shift: can't shift that many"
  | none => s.abandon line ("shift: Illegal number: " ++ arguments.head?.getD "")

/-- Turns options on or off. -/
def setOptions (s : State) (on : Bool) (letters : List Char) : State :=
  letters.foldl
    (fun s c =>
      match c with
      | 'e' => { s with strict := on }
      | 'u' => { s with parameters := { s.parameters with strict := on } }
      | _ => s)
    s

def setCommand : Builtin τ := fun _ arguments s =>
  return go (s.setStatus 0) arguments
where
  go (s : State) : List String → State
    | [] => s
    | argument :: rest =>
      match argument.toList with
      | ['-', '-'] => { s with parameters := { s.parameters with positional := rest } }
      | '-' :: c :: cs => go (setOptions s true (c :: cs)) rest
      | '+' :: c :: cs => go (setOptions s false (c :: cs)) rest
      | _ => { s with parameters := { s.parameters with positional := argument :: rest } }

/-- A signal by number or by name; `EXIT` and 0 are none.  One of the signals has no name here. -/
def readSignal? (s : String) : Option (Option Signal) :=
  if s ≠ "" && s.toList.all Char.isDigit then
    match s.toNat? with
    | some 0 => some none
    | some n => (Signal.ofNumber? n).map some
    | none => none
  else
    let name := s.toUpper
    if name = "EXIT" then some none
    else if name = "STKFLT" then none
    else (Signal.ofName? name).map some

/-- Makes a signal act as its trap asks for. -/
def setDisposition (signal : Option Signal) (action : Option String) : Program τ Unit := do
  match signal with
  | none => return ()
  | some signal =>
    let disposition : Disposition := match action with
      | none => .standard
      | some "" => .ignored
      | some _ => .caught
    let _ ← ask (.setDisposition signal disposition)

def setTraps (line : Nat) (action : Option String) : List String → State → Program τ State
  | [], s => return s.setStatus 0
  | name :: rest, s => do
    match readSignal? name with
    | none =>
      say .error ("trap: " ++ name ++ ": bad trap\n")
      return s.setStatus 1
    | some signal =>
      setDisposition signal action
      let others := s.traps.filter (·.1 ≠ signal)
      setTraps line action rest
        { s with traps := (action.map fun text => (signal, text)).toList ++ others }

def trap : Builtin τ := fun line arguments s =>
  let arguments := if arguments.head? = some "--" then arguments.tail else arguments
  match arguments with
  | [] => return s.setStatus 0
  | [name] => setTraps line none [name] s
  | action :: names =>
    if action = "-" then setTraps line none names s
    else if action.toList.all Char.isDigit && action ≠ "" then
      setTraps line none (action :: names) s
    else setTraps line (some action) names s

def changeDirectory : Builtin τ := fun line arguments s => do
  let setting := fun name => (s.parameters.value? name).getD ""
  let arguments := arguments.filter fun a => a ≠ "-P" && a ≠ "-L" && a ≠ "--"
  let (directory, shown) := match arguments with
    | [] => (setting "HOME", false)
    | "-" :: _ => (setting "OLDPWD", true)
    | directory :: _ => (directory, false)
  let before ← ask .workingDirectory
  match ← ask (.changeDirectory directory) with
  | .error _ =>
    s.complain line ("cd: can't cd to " ++ directory)
    return s.setStatus 2
  | .ok () =>
    let after ← ask .workingDirectory
    let text := fun (path : Except Errno String) => path.toOption.getD ""
    let s := (s.assign "OLDPWD" (text before)).assign "PWD" (text after)
    if shown then say .output (text after ++ "\n")
    return s.setStatus 0

def workingDirectory : Builtin τ := fun line _ s => do
  match ← ask .workingDirectory with
  | .ok path => put s line "pwd" (Bytes.ofText (path ++ "\n"))
  | .error e =>
    s.complain line ("pwd: getcwd() failed: " ++ e.sentence)
    return s.setStatus 1

/-- Sends a signal to each target. -/
def killTargets (s : State) (line : Nat) (signal : Option Signal) : List String → Program τ Nat
  | [] => return 0
  | target :: rest => do
    let code ← match target.toInt? with
      | none => do
        s.complain line ("kill: Illegal number: " ++ target)
        pure 2
      | some pid => do
        match ← ask (.kill pid signal) with
        | .ok () => pure 0
        | .error e =>
          s.complain line ("kill: " ++ e.sentence ++ "\n")
          pure 1
    let more ← killTargets s line signal rest
    return max code more

/-- The signal and the targets that the arguments of `kill` name. -/
def killArguments (arguments : List String) : Except String (Option Signal × List String) :=
  match arguments with
  | [] => .ok (some .terminate, [])
  | first :: rest =>
    match first.toList with
    | '-' :: spec =>
      match readSignal? (String.ofList spec), spec, rest with
      | some signal, _, _ => .ok (signal, rest)
      | none, [], _ => .ok (some .terminate, first :: rest)
      | none, ['-'], _ => .ok (some .terminate, rest)
      | none, ['s'], name :: rest => named name rest
      | none, ['s'], [] => .error "No arg for -s option"
      | none, 's' :: name, _ => named (String.ofList name) rest
      | none, c :: _, _ => .error ("Illegal option -" ++ String.singleton c)
    | _ => .ok (some .terminate, arguments)
where
  named (name : String) (targets : List String) : Except String (Option Signal × List String) :=
    match readSignal? name with
    | some signal => .ok (signal, targets)
    | none => .error ("invalid signal number or name: " ++ name)

def kill : Builtin τ := fun line arguments s => do
  match killArguments arguments with
  | .error text =>
    s.complain line ("kill: " ++ text)
    return s.setStatus 2
  | .ok (signal, targets) =>
    if targets.isEmpty then
      s.complain line
        ("kill: Usage: kill [-s sigspec | -signum | -sigspec] [pid | job]... or\n" ++
          "kill -l [exitstatus]")
      return s.setStatus 2
    return s.setStatus (← killTargets s line signal targets)

def read : Builtin τ := fun line arguments s => do
  let raw := arguments.contains "-r"
  let names := arguments.filter fun name => !name.startsWith "-"
  if names.isEmpty then
    s.complain line "read: arg count"
    return s.setStatus 2
  return s.push (.reading raw names [] false)

def wait : Builtin τ := fun line arguments s => do
  match arguments with
  | [] => return (s.setStatus 0).push (.pause none)
  | text :: _ =>
    match text.toInt? with
    | some pid => return s.push (.pause (some pid))
    | none =>
      s.complain line ("wait: Illegal number: " ++ text)
      return s.setStatus 2

/-- The commands of the language, apart from `exec` and `command`. -/
def find? (name : String) : Option (Builtin τ) :=
  match name with
  | ":" => some fun _ _ s => return s.setStatus 0
  | "true" => some fun _ _ s => return s.setStatus 0
  | "false" => some fun _ _ s => return s.setStatus 1
  | "echo" => some echo
  | "printf" => some printf
  | "test" => some (test name)
  | "[" => some (test name)
  | "exit" => some exitCommand
  | "return" => some returnCommand
  | "break" => some (leaveLoop name .breaking)
  | "continue" => some (leaveLoop name .continuing)
  | "eval" => some eval
  | "." => some source
  | "export" => some exportCommand
  | "readonly" => some assignCommand
  | "local" => some localCommand
  | "unset" => some unset
  | "shift" => some shift
  | "set" => some setCommand
  | "trap" => some trap
  | "cd" => some changeDirectory
  | "pwd" => some workingDirectory
  | "kill" => some kill
  | "read" => some read
  | "wait" => some wait
  | "umask" => some fun line _ s => put s line name (Bytes.ofText "0022\n")
  | _ => none

/-- The names of the commands of the language. -/
def isName (name : String) : Bool :=
  (find? name : Option (Builtin Unit)).isSome || name = "exec" || name = "command"

end Builtin

end PipelineShell.Script
