/-
Commands that are done in one round.

Each is given its arguments, writes what it has to say and ends with an exit
code.
-/
import PipelineShell.Utility.Condition
import PipelineShell.Utility.Echo
import PipelineShell.Utility.Filtering
import PipelineShell.Utility.Printf

namespace PipelineShell.Utility

open Program

variable {τ : Type}

/-- A time span in microseconds, with or without a unit. -/
def readDuration? (s : String) : Option Nat :=
  let cs := s.toList
  let (cs, unit) := match cs.getLast? with
    | some 's' => (cs.dropLast, 1)
    | some 'm' => (cs.dropLast, 60)
    | some 'h' => (cs.dropLast, 3600)
    | some 'd' => (cs.dropLast, 86400)
    | _ => (cs, 1)
  let whole := cs.takeWhile Char.isDigit
  let fraction? := match cs.drop whole.length with
    | [] => some []
    | '.' :: digits => if digits.all Char.isDigit then some digits else none
    | _ => none
  match fraction? with
  | none => none
  | some fraction =>
    if whole.isEmpty && fraction.isEmpty then none
    else
      let parts := Escape.number 10 (whole ++ fraction) * 1000000 * unit
      let unitParts := Nat.pow 10 fraction.length
      some ((parts + unitParts - 1) / unitParts)

def sleepCommand (arguments : List String) : Program τ Nat := do
  match arguments.find? fun s => (readDuration? s).isNone with
  | some text =>
    say .error ("sleep: invalid time interval '" ++ text ++ "'\n" ++ hint "sleep")
    return 1
  | none =>
    if arguments.isEmpty then
      say .error ("sleep: missing operand\n" ++ hint "sleep")
      return 1
    ask (.sleep ((arguments.filterMap readDuration?).foldl (· + ·) 0))
    return 0

def echoCommand (arguments : List String) : Program τ Nat := do
  put "echo" (Echo.output arguments) [.output]
  return 0

/-- The complaint about an argument of `printf`. -/
def numberComplaint : String × Printf.NumberProblem → String
  | (text, .notNumeric) => "'" ++ text ++ "': expected a numeric value"
  | (text, .trailing) => "'" ++ text ++ "': value not completely converted"

def printfCommand (arguments : List String) : Program τ Nat := do
  let arguments := if arguments.head? = some "--" then arguments.tail else arguments
  match arguments with
  | [] =>
    say .error ("printf: missing operand\n" ++ hint "printf")
    return 1
  | format :: arguments =>
    let dialect : Escape.Dialect := { hexadecimal := true, escapeKey := true, quote := true }
    let r := Printf.format dialect format arguments
    put "printf" r.output [.output]
    say .error (String.join (r.problems.map fun p => "printf: " ++ numberComplaint p ++ "\n"))
    match r.rest with
    | extra :: _ =>
      if !r.stopped then
        complain "printf" ("warning: ignoring excess arguments, starting with '" ++ extra ++ "'")
    | [] => pure ()
    return if r.problems.isEmpty then 0 else 1

def testCommand (name : String) (arguments : List String) : Program τ Nat := do
  let arguments? := if name ≠ "[" then some arguments
    else if arguments.getLast? = some "]" then some arguments.dropLast else none
  match arguments? with
  | none =>
    complain "[" "missing ']'"
    return 2
  | some arguments =>
    match ← Condition.evaluate arguments with
    | .ok verdict => return if verdict then 0 else 1
    | .error e =>
      complain name e.message
      return 2

/-- The numbers from the first to the last, by steps. -/
def sequence (first step last : Int) : List Int :=
  if step = 0 then []
  else
    let count := if step > 0 then (last - first) / step + 1 else (first - last) / -step + 1
    (List.range count.toNat).map fun (i : Nat) => first + step * i

def seqCommand (arguments : List String) : Program τ Nat := do
  match arguments.mapM String.toInt? with
  | none =>
    let bad := (arguments.find? fun s => s.toInt?.isNone).getD ""
    say .error ("seq: invalid floating point argument: '" ++ bad ++ "'\n" ++ hint "seq")
    return 1
  | some numbers =>
    let printAll := fun (numbers : List Int) => show Program τ Nat from do
      put "seq" (Bytes.ofText (String.join (numbers.map fun n => toString n ++ "\n"))) [.output]
      return 0
    match numbers with
    | [last] => printAll (sequence 1 1 last)
    | [first, last] => printAll (sequence first 1 last)
    | [first, step, last] =>
      if step = 0 then
        say .error ("seq: invalid Zero increment value: '" ++ toString step ++ "'\n" ++ hint "seq")
        return 1
      printAll (sequence first step last)
    | [] =>
      say .error ("seq: missing operand\n" ++ hint "seq")
      return 1
    | _ :: _ :: _ :: extra :: _ =>
      say .error ("seq: extra operand '" ++ toString extra ++ "'\n" ++ hint "seq")
      return 1

def workingDirectoryCommand : Program τ Nat := do
  match ← ask .workingDirectory with
  | .ok path =>
    put "pwd" (Bytes.ofText (path ++ "\n")) [.output]
    return 0
  | .error e =>
    complain "pwd"
      ("error retrieving current directory: getcwd: cannot access parent directories: " ++
        e.sentence)
    return 1

/-- The name without an ending, unless nothing would be left. -/
def withoutEnding (name ending : String) : String :=
  if name ≠ ending && name.endsWith ending then
    String.ofList (name.toList.take (name.length - ending.length))
  else name

def nameCommand (f : String → String) (command : String) (arguments : List String) :
    Program τ Nat := do
  match arguments with
  | path :: more =>
    let name := f path
    let name :=
      if command = "basename" then (more.head?.map (withoutEnding name)).getD name else name
    put command (Bytes.ofText (name ++ "\n")) [.output]
    return 0
  | [] =>
    say .error (command ++ ": missing operand\n" ++ hint command)
    return 1

/-- The directory part of a path. -/
def directoryPart (path : String) : String :=
  let names := (path.splitOn "/").filter (· ≠ "")
  match names.dropLast with
  | [] => if path.startsWith "/" then "/" else "."
  | names => (if path.startsWith "/" then "/" else "") ++ String.intercalate "/" names

/-- A signal by name or number, with or without `SIG`. -/
def readSignal? (s : String) : Option (Option Signal) :=
  match s.toNat? with
  | some 0 => some none
  | some n => (Signal.ofNumber? n).map some
  | none =>
    let name := s.toUpper
    let name := if name.startsWith "SIG" then String.ofList (name.toList.drop 3) else name
    if name = "EXIT" then some none
    else if name = "POLL" then (Signal.ofName? "IO").map some
    else (Signal.ofName? name).map some

/-- The signal and the targets that the arguments of `kill` name. -/
def killArguments (arguments : List String) : Except String (Option Signal × List String) :=
  match arguments with
  | "--" :: rest => .ok (some .terminate, rest)
  | "-s" :: name :: rest =>
    match readSignal? name with
    | some s => .ok (s, rest)
    | none => .error name
  | first :: rest =>
    match first.toList with
    | '-' :: c :: cs =>
      match readSignal? (String.ofList (c :: cs)) with
      | some s => .ok (s, if rest.head? = some "--" then rest.tail else rest)
      | none => .error (String.ofList (c :: cs))
    | _ => .ok (some .terminate, first :: rest)
  | [] => .ok (some .terminate, [])

def killCommand (arguments : List String) : Program τ Nat := do
  match killArguments arguments with
  | .error name =>
    complain "kill" ("invalid signal: '" ++ name ++ "'")
    return 1
  | .ok (signal, targets) =>
    forEach 1
      (fun target => do
        match target.toInt? with
        | none =>
          complain "kill" ("failed to parse argument: '" ++ target ++ "'")
          return false
        | some pid =>
          match ← ask (.kill pid signal) with
          | .ok () => return true
          | .error e =>
            complain "kill" ("(" ++ target ++ "): " ++ e.sentence)
            return false)
      targets

/-- The commands that are done in one round. -/
def single? (name : String) (arguments : List String) : Option (Program τ Nat) :=
  match name with
  | "true" => some (return 0)
  | "false" => some (return 1)
  | "echo" => some (echoCommand arguments)
  | "printf" => some (printfCommand arguments)
  | "test" => some (testCommand name arguments)
  | "[" => some (testCommand name arguments)
  | "sleep" => some (sleepCommand arguments)
  | "seq" => some (seqCommand arguments)
  | "pwd" => some workingDirectoryCommand
  | "basename" => some (nameCommand lastName name arguments)
  | "dirname" => some (nameCommand directoryPart name arguments)
  | "kill" => some (killCommand arguments)
  | "ls" => some (listFiles arguments)
  | "mv" => some (move arguments)
  | "cp" => some (copy arguments)
  | "rm" => some (remove arguments)
  | "mkdir" => some (makeDirectories arguments)
  | "rmdir" => some (removeDirectories arguments)
  | "touch" => some (touch arguments)
  | "chmod" => some (changeMode arguments)
  | _ => none

end PipelineShell.Utility
