/-
Commands that work on the contents of files, as processes.

Such a command goes through its operands, reads each file piece by piece, gives
the pieces to its filter and writes what the filter puts out.  Most commands
gather a block before they write.  A file that cannot be opened or read is
reported and, by most commands, passed over.
-/
import PipelineShell.Utility.FileCommands
import PipelineShell.Utility.Filter

namespace PipelineShell.Utility

/-- A command that works on the contents of its files. -/
structure Filtering where
  command : String
  filter : Filter
  /-- The file that is being read, with its name. -/
  current : Option (Descriptor × String) := none
  /-- The files that are still to be read. -/
  operands : List String
  outputs : List Descriptor := [.output]
  /-- The files have been named, so their names may be put out. -/
  named : Bool := true
  /-- Headings are put before the files. -/
  titled : Bool := false
  first : Bool := true
  /-- What has been put out and not yet written. -/
  unwritten : Bytes := []
  status : Nat := 0

/-- How a command complains that it cannot open a file. -/
def openComplaint (command name : String) (e : Errno) : String :=
  if command = "sort" then "cannot read: " ++ name ++ ": " ++ e.sentence
  else if command ∈ ["head", "tail"] then
    "cannot open '" ++ name ++ "' for reading: " ++ e.sentence
  else if command = "tac" then "failed to open '" ++ name ++ "' for reading: " ++ e.sentence
  else if command = "rev" then "cannot open " ++ name ++ ": " ++ e.sentence
  else name ++ ": " ++ e.sentence

/-- How a command complains that it cannot read a file. -/
def readComplaint (command name : String) (e : Errno) : String :=
  if command = "sort" then "read failed: " ++ name ++ ": " ++ e.sentence
  else if command ∈ ["head", "tail", "uniq"] then "error reading '" ++ name ++ "': " ++ e.sentence
  else name ++ ": " ++ e.sentence

/-- How much is written at once. -/
def blockSize : Nat := 4096

open Program

variable {τ : Type}

/-- Writes to all outputs; a command that cannot write ends. -/
def put (command : String) (data : Bytes) : List Descriptor → Program τ Unit
  | [] => return ()
  | fd :: fds => do
    match ← writeAll fd data with
    | .ok () => put command data fds
    | .error e =>
      complain command ("write error: " ++ e.sentence)
      exit 1

namespace Filtering

/-- Every piece is written as it is read. -/
def isDirect (f : Filtering) : Bool := f.command ∈ ["cat", "tee"]

/-- How much is read at once. -/
def pieceSize (f : Filtering) : Nat := if f.isDirect then 131072 else 8192

/-- Puts something out. -/
def emit (f : Filtering) (data : Bytes) : Program τ Filtering := do
  let unwritten := f.unwritten ++ data
  if f.isDirect || unwritten.length ≥ blockSize then
    put f.command unwritten f.outputs
    return { f with unwritten := [] }
  else return { f with unwritten }

/-- The exit code after trouble with a file. -/
def failure (f : Filtering) : Nat := if f.command = "sort" then 2 else 1

/-- The name that a file has in the output. -/
def shownName (operand : String) : String := if operand = "-" then "standard input" else operand

/-- Begins with the next file, or ends. -/
def openNext (f : Filtering) : Program τ Filtering := do
  match f.operands with
  | [] =>
    put f.command (f.unwritten ++ f.filter.finish) f.outputs
    exit f.status
  | operand :: operands =>
    let f := { f with operands }
    let opened ← if operand = "-" then pure (.ok 0) else ask (.open operand { reads := true })
    match opened with
    | .error e =>
      complain f.command (openComplaint f.command operand e)
      if f.command = "sort" then exit 2
      return { f with status := f.failure, filter := f.filter.passOver }
    | .ok fd =>
      let f ← if f.titled then f.emit (Filter.heading f.first (shownName operand)) else pure f
      return { f with current := some (fd, operand), first := false }

/-- The file that is read is also what is appended to, so reading it would not come to an end. -/
def feedsItself (f : Filtering) (fd : Descriptor) : Program τ Bool := do
  if f.command ≠ "cat" then return false
  match ← ask (.inspectDescriptor fd), ← ask (.inspectDescriptor .output) with
  | .ok input, .ok output =>
    return input.kind = .regular && output.kind = .regular && input.node = output.node &&
      input.size > 0
  | _, _ => return false

/-- Leaves a file. -/
def leave (f : Filtering) (fd : Descriptor) (operand : String) : Program τ Filtering := do
  let (filter, out) := f.filter.endFile (if f.named then operand else "")
  let f ← f.emit out
  if fd ≠ 0 then
    let _ ← ask (.close fd)
  return { f with filter, current := none }

/-- One round: the next file, or the next piece of this one. -/
def round (f : Filtering) : Program τ Filtering := do
  match f.current with
  | none => f.openNext
  | some (fd, operand) =>
    if ← f.feedsItself fd then
      complain f.command (operand ++ ": input file is output file")
      let _ ← ask (.close fd)
      return { f with current := none, status := f.failure }
    match ← ask (.read fd f.pieceSize) with
    | .error e =>
      complain f.command (readComplaint f.command operand e)
      if f.command = "sort" then exit 2
      let f ← f.leave fd operand
      return { f with status := f.failure }
    | .ok [] => f.leave fd operand
    | .ok data =>
      let (filter, out) := f.filter.feed data
      let f ← { f with filter }.emit out
      if filter.wantsMore then return f else f.leave fd operand

end Filtering

/-- Complains about the arguments and ends. -/
def misuse {α : Type} (command text : String) (code : Nat) : Program τ α := do
  say .error (command ++ ": " ++ text ++ "\n" ++ hint command)
  exit code

def parseOrExit (command : String) (table : OptionTable) (code : Nat) (arguments : List String) :
    Program τ Arguments :=
  match table.parse arguments with
  | .ok a => return a
  | .error e => do
    say .error (e.message command)
    exit code

/-- The operands, or the standard input if there are none. -/
def sources (a : Arguments) : List String := if a.operands.isEmpty then ["-"] else a.operands

def startReplacement (arguments : List String) : Program τ Filtering := do
  let a ← parseOrExit "tr" { flags := ['d', 's', 'c', 'C', 't'] } 1 arguments
  let delete := a.has 'd'
  let squeeze := a.has 's'
  let read := fun (s : String) => Replacement.readSet (Bytes.ofText s)
  let finish := fun (set₁ : String) (set₂ : Option String) => show Program τ Filtering from do
    match read set₁, set₂.mapM read with
    | .ok set₁, .ok set₂ =>
      let plan := Replacement.Plan.ofSets delete squeeze (a.has 'c' || a.has 'C') set₁ set₂
      return { command := "tr", filter := .bytewise plan, operands := ["-"] }
    | .error e, _ =>
      complain "tr" e.message
      exit 1
    | _, .error e =>
      complain "tr" e.message
      exit 1
  match a.operands with
  | [] => misuse "tr" "missing operand" 1
  | [set₁] =>
    if delete || squeeze then finish set₁ none
    else
      misuse "tr" ("missing operand after '" ++ set₁ ++
        "'\nTwo strings must be given when translating.") 1
  | [set₁, set₂] =>
    if delete && !squeeze then
      misuse "tr" ("extra operand '" ++ set₂ ++
        "'\nOnly one string may be given when deleting without squeezing repeats.") 1
    else finish set₁ (some set₂)
  | _ :: _ :: extra :: _ => misuse "tr" ("extra operand '" ++ extra ++ "'") 1

def startSort (arguments : List String) : Program τ Filtering := do
  let a ← parseOrExit "sort" { flags := ['r', 'n', 'u', 'f', 'b', 's'] } 2 arguments
  let o : Sorting.Options :=
    { reverse := a.has 'r', numeric := a.has 'n', unique := a.has 'u', ignoreCase := a.has 'f' }
  return { command := "sort", filter := .whole (Sorting.run o) [], operands := sources a }

def startUniq (arguments : List String) : Program τ Filtering := do
  let a ← parseOrExit "uniq" { flags := ['c', 'd', 'u'] } 1 arguments
  let o : Repeats.Options := { count := a.has 'c', repeated := a.has 'd', single := a.has 'u' }
  return { command := "uniq", filter := .whole (Repeats.run o) [], operands := (sources a).take 1 }

/-- The width of the columns: wide enough for the sizes of the files. -/
def countWidth (o : CountOptions) (operands : List String) : Program τ Nat := do
  let single := [o.lines, o.words, o.bytes].count true = 1
  if operands.length ≤ 1 && single then return 1
  sizes operands 0 1
where
  sizes : List String → Nat → Nat → Program τ Nat
    | [], total, least => return max least (toString total).length
    | operand :: rest, total, least => do
      let info ←
        if operand = "-" then ask (.inspectDescriptor .input) else ask (.inspect operand true)
      match info with
      | .ok info =>
        if info.kind = .regular then sizes rest (total + info.size) least else sizes rest total 7
      | .error _ => sizes rest total least

def startCount (arguments : List String) : Program τ Filtering := do
  let a ← parseOrExit "wc" { flags := ['l', 'w', 'c', 'm'] } 1 arguments
  let o : CountOptions :=
    { lines := a.has 'l', words := a.has 'w', bytes := a.has 'c' || a.has 'm' }
  let width ← countWidth o (sources a)
  return {
    command := "wc", filter := .count o width {} {} 0, operands := sources a
    named := !a.operands.isEmpty }

def startCut (arguments : List String) : Program τ Filtering := do
  let a ← parseOrExit "cut" { flags := ['s', 'n'], valued := ['c', 'b', 'f', 'd'] } 1 arguments
  let separator := ((a.value? 'd').bind fun d => (Bytes.ofText d).head?).getD 9
  let chosen := match a.value? 'c', a.value? 'b', a.value? 'f' with
    | some list, _, _ => some (Columns.Selection.bytes, list)
    | none, some list, _ => some (Columns.Selection.bytes, list)
    | none, none, some list => some (.fields separator (a.has 's'), list)
    | none, none, none => none
  match chosen with
  | none => misuse "cut" "you must specify a list of bytes, characters, or fields" 1
  | some (selection, text) =>
    match Columns.readList text with
    | none => misuse "cut" "invalid byte, character or field list" 1
    | some list =>
      return {
        command := "cut", filter := .perLine (Columns.line selection list) [],
        operands := sources a }

/-- The amount that `-n` or `-c` asks for, with the sign before it. -/
def amount (command : String) (a : Arguments) : Program τ (Option Char × Tail.Amount) := do
  let (text, isBytes) := match a.value? 'c' with
    | some text => (text, true)
    | none => ((a.value? 'n').getD "10", false)
  let (sign, digits) := match text.toList with
    | '+' :: rest => (some '+', rest)
    | '-' :: rest => (some '-', rest)
    | rest => (none, rest)
  if digits.isEmpty || !digits.all Char.isDigit then
    complain command ("invalid number of " ++ (if isBytes then "bytes" else "lines") ++ ": '" ++
      text ++ "'")
    exit 1
  let n := Escape.number 10 digits
  return (sign, if isBytes then .bytes n else .lines n)

def startHead (arguments : List String) : Program τ Filtering := do
  let table : OptionTable := { flags := ['q', 'v'], valued := ['n', 'c'] }
  let a ← parseOrExit "head" table 1 (expandCounts arguments)
  let (sign, n) ← amount "head" a
  let filter := if sign = some '-' then Filter.perFile (Tail.butLast n) [] else .leading n n
  let titled := (a.operands.length > 1 && !a.has 'q') || a.has 'v'
  return { command := "head", filter, operands := sources a, titled }

def startTail (arguments : List String) : Program τ Filtering := do
  let table : OptionTable := { flags := ['q', 'v'], valued := ['n', 'c'] }
  let a ← parseOrExit "tail" table 1 (expandCounts arguments)
  let (sign, n) ← amount "tail" a
  let f := if sign = some '+' then Tail.after n else Tail.last n
  let titled := (a.operands.length > 1 && !a.has 'q') || a.has 'v'
  return { command := "tail", filter := .perFile f [], operands := sources a, titled }

/-- Opens the files that are written to besides the output. -/
def openOutputs (append : Bool) : List String → Program τ (List Descriptor × Nat)
  | [] => return ([], 0)
  | path :: paths => do
    match ← ask (.open path { writes := true, create := true, append, truncate := !append }) with
    | .ok fd =>
      let (fds, code) ← openOutputs append paths
      return (fd :: fds, code)
    | .error e =>
      complain "tee" (path ++ ": " ++ e.sentence)
      let (fds, _) ← openOutputs append paths
      return (fds, 1)

def startTee (arguments : List String) : Program τ Filtering := do
  let a ← parseOrExit "tee" { flags := ['a', 'i', 'p'] } 1 arguments
  let (fds, status) ← openOutputs (a.has 'a') a.operands
  return { command := "tee", filter := .copy, operands := ["-"], outputs := .output :: fds, status }

def startCat (arguments : List String) : Program τ Filtering := do
  let a ← parseOrExit "cat" { flags := ['u'] } 1 arguments
  return { command := "cat", filter := .copy, operands := sources a }

def startReverse (command : String) (filter : Filter) (arguments : List String) :
    Program τ Filtering := do
  let a ← parseOrExit command {} 1 arguments
  return { command, filter, operands := sources a }

/-- The commands that work on contents. -/
def startFilter? (name : String) (arguments : List String) : Option (Program τ Filtering) :=
  match name with
  | "cat" => some (startCat arguments)
  | "tr" => some (startReplacement arguments)
  | "sort" => some (startSort arguments)
  | "uniq" => some (startUniq arguments)
  | "wc" => some (startCount arguments)
  | "cut" => some (startCut arguments)
  | "head" => some (startHead arguments)
  | "tail" => some (startTail arguments)
  | "tee" => some (startTee arguments)
  | "rev" => some (startReverse "rev" (.perFile Tail.reverseLines []) arguments)
  | "tac" =>
    some (startReverse "tac" (.perFile (fun b => (Tail.chunks b).reverse.flatten) []) arguments)
  | _ => none

end PipelineShell.Utility
