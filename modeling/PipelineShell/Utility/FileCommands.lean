/-
Commands that look at files and directories or change them.

Each is given its arguments and ends with an exit code.  A failure with one
operand is reported and the others are gone on with.
-/
import PipelineShell.Machine.Request
import PipelineShell.Utility.Arguments
import PipelineShell.Utility.Sorting

namespace PipelineShell.Utility

open Program

variable {τ : Type}

/-- A complaint of a command. -/
def complain (command text : String) : Program τ Unit :=
  say .error (command ++ ": " ++ text ++ "\n")

/-- Does something with every operand; the exit code tells whether all went well. -/
def forEach (failure : Nat) (f : String → Program τ Bool) : List String → Program τ Nat
  | [] => return 0
  | operand :: rest => do
    let good ← f operand
    let code ← forEach failure f rest
    return if good then code else failure

/-- Reports an error about an operand. -/
def failed (command before operand after : String) (e : Errno) : Program τ Bool := do
  complain command (before ++ operand ++ after ++ ": " ++ e.sentence)
  return false

/-- Runs a command on its operands, of which there has to be one. -/
def withOperands (command : String) (table : OptionTable) (arguments : List String)
    (f : Arguments → Program τ Nat) : Program τ Nat := do
  match table.parse arguments with
  | .error e =>
    say .error (e.message command)
    return 1
  | .ok a =>
    if a.operands.isEmpty then
      say .error (command ++ ": missing operand\n" ++ hint command)
      return 1
    f a

/-- The last name of a path. -/
def lastName (path : String) : String :=
  ((path.splitOn "/").filter (· ≠ "")).getLast?.getD path

/-- The name for a file in the place that a command is told, which may be a directory. -/
def destination (source target : String) : Program τ String := do
  match ← ask (.inspect target true) with
  | .ok info =>
    if info.kind = .directory then
      return (if target.endsWith "/" then target else target ++ "/") ++ lastName source
    else return target
  | .error _ => return target

/-- Sources and the place for them. -/
def splitTarget (operands : List String) : Option (List String × String) :=
  match operands.reverse with
  | target :: source :: sources => some ((source :: sources).reverse, target)
  | _ => none

/-- Runs a command that takes sources and a target. -/
def withTarget (command : String) (table : OptionTable) (arguments : List String)
    (f : Arguments → String → String → Program τ Bool) : Program τ Nat := do
  match table.parse arguments with
  | .error e =>
    say .error (e.message command)
    return 1
  | .ok a =>
    match splitTarget a.operands, a.operands with
    | some (sources, target), _ =>
      let isDirectory : Bool ← match ← ask (.inspect target true) with
        | .ok info => pure (decide (info.kind = .directory))
        | .error _ => pure false
      if sources.length > 1 && !isDirectory then
        complain command ("target '" ++ target ++ "' is not a directory")
        return 1
      forEach 1 (fun source => do f a source (← destination source target)) sources
    | none, [operand] =>
      say .error (command ++ ": missing destination file operand after '" ++ operand ++ "'\n" ++
        hint command)
      return 1
    | none, _ =>
      say .error (command ++ ": missing file operand\n" ++ hint command)
      return 1

def move (arguments : List String) : Program τ Nat :=
  withTarget "mv" { flags := ['f', 'i', 'n', 'v'] } arguments fun _ source target => do
    match ← ask (.inspect source false) with
    | .error e => failed "mv" "cannot stat '" source "'" e
    | .ok _ =>
      match ← ask (.rename source target) with
      | .ok () => return true
      | .error e => failed "mv" ("cannot move '" ++ source ++ "' to '") target "'" e

/-- More than any file holds. -/
def everything : Nat := 1000000000

def copy (arguments : List String) : Program τ Nat :=
  withTarget "cp" { flags := ['f', 'i', 'p', 'r', 'R', 'a'] } arguments fun _ source target => do
    match ← ask (.inspect source true) with
    | .error e => failed "cp" "cannot stat '" source "'" e
    | .ok info =>
      if info.kind = .directory then
        complain "cp" ("-r not specified; omitting directory '" ++ source ++ "'")
        return false
      match ← ask (.open source { reads := true }) with
      | .error e => failed "cp" "cannot open '" source "' for reading" e
      | .ok input =>
        let content ← ask (.read input everything)
        let _ ← ask (.close input)
        match ← ask (.open target { writes := true, create := true, truncate := true }) with
        | .error e => failed "cp" "cannot create regular file '" target "'" e
        | .ok output =>
          let _ ← writeAll output (match content with
            | .ok data => data
            | .error _ => [])
          let _ ← ask (.close output)
          if info.executable then
            let _ ← ask (.setExecutable target true)
          return true

/-- Removes a file, or a directory with all it holds; `depth` bounds how deep that goes. -/
def removeTree (force : Bool) : Nat → String → Program τ Bool
  | 0, _ => return false
  | depth + 1, path => do
    match ← ask (.inspect path false) with
    | .error e =>
      if force && e = .enoent then return true else failed "rm" "cannot remove '" path "'" e
    | .ok info =>
      if info.kind = .directory then
        let names ← ask (.entries path)
        let code ← forEach 1 (fun name => removeTree force depth (path ++ "/" ++ name))
          (match names with
            | .ok names => names
            | .error _ => [])
        match ← ask (.removeDirectory path) with
        | .ok () => return code = 0
        | .error e => failed "rm" "cannot remove '" path "'" e
      else
        match ← ask (.remove path) with
        | .ok () => return true
        | .error e => failed "rm" "cannot remove '" path "'" e

def remove (arguments : List String) : Program τ Nat := do
  let table : OptionTable := { flags := ['f', 'r', 'R', 'i', 'd', 'v'] }
  match table.parse arguments with
  | .error e =>
    say .error (e.message "rm")
    return 1
  | .ok a =>
    let force := a.has 'f'
    if a.operands.isEmpty && !force then
      say .error ("rm: missing operand\n" ++ hint "rm")
      return 1
    forEach 1
      (fun path => do
        if a.has 'r' || a.has 'R' then removeTree force 64 path
        else
          match ← ask (.remove path) with
          | .ok () => return true
          | .error e =>
            if force && e = .enoent then return true else failed "rm" "cannot remove '" path "'" e)
      a.operands

def makeDirectories (arguments : List String) : Program τ Nat :=
  withOperands "mkdir" { flags := ['p', 'v'], valued := ['m'] } arguments fun a =>
    forEach 1
      (fun path => do
        let names := path.splitOn "/"
        let paths := ((List.range names.length).map fun i =>
          String.intercalate "/" (names.take (i + 1))).filter (· ≠ "")
        if a.has 'p' then
          let code ← forEach 1
            (fun part => do
              match ← ask (.makeDirectory part) with
              | .ok () => return true
              | .error e =>
                match ← ask (.inspect part true) with
                | .ok ⟨.directory, _, _, _, _⟩ => return true
                | _ => failed "mkdir" "cannot create directory '" part "'" e)
            paths
          return code = 0
        else
          match ← ask (.makeDirectory path) with
          | .ok () => return true
          | .error e => failed "mkdir" "cannot create directory '" path "'" e)
      a.operands

def removeDirectories (arguments : List String) : Program τ Nat :=
  withOperands "rmdir" { flags := ['p', 'v'] } arguments fun a =>
    forEach 1
      (fun path => do
        match ← ask (.removeDirectory path) with
        | .ok () => return true
        | .error e => failed "rmdir" "failed to remove '" path "'" e)
      a.operands

def touch (arguments : List String) : Program τ Nat :=
  withOperands "touch" { flags := ['a', 'c', 'm'], valued := ['d', 'r', 't'] } arguments fun a =>
    forEach 1
      (fun path => do
        match ← ask (.inspect path true) with
        | .ok _ => return true
        | .error _ =>
          if a.has 'c' then return true
          match ← ask (.open path { writes := true, create := true }) with
          | .ok fd =>
            let _ ← ask (.close fd)
            return true
          | .error e => failed "touch" "cannot touch '" path "'" e)
      a.operands

/-- Whether a mode makes a file executable; nothing if it leaves that alone. -/
def executableMode? (mode : String) : Option (Option Bool) :=
  let cs := mode.toList
  if !cs.isEmpty && cs.all fun c => '0' ≤ c && c ≤ '7' then
    some (some (cs.any fun c => (c.toNat - '0'.toNat) % 2 = 1))
  else
    match cs.dropWhile fun c => c ∈ ['u', 'g', 'o', 'a'] with
    | op :: permissions =>
      if op ∈ ['+', '-', '='] && permissions.all fun c => c ∈ ['r', 'w', 'x', 'X', 's', 't'] then
        let mentions := permissions.contains 'x'
        some (if op = '=' then some mentions else if mentions then some (op = '+') else none)
      else none
    | [] => none

def changeMode (arguments : List String) : Program τ Nat := do
  match arguments with
  | mode :: path :: paths =>
    match executableMode? mode with
    | none =>
      say .error ("chmod: invalid mode: '" ++ mode ++ "'\n" ++ hint "chmod")
      return 1
    | some change =>
      forEach 1
        (fun path => do
          match ← ask (.inspect path true) with
          | .error e => failed "chmod" "cannot access '" path "'" e
          | .ok info =>
            let _ ← ask (.setExecutable path (change.getD info.executable))
            return true)
        (path :: paths)
  | [mode] =>
    say .error ("chmod: missing operand after '" ++ mode ++ "'\n" ++ hint "chmod")
    return 1
  | [] =>
    say .error ("chmod: missing operand\n" ++ hint "chmod")
    return 1

/-- Names in the order of their bytes. -/
def sortNames (names : List String) : List String :=
  names.mergeSort fun a b => Sorting.compareBytes (Bytes.ofText a) (Bytes.ofText b) ≠ .gt

/-- The names of a directory that are to be shown. -/
def shownNames (a : Arguments) (names : List String) : List String :=
  let visible := names.filter fun name => a.has 'a' || a.has 'A' || !name.startsWith "."
  sortNames (if a.has 'a' then "." :: ".." :: visible else visible)

def listFiles (arguments : List String) : Program τ Nat := do
  let table : OptionTable := { flags := ['a', 'A', '1', 'd', 'C', 'F'] }
  match table.parse arguments with
  | .error e =>
    say .error (e.message "ls")
    return 2
  | .ok a =>
    let operands := if a.operands.isEmpty then ["."] else sortNames a.operands
    let kinds ← gather operands
    let missing := kinds.filterMap fun (path, info) => match info with
      | .error e => some (path, e)
      | .ok _ => none
    let isDirectory := fun (info : Except Errno FileInfo) => match info with
      | .ok info => info.kind = .directory && !a.has 'd'
      | .error _ => false
    let isFile := fun (info : Except Errno FileInfo) => match info with
      | .ok info => info.kind ≠ .directory || a.has 'd'
      | .error _ => false
    let directories := (kinds.filter fun (_, info) => isDirectory info).map (·.1)
    let files := (kinds.filter fun (_, info) => isFile info).map (·.1)
    let code ← forEach 2 (fun (path : String) => do
      match missing.lookup path with
      | some e => failed "ls" "cannot access '" path "'" e
      | none => return true) (missing.map (·.1))
    say .output (String.join (files.map (· ++ "\n")))
    let titled := operands.length > 1
    showDirectories a titled (!files.isEmpty) directories
    return code
where
  gather : List String → Program τ (List (String × Except Errno FileInfo))
    | [] => return []
    | path :: rest => do
      let info ← ask (.inspect path true)
      return (path, info) :: (← gather rest)
  showDirectories (a : Arguments) (titled separated : Bool) : List String → Program τ Unit
    | [] => return ()
    | path :: rest => do
      let names ← ask (.entries path)
      let shown := shownNames a (match names with
        | .ok names => names
        | .error _ => [])
      say .output ((if separated then "\n" else "") ++ (if titled then path ++ ":\n" else "") ++
        String.join (shown.map (· ++ "\n")))
      showDirectories a titled true rest

end PipelineShell.Utility
