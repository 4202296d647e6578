/-
The log: levels, records, and opening the file that records go to.

A level lets the records of its own and of all graver levels through; `off`
lets none through, and then there is no file either.  The directories above the
file are made if they are missing, and what the file holds already stays.
-/
import PipelineShell.CommandLine
import PipelineShell.FilePath
import PipelineShell.Machine.Request
import PipelineShell.Settings
import PipelineShell.Text.Escaped

namespace PipelineShell

inductive LogLevel where
  | off | error | warn | info | debug | trace
deriving DecidableEq, Repr

namespace LogLevel

def all : List LogLevel := [.off, .error, .warn, .info, .debug, .trace]

def name : LogLevel → String
  | .off => "OFF" | .error => "ERROR" | .warn => "WARN" | .info => "INFO" | .debug => "DEBUG"
  | .trace => "TRACE"

/-- The place among all levels, the gravest first. -/
def rank (level : LogLevel) : Nat := all.idxOf level

/-- The level of a name in capital or small letters. -/
def ofName? (name : String) : Option LogLevel :=
  let capitals := String.ofList (name.toList.map Char.toUpper)
  all.find? (·.name = capitals)

/-- A record of level `record` is let through. -/
def admits (level record : LogLevel) : Bool := record.rank ≤ level.rank

end LogLevel

structure LogRecord where
  level : LogLevel
  text : String
deriving DecidableEq, Repr

inductive LogError where
  | unknownLevel (level : String)
  /-- The file or a directory above it cannot be had. -/
  | file (e : Errno)
  | containsNul
  /-- There is a log already. -/
  | alreadyOpen
deriving DecidableEq, Repr

def LogError.message : LogError → String
  | .unknownLevel level => "不正なログレベル: " ++ level
  | .file e => e.numbered
  | .containsNul => "file name contained an unexpected NUL byte"
  | .alreadyOpen => "attempted to set a logger after the logging system was already initialized"

/-- A log that is open. -/
structure Log where
  level : LogLevel
  file : Descriptor
deriving DecidableEq, Repr

namespace Log

open Program

variable {τ : Type}

/-- Makes the first of these directories, and, if need be, those above it, which follow it. -/
def makeDirectories : List String → Program τ (Except Errno Unit)
  | [] => return .ok ()
  | path :: above => do
    if path = "" then return .ok ()
    match ← ask (.makeDirectory path) with
    | .ok () => return .ok ()
    | .error .enoent =>
      match ← makeDirectories above with
      | .error e => return .error e
      | .ok () =>
        match ← ask (.makeDirectory path) with
        | .ok () => return .ok ()
        | .error e => unlessDirectory path e
    | .error e => unlessDirectory path e
where
  /-- The error, unless the directory is there all the same. -/
  unlessDirectory (path : String) (e : Errno) : Program τ (Except Errno Unit) := do
    match ← ask (.inspect path true) with
    | .ok info => return if info.kind = .directory then .ok () else .error e
    | .error _ => return .error e

/-- Opens the file for records at its end. -/
def openFile (path : String) : Program τ (Except LogError Descriptor) := do
  if (nulPosition? path).isSome then return .error .containsNul
  match ← makeDirectories (FilePath.ancestors path) with
  | .error e => return .error (.file e)
  | .ok () =>
    let mode : OpenMode := { writes := true, create := true, append := true, closeOnExec := true }
    return (← ask (.open path mode)).mapError .file

/-- Opens the log at a path, if a log is wanted.  `existing` is the log that is open already; it
stays, and with it the second one fails, but not before its file has been made. -/
def start (level path : String) (existing : Option Log) :
    Program τ (Except LogError (Option Log)) := do
  match LogLevel.ofName? level with
  | none => return .error (.unknownLevel level)
  | some .off => return .ok existing
  | some level =>
    match ← openFile path with
    | .error e => return .error e
    | .ok file =>
      match existing with
      | none => return .ok (some { level, file })
      | some _ =>
        let _ ← ask (.close file)
        return .error .alreadyOpen

/-- Writes the records that the level lets through. -/
def write (log : Log) : List LogRecord → Program τ Unit
  | [] => return ()
  | record :: rest => do
    if log.level.admits record.level then
      say log.file ("[" ++ record.level.name ++ "] " ++ record.text ++ "\n")
    write log rest

end Log

/-! How a record shows what a line was read as. -/

def Operator.shown : Operator → String
  | .background => "Background" | .pipe => "Pipe" | .input => "RedirectIn"
  | .output => "RedirectOut" | .append => "RedirectAppend"

def Word.shown : Word → String
  | .literal raw => "Literal(" ++ String.ofList (Text.quoted raw.toList) ++ ")"
  | .operator op => "Operator(" ++ op.shown ++ ")"

/-- The name of a file, if there is one. -/
def Modifier.shownFile : Option String → String
  | none => "None"
  | some name => "Some(" ++ String.ofList (Text.quoted name.toList) ++ ")"

def Modifier.shown (m : Modifier) : String :=
  "Modifier \x7b background: " ++ toString m.background ++ ", input: " ++ shownFile m.input ++
    ", output: " ++ shownFile m.output ++ ", append: " ++ toString m.append ++ " \x7d"

/-- What is recorded about parsing a line: its words once they are known, and its stages and its
modifier if it can be run. -/
def CommandLine.records (line : String) (ops : OperatorSet) : List LogRecord :=
  let words := match tokenize line ops with
    | .ok words =>
      [⟨.debug, "tokens: [" ++ String.intercalate ", " (words.map Word.shown) ++ "]"⟩]
    | .error _ => []
  let stages := match CommandLine.parse line ops with
    | .ok command => [⟨.debug, "stages: " ++ command.pipeline.text ++ ", modifier: " ++
        command.modifier.shown⟩]
    | .error _ => []
  words ++ stages

end PipelineShell
