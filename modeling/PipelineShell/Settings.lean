/-
Settings of the shell: built-in values, of which a TOML document of the user
replaces some.

The document's tables `shell` and `log` may hold any of the known keys; other
keys mean nothing.  `Overlay.ofDocument?` answers `none` when a known key has a
value of the wrong kind, and then nothing at all is replaced.  In place of a
table an array may list the values of all its known keys in order, and a date
or time counts as a table without known keys.

A path that begins with `~/` lies below the home directory (`expandHome`).
-/
import PipelineShell.Operator.Set
import PipelineShell.Toml.Document

namespace PipelineShell

structure ShellSettings where
  prompt : String
  historyFile : String
  operators : List String
deriving DecidableEq, Repr

structure LogSettings where
  level : String
  file : String
deriving DecidableEq, Repr

structure Settings where
  shell : ShellSettings
  log : LogSettings
deriving DecidableEq, Repr

/-- What a user's document replaces. -/
structure Overlay where
  prompt : Option String := none
  historyFile : Option String := none
  operators : Option (List String) := none
  level : Option String := none
  file : Option String := none
deriving DecidableEq, Repr

namespace Overlay

open Toml

def text? : Value → Option String
  | .string s => some s
  | _ => none

def texts? : Value → Option (List String)
  | .array items => items.mapM text?
  | _ => none

/-- The value of a key that may be missing; a value of the wrong kind is an error. -/
def optional {α : Type} (read : Value → Option α) (entries : Entries) (key : String) :
    Option (Option α) :=
  match entries.lookup key with
  | none => some none
  | some v => (read v).map some

/-- Reads the `shell` part of a document. -/
def readShell (v : Value) (overlay : Overlay) : Option Overlay :=
  match v with
  | .table _ entries => do
    return { overlay with
      prompt := ← optional text? entries "prompt"
      historyFile := ← optional text? entries "history_file"
      operators := ← optional texts? entries "operators" }
  | .array (prompt :: historyFile :: operators :: _) => do
    return { overlay with
      prompt := some (← text? prompt)
      historyFile := some (← text? historyFile)
      operators := some (← texts? operators) }
  | .moment _ => some overlay
  | _ => none

/-- Reads the `log` part of a document. -/
def readLog (v : Value) (overlay : Overlay) : Option Overlay :=
  match v with
  | .table _ entries => do
    return { overlay with
      level := ← optional text? entries "level"
      file := ← optional text? entries "file" }
  | .array (level :: file :: _) => do
    return { overlay with level := some (← text? level), file := some (← text? file) }
  | .moment _ => some overlay
  | _ => none

/-- Reads a part of the document that may be missing. -/
def readPart (read : Value → Overlay → Option Overlay) (part : Option Value) (overlay : Overlay) :
    Option Overlay :=
  match part with
  | none => some overlay
  | some v => read v overlay

/-- What the root table of a document replaces. -/
def ofEntries? (entries : Entries) : Option Overlay := do
  let overlay ← readPart readShell (entries.lookup "shell") {}
  readPart readLog (entries.lookup "log") overlay

/-- What the text of a document replaces; `none` if it is not understood. -/
def ofDocument? (text : String) : Option Overlay := (Toml.parse text).bind ofEntries?

end Overlay

namespace Settings

/-- The built-in settings. -/
def standard : Settings where
  shell :=
    { prompt := "PipeSh"
      historyFile := "~/.pipesh_history"
      operators := [">>", ">", "<", "&", "|"] }
  log :=
    { level := "info"
      file := "~/.local/share/pipesh/pipesh.log" }

def apply (s : Settings) (overlay : Overlay) : Settings where
  shell :=
    { prompt := overlay.prompt.getD s.shell.prompt
      historyFile := overlay.historyFile.getD s.shell.historyFile
      operators := overlay.operators.getD s.shell.operators }
  log :=
    { level := overlay.level.getD s.log.level
      file := overlay.file.getD s.log.file }

/-- The settings with the user's document, which may be missing, and whether the document was
understood. -/
def load (document : Option String) : Settings × Bool :=
  match document with
  | none => (standard, true)
  | some text =>
    match Overlay.ofDocument? text with
    | some overlay => (standard.apply overlay, true)
    | none => (standard, false)

def operatorSet (s : Settings) : Except UnknownOperator OperatorSet :=
  OperatorSet.ofSpellings s.shell.operators

end Settings

/-- The path `rest` seen from the directory `base`: an absolute `rest` stands alone. -/
def joinPath (base rest : String) : String :=
  if rest.startsWith "/" then rest
  else if base.isEmpty || base.endsWith "/" then base ++ rest
  else base ++ "/" ++ rest

/-- A leading `~/` stands for the home directory. -/
def expandHome (home path : String) : String :=
  match path.toList with
  | '~' :: '/' :: rest => joinPath home (String.ofList rest)
  | _ => path

namespace Settings

def historyPath (s : Settings) (home : String) : String := expandHome home s.shell.historyFile

def logPath (s : Settings) (home : String) : String := expandHome home s.log.file

end Settings

end PipelineShell
