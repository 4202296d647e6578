/-
How the interactive shell begins and what it leaves behind.

It reads its settings, opens the log, sets the signals up, reads the history and
finds out whether it has a terminal.  None of these is needed: whatever fails is
reported and the shell goes on without it.
-/
import PipelineShell.History
import PipelineShell.Log
import PipelineShell.Settings

namespace PipelineShell

/-- What the shell knows when it has begun. -/
structure Startup where
  settings : Settings
  operators : OperatorSet
  home : String
  history : History
  log : Option Log
  /-- The group that the terminal belongs to, if there is a terminal. -/
  terminalGroup : Option Pid

namespace Startup

open Program

variable {τ : Type}

/-- A message of the shell. -/
def complain (text : String) : Program τ Unit := say .error ("PipeSh: " ++ text ++ "\n")

/-- Reads a file as far as it goes. -/
def readAll (fd : Descriptor) : Nat → List Bytes → Program τ Bytes
  | 0, blocks => return blocks.reverse.flatten
  | fuel + 1, blocks => do
    match ← ask (.read fd 65536) with
    | .ok (b :: data) => readAll fd fuel ((b :: data) :: blocks)
    | _ => return blocks.reverse.flatten

/-- The text of a file; `none` if it cannot be read or is no text. -/
def readText (path : String) : Program τ (Option String) := do
  match ← ask (.open path { reads := true, closeOnExec := true }) with
  | .error _ => return none
  | .ok fd =>
    let info ← ask (.inspectDescriptor fd)
    let size := match info with
      | .ok info => info.size
      | .error _ => 0
    let content ← readAll fd (size / 65536 + 2) []
    let _ ← ask (.close fd)
    return content.toText?

/-- Where the user's settings are. -/
def settingsPath (environment : List (String × String)) (home : String) : String :=
  let standard := joinPath home ".config"
  let base := match environment.lookup "XDG_CONFIG_HOME" with
    | some directory => if directory.startsWith "/" then directory else standard
    | none => standard
  joinPath base "pipesh/config.toml"

def loadSettings (path : String) : Program τ Settings := do
  let (settings, understood) := Settings.load (← readText path)
  if !understood then complain "設定ファイルの読み込みに失敗"
  return settings

def openLog (settings : Settings) (home : String) : Program τ (Option Log) := do
  match ← Log.start settings.log.level (settings.logPath home) none with
  | .ok log => return log
  | .error e =>
    complain ("ログの初期化に失敗: " ++ e.message)
    return none

/-- The shell must not be stopped when it takes the terminal back, nor die of a broken pipe. -/
def ignoreSignals : Program τ Unit := do
  let _ ← ask (.setDisposition .brokenPipe .ignored)
  let _ ← ask (.setDisposition .terminalOutput .ignored)

def chooseOperators (settings : Settings) : Program τ OperatorSet := do
  match settings.operatorSet with
  | .ok operators => return operators
  | .error e =>
    complain (e.message ++ "。デフォルトの演算子を使用します")
    return .full

def loadHistory (path : String) : Program τ History :=
  return (← readText path).elim {} History.ofText

/-- Catches the signals that the shell is told of.  The pipe is what they come through. -/
def catchSignals : Program τ Unit := do
  let _ ← ask .pipe
  let _ ← ask (.setDisposition .interrupt .caught)
  let _ ← ask (.setDisposition .terminalStop .caught)
  let _ ← ask (.setDisposition .childChanged .caught)

/-- Begins. -/
def program : Program τ Startup := do
  let environment ← ask .environment
  let home := (environment.lookup "HOME").getD ""
  let settings ← loadSettings (settingsPath environment home)
  let log ← openLog settings home
  ignoreSignals
  let operators ← chooseOperators settings
  let history ← loadHistory (settings.historyPath home)
  catchSignals
  let group ← ask (.foreground .input)
  return { settings, operators, home, history, log, terminalGroup := group.toOption }

/-- Writes the history, if there is something new in it. -/
def saveHistory (path : String) (history : History) : Program τ Unit := do
  if !history.changed then return ()
  let mode : OpenMode := { writes := true, create := true, truncate := true, closeOnExec := true }
  match ← ask (.open path mode) with
  | .error e => complain ("ヒストリファイルへの書き込みに失敗: " ++ e.numbered)
  | .ok fd =>
    say fd history.text
    let _ ← ask (.close fd)

end Startup

end PipelineShell
