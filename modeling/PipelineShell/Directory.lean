/-
Changing the working directory.

It takes two calls: one to change it and one to learn its new name.  A NUL in
the name is an error before either of them.
-/
import PipelineShell.Machine.Request

namespace PipelineShell

inductive DirectoryError where
  | containsNul (directory : String)
  | refused (directory : String) (e : Errno)
  /-- The directory was changed, but its name could not be found out. -/
  | nameless (e : Errno)
deriving DecidableEq, Repr

def DirectoryError.message : DirectoryError → String
  | .containsNul directory =>
    "cdに失敗: " ++ directory ++ ": file name contained an unexpected NUL byte"
  | .refused directory e => "cdに失敗: " ++ directory ++ ": " ++ e.numbered
  | .nameless e => e.numbered

/-- Changes the working directory and answers with its name. -/
def changeDirectory {τ : Type} (directory : String) : Program τ (Except DirectoryError String) := do
  if (nulPosition? directory).isSome then return .error (.containsNul directory)
  match ← Program.ask (.changeDirectory directory) with
  | .error e => return .error (.refused directory e)
  | .ok () => return (← Program.ask .workingDirectory).mapError .nameless

end PipelineShell
