/-
What the processes of the machine do: a stage of a pipeline on its way to its
command, a command of the system, or a shell script.
-/
import PipelineShell.Launch
import PipelineShell.Machine.State
import PipelineShell.Script.Run
import PipelineShell.Utility.Basic

namespace PipelineShell

inductive Task where
  | stage (s : Stage)
  | utility (u : Utility)
  | script (s : Script.State)

namespace Task

/-- The name of the program that runs scripts. -/
def scriptShell : String := "sh"

/-- One round of a task. -/
def round : Task → Program Task Task
  | .stage s => s.program
  | .utility u => return .utility (← u.round)
  | .script s => return .script (← s.round .script)

/-- The task of a program that is started from a file. -/
def start (program : String) (arguments : List String)
    (environment : List (String × String)) : Task :=
  if program = scriptShell then .script (.start arguments environment)
  else .utility (.command program arguments.tail)

/-- The programs that are installed. -/
def programs : List String := scriptShell :: Utility.names

def software : Software Task where
  start := start
  round := round

end Task

end PipelineShell
