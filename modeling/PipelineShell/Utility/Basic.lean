/-
The commands of the system, as processes.

A `Utility` is the state of a running command.  It begins with the command's
name and arguments.  Most commands are done in one round; those that work on
the contents of files go on from piece to piece, and `yes` goes on for ever.
-/
import PipelineShell.Utility.Commands

namespace PipelineShell

open Utility in
inductive Utility where
  | command (name : String) (arguments : List String)
  | filtering (f : Filtering)
  /-- Puts out the same line again and again. -/
  | repeating (line : Bytes)

namespace Utility

open Program

variable {τ : Type}

/-- The names of all commands. -/
def names : List String :=
  ["true", "false", "echo", "printf", "test", "[", "sleep", "seq", "pwd", "basename", "dirname",
    "kill", "ls", "mv", "cp", "rm", "mkdir", "rmdir", "touch", "chmod", "cat", "tr", "sort", "uniq",
    "wc", "cut", "head", "tail", "tee", "rev", "tac", "yes"]

/-- One round of a command. -/
def round : Utility → Program τ Utility
  | .repeating line => do
    put "yes" line [.output]
    return .repeating line
  | .filtering f => return .filtering (← f.round)
  | .command name arguments =>
    match startFilter? name arguments with
    | some start => return .filtering (← start)
    | none =>
      match single? name arguments with
      | some run => do exit (← run)
      | none =>
        let text := if arguments.isEmpty then "y" else String.intercalate " " arguments
        let line := Bytes.ofText (text ++ "\n")
        return .repeating (List.replicate (max 1 (1024 / line.length)) line).flatten

end Utility

end PipelineShell
