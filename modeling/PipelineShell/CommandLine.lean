/-
Command lines: the whole way from a line of text to a pipeline with its
modifiers, and the commands that the shell runs itself.

`parse` cuts the line into words, checks the operators, takes the modifiers
off, cuts at `|` and checks every stage; the first failure is the answer and
nothing else has happened by then.
-/
import PipelineShell.Modifier
import PipelineShell.Pipeline
import PipelineShell.Placement
import PipelineShell.Word.Tokens

namespace PipelineShell

structure CommandLine where
  pipeline : Pipeline
  modifier : Modifier
deriving DecidableEq

inductive ParseError where
  | lex (e : LexError)
  | syntactic (e : SyntaxError)
deriving DecidableEq, Repr

def ParseError.message : ParseError → String
  | .lex e => e.message
  | .syntactic e => e.message

/-- Commands that run in the shell's own process. -/
inductive Builtin where
  | changeDirectory (directory : String)
  | exit (argument : Option String)
deriving DecidableEq, Repr

namespace CommandLine

/-- Takes the modifiers off and cuts at `|`, without any check. -/
def ofWords (words : List Word) : CommandLine :=
  let (modifier, rest) := Modifier.ofVector ⟨words⟩
  ⟨Pipeline.ofWords rest.words, modifier⟩

/-- The command line of a list of words, if its operators stand where they may. -/
def ofWordsChecked (words : List Word) : Except SyntaxError CommandLine := do
  ArgumentVector.checkLine ⟨words⟩
  let line := ofWords words
  line.pipeline.stages.forM checkStage
  return line

def parse (line : String) (ops : OperatorSet) : Except ParseError CommandLine :=
  match tokenize line ops with
  | .error e => .error (.lex e)
  | .ok words => (ofWordsChecked words).mapError .syntactic

/-- The command of a single stage, if the shell runs it itself.  In a longer pipeline every stage
is a program. -/
def builtin? (line : CommandLine) : Option Builtin :=
  match line.pipeline.stages with
  | [first :: arguments] =>
    let argument := arguments.head?.bind Word.unquoted
    if first.unquoted = some "cd" then argument.map .changeDirectory
    else if first.unquoted = some "exit" then some (.exit argument)
    else none
  | _ => none

end CommandLine

end PipelineShell
