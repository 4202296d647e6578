/-
Where operators may stand.

`checkLine` looks at a whole line before anything is taken out of it, and
`checkStage` at the words of one stage afterwards.  The checks run in a fixed
order and the first failure is reported: `&`, then `>` beside `>>`, then `>`,
`<` and `>>` one after the other.

A redirection and its filename have to be the last two words, or to be followed
by another kind of redirection; a closing `&` does not count as a word here.
-/
import PipelineShell.ArgumentVector
import PipelineShell.SyntaxError

namespace PipelineShell

namespace ArgumentVector

/-- Whether the line ends in `&`; anywhere else, or alone, `&` is an error. -/
def checkBackground (v : ArgumentVector) : Except SyntaxError Bool :=
  match v.position? .background with
  | none => .ok false
  | some p => if p.val + 1 ≠ v.size ∨ v.size = 1 then .error .backgroundPosition else .ok true

/-- Whether the word is a redirection other than `op`. -/
def isOtherRedirect (op : Operator) (w : Word) : Bool :=
  match w.operator? with
  | some next => next.isRedirect && next != op
  | none => false

/-- Whether a redirection of another kind begins two words behind `p`, before `stop`. -/
def chainsAt (v : ArgumentVector) (stop : Nat) (op : Operator) (p : Nat) : Bool :=
  decide (p + 2 < stop) && (v.get? (p + 2)).any (isOtherRedirect op)

/-- The value of the word at `i`, if it is a literal whose value is not empty. -/
def filename? (v : ArgumentVector) (i : Nat) : Option String :=
  ((v.get? i).bind Word.unquoted).filter (· ≠ "")

/-- One kind of redirection; `stop` is the number of words before a closing `&`. -/
def checkRedirect (v : ArgumentVector) (stop : Nat) (op : Operator) : Except SyntaxError Unit :=
  if 1 < v.count op then .error (.duplicateRedirect op)
  else
    match v.position? op with
    | none => .ok ()
    | some p =>
      if p.val = 0 ∨ ¬(p.val + 2 = stop ∨ v.chainsAt stop op p) then .error (.redirectPosition op)
      else if (v.filename? (p + 1)).isNone then .error (.badFilename op)
      else .ok ()

/-- The rules for the operators of a whole line. -/
def checkLine (v : ArgumentVector) : Except SyntaxError Unit := do
  let background ← v.checkBackground
  if v.has .output && v.has .append then throw .mixedRedirect
  let stop := if background then v.size - 1 else v.size
  v.checkRedirect stop .output
  v.checkRedirect stop .input
  v.checkRedirect stop .append

end ArgumentVector

/-- The rules for the words of one stage. -/
def checkStage (stage : List Word) : Except SyntaxError Unit :=
  match stage with
  | [] => .error .emptyCommand
  | first :: _ =>
    match stage.findSome? Word.operator? with
    | some op => .error (.unexpectedOperator op)
    | none =>
      if first.unquoted = some "cd" ∧ stage.length ≠ 2 then .error .cdArity else .ok ()

end PipelineShell
