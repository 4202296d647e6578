/-
What a line asks for besides its commands: running in the background, and
files for input and output.

`ofVector` takes these words out of an argument vector.  It assumes nothing
about the vector: a redirection at the very end loses its operator only, and
one that is followed by an operator takes that operator for its filename and
drops it, as if no file had been named.
-/
import PipelineShell.ArgumentVector

namespace PipelineShell

structure Modifier where
  background : Bool := false
  /-- The file behind `<`. -/
  input : Option String := none
  /-- The file behind `>` or `>>`. -/
  output : Option String := none
  /-- The output is appended to the file. -/
  append : Bool := false
deriving DecidableEq, Repr, Inhabited

namespace ArgumentVector

/-- Takes the first `&` out and tells whether there was one. -/
def takeBackground (v : ArgumentVector) : Bool × ArgumentVector :=
  match v.position? .background with
  | some p => (true, (v.remove p).2)
  | none => (false, v)

/-- Takes a redirection out, with the word behind it, and gives the value of that word. -/
def takeRedirect (v : ArgumentVector) (op : Operator) : Option String × ArgumentVector :=
  match v.position? op with
  | none => (none, v)
  | some p =>
    let rest := (v.remove p).2
    if h : p.val < rest.size then
      let taken := rest.remove ⟨p.val, h⟩
      (taken.1.unquoted, taken.2)
    else (none, rest)

end ArgumentVector

/-- Splits a vector into its modifiers and the words that remain.  `>>` is looked at only when
`>` named no file. -/
def Modifier.ofVector (v : ArgumentVector) : Modifier × ArgumentVector :=
  let (background, v) := v.takeBackground
  let (input, v) := v.takeRedirect .input
  let (output, v) := v.takeRedirect .output
  if output.isSome then ({ background, input, output }, v)
  else
    let (output, v) := v.takeRedirect .append
    ({ background, input, output, append := output.isSome }, v)

end PipelineShell
