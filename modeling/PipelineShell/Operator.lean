/-
Operators: the five reserved marks of the command language.

An operator is identified once, by the tokenizer; everything after it looks at
the constructor and never at the spelling.  `ofSpelling?` reads a spelling and
`spelling` writes it:

* `ofSpelling?_spelling` — every operator is read back from its spelling;
* `eq_spelling_of_ofSpelling?` — nothing else is read as an operator.
-/

namespace PipelineShell

inductive Operator where
  /-- Written `&`. -/
  | background
  /-- Written `|`. -/
  | pipe
  /-- Written `<`. -/
  | input
  /-- Written `>`. -/
  | output
  /-- Written `>>`. -/
  | append
deriving DecidableEq, Repr, Inhabited

namespace Operator

/-- All operators, in the order in which they are listed to the user. -/
def all : List Operator := [.append, .output, .input, .background, .pipe]

theorem mem_all (op : Operator) : op ∈ all := by cases op <;> decide

def spelling : Operator → List Char
  | .background => ['&']
  | .pipe => ['|']
  | .input => ['<']
  | .output => ['>']
  | .append => ['>', '>']

def text (op : Operator) : String := String.ofList op.spelling

/-- The length of the spelling, in characters (and in bytes: all are ASCII). -/
def length (op : Operator) : Nat := op.spelling.length

theorem length_pos (op : Operator) : 0 < op.length := by cases op <;> decide

def isRedirect : Operator → Bool
  | .input | .output | .append => true
  | .background | .pipe => false

def ofSpelling? (text : List Char) : Option Operator := all.find? (·.spelling == text)

theorem ofSpelling?_spelling (op : Operator) : ofSpelling? op.spelling = some op := by
  cases op <;> decide

theorem eq_spelling_of_ofSpelling? {text : List Char} {op : Operator}
    (h : ofSpelling? text = some op) : text = op.spelling := by
  have := List.find?_some h
  exact (beq_iff_eq.1 this).symm

end Operator

end PipelineShell
