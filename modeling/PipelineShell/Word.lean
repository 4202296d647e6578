/-
Words: what a line is made of once it has been cut up.

A literal keeps every character that was typed, quotes included.  Its quotes
are taken off where its value is used (`unquoted`); an operator has no value.
-/
import PipelineShell.Operator

namespace PipelineShell

inductive Word where
  /-- Typed text, quote characters included. -/
  | literal (raw : String)
  | operator (op : Operator)
deriving DecidableEq, Repr

namespace Word

def operator? : Word → Option Operator
  | .literal _ => none
  | .operator op => some op

def isOperator (w : Word) (op : Operator) : Bool := w.operator? == some op

/-- The text without its quote characters. -/
def stripQuotes (raw : String) : String := String.ofList (raw.toList.filter (· ≠ '"'))

/-- The value of a literal; an operator has none. -/
def unquoted : Word → Option String
  | .literal raw => some (stripQuotes raw)
  | .operator _ => none

/-- The word as it is written in a line. -/
def text : Word → String
  | .literal raw => raw
  | .operator op => op.text

theorem isOperator_iff {w : Word} {op : Operator} : w.isOperator op = true ↔ w = .operator op := by
  cases w <;> simp [isOperator, operator?]

end Word

end PipelineShell
