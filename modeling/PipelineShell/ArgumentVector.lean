/-
Argument vectors: the words of one line, asked about by operator and changed by
taking words out.

Positions are `Fin`, so a position that a query returns can be removed without
a further check, and a removal that has no check does not exist.
-/
import PipelineShell.Word

namespace PipelineShell

structure ArgumentVector where
  words : List Word
deriving DecidableEq, Repr

namespace ArgumentVector

def size (v : ArgumentVector) : Nat := v.words.length

def isEmpty (v : ArgumentVector) : Bool := v.words.isEmpty

def get? (v : ArgumentVector) (i : Nat) : Option Word := v.words[i]?

/-- Where the operator stands first. -/
def position? (v : ArgumentVector) (op : Operator) : Option (Fin v.size) :=
  v.words.findFinIdx? (·.isOperator op)

def has (v : ArgumentVector) (op : Operator) : Bool := (v.position? op).isSome

/-- How often the operator stands in the line. -/
def count (v : ArgumentVector) (op : Operator) : Nat := v.words.countP (·.isOperator op)

/-- Takes one word out; those behind it move up. -/
def remove (v : ArgumentVector) (i : Fin v.size) : Word × ArgumentVector :=
  (v.words.get i, ⟨v.words.eraseIdx i⟩)

theorem size_remove (v : ArgumentVector) (i : Fin v.size) : (v.remove i).2.size + 1 = v.size := by
  have h : i.val < v.words.length := i.isLt
  show (v.words.eraseIdx i).length + 1 = v.words.length
  rw [List.length_eraseIdx_of_lt h]
  omega

end ArgumentVector

end PipelineShell
