/-
Someone who types at a terminal.

The typist watches for prompts.  When a new one has appeared, the next entry is
typed after a pause; when there are no more entries, the key that ends the
input is typed at every further prompt.
-/
import PipelineShell.Text.Utf8

namespace PipelineShell

structure Typist where
  entries : List Bytes
  /-- Microseconds between a prompt and the entry. -/
  pause : Nat := 0
  /-- How many prompts have been seen. -/
  seen : Nat := 0
  /-- When the next entry is to be typed. -/
  due : Option Nat := none
deriving DecidableEq, Repr

namespace Typist

/-- How long the typist may be late, in microseconds, while the machine is busy. -/
def tolerance : Nat := 5000

/-- The key that ends the input. -/
def endOfInput : UInt8 := 4

/-- Looks how many prompts there are. -/
def watch (t : Typist) (prompts now : Nat) : Typist :=
  if t.due.isNone && t.seen < prompts then { t with seen := prompts, due := some (now + t.pause) }
  else t

/-- The keys of the next entry. -/
def press (t : Typist) : Bytes × Typist :=
  match t.entries with
  | [] => ([endOfInput], { t with due := none })
  | entry :: rest => (entry, { t with entries := rest, due := none })

/-- How many times a prompt's last characters stand in a text. -/
def countPrompts (text : Bytes) : Nat :=
  let mark := Bytes.ofText "%> "
  (text.foldl
    (fun ((count, before) : Nat × Bytes) byte =>
      let here := (before ++ [byte]).drop (before.length + 1 - mark.length)
      (if here = mark then count + 1 else count, here))
    (0, [])).1

end Typist

end PipelineShell
