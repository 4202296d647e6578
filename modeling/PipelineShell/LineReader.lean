/-
How lines are cut out of what is read.

A reader of plain input takes everything up to a newline, without the newline
and a carriage return before it; at the end of the input a line needs no
newline.  Backspaces in the line erase what is before them.  A reader that edits
lines takes single keys.
-/
import PipelineShell.Text.Backspace
import PipelineShell.Text.Utf8

namespace PipelineShell

/-- What asking for a line comes to. -/
inductive Entry where
  | line (text : String)
  /-- The line has been given up. -/
  | interrupted
  | endOfInput
  /-- The line is no text. -/
  | unreadable
  /-- A backspace would leave a part of a character. -/
  | torn
deriving DecidableEq, Repr

namespace LineReader

/-- A line without its newline. -/
def withoutNewline (line : Bytes) : Bytes :=
  if line.getLast? = some Bytes.newline then
    let line := line.dropLast
    if line.getLast? = some 13 then line.dropLast else line
  else line

/-- The text of a line. -/
def entry (line : Bytes) : Entry :=
  match line.toText? with
  | some _ =>
    match Text.erased? ((withoutNewline line).toText?.getD "").toList with
    | some text => .line (String.ofList text)
    | none => .torn
  | none => .unreadable

/-- The next plain line and what follows it; `none` if more has to be read. -/
def next? (buffer : Bytes) : Option (Entry × Bytes) :=
  if buffer.contains Bytes.newline then
    let (line, rest) := Bytes.splitLine buffer
    some (entry line, rest)
  else none

/-- What is left when nothing more can be read. -/
def last (buffer : Bytes) : Entry := if buffer.isEmpty then .endOfInput else entry buffer

/-- Takes keys up to the end of a line; `line` is the line so far, the last key first.  Without an
end the line stays as it is. -/
def edit : List UInt8 → Bytes → Option (Entry × Bytes)
  | _, [] => none
  | line, key :: rest =>
    match key.toNat with
    | 0x03 => some (.interrupted, rest)
    | 0x04 => if line.isEmpty then some (.endOfInput, rest) else edit line rest
    | 0x08 => edit line.tail rest
    | 0x0a => some (entry line.reverse, rest)
    | 0x0d => some (entry line.reverse, rest)
    | 0x15 => edit [] rest
    | 0x7f => edit line.tail rest
    | _ => edit (key :: line) rest

end LineReader

end PipelineShell
