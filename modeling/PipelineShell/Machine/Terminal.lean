/-
A terminal that reads whole lines.

What is typed becomes readable a line at a time.  Some keys do not stand for
themselves: they take back what was typed on the line, end the input, or send a
signal to the foreground group, which also drops everything that was typed and
not yet read.  A reader gets one line, or nothing at all for the end of input.
-/
import PipelineShell.Machine.Signal
import PipelineShell.Pid
import PipelineShell.Text.Utf8

namespace PipelineShell

structure Terminal where
  /-- The group that may read. -/
  foreground : Pid
  session : Pid
  /-- The lines that can be read.  A line without a newline was ended by the end-of-input key. -/
  ready : List Bytes := []
  /-- The line that is being typed. -/
  editing : Bytes := []
  /-- The next key stands for itself. -/
  literal : Bool := false
deriving DecidableEq, Repr

namespace Terminal

inductive Key where
  | signal (s : Signal)
  | endOfInput
  | erase
  | eraseWord
  | eraseLine
  | literalNext
  | newline
  | nothing
  | plain (byte : UInt8)
deriving DecidableEq, Repr

/-- What a key means in the usual settings of a terminal. -/
def key (byte : UInt8) : Key :=
  match byte.toNat with
  | 0x03 => .signal .interrupt
  | 0x1c => .signal .quit
  | 0x1a => .signal .terminalStop
  | 0x04 => .endOfInput
  | 0x7f => .erase
  | 0x17 => .eraseWord
  | 0x15 => .eraseLine
  | 0x16 => .literalNext
  | 0x0a => .newline
  | 0x0d => .newline
  | 0x11 => .nothing
  | 0x12 => .nothing
  | 0x13 => .nothing
  | _ => .plain byte

/-- Letters, digits and the underscore.  Beyond ASCII a byte is a letter if it is one in Latin-1. -/
def isWordByte (b : UInt8) : Bool :=
  (48 ≤ b && b ≤ 57) || (65 ≤ b && b ≤ 90) || (97 ≤ b && b ≤ 122) || b = 95 ||
    (192 ≤ b && b ≠ 215 && b ≠ 247)

/-- The line without its last word and what is behind that word. -/
def withoutWord (line : Bytes) : Bytes :=
  ((line.reverse.dropWhile fun b => !isWordByte b).dropWhile isWordByte).reverse

/-- The most bytes that a line can have before its newline. -/
def lineCapacity : Nat := 4095

/-- The line with one more byte, if there is room for it. -/
def extended (line : Bytes) (byte : UInt8) : Bytes :=
  if line.length < lineCapacity then line ++ [byte] else line

/-- Types one key; a signal is for the foreground group. -/
def type (t : Terminal) (byte : UInt8) : Terminal × Option Signal :=
  if t.literal then ({ t with editing := extended t.editing byte, literal := false }, none)
  else
    match key byte with
    | .signal s => ({ t with ready := [], editing := [] }, some s)
    | .endOfInput => ({ t with ready := t.ready ++ [t.editing], editing := [] }, none)
    | .erase => ({ t with editing := t.editing.dropLast }, none)
    | .eraseWord => ({ t with editing := withoutWord t.editing }, none)
    | .eraseLine => ({ t with editing := [] }, none)
    | .literalNext => ({ t with literal := true }, none)
    | .newline =>
      ({ t with ready := t.ready ++ [t.editing ++ [Bytes.newline]], editing := [] }, none)
    | .nothing => (t, none)
    | .plain byte => ({ t with editing := extended t.editing byte }, none)

/-- Reads at most `count` bytes of the first line; `none` if there is no line. -/
def read? (t : Terminal) (count : Nat) : Option (Bytes × Terminal) :=
  match t.ready with
  | [] => none
  | line :: rest =>
    if line.length ≤ count then some (line, { t with ready := rest })
    else some (line.take count, { t with ready := line.drop count :: rest })

end Terminal

end PipelineShell
