/-
The `wc` command: how many lines, words and bytes there are.
-/
import PipelineShell.Utility.Lines

namespace PipelineShell.Utility

/-- How much there is of a text. -/
structure Totals where
  lines : Nat := 0
  words : Nat := 0
  bytes : Nat := 0
  /-- The text ends within a word. -/
  inWord : Bool := false
deriving DecidableEq, Repr

def isSpace (b : UInt8) : Bool := b = 32 || (9 ≤ b && b ≤ 13)

/-- A word begins with a visible character; any other byte only goes on with it. -/
def isVisible (b : UInt8) : Bool := 33 ≤ b && b ≤ 126

def Totals.step (t : Totals) (b : UInt8) : Totals where
  lines := if b = Bytes.newline then t.lines + 1 else t.lines
  words := if isVisible b && !t.inWord then t.words + 1 else t.words
  bytes := t.bytes + 1
  inWord := !isSpace b && (t.inWord || isVisible b)

def Totals.feed (t : Totals) (b : Bytes) : Totals := b.foldl Totals.step t

def Totals.plus (t u : Totals) : Totals where
  lines := t.lines + u.lines
  words := t.words + u.words
  bytes := t.bytes + u.bytes

/-- The counts that are asked for. -/
structure CountOptions where
  lines : Bool := false
  words : Bool := false
  bytes : Bool := false
deriving DecidableEq, Repr

/-- The counts that are asked for; without any choice all of them. -/
def Totals.chosen (t : Totals) (o : CountOptions) : List Nat :=
  let all := !(o.lines || o.words || o.bytes)
  (if o.lines || all then [t.lines] else []) ++ (if o.words || all then [t.words] else []) ++
    (if o.bytes || all then [t.bytes] else [])

/-- The counts in columns, with the name of the file. -/
def Totals.row (t : Totals) (o : CountOptions) (width : Nat) (name : String) : Bytes :=
  let columns := String.intercalate " " ((t.chosen o).map (padded width))
  Bytes.ofText (columns ++ (if name = "" then "" else " " ++ name) ++ "\n")

end PipelineShell.Utility
