/-
Contents as lines: writing lines out, dropping lines that repeat, and taking
the first or the last of them.
-/
import PipelineShell.Text.Utf8

namespace PipelineShell.Utility

/-- Every line with a newline behind it. -/
def unlines (lines : List Bytes) : Bytes := lines.flatMap (· ++ [Bytes.newline])

/-- A number with spaces before it up to a width. -/
def padded (width n : Nat) : String :=
  let digits := toString n
  String.ofList (List.replicate (width - digits.length) ' ') ++ digits

namespace Repeats

structure Options where
  count : Bool := false
  repeated : Bool := false
  single : Bool := false
deriving DecidableEq, Repr

/-- The lines with how often each stands in a row. -/
def runs : List Bytes → List (Bytes × Nat)
  | [] => []
  | line :: rest =>
    match runs rest with
    | (other, n) :: more =>
      if other = line then (line, n + 1) :: more else (line, 1) :: (other, n) :: more
    | [] => [(line, 1)]

def run (o : Options) (content : Bytes) : Bytes :=
  let chosen := (runs (Bytes.lines content)).filter fun (_, n) =>
    (!o.repeated || n > 1) && (!o.single || n = 1)
  unlines (chosen.map fun (line, n) =>
    if o.count then Bytes.ofText (padded 7 n ++ " ") ++ line else line)

end Repeats

namespace Tail

/-- How much of a text is wanted. -/
inductive Amount where
  | lines (n : Nat)
  | bytes (n : Nat)
deriving DecidableEq, Repr

/-- The text as lines that keep their newlines. -/
def chunks (content : Bytes) : List Bytes :=
  content.foldr
    (fun b acc =>
      if b = Bytes.newline then [b] :: acc
      else
        match acc with
        | [] => [[b]]
        | first :: rest => (b :: first) :: rest)
    []

/-- Every line backwards; newlines stay where they are. -/
def reverseLines (content : Bytes) : Bytes :=
  (chunks content).flatMap fun line =>
    if line.getLast? = some Bytes.newline then line.dropLast.reverse ++ [Bytes.newline]
    else line.reverse

/-- The last lines or bytes. -/
def last (amount : Amount) (content : Bytes) : Bytes :=
  match amount with
  | .bytes n => content.drop (content.length - n)
  | .lines n =>
    let lines := chunks content
    (lines.drop (lines.length - n)).flatten

/-- All but the last lines or bytes. -/
def butLast (amount : Amount) (content : Bytes) : Bytes :=
  match amount with
  | .bytes n => content.take (content.length - n)
  | .lines n =>
    let lines := chunks content
    (lines.take (lines.length - n)).flatten

/-- Everything from a line or byte on, counted from 1. -/
def after (amount : Amount) (content : Bytes) : Bytes :=
  match amount with
  | .bytes n => content.drop (n - 1)
  | .lines n => ((chunks content).drop (n - 1)).flatten

/-- The first lines or bytes of what comes, and what is still wanted. -/
def first (amount : Amount) (data : Bytes) : Bytes × Amount :=
  match amount with
  | .bytes n => (data.take n, .bytes (n - data.length))
  | .lines n => go n data
where
  go : Nat → Bytes → Bytes × Amount
    | 0, _ => ([], .lines 0)
    | n + 1, [] => ([], .lines (n + 1))
    | n + 1, b :: data =>
      let (out, left) := go (if b = Bytes.newline then n else n + 1) data
      (b :: out, left)
    termination_by _ data => data.length

end Tail

end PipelineShell.Utility
