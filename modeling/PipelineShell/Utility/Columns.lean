/-
The `cut` command: chosen bytes or fields of every line.
-/
import PipelineShell.Utility.Lines

namespace PipelineShell.Utility.Columns

/-- What of a line is kept. -/
inductive Selection where
  /-- Positions of bytes. -/
  | bytes
  /-- Fields with this byte between them; lines without it may be left out. -/
  | fields (separator : UInt8) (onlySeparated : Bool)
deriving DecidableEq, Repr

/-- Positions from the first to the last, counted from 1; no last one means to the end. -/
structure Interval where
  first : Nat
  last : Option Nat
deriving DecidableEq, Repr

def Interval.has (r : Interval) (i : Nat) : Bool :=
  r.first ≤ i &&
    (match r.last with
      | some last => i ≤ last
      | none => true)

/-- One interval of a list such as `1-2,5,7-`. -/
def readInterval (s : String) : Option Interval :=
  let number := fun (s : String) => if s.toList.all Char.isDigit then s.toNat? else none
  match s.splitOn "-" with
  | [a] => do
    let n ← number a
    if n = 0 then none else return ⟨n, some n⟩
  | [a, b] => do
    if a = "" && b = "" then failure
    let first ← if a = "" then some 1 else number a
    if first = 0 then failure
    if b = "" then return ⟨first, none⟩
    let last ← number b
    if last < first then failure
    return ⟨first, some last⟩
  | _ => none

def readList (s : String) : Option (List Interval) := (s.splitOn ",").mapM readInterval

/-- The elements at the chosen positions. -/
def choose {α : Type} (list : List Interval) (items : List α) : List α :=
  (items.zipIdx.filter fun (_, i) => list.any (·.has (i + 1))).map (·.1)

/-- The parts of a line between separators. -/
def fields (separator : UInt8) (line : Bytes) : List Bytes :=
  line.foldr
    (fun b acc =>
      if b = separator then [] :: acc
      else
        match acc with
        | field :: rest => (b :: field) :: rest
        | [] => [[b]])
    [[]]

def line (s : Selection) (list : List Interval) (b : Bytes) : Option Bytes :=
  match s with
  | .bytes => some (choose list b)
  | .fields separator onlySeparated =>
    if b.contains separator then
      some (List.intercalate [separator] (choose list (fields separator b)))
    else if onlySeparated then none
    else some b

end PipelineShell.Utility.Columns
