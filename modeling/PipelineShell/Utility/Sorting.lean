/-
The `sort` command: lines in the order of their bytes, or of the numbers they
start with.
-/
import PipelineShell.Utility.Lines

namespace PipelineShell.Utility.Sorting

structure Options where
  reverse : Bool := false
  numeric : Bool := false
  unique : Bool := false
  ignoreCase : Bool := false
deriving DecidableEq, Repr

/-- The order of bytes, one after the other; the shorter of two texts comes first. -/
def compareBytes : Bytes → Bytes → Ordering
  | [], [] => .eq
  | [], _ :: _ => .lt
  | _ :: _, [] => .gt
  | a :: as, b :: bs => if a < b then .lt else if b < a then .gt else compareBytes as bs

def upperCase (b : Bytes) : Bytes := b.map fun c => if 97 ≤ c && c ≤ 122 then c - 32 else c

def isDigit (b : UInt8) : Bool := 48 ≤ b && b ≤ 57

/-- The number at the start of a line, as its sign, its integer digits and its further digits. -/
def leadingNumber (b : Bytes) : Bool × Nat × Bytes :=
  let b := b.dropWhile fun c => c = 32 || c = 9
  let (negative, b) := match b with
    | 45 :: rest => (true, rest)
    | b => (false, b)
  let whole := b.takeWhile isDigit
  let fraction := match b.drop whole.length with
    | 46 :: rest => (rest.takeWhile isDigit).reverse.dropWhile (· = 48)
    | _ => []
  (negative, whole.foldl (fun n c => n * 10 + (c.toNat - 48)) 0, fraction.reverse)

def compareNumbers (a b : Bytes) : Ordering :=
  let (negativeA, wholeA, fractionA) := leadingNumber a
  let (negativeB, wholeB, fractionB) := leadingNumber b
  let isZero := fun (n : Nat) (f : Bytes) => n = 0 && f.isEmpty
  let magnitude := (compare wholeA wholeB).then (compareBytes fractionA fractionB)
  match negativeA && !isZero wholeA fractionA, negativeB && !isZero wholeB fractionB with
  | false, false => magnitude
  | true, true => magnitude.swap
  | true, false => .lt
  | false, true => .gt

/-- The order by key alone. -/
def compareKeys (o : Options) (a b : Bytes) : Ordering :=
  if o.numeric then compareNumbers a b
  else if o.ignoreCase then compareBytes (upperCase a) (upperCase b)
  else compareBytes a b

/-- The order of lines.  Lines with equal keys are in the order of their bytes. -/
def compareLines (o : Options) (a b : Bytes) : Ordering :=
  let order := compareKeys o a b
  let order := if o.unique then order else order.then (compareBytes a b)
  if o.reverse then order.swap else order

/-- Drops lines whose key is that of the line before. -/
def dropEqual (o : Options) : List Bytes → List Bytes
  | a :: b :: rest =>
    if compareKeys o a b = .eq then dropEqual o (a :: rest) else a :: dropEqual o (b :: rest)
  | lines => lines
  termination_by lines => lines.length

def run (o : Options) (content : Bytes) : Bytes :=
  let sorted := (Bytes.lines content).mergeSort fun a b => compareLines o a b ≠ .gt
  unlines (if o.unique then dropEqual o sorted else sorted)

end PipelineShell.Utility.Sorting
