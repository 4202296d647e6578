/-
The `tr` command: replacing, deleting and squeezing bytes.

A set of bytes is written as characters, ranges, escapes and classes.  When
bytes are replaced, a second set that is too short goes on with its last byte.
-/
import PipelineShell.Utility.Escape

namespace PipelineShell.Utility.Replacement

/-- The bytes from `a` to `b`, both included. -/
def range (a b : UInt8) : List UInt8 :=
  (List.range' a.toNat (b.toNat + 1 - a.toNat)).map Nat.toUInt8

def lower : List UInt8 := range 97 122
def upper : List UInt8 := range 65 90
def digit : List UInt8 := range 48 57

/-- The classes that have a name. -/
def classes : List (String × List UInt8) :=
  [("lower", lower), ("upper", upper), ("digit", digit), ("alpha", upper ++ lower),
    ("alnum", digit ++ upper ++ lower), ("space", range 9 13 ++ [32]), ("blank", [9, 32]),
    ("punct", range 33 47 ++ range 58 64 ++ range 91 96 ++ range 123 126),
    ("cntrl", range 0 31 ++ [127]), ("print", range 32 126), ("graph", range 33 126),
    ("xdigit", digit ++ range 65 70 ++ range 97 102)]

/-- A set that cannot be read. -/
inductive SetError where
  | reversed (a b : UInt8)
  | unknownClass (name : String)

def SetError.message : SetError → String
  | .reversed a b =>
    "range-endpoints of '" ++ Bytes.readable [a] ++ "-" ++ Bytes.readable [b] ++
      "' are in reverse collating sequence order"
  | .unknownClass name => "invalid character class '" ++ name ++ "'"

/-- One byte of a set, plain or escaped. -/
def readByte (bs : Bytes) : Option (UInt8 × Bytes) :=
  match bs with
  | [] => none
  | 92 :: c :: rest =>
    let isOctal := fun (b : UInt8) => 48 ≤ b && b ≤ 55
    if isOctal c then
      let digits := ((c :: rest).take 3).takeWhile isOctal
      let value := digits.foldl (fun n b => n * 8 + (b.toNat - 48)) 0
      some (value.toUInt8, (c :: rest).drop digits.length)
    else
      match Escape.letters.lookup (Char.ofNat c.toNat) with
      | some byte => some (byte, rest)
      | none => some (c, rest)
  | b :: rest => some (b, rest)

/-- The bytes of a set, in order. -/
def readSet (bs : Bytes) : Except SetError (List UInt8) := go bs.length bs
where
  go : Nat → Bytes → Except SetError (List UInt8)
    | 0, _ => .ok []
    | fuel + 1, bs =>
      match bs with
      | 91 :: 58 :: rest =>
        let name := rest.takeWhile (· ≠ 58)
        match rest.drop name.length with
        | 58 :: 93 :: rest => do
          let text := Bytes.readable name
          let some members := classes.lookup text | throw (.unknownClass text)
          return members ++ (← go fuel rest)
        | _ => return 91 :: (← go fuel (58 :: rest))
      | bs =>
        match readByte bs with
        | none => .ok []
        | some (a, 45 :: rest) =>
          match readByte rest with
          | none => .ok [a, 45]
          | some (b, rest) =>
            if b < a then .error (.reversed a b) else do return range a b ++ (← go fuel rest)
        | some (a, rest) => do return a :: (← go fuel rest)

/-- What happens to each byte. -/
structure Plan where
  /-- What a byte becomes; nothing if it is deleted. -/
  table : List (UInt8 × Option UInt8)
  /-- Bytes of which only the first in a row is kept. -/
  squeezed : List UInt8
  /-- The byte written last. -/
  last : Option UInt8 := none

/-- Pairs the bytes of a set with those that replace them. -/
def pairs (set₁ set₂ : List UInt8) : List (UInt8 × Option UInt8) :=
  set₁.zipIdx.map fun (b, i) => (b, (set₂[i]?).or set₂.getLast?)

/-- All bytes that are not in a set. -/
def complement (set : List UInt8) : List UInt8 :=
  (range 0 255).filter fun b => !set.contains b

def Plan.ofSets (delete squeeze complemented : Bool) (set₁ : List UInt8)
    (set₂ : Option (List UInt8)) :
    Plan :=
  let set₁ := if complemented then complement set₁ else set₁
  let table :=
    if delete then set₁.map fun b => (b, none)
    else
      match set₂ with
      | some set₂ => (pairs set₁ set₂).reverse
      | none => []
  { table, squeezed := if squeeze then set₂.getD set₁ else [] }

def Plan.step (p : Plan) (b : UInt8) : Plan × Option UInt8 :=
  match (p.table.lookup b).getD (some b) with
  | none => (p, none)
  | some c =>
    if p.squeezed.contains c && p.last = some c then (p, none)
    else ({ p with last := some c }, some c)

def Plan.feed (p : Plan) : Bytes → Plan × Bytes
  | [] => (p, [])
  | b :: bs =>
    let (p, c) := p.step b
    let (p, out) := p.feed bs
    (p, c.toList ++ out)

end PipelineShell.Utility.Replacement
