/-
Backslash escapes in the arguments of commands that print them.

The commands agree on most escapes and differ in a few (`Dialect`).  A byte may
be given by its octal value; `\c` ends the whole output.  A backslash before
anything else stands for itself.
-/
import PipelineShell.Text.Utf8

namespace PipelineShell.Utility.Escape

/-- In what the commands differ. -/
structure Dialect where
  /-- `\x` with a hexadecimal value. -/
  hexadecimal : Bool := false
  /-- `\e` for the escape character. -/
  escapeKey : Bool := false
  /-- A backslash before a double quote is dropped. -/
  quote : Bool := false
  /-- An octal value may have three digits behind a zero. -/
  leadingZero : Bool := false

/-- The one-letter escapes. -/
def letters : List (Char × UInt8) :=
  [('a', 7), ('b', 8), ('f', 12), ('n', 10), ('r', 13), ('t', 9), ('v', 11), ('\\', 92)]

def isOctal (c : Char) : Bool := '0' ≤ c && c ≤ '7'

/-- The value of a digit in any base up to 16. -/
def digitValue (c : Char) : Nat :=
  if c.isDigit then c.toNat - '0'.toNat
  else if 'a' ≤ c && c ≤ 'f' then c.toNat - 'a'.toNat + 10
  else if 'A' ≤ c && c ≤ 'F' then c.toNat - 'A'.toNat + 10
  else 0

def isHexadecimal (c : Char) : Bool := c.isDigit || ('a' ≤ c && c ≤ 'f') || ('A' ≤ c && c ≤ 'F')

/-- The number that digits write in a base. -/
def number (base : Nat) (digits : List Char) : Nat :=
  digits.foldl (fun n c => n * base + digitValue c) 0

/-- At most `limit` leading characters of a class, and the rest. -/
def takeSome (limit : Nat) (p : Char → Bool) (cs : List Char) : List Char × List Char :=
  let digits := (cs.take limit).takeWhile p
  (digits, cs.drop digits.length)

/-- What an escape stands for, from the characters behind its backslash. -/
inductive Meaning where
  | bytes (b : Bytes) (rest : List Char)
  | stop
  | plain

def meaning (d : Dialect) : List Char → Meaning
  | [] => .plain
  | c :: rest =>
    if isOctal c then
      let (digits, rest) :=
        if d.leadingZero && c = '0' then takeSome 3 isOctal rest else takeSome 3 isOctal (c :: rest)
      .bytes [(number 8 digits).toUInt8] rest
    else
      match letters.lookup c with
      | some byte => .bytes [byte] rest
      | none =>
        if c = 'c' then .stop
        else if c = '"' && d.quote then .bytes [34] rest
        else if c = 'e' && d.escapeKey then .bytes [27] rest
        else if c = 'x' && d.hexadecimal then
          let (digits, rest) := takeSome 2 isHexadecimal rest
          if digits.isEmpty then .plain else .bytes [(number 16 digits).toUInt8] rest
        else .plain

/-- The bytes of one character. -/
def ofChar (c : Char) : Bytes := Bytes.ofText (String.singleton c)

/-- The bytes of a text with its escapes replaced, and whether the output ends there. -/
def decode (d : Dialect) (cs : List Char) : Bytes × Bool := go cs.length cs
where
  go : Nat → List Char → Bytes × Bool
    | 0, _ => ([], false)
    | _, [] => ([], false)
    | fuel + 1, '\\' :: rest =>
      match meaning d rest with
      | .stop => ([], true)
      | .plain =>
        let (out, stop) := go fuel rest
        (92 :: out, stop)
      | .bytes b rest =>
        let (out, stop) := go fuel rest
        (b ++ out, stop)
    | fuel + 1, c :: rest =>
      let (out, stop) := go fuel rest
      (ofChar c ++ out, stop)

end PipelineShell.Utility.Escape
