/-
TOML scalars: strings, numbers, dates and times.

A string has four written forms.  Numbers, dates and times are recognised as
whole lexemes (`scalar?`): a run of the characters that may occur in one, and
for a date also the time behind a single space.

Integers have 64 bits; a decimal fraction that rounds to positive infinity is
refused (negative infinity is let through).
-/
import PipelineShell.Toml.Value

namespace PipelineShell.Toml

/-- The rest of the text behind a line ending, if one stands here. -/
def newline? : List Char → Option (List Char)
  | '\n' :: rest => some rest
  | '\r' :: '\n' :: rest => some rest
  | _ => none

def isWhite (c : Char) : Bool := c == ' ' || c == '\t'

/-- Characters that a comment or a quoted text may hold: no controls but the tab. -/
def isShown (c : Char) : Bool := c == '\t' || (' ' ≤ c && c ≠ '\x7f')

/-- The rest behind one quote character that is written `n` times. -/
def quotes? (q : Char) : Nat → List Char → Option (List Char)
  | 0, cs => some cs
  | n + 1, c :: cs => if c = q then quotes? q n cs else none
  | _ + 1, [] => none

def hexValue? (c : Char) : Option Nat :=
  if '0' ≤ c ∧ c ≤ '9' then some (c.toNat - '0'.toNat)
  else if 'a' ≤ c ∧ c ≤ 'f' then some (c.toNat - 'a'.toNat + 10)
  else if 'A' ≤ c ∧ c ≤ 'F' then some (c.toNat - 'A'.toNat + 10)
  else none

/-- The number that exactly `n` hexadecimal digits write, and the rest. -/
def hexNumber? : Nat → Nat → List Char → Option (Nat × List Char)
  | 0, acc, cs => some (acc, cs)
  | n + 1, acc, c :: cs => (hexValue? c).bind fun d => hexNumber? n (16 * acc + d) cs
  | _ + 1, _, [] => none

/-- The character that an escape stands for; the backslash has been read. -/
def escape? : List Char → Option (Char × List Char)
  | 'b' :: rest => some ('\x08', rest)
  | 't' :: rest => some ('\t', rest)
  | 'n' :: rest => some ('\n', rest)
  | 'f' :: rest => some ('\x0c', rest)
  | 'r' :: rest => some ('\r', rest)
  | '"' :: rest => some ('"', rest)
  | '\\' :: rest => some ('\\', rest)
  | 'u' :: rest => scalarValue? (hexNumber? 4 0 rest)
  | 'U' :: rest => scalarValue? (hexNumber? 8 0 rest)
  | _ => none
where
  scalarValue? (read : Option (Nat × List Char)) : Option (Char × List Char) :=
    read.bind fun (n, rest) => if n.isValidChar then some (Char.ofNat n, rest) else none

/-- The text of a one-line string up to its closing quote; only double quotes have escapes. -/
def lineString? (q : Char) : Nat → List Char → Option (List Char × List Char)
  | 0, _ => none
  | _ + 1, [] => none
  | fuel + 1, c :: cs =>
    if c = q then some ([], cs)
    else if c = '\\' ∧ q = '"' then
      (escape? cs).bind fun (e, rest) =>
        (lineString? q fuel rest).map fun (text, rest) => (e :: text, rest)
    else if isShown c then (lineString? q fuel cs).map fun (text, rest) => (c :: text, rest)
    else none

/-- Skips blanks and line endings. -/
def skipLines : Nat → List Char → List Char
  | 0, cs => cs
  | fuel + 1, cs =>
    match newline? cs with
    | some rest => skipLines fuel rest
    | none =>
      match cs with
      | c :: rest => if isWhite c then skipLines fuel rest else c :: rest
      | [] => []

/-- The text of a string of several lines up to its closing three quotes.  One or two quotes in
front of these belong to the text, as do one or two that are not followed by a third.  Line endings
are kept as line feeds; a backslash at the end of a line swallows blanks and line endings. -/
def blockString? (q : Char) : Nat → List Char → Option (List Char × List Char)
  | 0, _ => none
  | _ + 1, [] => none
  | fuel + 1, c :: cs =>
    let keep (d : Char) (rest : List Char) :=
      (blockString? q fuel rest).map fun (text, rest) => (d :: text, rest)
    if c = q then
      match quotes? q 2 cs with
      | some rest =>
        match quotes? q 2 rest, quotes? q 1 rest with
        | some rest, _ => some ([q, q], rest)
        | none, some rest => some ([q], rest)
        | none, none => some ([], rest)
      | none => keep c cs
    else if c = '\\' ∧ q = '"' then
      match newline? (cs.dropWhile isWhite) with
      | some rest => blockString? q fuel (skipLines rest.length rest)
      | none => (escape? cs).bind fun (e, rest) => keep e rest
    else
      match newline? (c :: cs) with
      | some rest => keep '\n' rest
      | none => if isShown c then keep c cs else none

/-- A string in any of its four forms. -/
def string? (cs : List Char) : Option (String × List Char) :=
  match cs with
  | [] => none
  | q :: rest =>
    if q = '"' ∨ q = '\'' then
      let read := match quotes? q 2 rest with
        | some block => blockString? q (block.length + 1) ((newline? block).getD block)
        | none => lineString? q (rest.length + 1) rest
      read.map fun (text, rest) => (String.ofList text, rest)
    else none

/-! Numbers. -/

/-- The digits of a number in which single underscores may stand between two digits. -/
def digits? (isDigit : Char → Bool) : List Char → Option (List Char)
  | [] => none
  | [c] => if isDigit c then some [c] else none
  | c :: '_' :: d :: rest =>
    if isDigit c && isDigit d then (digits? isDigit (d :: rest)).map (c :: ·) else none
  | c :: rest => if isDigit c then (digits? isDigit rest).map (c :: ·) else none

def fromDigits (base : Nat) (digits : List Char) : Nat :=
  digits.foldl (fun n c => base * n + (hexValue? c).getD 0) 0

/-- The text without a sign, and whether the sign was a minus. -/
def unsigned : List Char → Bool × List Char
  | '+' :: rest => (false, rest)
  | '-' :: rest => (true, rest)
  | cs => (false, cs)

/-- Decimal digits without a superfluous leading zero. -/
def decimal? (cs : List Char) : Option Nat :=
  match cs with
  | '0' :: _ :: _ => none
  | cs => (digits? Char.isDigit cs).map (fromDigits 10)

def integer? (cs : List Char) : Option Int :=
  let read : Option Int :=
    match cs with
    | '0' :: 'x' :: rest =>
      (digits? (fun c => (hexValue? c).isSome) rest).map fun ds => (fromDigits 16 ds : Int)
    | '0' :: 'o' :: rest =>
      (digits? (fun c => '0' ≤ c && c ≤ '7') rest).map fun ds => (fromDigits 8 ds : Int)
    | '0' :: 'b' :: rest =>
      (digits? (fun c => c == '0' || c == '1') rest).map fun ds => (fromDigits 2 ds : Int)
    | cs =>
      let (negative, rest) := unsigned cs
      (decimal? rest).map fun n => if negative then -(n : Int) else (n : Int)
  read.filter fun n => -9223372036854775808 ≤ n && n ≤ 9223372036854775807

/-- The parts of a text before the first character with a property, and from it on. -/
def cutAt (p : Char → Bool) (cs : List Char) : List Char × List Char :=
  (cs.takeWhile (!p ·), cs.dropWhile (!p ·))

/-- The least number that rounds to infinity: halfway from the greatest finite one to 2 ^ 1024. -/
def leastOverflow : Nat := Nat.pow 2 1024 - Nat.pow 2 970

/-- Whether `whole.fraction · 10 ^ exponent` rounds to infinity.  The digits decide alone when the
exponent is out of all proportion. -/
def overflows (whole fraction : List Char) (exponent : Int) : Bool :=
  let digits := fromDigits 10 (whole ++ fraction)
  let scale := exponent - fraction.length
  if digits = 0 then false
  else if scale + (whole.length + fraction.length) < 300 then false
  else if 400 < scale then true
  else if 0 ≤ scale then leastOverflow ≤ digits * Nat.pow 10 scale.toNat
  else leastOverflow * Nat.pow 10 (-scale).toNat ≤ digits

/-- Whether the text is a decimal fraction that TOML accepts. -/
def isFloat (cs : List Char) : Bool :=
  let (negative, rest) := unsigned cs
  if rest = ['i', 'n', 'f'] ∨ rest = ['n', 'a', 'n'] then true
  else
    let (mantissa, exponentPart) := cutAt (fun c => c == 'e' || c == 'E') rest
    let (whole, fractionPart) := cutAt (· == '.') mantissa
    let exponent? : Option Int :=
      match exponentPart with
      | [] => some 0
      | _ :: e =>
        let (minus, ds) := unsigned e
        (digits? Char.isDigit ds).map fun ds =>
          if minus then -(fromDigits 10 ds : Int) else (fromDigits 10 ds : Int)
    let fraction? : Option (List Char) :=
      match fractionPart with
      | [] => some []
      | _ :: f => digits? Char.isDigit f
    match decimal? whole, fraction?, exponent? with
    | some _, some fraction, some exponent =>
      !(exponentPart.isEmpty && fractionPart.isEmpty) &&
        (negative || !overflows (whole.filter Char.isDigit) fraction exponent)
    | _, _, _ => false

/-! Dates and times. -/

/-- Exactly `n` decimal digits, and the rest. -/
def number? : Nat → Nat → List Char → Option (Nat × List Char)
  | 0, acc, cs => some (acc, cs)
  | n + 1, acc, c :: cs =>
    if c.isDigit then number? n (10 * acc + (c.toNat - '0'.toNat)) cs else none
  | _ + 1, _, [] => none

def expect? (c : Char) : List Char → Option (List Char)
  | d :: rest => if c = d then some rest else none
  | [] => none

def daysInMonth (year month : Nat) : Nat :=
  if month = 2 then
    if year % 4 = 0 ∧ (year % 100 ≠ 0 ∨ year % 400 = 0) then 29 else 28
  else if month = 4 ∨ month = 6 ∨ month = 9 ∨ month = 11 then 30
  else 31

/-- The rest behind a date. -/
def date? (cs : List Char) : Option (List Char) := do
  let (year, cs) ← number? 4 0 cs
  let (month, cs) ← number? 2 0 (← expect? '-' cs)
  let (day, cs) ← number? 2 0 (← expect? '-' cs)
  if 1 ≤ month ∧ month ≤ 12 ∧ 1 ≤ day ∧ day ≤ daysInMonth year month then some cs else none

/-- The rest behind a time of day. -/
def time? (cs : List Char) : Option (List Char) := do
  let (hour, cs) ← number? 2 0 cs
  let (minute, cs) ← number? 2 0 (← expect? ':' cs)
  let (second, cs) ← number? 2 0 (← expect? ':' cs)
  if 23 < hour ∨ 59 < minute ∨ 60 < second then none
  else
    match cs with
    | '.' :: d :: rest => if d.isDigit then some (rest.dropWhile Char.isDigit) else none
    | '.' :: [] => none
    | cs => some cs

/-- The rest behind an offset from universal time. -/
def offset? (cs : List Char) : Option (List Char) :=
  match cs with
  | 'Z' :: rest | 'z' :: rest => some rest
  | '+' :: rest | '-' :: rest => do
    let (hour, cs) ← number? 2 0 rest
    let (minute, cs) ← number? 2 0 (← expect? ':' cs)
    if 23 < hour ∨ 59 < minute then none else some cs
  | _ => none

/-- Whether the text is a time of day, a date, or a date with a time and perhaps an offset. -/
def isMoment (cs : List Char) : Bool :=
  match date? cs with
  | none => time? cs == some []
  | some [] => true
  | some (delimiter :: rest) =>
    (delimiter == 'T' || delimiter == 't' || delimiter == ' ') &&
      match time? rest with
      | none => false
      | some rest => rest.isEmpty || offset? rest == some []

/-- Characters of a number, a date or a time. -/
def isLexeme (c : Char) : Bool :=
  c.isAlphanum || c == '_' || c == '+' || c == '-' || c == '.' || c == ':'

/-- Whether a time of day begins behind one space. -/
def timeFollows : List Char → Bool
  | ' ' :: a :: b :: ':' :: _ => a.isDigit && b.isDigit
  | _ => false

/-- A truth value, a number, a date or a time. -/
def scalar? (cs : List Char) : Option (Value × List Char) :=
  let lexeme := cs.takeWhile isLexeme
  let rest := cs.dropWhile isLexeme
  let (lexeme, rest) :=
    if (date? lexeme) == some [] && timeFollows rest then
      (lexeme ++ ' ' :: (rest.drop 1).takeWhile isLexeme, (rest.drop 1).dropWhile isLexeme)
    else (lexeme, rest)
  let text := String.ofList lexeme
  if text = "true" then some (.boolean true, rest)
  else if text = "false" then some (.boolean false, rest)
  else if isMoment lexeme then some (.moment text, rest)
  else if isFloat lexeme then some (.float text, rest)
  else (integer? lexeme).map fun n => (.integer n, rest)

end PipelineShell.Toml
