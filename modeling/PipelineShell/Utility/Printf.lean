/-
The `printf` command: a format whose conversions take the arguments in turn.

The format is used again for as long as arguments are left, provided that it
takes any.  A conversion without an argument takes an empty text or zero.
-/
import PipelineShell.Utility.Escape

namespace PipelineShell.Utility.Printf

/-- A conversion of a format. -/
structure Conversion where
  flags : List Char := []
  width : Option Nat := none
  precision : Option Nat := none
  letter : Char
deriving DecidableEq, Repr

inductive Piece where
  | bytes (b : Bytes)
  | conversion (c : Conversion)
  /-- The output ends here. -/
  | stop
deriving DecidableEq, Repr

def isFlag (c : Char) : Bool := c ∈ ['-', '+', ' ', '#', '0']

def isLengthLetter (c : Char) : Bool := c ∈ ['h', 'l', 'j', 'z', 't', 'L']

/-- A number at the start, if there is one. -/
def leadingNumber (cs : List Char) : Option Nat × List Char :=
  let digits := cs.takeWhile Char.isDigit
  if digits.isEmpty then (none, cs) else (some (Escape.number 10 digits), cs.drop digits.length)

/-- Reads a conversion behind its percent sign. -/
def readConversion (cs : List Char) : Option (Conversion × List Char) :=
  let flags := cs.takeWhile isFlag
  let (width, cs) := leadingNumber (cs.drop flags.length)
  let (precision, cs) := match cs with
    | '.' :: cs =>
      let (n, cs) := leadingNumber cs
      (some (n.getD 0), cs)
    | cs => (none, cs)
  match cs.dropWhile isLengthLetter with
  | letter :: cs => some ({ flags, width, precision, letter }, cs)
  | [] => none

/-- The pieces of a format. -/
def pieces (d : Escape.Dialect) (cs : List Char) : List Piece := go cs.length cs
where
  go : Nat → List Char → List Piece
    | 0, _ => []
    | _, [] => []
    | fuel + 1, '%' :: '%' :: rest => .bytes [37] :: go fuel rest
    | fuel + 1, '%' :: rest =>
      match readConversion rest with
      | some (c, rest) => .conversion c :: go fuel rest
      | none => [.bytes (Bytes.ofText (String.ofList ('%' :: rest)))]
    | fuel + 1, '\\' :: rest =>
      match Escape.meaning d rest with
      | .stop => [.stop]
      | .plain => .bytes [92] :: go fuel rest
      | .bytes b rest => .bytes b :: go fuel rest
    | fuel + 1, c :: rest => .bytes (Escape.ofChar c) :: go fuel rest

/-- Fills a text up to the width of its conversion. -/
def pad (c : Conversion) (body : Bytes) : Bytes :=
  let fill := List.replicate (c.width.getD 0 - body.length) (32 : UInt8)
  if c.flags.contains '-' then body ++ fill else fill ++ body

/-- Fills a number up to the width of its conversion; zeros go behind its sign. -/
def padNumber (c : Conversion) (sign : String) (digits : String) : Bytes :=
  let digits := match c.precision with
    | some n => String.ofList (List.replicate (n - digits.length) '0') ++ digits
    | none =>
      if c.flags.contains '0' && !c.flags.contains '-' then
        String.ofList (List.replicate (c.width.getD 0 - sign.length - digits.length) '0') ++ digits
      else digits
  pad c (Bytes.ofText (sign ++ digits))

/-- What is wrong with an argument that should be a number. -/
inductive NumberProblem where
  | notNumeric
  | trailing
deriving DecidableEq, Repr

/-- The digits of a number, by the base that its start tells. -/
def readMagnitude (cs : List Char) : Nat × List Char :=
  match cs with
  | '0' :: 'x' :: rest =>
    let digits := rest.takeWhile Escape.isHexadecimal
    (Escape.number 16 digits, rest.drop digits.length)
  | '0' :: rest =>
    let digits := rest.takeWhile Escape.isOctal
    (Escape.number 8 digits, rest.drop digits.length)
  | cs =>
    let digits := cs.takeWhile Char.isDigit
    (Escape.number 10 digits, cs.drop digits.length)

/-- The number that an argument writes: decimal, octal behind a zero, hexadecimal behind `0x`, or
the code of a character behind a quote. -/
def readNumber (argument : String) : Int × Option NumberProblem :=
  match argument.toList.dropWhile (· = ' ') with
  | [] => (0, if argument = "" then none else some .notNumeric)
  | '\'' :: c :: _ => (c.toNat, none)
  | '"' :: c :: _ => (c.toNat, none)
  | first :: rest =>
    let cs := if first = '-' || first = '+' then rest else first :: rest
    if !((cs.head?.map Char.isDigit).getD false) then (0, some .notNumeric)
    else
      let (n, rest) := readMagnitude cs
      (if first = '-' then -(n : Int) else n, if rest.isEmpty then none else some .trailing)

/-- A number as two's complement of 64 bits. -/
def unsigned (n : Int) : Nat := (n % 18446744073709551616).toNat

def digitsOf (base : Nat) (n : Nat) : String := String.ofList (Nat.toDigits base n)

/-- One conversion of one argument: its bytes, whether the output ends, and what is wrong with the
argument. -/
def convert (c : Conversion) (d : Escape.Dialect) (argument : String) :
    Bytes × Bool × Option NumberProblem :=
  let cut := fun (b : Bytes) => match c.precision with
    | some n => b.take n
    | none => b
  let (n, problem) := readNumber argument
  let sign := if n < 0 then "-" else if c.flags.contains '+' then "+"
    else if c.flags.contains ' ' then " " else ""
  let alternate := c.flags.contains '#' && n ≠ 0
  match c.letter with
  | 's' => (pad c (cut (Bytes.ofText argument)), false, none)
  | 'c' => (pad c ((Bytes.ofText argument).take 1), false, none)
  | 'b' =>
    let (body, stop) := Escape.decode { d with leadingZero := true } argument.toList
    (pad c (cut body), stop, none)
  | 'd' => (padNumber c sign (digitsOf 10 n.natAbs), false, problem)
  | 'i' => (padNumber c sign (digitsOf 10 n.natAbs), false, problem)
  | 'u' => (padNumber c "" (digitsOf 10 (unsigned n)), false, problem)
  | 'o' => (padNumber c (if alternate then "0" else "") (digitsOf 8 (unsigned n)), false, problem)
  | 'x' => (padNumber c (if alternate then "0x" else "") (digitsOf 16 (unsigned n)), false, problem)
  | 'X' =>
    (padNumber c (if alternate then "0X" else "") (digitsOf 16 (unsigned n)).toUpper, false,
      problem)
  | _ => (Bytes.ofText argument, false, none)

/-- What a format comes to. -/
structure Result where
  output : Bytes := []
  stopped : Bool := false
  /-- The arguments that should have been numbers. -/
  problems : List (String × NumberProblem) := []
  /-- The arguments that are left. -/
  rest : List String := []

/-- Uses the pieces of a format once. -/
def once (d : Escape.Dialect) : List Piece → List String → Result
  | [], arguments => { rest := arguments }
  | .stop :: _, _ => { stopped := true }
  | .bytes b :: ps, arguments =>
    let r := once d ps arguments
    { r with output := b ++ r.output }
  | .conversion c :: ps, arguments =>
    let argument := arguments.head?.getD ""
    let (b, stop, problem) := convert c d argument
    let problems := (problem.map fun p => (argument, p)).toList
    if stop then { output := b, stopped := true, problems }
    else
      let r := once d ps arguments.tail
      { r with output := b ++ r.output, problems := problems ++ r.problems }

def takesArguments (ps : List Piece) : Bool :=
  ps.any fun
    | .conversion _ => true
    | _ => false

/-- Uses a format until no arguments are left. -/
def format (d : Escape.Dialect) (text : String) (arguments : List String) : Result :=
  let ps := pieces d text.toList
  go ps (takesArguments ps) (arguments.length + 1) arguments
where
  go (ps : List Piece) (again : Bool) : Nat → List String → Result
    | 0, arguments => { rest := arguments }
    | fuel + 1, arguments =>
      let r := once d ps arguments
      if r.stopped || r.rest.isEmpty || !again then r
      else
        let more := go ps again fuel r.rest
        { more with output := r.output ++ more.output, problems := r.problems ++ more.problems }

end PipelineShell.Utility.Printf
