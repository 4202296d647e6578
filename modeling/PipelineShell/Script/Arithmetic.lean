/-
Arithmetic on whole numbers, as in `$((…))`.

Operators bind as usual; comparisons and logical operators give 1 or 0.  A name
stands for the number that its value writes.
-/
import PipelineShell.Text.Utf8

namespace PipelineShell.Script.Arithmetic

inductive Token where
  | number (n : Int)
  | name (s : String)
  | operator (s : String)
deriving DecidableEq, Repr

inductive Problem where
  | expecting (what : String)
  | divisionByZero
deriving DecidableEq, Repr

def Problem.message (p : Problem) (expression : String) : String :=
  match p with
  | .expecting what => "arithmetic expression: expecting " ++ what ++ ": \"" ++ expression ++ "\""
  | .divisionByZero => "arithmetic expression: division by zero: \"" ++ expression ++ "\""

/-- How strongly the operators between two operands bind. -/
def strengths : List (String × Nat) :=
  [("||", 1), ("&&", 2), ("|", 3), ("^", 4), ("&", 5), ("==", 6), ("!=", 6), ("<=", 7), (">=", 7),
    ("<<", 8), (">>", 8), ("<", 7), (">", 7), ("+", 9), ("-", 9), ("*", 10), ("/", 10), ("%", 10)]

/-- All operators, the longer ones first. -/
def operators : List String :=
  ["||", "&&", "==", "!=", "<=", ">=", "<<", ">>", "|", "^", "&", "<", ">", "+", "-", "*", "/", "%",
    "!", "~", "(", ")", "?", ":"]

def isNameChar (c : Char) : Bool := c.isAlphanum || c = '_'

def tokens : Nat → List Char → Option (List Token)
  | 0, cs => if cs.isEmpty then some [] else none
  | fuel + 1, cs =>
    match cs with
    | [] => some []
    | c :: rest =>
      if c = ' ' || c = '\t' || c = '\n' then tokens fuel rest
      else if c.isDigit then
        let digits := cs.takeWhile Char.isDigit
        let n : Nat := digits.foldl (fun n d => n * 10 + (d.toNat - '0'.toNat)) 0
        (tokens fuel (cs.drop digits.length)).map (.number n :: ·)
      else if isNameChar c then
        let name := cs.takeWhile isNameChar
        (tokens fuel (cs.drop name.length)).map (.name (String.ofList name) :: ·)
      else
        match operators.find? fun op => op.toList.isPrefixOf cs with
        | some op => (tokens fuel (cs.drop op.length)).map (.operator op :: ·)
        | none => none

def truth (b : Bool) : Int := if b then 1 else 0

def apply (op : String) (a b : Int) : Except Problem Int :=
  match op with
  | "||" => .ok (truth (a ≠ 0 || b ≠ 0))
  | "&&" => .ok (truth (a ≠ 0 && b ≠ 0))
  | "|" => .ok (Int64.ofInt a ||| Int64.ofInt b).toInt
  | "^" => .ok (Int64.ofInt a ^^^ Int64.ofInt b).toInt
  | "&" => .ok (Int64.ofInt a &&& Int64.ofInt b).toInt
  | "==" => .ok (truth (a = b))
  | "!=" => .ok (truth (a ≠ b))
  | "<=" => .ok (truth (a ≤ b))
  | ">=" => .ok (truth (a ≥ b))
  | "<" => .ok (truth (a < b))
  | ">" => .ok (truth (a > b))
  | "<<" => .ok (Int64.ofInt a <<< Int64.ofInt b).toInt
  | ">>" => .ok (Int64.ofInt a >>> Int64.ofInt b).toInt
  | "+" => .ok (a + b)
  | "-" => .ok (a - b)
  | "*" => .ok (a * b)
  | "/" => if b = 0 then .error .divisionByZero else .ok (a.tdiv b)
  | "%" => if b = 0 then .error .divisionByZero else .ok (a.tmod b)
  | _ => .error (.expecting "EOF")

mutual

/-- An operand, perhaps with signs before it. -/
def operand (value : String → Int) : Nat → List Token → Except Problem (Int × List Token)
  | 0, _ => .error (.expecting "primary")
  | fuel + 1, ts =>
    match ts with
    | .number n :: rest => .ok (n, rest)
    | .name s :: rest => .ok (value s, rest)
    | .operator "-" :: rest => do
      let (n, rest) ← operand value fuel rest
      return (-n, rest)
    | .operator "+" :: rest => operand value fuel rest
    | .operator "!" :: rest => do
      let (n, rest) ← operand value fuel rest
      return (truth (n = 0), rest)
    | .operator "~" :: rest => do
      let (n, rest) ← operand value fuel rest
      return (-n - 1, rest)
    | .operator "(" :: rest => do
      match ← expression value fuel 0 rest with
      | (n, .operator ")" :: rest) => return (n, rest)
      | _ => throw (.expecting "')'")
    | _ => .error (.expecting "primary")

/-- An expression whose operators bind at least this strongly. -/
def expression (value : String → Int) : Nat → Nat → List Token → Except Problem (Int × List Token)
  | 0, _, _ => .error (.expecting "primary")
  | fuel + 1, least, ts => do
    let (a, rest) ← operand value fuel ts
    continued value fuel least a rest

/-- What follows a first operand. -/
def continued (value : String → Int) :
    Nat → Nat → Int → List Token → Except Problem (Int × List Token)
  | 0, _, a, ts => .ok (a, ts)
  | fuel + 1, least, a, ts =>
    match ts with
    | .operator "?" :: rest =>
      if least > 0 then .ok (a, ts)
      else do
        match ← expression value fuel 0 rest with
        | (yes, .operator ":" :: rest) =>
          let (no, rest) ← expression value fuel 0 rest
          return (if a ≠ 0 then yes else no, rest)
        | _ => throw (.expecting "':'")
    | .operator op :: rest =>
      match strengths.lookup op with
      | none => .ok (a, ts)
      | some strength =>
        if strength < least then .ok (a, ts)
        else do
          let (b, rest) ← expression value fuel (strength + 1) rest
          continued value fuel least (← apply op a b) rest
    | _ => .ok (a, ts)

end

/-- The value of an expression. -/
def evaluate (value : String → Int) (text : String) : Except Problem Int := do
  let cs := text.toList
  let some ts := tokens (cs.length + 1) cs | throw (.expecting "EOF")
  if ts.isEmpty then return 0
  match ← expression value (4 * ts.length + 4) 0 ts with
  | (n, []) => return n
  | _ => throw (.expecting "EOF")

end PipelineShell.Script.Arithmetic
