/-
The conditions of the `test` command: about texts, numbers and files.

Up to four arguments are read by their number alone, so that any text can be
compared; more of them are read as an expression with `-o`, `-a`, `!` and
parentheses.
-/
import PipelineShell.Machine.Request

namespace PipelineShell.Utility.Condition

inductive Problem where
  | unexpectedOperator (text : String)
  | illegalNumber (text : String)
  | argumentExpected
  | closingParenthesis
deriving DecidableEq, Repr

def Problem.message : Problem → String
  | .unexpectedOperator text => text ++ ": unexpected operator"
  | .illegalNumber text => "Illegal number: " ++ text
  | .argumentExpected => "argument expected"
  | .closingParenthesis => "closing paren expected"

abbrev Verdict := Except Problem Bool

/-- A whole number, with blanks around it. -/
def readInteger (s : String) : Except Problem Int :=
  let isBlank := fun c => c = ' ' || c = '\t' || c = '\n'
  let cs := ((s.toList.dropWhile isBlank).reverse.dropWhile isBlank).reverse
  let (negative, digits) := match cs with
    | '-' :: rest => (true, rest)
    | '+' :: rest => (false, rest)
    | rest => (false, rest)
  if digits.isEmpty || !digits.all Char.isDigit then .error (.illegalNumber s)
  else
    let n : Nat := digits.foldl (fun n c => n * 10 + (c.toNat - '0'.toNat)) 0
    .ok (if negative then -n else n)

def isUnary (op : String) : Bool :=
  op ∈ ["-e", "-f", "-d", "-r", "-w", "-x", "-s", "-h", "-L", "-n", "-z", "-t", "-p", "-b", "-c",
    "-S", "-u", "-g", "-k", "-O", "-G"]

def isBinary (op : String) : Bool :=
  op ∈ ["=", "!=", "==", "<", ">", "-eq", "-ne", "-lt", "-le", "-gt", "-ge", "-nt", "-ot", "-ef"]

variable {τ : Type}

/-- A condition about a file that has to exist. -/
def ofFile (path : String) (follow : Bool) (p : FileInfo → Bool) : Program τ Bool := do
  match ← Program.ask (.inspect path follow) with
  | .ok info => return p info
  | .error _ => return false

def unary (op argument : String) : Program τ Verdict := do
  match op with
  | "-n" => return .ok (argument ≠ "")
  | "-z" => return .ok (argument = "")
  | "-f" => return .ok (← ofFile argument true (·.kind = .regular))
  | "-d" => return .ok (← ofFile argument true (·.kind = .directory))
  | "-x" => return .ok (← ofFile argument true (·.executable))
  | "-s" => return .ok (← ofFile argument true (·.size > 0))
  | "-h" => return .ok (← ofFile argument false (·.kind = .link))
  | "-L" => return .ok (← ofFile argument false (·.kind = .link))
  | "-p" => return .ok (← ofFile argument true (·.kind = .pipe))
  | "-c" => return .ok (← ofFile argument true (·.kind = .device))
  | "-t" =>
    match readInteger argument with
    | .error e => return .error e
    | .ok n => return .ok (← Program.ask (.isTerminal n.toNat))
  | "-b" => return .ok false
  | "-S" => return .ok false
  | "-u" => return .ok false
  | "-g" => return .ok false
  | "-k" => return .ok false
  | _ => return .ok (← ofFile argument true fun _ => true)

def compareIntegers (op : String) (a b : Int) : Bool :=
  match op with
  | "-eq" => a = b
  | "-ne" => a ≠ b
  | "-lt" => a < b
  | "-le" => a ≤ b
  | "-gt" => a > b
  | _ => a ≥ b

def binary (a op b : String) : Program τ Verdict := do
  match op with
  | "=" => return .ok (a = b)
  | "==" => return .ok (a = b)
  | "!=" => return .ok (a ≠ b)
  | "<" => return .ok (a < b)
  | ">" => return .ok (b < a)
  | "-ef" =>
    match ← Program.ask (.inspect a true), ← Program.ask (.inspect b true) with
    | .ok x, .ok y => return .ok (x.node = y.node)
    | _, _ => return .ok false
  | "-nt" =>
    match ← Program.ask (.inspect a true), ← Program.ask (.inspect b true) with
    | .ok x, .ok y => return .ok (x.modified > y.modified)
    | .ok _, .error _ => return .ok true
    | _, _ => return .ok false
  | "-ot" =>
    match ← Program.ask (.inspect a true), ← Program.ask (.inspect b true) with
    | .ok x, .ok y => return .ok (x.modified < y.modified)
    | .error _, .ok _ => return .ok true
    | _, _ => return .ok false
  | op =>
    match readInteger a, readInteger b with
    | .ok x, .ok y => return .ok (compareIntegers op x y)
    | .error e, _ => return .error e
    | _, .error e => return .error e

def negated (verdict : Verdict) : Verdict := verdict.map (!·)

/-- What an expression begins with, and what is left of it. -/
abbrev Partial := Except Problem (Bool × List String)

mutual

/-- Expressions joined by `-o`. -/
def disjunction : Nat → List String → Program τ Partial
  | 0, _ => return .error .argumentExpected
  | fuel + 1, arguments => do
    match ← conjunction fuel arguments with
    | .ok (a, "-o" :: rest) =>
      match ← disjunction fuel rest with
      | .ok (b, rest) => return .ok (a || b, rest)
      | .error e => return .error e
    | result => return result

/-- Expressions joined by `-a`. -/
def conjunction : Nat → List String → Program τ Partial
  | 0, _ => return .error .argumentExpected
  | fuel + 1, arguments => do
    match ← primary fuel arguments with
    | .ok (a, "-a" :: rest) =>
      match ← conjunction fuel rest with
      | .ok (b, rest) => return .ok (a && b, rest)
      | .error e => return .error e
    | result => return result

/-- A single condition, perhaps negated or in parentheses. -/
def primary : Nat → List String → Program τ Partial
  | 0, _ => return .error .argumentExpected
  | _, [] => return .error .argumentExpected
  | fuel + 1, "!" :: rest => do
    match ← primary fuel rest with
    | .ok (a, rest) => return .ok (!a, rest)
    | .error e => return .error e
  | fuel + 1, "(" :: rest => do
    match ← disjunction fuel rest with
    | .ok (a, ")" :: rest) => return .ok (a, rest)
    | .ok _ => return .error .closingParenthesis
    | .error e => return .error e
  | _ + 1, a :: op :: b :: rest => do
    if isBinary op then return (← binary a op b).map (·, rest)
    else if isUnary a then return (← unary a op).map (·, b :: rest)
    else return .ok (a ≠ "", op :: b :: rest)
  | _ + 1, [a, b] => do
    if isUnary a then return (← unary a b).map (·, [])
    else return .ok (a ≠ "", [b])
  | _ + 1, [a] => return .ok (a ≠ "", [])

end

/-- A condition of any number of arguments. -/
def expression (arguments : List String) : Program τ Verdict := do
  match ← disjunction (2 * arguments.length + 2) arguments with
  | .ok (verdict, []) => return .ok verdict
  | .ok (_, text :: _) => return .error (.unexpectedOperator text)
  | .error e => return .error e

def two (a b : String) : Program τ Verdict := do
  if a = "!" then return .ok (b = "")
  else if isUnary a then unary a b
  else return .error (.unexpectedOperator a)

def three (a b c : String) : Program τ Verdict := do
  if isBinary b then binary a b c
  else if b = "-a" then return .ok (a ≠ "" && c ≠ "")
  else if b = "-o" then return .ok (a ≠ "" || c ≠ "")
  else if a = "!" then return negated (← two b c)
  else if a = "(" && c = ")" then return .ok (b ≠ "")
  else return .error (.unexpectedOperator b)

/-- Whether the arguments of the command hold. -/
def evaluate (arguments : List String) : Program τ Verdict :=
  match arguments with
  | [] => return .ok false
  | [a] => return .ok (a ≠ "")
  | [a, b] => two a b
  | [a, b, c] => three a b c
  | ["!", a, b, c] => do return negated (← three a b c)
  | ["(", a, b, ")"] => two a b
  | arguments => expression arguments

end PipelineShell.Utility.Condition
