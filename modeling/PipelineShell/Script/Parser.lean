/-
Reading commands of the shell's language.

`Parser.line` reads one line: commands up to a newline that ends the last of
them.  If the text ends before that, the caller may know more of it and try
again; otherwise the text is faulty.

Every function takes fuel, which the caller derives from the length of the
text.
-/
import PipelineShell.Script.Token

namespace PipelineShell.Script

/-- Why a command could not be read. -/
inductive Fault where
  /-- The text ends too early; perhaps a certain word is missing. -/
  | unfinished (line : Nat) (expected : Option String)
  | unterminated (line : Nat) (what : String)
  | unexpected (line : Nat) (what : String) (expected : Option String)
deriving DecidableEq, Repr

namespace Fault

def expecting : Option String → String
  | some word => " (expecting \"" ++ word ++ "\")"
  | none => ""

def lineNumber : Fault → Nat
  | .unfinished line _ => line
  | .unterminated line _ => line
  | .unexpected line _ _ => line

def message : Fault → String
  | .unfinished _ expected => "end of file unexpected" ++ expecting expected
  | .unterminated _ what => what
  | .unexpected _ what expected => what ++ " unexpected" ++ expecting expected

end Fault

namespace Parser

/-- Reading with a place in the text. -/
abbrev Reader := StateT Cursor (Except Fault)

/-- The token at this place, if there is one. -/
def peek : Reader (Option Token) := do
  let c ← get
  match Token.next c with
  | .ok (token, _) => return some token
  | .error .endOfText => return none
  | .error (.unterminated what) => throw (.unterminated c.line what)

/-- Goes behind the token at this place. -/
def advance : Reader Unit := do
  match Token.next (← get) with
  | .ok (_, rest) => set rest
  | .error _ => return ()

/-- How a token is called in a message. -/
def describe : Token → String
  | .newline => "newline"
  | .operator text => "\"" ++ text ++ "\""
  | .descriptor fd => toString fd
  | .word phrase =>
    match plainText? phrase with
    | some text =>
      if text ∈ ["if", "then", "else", "elif", "fi", "do", "done", "case", "esac", "while", "until",
          "for", "in", "\x7b", "\x7d", "!"] then "\"" ++ text ++ "\""
      else "word"
    | none => "word"

/-- The token at this place is not what it should be. -/
def unexpected {α : Type} (expected : Option String) : Reader α := do
  let token ← peek
  let c ← get
  match token with
  | none => throw (.unfinished c.line expected)
  | some token => throw (.unexpected c.line (describe token) expected)

/-- The word that a token is, if it is written plainly. -/
def keyword? : Option Token → Option String
  | some (.word phrase) => plainText? phrase
  | _ => none

def isOperator (op : String) : Option Token → Bool
  | some (.operator text) => text = op
  | _ => false

def isNewline : Option Token → Bool
  | some .newline => true
  | _ => false

/-- The token ends a list of commands within another command. -/
def endsList (token : Option Token) : Bool :=
  match token with
  | none => true
  | some (.operator op) => op = ")" || op = ";;"
  | token =>
    match keyword? token with
    | some word => word ∈ ["then", "else", "elif", "fi", "do", "done", "esac", "\x7d"]
    | none => false

/-- Skips newlines. -/
def skipNewlines : Nat → Reader Unit
  | 0 => return ()
  | fuel + 1 => do
    if isNewline (← peek) then
      advance
      skipNewlines fuel

/-- Takes a certain word. -/
def expect (word : String) : Reader Unit := do
  if keyword? (← peek) = some word then advance else unexpected (some word)

/-- Takes a certain operator. -/
def expectOperator (op : String) : Reader Unit := do
  if isOperator op (← peek) then advance else unexpected (some op)

/-- A name and what it is set to, if a word has that form. -/
def assignment? (phrase : Phrase) : Option (String × Phrase) :=
  match phrase with
  | .text s false :: rest =>
    let cs := s.toList
    let name := cs.takeWhile Token.isNameChar
    match cs.drop name.length with
    | '=' :: value =>
      if (name.head?.map Token.isNameStart).getD false then
        let rest := if value.isEmpty then rest else .text (String.ofList value) false :: rest
        some (String.ofList name, rest)
      else none
    | _ => none
  | _ => none

def redirectKind? : String → Option RedirectKind
  | "<" => some .input
  | ">" => some .output
  | ">>" => some .append
  | "<>" => some .readWrite
  | "<&" => some .copyInput
  | ">&" => some .copyOutput
  | _ => none

/-- A word that has to stand here. -/
def word : Reader Phrase := do
  match ← peek with
  | some (.word phrase) =>
    advance
    return phrase
  | _ => unexpected none

/-- The rest of a redirection, from its operator on. -/
def redirectFrom (fd : Option Descriptor) (kind : RedirectKind) : Reader Redirect := do
  advance
  return ⟨fd, kind, ← word⟩

/-- A redirection, if there is one. -/
def redirect? : Reader (Option Redirect) := do
  let fd ← match ← peek with
    | some (.descriptor fd) =>
      advance
      pure (some fd)
    | _ => pure none
  match ← peek with
  | some (.operator op) =>
    match redirectKind? op with
    | none => return none
    | some kind => return some (← redirectFrom fd kind)
  | _ => return none

/-- All redirections at this place. -/
def redirects : Nat → Reader (List Redirect)
  | 0 => return []
  | fuel + 1 => do
    match ← redirect? with
    | none => return []
    | some r => return r :: (← redirects fuel)

/-- The words and redirections of a simple command; assignments come before all words. -/
def simple : Nat → Nat → List (String × Phrase) → List Phrase → List Redirect → Reader Command
  | 0, line, assignments, words, rs => return .simple line assignments words.reverse rs.reverse
  | fuel + 1, line, assignments, words, rs => do
    match ← redirect? with
    | some r => simple fuel line assignments words (r :: rs)
    | none =>
      match ← peek with
      | some (.word phrase) =>
        advance
        match assignment? phrase with
        | some a =>
          if words.isEmpty then simple fuel line (assignments ++ [a]) words rs
          else simple fuel line assignments (phrase :: words) rs
        | none => simple fuel line assignments (phrase :: words) rs
      | _ => return .simple line assignments words.reverse rs.reverse

/-- Words up to the end of a line or a semicolon. -/
def items : Nat → Reader (List Phrase)
  | 0 => return []
  | fuel + 1 => do
    match ← peek with
    | some (.word phrase) =>
      advance
      return phrase :: (← items fuel)
    | token =>
      if isNewline token || isOperator ";" token then
        advance
        return []
      else unexpected none

/-- The patterns of a clause, up to the closing parenthesis. -/
def patterns : Nat → Reader (List Phrase)
  | 0 => return []
  | fuel + 1 => do
    let phrase ← word
    if isOperator "|" (← peek) then
      advance
      return phrase :: (← patterns fuel)
    else
      expectOperator ")"
      return [phrase]

/-- The text has come to more than it can hold. -/
def exhausted {α : Type} : Reader α := do throw (.unfinished (← get).line none)

mutual

/-- Commands up to a token that ends the list; at the top, up to the newline that ends the line. -/
def list : Nat → Bool → Reader Command
  | 0, _ => exhausted
  | fuel + 1, top => do
    if !top then skipNewlines fuel
    let first ← conjunction fuel
    let token ← peek
    let first := if isOperator "&" token then .background first else first
    let separated := isOperator ";" token || isOperator "&" token
    if separated then advance
    let token ← peek
    if top && isNewline token then
      advance
      return first
    if !separated && !isNewline token then return first
    if !top then skipNewlines fuel
    if endsList (← peek) then return first
    return .sequence first (← list fuel top)

/-- Pipelines joined by `&&` and `||`. -/
def conjunction : Nat → Reader Command
  | 0 => exhausted
  | fuel + 1 => do conjunctionFrom fuel (← pipeline fuel)

/-- The pipelines that follow one. -/
def conjunctionFrom : Nat → Command → Reader Command
  | 0, first => return first
  | fuel + 1, first => do
    let token ← peek
    if isOperator "&&" token then
      advance
      skipNewlines fuel
      conjunctionFrom fuel (.both first (← pipeline fuel))
    else if isOperator "||" token then
      advance
      skipNewlines fuel
      conjunctionFrom fuel (.either first (← pipeline fuel))
    else return first

/-- Commands joined by `|`, perhaps negated. -/
def pipeline : Nat → Reader Command
  | 0 => exhausted
  | fuel + 1 => do
    if keyword? (← peek) = some "!" then
      advance
      return .negated (← pipeline fuel)
    match ← stages fuel with
    | [stage] => return stage
    | stages => return .pipeline stages

def stages : Nat → Reader (List Command)
  | 0 => exhausted
  | fuel + 1 => do
    let stage ← command fuel
    if isOperator "|" (← peek) then
      advance
      skipNewlines fuel
      return stage :: (← stages fuel)
    return [stage]

/-- A list and a certain word behind it. -/
def enclosed : Nat → String → Reader Command
  | 0, _ => exhausted
  | fuel + 1, last => do
    let body ← list fuel false
    expect last
    return body

/-- What follows `if`. -/
def choice : Nat → Reader Command
  | 0 => exhausted
  | fuel + 1 => do
    let condition ← enclosed fuel "then"
    let yes ← list fuel false
    match keyword? (← peek) with
    | some "fi" =>
      advance
      return .choice condition yes .nothing
    | some "else" =>
      advance
      return .choice condition yes (← enclosed fuel "fi")
    | some "elif" =>
      advance
      return .choice condition yes (← choice fuel)
    | _ => unexpected (some "fi")

/-- The clauses of a `case`. -/
def clauses : Nat → Reader (List (List Phrase × Command))
  | 0 => exhausted
  | fuel + 1 => do
    skipNewlines fuel
    if keyword? (← peek) = some "esac" then
      advance
      return []
    if isOperator "(" (← peek) then advance
    let choices ← patterns fuel
    skipNewlines fuel
    let token ← peek
    let body ←
      if isOperator ";;" token || keyword? token = some "esac" then pure .nothing
      else list fuel false
    if isOperator ";;" (← peek) then
      advance
      return (choices, body) :: (← clauses fuel)
    expect "esac"
    return [(choices, body)]

/-- What follows `while` or `until`. -/
def loop : Nat → Bool → Reader Command
  | 0, _ => exhausted
  | fuel + 1, untilTrue => do
    let condition ← enclosed fuel "do"
    return .loop untilTrue condition (← enclosed fuel "done")

/-- What follows `for`. -/
def each : Nat → Reader Command
  | 0 => exhausted
  | fuel + 1 => do
    let some name := plainText? (← word) | unexpected none
    skipNewlines fuel
    let values ←
      if keyword? (← peek) = some "in" then do
        advance
        pure (some (← items fuel))
      else do
        if isOperator ";" (← peek) then advance
        pure none
    skipNewlines fuel
    expect "do"
    return .each name values (← enclosed fuel "done")

/-- What follows `case`. -/
def select : Nat → Reader Command
  | 0 => exhausted
  | fuel + 1 => do
    let phrase ← word
    skipNewlines fuel
    expect "in"
    return .select phrase (← clauses fuel)

/-- The command that begins with the word at this place, if that word begins one. -/
def compound? : Nat → Option String → Reader (Option Command)
  | 0, _ => exhausted
  | fuel + 1, first =>
    match first with
    | some "if" => do
      advance
      return some (← choice fuel)
    | some "while" => do
      advance
      return some (← loop fuel false)
    | some "until" => do
      advance
      return some (← loop fuel true)
    | some "for" => do
      advance
      return some (← each fuel)
    | some "case" => do
      advance
      return some (← select fuel)
    | some "\x7b" => do
      advance
      return some (← enclosed fuel "\x7d")
    | _ => return none

/-- One command with its redirections. -/
def command : Nat → Reader Command
  | 0 => exhausted
  | fuel + 1 => do
    let start ← get
    let line := (Token.skipBlanks start.text start.line).line
    let token ← peek
    if isOperator "(" token then
      advance
      let body ← list fuel false
      expectOperator ")"
      redirected fuel line (.subshell body)
    else
      match ← compound? fuel (keyword? token) with
      | some body => redirected fuel line body
      | none =>
        match token with
        | some (.word phrase) =>
          if endsList token then unexpected none
          advance
          if (plainText? phrase).isSome && isOperator "(" (← peek) then
            advance
            expectOperator ")"
            skipNewlines fuel
            return .define ((plainText? phrase).getD "") (← command fuel)
          set start
          simple (fuel + 1) line [] [] []
        | some (.descriptor _) => simple (fuel + 1) line [] [] []
        | some (.operator op) =>
          if (redirectKind? op).isSome then simple (fuel + 1) line [] [] [] else unexpected none
        | _ => unexpected none

/-- A command with the redirections behind it. -/
def redirected : Nat → Nat → Command → Reader Command
  | 0, _, _ => exhausted
  | fuel + 1, line, body => do
    let rs ← redirects fuel
    return if rs.isEmpty then body else .redirected line body rs

end

/-- Enough for any text of this length. -/
def fuelFor (text : List Char) : Nat := 16 * text.length + 64

/-- One line of commands; `none` at the end of the text. -/
def line : Reader (Option Command) := do
  let fuel := fuelFor (← get).text
  match ← peek with
  | none => return none
  | some .newline =>
    advance
    return some .nothing
  | some _ =>
    let before ← get
    let body ← list fuel true
    let taken := before.text.take (before.text.length - (← get).text.length)
    let ended := (taken.getLast? = some '\n')
    if !ended && (← peek).isSome then unexpected none
    return some body

end Parser

end PipelineShell.Script
