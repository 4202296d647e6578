/-
Tokens of the shell's language.

`next` reads one token from the text.  Blanks, comments and joined lines before
it are skipped.  A word goes on through its quotes and expansions; if the text
ends within one of them, more of it is needed.

The functions that scan a word are given as fuel the length of the text.
-/
import PipelineShell.Script.Syntax

namespace PipelineShell.Script

inductive Token where
  | word (phrase : Phrase)
  /-- Digits right before a redirection. -/
  | descriptor (fd : Descriptor)
  | operator (text : String)
  | newline

/-- A place in the text, with the number of its line. -/
structure Cursor where
  text : List Char
  line : Nat

/-- Why no token could be read. -/
inductive ScanEnd where
  | endOfText
  /-- The text ends within a quotation or an expansion. -/
  | unterminated (what : String)
deriving DecidableEq, Repr

namespace Token

def isBlank (c : Char) : Bool := c = ' ' || c = '\t'

/-- Characters that end a word. -/
def isMeta (c : Char) : Bool := c ∈ [' ', '\t', '\n', ';', '&', '|', '<', '>', '(', ')']

def isNameStart (c : Char) : Bool := c.isAlpha || c = '_'

def isNameChar (c : Char) : Bool := c.isAlphanum || c = '_'

def isSpecial (c : Char) : Bool := c ∈ ['@', '*', '#', '?', '-', '$', '!']

/-- Adds a character to parts of which the last one comes first. -/
def addChar (c : Char) (quoted : Bool) : List Part → List Part
  | .text s q :: parts =>
    if q = quoted then .text (s.push c) q :: parts
    else .text (String.singleton c) quoted :: .text s q :: parts
  | parts => .text (String.singleton c) quoted :: parts

/-- The text up to a quote, and what is behind it. -/
def upTo (quote : Char) (cs : List Char) : Option (List Char × List Char) :=
  match cs.dropWhile (· ≠ quote) with
  | [] => none
  | _ :: rest => some (cs.takeWhile (· ≠ quote), rest)

/-- The text up to the closing parenthesis that belongs to `depth` open ones. -/
def upToParenthesis : Nat → Nat → List Char → List Char → Option (List Char × List Char)
  | 0, _, _, _ => none
  | _, _, [], _ => none
  | fuel + 1, depth, c :: cs, before =>
    match c with
    | '\\' =>
      match cs with
      | d :: cs => upToParenthesis fuel depth cs (d :: c :: before)
      | [] => none
    | '(' => upToParenthesis fuel (depth + 1) cs (c :: before)
    | ')' =>
      match depth with
      | 0 => some (before.reverse, cs)
      | depth + 1 => upToParenthesis fuel depth cs (c :: before)
    | c =>
      if c = '\'' || c = '"' then
        match upTo c cs with
        | none => none
        | some (quoted, cs) => upToParenthesis fuel depth cs (c :: quoted.reverse ++ c :: before)
      else upToParenthesis fuel depth cs (c :: before)

/-- The source within back quotes. -/
def upToBackQuote : List Char → Option (List Char × List Char)
  | [] => none
  | '\x60' :: rest => some ([], rest)
  | '\\' :: c :: rest =>
    (upToBackQuote rest).map fun (source, rest) =>
      (if c ∈ ['\x60', '\\', '$'] then c :: source else '\\' :: c :: source, rest)
  | c :: rest => (upToBackQuote rest).map fun (source, rest) => (c :: source, rest)

/-- The name of a parameter at the start. -/
def parameterName (cs : List Char) : Option (String × List Char) :=
  match cs with
  | [] => none
  | c :: rest =>
    if isNameStart c then
      let name := cs.takeWhile isNameChar
      some (String.ofList name, cs.drop name.length)
    else if c.isDigit then
      let digits := cs.takeWhile Char.isDigit
      some (String.ofList digits, cs.drop digits.length)
    else if isSpecial c then some (String.singleton c, rest)
    else none

/-- What is made of a parameter, from the characters behind its name. -/
def parameterUse (cs : List Char) : Option (ParameterUse × List Char) :=
  match cs with
  | ':' :: '-' :: rest => some (.orElse true, rest)
  | ':' :: '=' :: rest => some (.orAssign true, rest)
  | ':' :: '?' :: rest => some (.orFail true, rest)
  | ':' :: '+' :: rest => some (.ifSet true, rest)
  | '-' :: rest => some (.orElse false, rest)
  | '=' :: rest => some (.orAssign false, rest)
  | '?' :: rest => some (.orFail false, rest)
  | '+' :: rest => some (.ifSet false, rest)
  | '#' :: '#' :: rest => some (.dropFront true, rest)
  | '#' :: rest => some (.dropFront false, rest)
  | '%' :: '%' :: rest => some (.dropBack true, rest)
  | '%' :: rest => some (.dropBack false, rest)
  | _ => none

mutual

/-- The parts of a word, up to a character that ends it, or, in braces, up to the closing brace.
`parts` are those before, the last one first. -/
def scanWord : Nat → Bool → Bool → List Char → List Part → Option (Phrase × List Char)
  | 0, _, _, _, _ => none
  | _, braced, _, [], parts => if braced then none else some (parts.reverse, [])
  | fuel + 1, braced, quoted, c :: cs, parts =>
    if braced && c = '\x7d' then some (parts.reverse, cs)
    else if !braced && isMeta c then some (parts.reverse, c :: cs)
    else
      match c with
      | '\\' =>
        match cs with
        | [] => some ((addChar '\\' false parts).reverse, [])
        | '\n' :: cs => scanWord fuel braced quoted cs parts
        | d :: cs => scanWord fuel braced quoted cs (addChar d true parts)
      | '\'' =>
        if quoted then scanWord fuel braced quoted cs (addChar c quoted parts)
        else
          match upTo '\'' cs with
          | none => none
          | some (s, cs) => scanWord fuel braced quoted cs (.text (String.ofList s) true :: parts)
      | '"' =>
        match scanQuoted fuel cs [] with
        | none => none
        | some ([], cs) => scanWord fuel braced quoted cs (.text "" true :: parts)
        | some (inner, cs) => scanWord fuel braced quoted cs (inner ++ parts)
      | '$' =>
        match scanDollar fuel quoted cs with
        | none => none
        | some (part, cs) => scanWord fuel braced quoted cs (part :: parts)
      | '\x60' =>
        match upToBackQuote cs with
        | none => none
        | some (source, cs) =>
          scanWord fuel braced quoted cs (.substitution (String.ofList source) quoted :: parts)
      | c => scanWord fuel braced quoted cs (addChar c quoted parts)

/-- The parts within double quotes. -/
def scanQuoted : Nat → List Char → List Part → Option (List Part × List Char)
  | 0, _, _ => none
  | _, [], _ => none
  | fuel + 1, c :: cs, parts =>
    match c with
    | '"' => some (parts, cs)
    | '\\' =>
      match cs with
      | [] => none
      | '\n' :: cs => scanQuoted fuel cs parts
      | d :: cs =>
        if d ∈ ['$', '\x60', '"', '\\'] then scanQuoted fuel cs (addChar d true parts)
        else scanQuoted fuel cs (addChar d true (addChar '\\' true parts))
    | '$' =>
      match scanDollar fuel true cs with
      | none => none
      | some (part, cs) => scanQuoted fuel cs (part :: parts)
    | '\x60' =>
      match upToBackQuote cs with
      | none => none
      | some (source, cs) => scanQuoted fuel cs (.substitution (String.ofList source) true :: parts)
    | c => scanQuoted fuel cs (addChar c true parts)

/-- The expansion behind a dollar sign. -/
def scanDollar : Nat → Bool → List Char → Option (Part × List Char)
  | 0, _, _ => none
  | fuel + 1, quoted, cs =>
    match cs with
    | '(' :: '(' :: rest =>
      match upToParenthesis (rest.length + 1) 0 rest [] with
      | some (expression, ')' :: rest) =>
        match scanQuoted fuel (expression ++ ['"']) [] with
        | some (parts, _) => some (.arithmetic parts.reverse quoted, rest)
        | none => none
      | _ => none
    | '(' :: rest =>
      (upToParenthesis (rest.length + 1) 0 rest []).map fun (source, rest) =>
        (.substitution (String.ofList source) quoted, rest)
    | '\x7b' :: '#' :: rest =>
      match parameterName rest with
      | some (name, '\x7d' :: rest) => some (.parameter name .length [] quoted, rest)
      | _ =>
        if rest.head? = some '\x7d' then some (.parameter "#" .value [] quoted, rest.tail) else none
    | '\x7b' :: rest =>
      match parameterName rest with
      | none => none
      | some (name, '\x7d' :: rest) => some (.parameter name .value [] quoted, rest)
      | some (name, rest) =>
        match parameterUse rest with
        | none => none
        | some (use, rest) =>
          (scanWord fuel true quoted rest []).map fun (phrase, rest) =>
            (.parameter name use phrase quoted, rest)
    | c :: rest =>
      if isNameStart c then
        let name := cs.takeWhile isNameChar
        some (.parameter (String.ofList name) .value [] quoted, cs.drop name.length)
      else if c.isDigit || isSpecial c then
        some (.parameter (String.singleton c) .value [] quoted, rest)
      else some (.text "$" quoted, cs)
    | [] => some (.text "$" quoted, [])

end

/-- The operators, the longer ones first. -/
def operators : List String :=
  ["&&", "||", ";;", "<&", ">&", ">>", "<>", "&", "|", ";", "<", ">", "(", ")"]

/-- The text without the blanks, comments and joined lines at its start. -/
def skipBlanks : List Char → Nat → Cursor
  | ' ' :: cs, line => skipBlanks cs line
  | '\t' :: cs, line => skipBlanks cs line
  | '\\' :: '\n' :: cs, line => skipBlanks cs (line + 1)
  | cs, line => ⟨if cs.head? = some '#' then cs.dropWhile (· ≠ '\n') else cs, line⟩

/-- The next token and the place behind it. -/
def next (c : Cursor) : Except ScanEnd (Token × Cursor) :=
  let c := skipBlanks c.text c.line
  match c.text with
  | [] => .error .endOfText
  | '\n' :: rest => .ok (.newline, ⟨rest, c.line + 1⟩)
  | cs =>
    match operators.find? fun op => op.toList.isPrefixOf cs with
    | some op => .ok (.operator op, ⟨cs.drop op.length, c.line⟩)
    | none =>
      let digits := cs.takeWhile Char.isDigit
      let behind := cs.drop digits.length
      if !digits.isEmpty && (behind.head? = some '<' || behind.head? = some '>') then
        let fd := digits.foldl (fun n d => n * 10 + (d.toNat - '0'.toNat)) 0
        .ok (.descriptor fd, ⟨behind, c.line⟩)
      else
        match scanWord (2 * cs.length + 2) false false cs [] with
        | none => .error (.unterminated "Unterminated quoted string")
        | some (phrase, rest) =>
          let lines := (cs.take (cs.length - rest.length)).count '\n'
          .ok (.word phrase, ⟨rest, c.line + lines⟩)

end Token

end PipelineShell.Script
