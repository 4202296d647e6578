/-
TOML documents: the grammar of lines, keys, arrays and inline tables.

`parse` reads a whole document into the entries of its root table and answers
`none` on any error.  A document is a list of sections; the first has no header.
Arrays and inline tables may be nested up to `depthLimit` deep and a key may
have fewer than that many parts.
-/
import PipelineShell.Toml.Scalar

namespace PipelineShell.Toml

/-- Nesting below this depth is accepted. -/
def depthLimit : Nat := 80

def skipWhite (cs : List Char) : List Char := cs.dropWhile isWhite

/-- Skips a comment, if one stands here, up to the end of its line. -/
def skipComment : List Char → List Char
  | '#' :: rest => rest.dropWhile isShown
  | cs => cs

/-- Skips blanks, line endings and comments between the items of an array. -/
def skipFiller : Nat → List Char → List Char
  | 0, cs => cs
  | fuel + 1, cs =>
    let cs := skipComment (skipWhite cs)
    match newline? cs with
    | some rest => skipFiller fuel rest
    | none => cs

def isBareKey (c : Char) : Bool := c.isAlphanum || c == '_' || c == '-'

/-- One part of a key: a bare word or a one-line string. -/
def keyPart? (cs : List Char) : Option (String × List Char) :=
  match cs with
  | [] => none
  | c :: rest =>
    if c = '"' ∨ c = '\'' then
      (lineString? c (rest.length + 1) rest).map fun (text, rest) => (String.ofList text, rest)
    else if isBareKey c then
      some (String.ofList (cs.takeWhile isBareKey), cs.dropWhile isBareKey)
    else none

/-- A key: its parts, which dots separate; blanks may stand around a dot. -/
def key? : Nat → List Char → Option (List String × List Char)
  | 0, _ => none
  | fuel + 1, cs => do
    let (part, rest) ← keyPart? cs
    match skipWhite rest with
    | '.' :: more =>
      let (parts, rest) ← key? fuel (skipWhite more)
      return (part :: parts, rest)
    | rest => return ([part], rest)

/-- A key as the path to its last part, and that part. -/
def keyPath? (cs : List Char) : Option ((List String × String) × List Char) := do
  let (parts, rest) ← key? depthLimit cs
  let last ← parts.getLast?
  if parts.length < depthLimit then return ((parts.dropLast, last), rest) else none

mutual

/-- A value; `depth` counts the arrays and inline tables around it. -/
def value? : Nat → Nat → List Char → Option (Value × List Char)
  | 0, _, _ => none
  | fuel + 1, depth, cs =>
    match cs with
    | '[' :: rest => if depth + 1 < depthLimit then array? fuel (depth + 1) [] rest else none
    | '\x7b' :: rest =>
      if depth + 1 < depthLimit then
        match skipWhite rest with
        | '\x7d' :: rest => some (.table .inlined [], rest)
        | rest => inlineTable? fuel (depth + 1) [] rest
      else none
    | '"' :: _ | '\'' :: _ => (string? cs).map fun (text, rest) => (.string text, rest)
    | cs => scalar? cs

/-- The items of an array up to its closing bracket; a comma may stand behind the last. -/
def array? : Nat → Nat → List Value → List Char → Option (Value × List Char)
  | 0, _, _, _ => none
  | fuel + 1, depth, items, cs =>
    match skipFiller cs.length cs with
    | ']' :: rest => some (.array items, rest)
    | cs => do
      let (item, rest) ← value? fuel depth cs
      let items := items ++ [item]
      match skipFiller rest.length rest with
      | ',' :: rest => array? fuel depth items rest
      | ']' :: rest => some (.array items, rest)
      | _ => none

/-- The pairs of an inline table up to its closing brace; all on one line. -/
def inlineTable? : Nat → Nat → Entries → List Char → Option (Value × List Char)
  | 0, _, _, _ => none
  | fuel + 1, depth, entries, cs => do
    let ((path, key), rest) ← keyPath? (skipWhite cs)
    let (v, rest) ← value? fuel depth (skipWhite (← expect? '=' (skipWhite rest)))
    let entries ← entries.addPair path key v
    match skipWhite rest with
    | ',' :: rest => inlineTable? fuel depth entries rest
    | '\x7d' :: rest => some (.table .inlined entries, rest)
    | _ => none

end

/-- What one line says. -/
inductive Statement where
  | pair (path : List String) (key : String) (v : Value)
  | table (path : List String) (key : String)
  | element (path : List String) (key : String)

/-- The statement of the line at the front, if the line is not empty, and the text behind it. -/
def statement? (cs : List Char) : Option (Option Statement × List Char) :=
  match skipWhite cs with
  | '[' :: '[' :: rest => do
    let ((path, key), rest) ← keyPath? (skipWhite rest)
    let rest ← (expect? ']' (skipWhite rest)).bind (expect? ']')
    return (some (.element path key), rest)
  | '[' :: rest => do
    let ((path, key), rest) ← keyPath? (skipWhite rest)
    let rest ← expect? ']' (skipWhite rest)
    return (some (.table path key), rest)
  | [] => some (none, [])
  | c :: rest =>
    if c = '#' ∨ (newline? (c :: rest)).isSome then some (none, c :: rest)
    else do
      let ((path, key), rest) ← keyPath? (c :: rest)
      let rest ← expect? '=' (skipWhite rest)
      let (v, rest) ← value? (rest.length + 1) 0 (skipWhite rest)
      return (some (.pair path key v), rest)

/-- The statements of a document. -/
def statements? : Nat → List Char → Option (List Statement)
  | 0, _ => none
  | fuel + 1, cs => do
    let (statement, rest) ← statement? cs
    let here := statement.toList
    match skipComment (skipWhite rest) with
    | [] => return here
    | rest =>
      let rest ← newline? rest
      return here ++ (← statements? fuel rest)

/-- The pairs up to the next header. -/
def leadingPairs : List Statement → List (List String × String × Value)
  | .pair path key v :: rest => (path, key, v) :: leadingPairs rest
  | _ => []

/-- Puts the sections behind the first into the document. -/
def addSections : Entries → List Statement → Option Entries
  | entries, [] => some entries
  | entries, .pair _ _ _ :: rest => addSections entries rest
  | entries, .table path key :: rest => do
    addSections (← entries.openTable path key (leadingPairs rest)) rest
  | entries, .element path key :: rest => do
    addSections (← entries.openElement path key (leadingPairs rest)) rest

/-- The text without a byte order mark in front. -/
def skipMark : List Char → List Char
  | '\ufeff' :: rest => rest
  | cs => cs

/-- The entries of a document's root table. -/
def parse (text : String) : Option Entries := do
  let cs := skipMark text.toList
  let statements ← statements? (cs.length + 1) cs
  addSections (← Entries.addPairs [] (leadingPairs statements)) statements

end PipelineShell.Toml
