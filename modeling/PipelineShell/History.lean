/-
The lines that were entered before, and the file that keeps them.

A line is not entered twice in a row, and only the last hundred are kept.  In
the file a line break and a backslash are escaped; a file that does not begin
with the mark of that form holds its lines as they are.
-/

namespace PipelineShell

structure History where
  /-- The oldest first. -/
  entries : List String := []
  /-- Something has been entered since the file was read. -/
  changed : Bool := false
deriving DecidableEq, Repr

namespace History

/-- How many lines are kept. -/
def capacity : Nat := 100

/-- Enters a line, unless it is empty or the last one again. -/
def enter (h : History) (line : String) : History :=
  if line = "" || h.entries.getLast? = some line then h
  else { entries := (h.entries ++ [line]).drop (h.entries.length + 1 - capacity), changed := true }

/-- The first line of a file with escapes. -/
def mark : String := "#V2"

def escapeChar (c : Char) : List Char :=
  if c = '\n' then ['\\', 'n'] else if c = '\\' then ['\\', '\\'] else [c]

def escape (line : String) : String := String.ofList (line.toList.flatMap escapeChar)

/-- Undoes the escapes; `none` if some backslash begins none. -/
def unescapeChars? : List Char → Option (List Char)
  | [] => some []
  | '\\' :: 'n' :: rest => (unescapeChars? rest).map ('\n' :: ·)
  | '\\' :: '\\' :: rest => (unescapeChars? rest).map ('\\' :: ·)
  | c :: rest => if c = '\\' then none else (unescapeChars? rest).map (c :: ·)

/-- A line without its escapes; a line that is not well escaped is meant as it is. -/
def unescape (line : String) : String :=
  ((unescapeChars? line.toList).map String.ofList).getD line

theorem unescapeChars?_flatMap_escapeChar (cs : List Char) :
    unescapeChars? (cs.flatMap escapeChar) = some cs := by
  induction cs with
  | nil => rfl
  | cons c cs ih =>
    by_cases hn : c = '\n'
    · subst hn
      simp [escapeChar, unescapeChars?, ih]
    · by_cases hb : c = '\\'
      · subst hb
        simp [escapeChar, unescapeChars?, ih]
      · simp [escapeChar, unescapeChars?, hn, hb, ih]

/-- The history in a file. -/
def ofText (text : String) : History :=
  let lines := text.splitOn "\n"
  let lines := if lines.head? = some mark then lines.tail.map unescape else lines
  { lines.foldl enter {} with changed := false }

/-- The text of the file. -/
def text (h : History) : String :=
  String.join ((mark :: h.entries.map escape).map (· ++ "\n"))

end History

end PipelineShell
