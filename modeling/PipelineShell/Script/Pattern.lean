/-
Patterns of file names and of texts.

A pattern is a text of which every character is marked as quoted or not; only
unquoted `*`, `?` and `[` mean anything but themselves.
-/
import PipelineShell.Machine.Request

namespace PipelineShell.Script

/-- Characters with a mark whether each was quoted. -/
abbrev MarkedText := List (Char × Bool)

namespace Pattern

def isActive (p : MarkedText) : Bool :=
  p.any fun (c, quoted) => !quoted && (c = '*' || c = '?' || c = '[')

def plain (p : MarkedText) : String := String.ofList (p.map (·.1))

/-- The members of a bracket expression, up to its closing bracket, and the rest. -/
def bracket : Nat → Bool → MarkedText → Option (List (Char × Char) × MarkedText)
  | 0, _, _ => none
  | _, _, [] => none
  | fuel + 1, first, (c, quoted) :: rest =>
    if c = ']' && !quoted && !first then some ([], rest)
    else
      match rest with
      | ('-', false) :: (d, q) :: after =>
        if d = ']' && !q then
          (bracket fuel false rest).map fun (members, rest) => ((c, c) :: members, rest)
        else (bracket fuel false after).map fun (members, rest) => ((c, d) :: members, rest)
      | rest => (bracket fuel false rest).map fun (members, rest) => ((c, c) :: members, rest)

/-- A bracket expression as a test of a character, and the rest of the pattern. -/
def class? (p : MarkedText) : Option ((Char → Bool) × MarkedText) :=
  let (negated, p) := match p with
    | ('!', false) :: rest => (true, rest)
    | ('^', false) :: rest => (true, rest)
    | p => (false, p)
  (bracket (p.length + 1) true p).map fun (members, rest) =>
    (fun c => (members.any fun (a, b) => a ≤ c && c ≤ b) != negated, rest)

/-- The pattern stands for the text. -/
def accepts : Nat → MarkedText → List Char → Bool
  | 0, _, _ => false
  | _, [], cs => cs.isEmpty
  | fuel + 1, (c, quoted) :: p, cs =>
    if quoted then
      match cs with
      | d :: cs => c = d && accepts fuel p cs
      | [] => false
    else if c = '*' then
      accepts fuel p cs ||
        (match cs with
          | _ :: cs => accepts fuel ((c, quoted) :: p) cs
          | [] => false)
    else
      match cs with
      | [] => false
      | d :: cs =>
        if c = '?' then accepts fuel p cs
        else if c = '[' then
          match class? p with
          | some (test, rest) => test d && accepts fuel rest cs
          | none => c = d && accepts fuel p cs
        else c = d && accepts fuel p cs

def matchesText (p : MarkedText) (s : String) : Bool :=
  accepts (p.length + s.length + 1) p s.toList

/-- The text without the shortest or longest start that the pattern stands for. -/
def dropFront (longest : Bool) (p : MarkedText) (s : String) : String :=
  let cs := s.toList
  let sizes := List.range (cs.length + 1)
  let sizes := if longest then sizes.reverse else sizes
  match sizes.find? fun n => matchesText p (String.ofList (cs.take n)) with
  | some n => String.ofList (cs.drop n)
  | none => s

/-- The text without the shortest or longest end that the pattern stands for. -/
def dropBack (longest : Bool) (p : MarkedText) (s : String) : String :=
  let cs := s.toList
  let sizes := List.range (cs.length + 1)
  let sizes := if longest then sizes else sizes.reverse
  match sizes.find? fun n => matchesText p (String.ofList (cs.drop n)) with
  | some n => String.ofList (cs.take n)
  | none => s

/-- The parts of a pattern between slashes. -/
def components (p : MarkedText) : List MarkedText :=
  p.foldr
    (fun entry acc =>
      if entry.1 = '/' then [] :: acc
      else
        match acc with
        | part :: rest => (entry :: part) :: rest
        | [] => [[entry]])
    [[]]

variable {τ : Type}

/-- The paths that one part of a pattern leads to from a path before it. -/
def extend (part : MarkedText) (last : Bool) (before : String) : Program τ (List String) := do
  let join := fun (name : String) => before ++ name ++ (if last then "" else "/")
  if isActive part then
    match ← Program.ask (.entries (if before = "" then "." else before)) with
    | .error _ => return []
    | .ok names =>
      let hidden := (part.head?.map (·.1)) = some '.'
      let chosen := names.filter fun name =>
        matchesText part name && (hidden || !name.startsWith ".")
      return (chosen.mergeSort fun a b => a ≤ b).map join
  else if last then
    match ← Program.ask (.inspect (join (plain part)) false) with
    | .ok _ => return [join (plain part)]
    | .error _ => return []
  else return [join (plain part)]

def extendAll (part : MarkedText) (last : Bool) : List String → Program τ (List String)
  | [] => return []
  | before :: more => do
    let here ← extend part last before
    return here ++ (← extendAll part last more)

/-- The paths that the parts of a pattern stand for, from the paths before them. -/
def paths : List MarkedText → List String → Program τ (List String)
  | [], befores => return befores
  | part :: rest, befores => do paths rest (← extendAll part rest.isEmpty befores)

/-- The words that a pattern stands for: the paths that it fits, or the text itself if there are
none. -/
def words (p : MarkedText) : Program τ (List String) := do
  if !isActive p then return [plain p]
  match ← paths (components p) [""] with
  | [] => return [plain p]
  | found => return found

end Pattern

end PipelineShell.Script
