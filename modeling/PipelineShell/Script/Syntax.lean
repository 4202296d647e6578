/-
The language of the system's shell: words with their expansions, redirections
and commands.

A word is a `Phrase`, a list of parts, of which some are text and others stand
for text that is found out when the command runs.  The source of a command
substitution is kept as it was written; the text that it comes to takes its
place (`fill`).
-/
import PipelineShell.Machine.Request

namespace PipelineShell.Script

/-- What is made of a parameter besides its value. -/
inductive ParameterUse where
  | value
  | length
  /-- Another word if it is not set, or, with `empty`, if it is empty. -/
  | orElse (empty : Bool)
  | orAssign (empty : Bool)
  | orFail (empty : Bool)
  /-- Another word if it is set. -/
  | ifSet (empty : Bool)
  | dropFront (longest : Bool)
  | dropBack (longest : Bool)
deriving DecidableEq, Repr

inductive Part where
  | text (s : String) (quoted : Bool)
  /-- What an expansion has come to. -/
  | value (s : String) (quoted : Bool)
  | parameter (name : String) (use : ParameterUse) (word : List Part) (quoted : Bool)
  | substitution (source : String) (quoted : Bool)
  | arithmetic (expression : List Part) (quoted : Bool)

abbrev Phrase := List Part

mutual

/-- The first command substitution in a part. -/
def Part.substitution? : Part → Option String
  | .text _ _ => none
  | .value _ _ => none
  | .parameter _ _ word _ => Part.firstSubstitution? word
  | .substitution source _ => some source
  | .arithmetic expression _ => Part.firstSubstitution? expression

/-- The first command substitution in some parts. -/
def Part.firstSubstitution? : List Part → Option String
  | [] => none
  | part :: rest => part.substitution?.or (Part.firstSubstitution? rest)

end

mutual

/-- A part with a value in the place of its first command substitution, if it has one. -/
def Part.fill? (s : String) : Part → Option Part
  | .text _ _ => none
  | .value _ _ => none
  | .parameter name use word quoted =>
    (Part.fillFirst? s word).map fun word => .parameter name use word quoted
  | .substitution _ quoted => some (.value s quoted)
  | .arithmetic expression quoted =>
    (Part.fillFirst? s expression).map fun expression => .arithmetic expression quoted

def Part.fillFirst? (s : String) : List Part → Option (List Part)
  | [] => none
  | part :: rest =>
    match part.fill? s with
    | some part => some (part :: rest)
    | none => (Part.fillFirst? s rest).map (part :: ·)

end

/-- Some phrases with a value in the place of their first command substitution. -/
def fillPhrases? (s : String) : List Phrase → Option (List Phrase)
  | [] => none
  | phrase :: rest =>
    match Part.fillFirst? s phrase with
    | some phrase => some (phrase :: rest)
    | none => (fillPhrases? s rest).map (phrase :: ·)

/-- The text of a phrase that was written without quotes and expansions. -/
def plainText? (phrase : Phrase) : Option String :=
  match phrase with
  | [.text s false] => some s
  | _ => none

inductive RedirectKind where
  | input
  | output
  | append
  | readWrite
  | copyInput
  | copyOutput
deriving DecidableEq, Repr

structure Redirect where
  fd : Option Descriptor
  kind : RedirectKind
  target : Phrase

inductive Command where
  | nothing
  | simple (line : Nat) (assignments : List (String × Phrase)) (words : List Phrase)
      (redirects : List Redirect)
  | pipeline (stages : List Command)
  | negated (c : Command)
  | both (first second : Command)
  | either (first second : Command)
  | sequence (first second : Command)
  | background (c : Command)
  | subshell (c : Command)
  | choice (condition yes no : Command)
  /-- Goes on as long as the condition succeeds, or, with `untilTrue`, as long as it fails. -/
  | loop (untilTrue : Bool) (condition body : Command)
  | each (name : String) (words : Option (List Phrase)) (body : Command)
  | select (word : Phrase) (clauses : List (List Phrase × Command))
  | define (name : String) (body : Command)
  | redirected (line : Nat) (c : Command) (redirects : List Redirect)

namespace Redirect

def fillAll? (s : String) : List Redirect → Option (List Redirect)
  | [] => none
  | r :: rest =>
    match Part.fillFirst? s r.target with
    | some target => some ({ r with target } :: rest)
    | none => (fillAll? s rest).map (r :: ·)

end Redirect

/-- The first command substitution among the targets of redirections. -/
def redirectSubstitution? (redirects : List Redirect) : Option String :=
  redirects.findSome? fun r => Part.firstSubstitution? r.target

namespace Command

/-- The first command substitution that has to be made before the command can begin. -/
def substitution? : Command → Option String
  | .simple _ assignments words redirects =>
    ((words.findSome? Part.firstSubstitution?).or (redirectSubstitution? redirects)).or
      (assignments.findSome? fun a => Part.firstSubstitution? a.2)
  | .each _ (some words) _ => words.findSome? Part.firstSubstitution?
  | .select word _ => Part.firstSubstitution? word
  | .redirected _ _ redirects => redirectSubstitution? redirects
  | _ => none

def fillAssignments? (s : String) : List (String × Phrase) → Option (List (String × Phrase))
  | [] => none
  | (name, phrase) :: rest =>
    match Part.fillFirst? s phrase with
    | some phrase => some ((name, phrase) :: rest)
    | none => (fillAssignments? s rest).map ((name, phrase) :: ·)

/-- The command with a value in the place of its first command substitution. -/
def fill (s : String) : Command → Command
  | .simple line assignments words redirects =>
    match fillPhrases? s words with
    | some words => .simple line assignments words redirects
    | none =>
      match Redirect.fillAll? s redirects with
      | some redirects => .simple line assignments words redirects
      | none => .simple line ((fillAssignments? s assignments).getD assignments) words redirects
  | .each name (some words) body => .each name (some ((fillPhrases? s words).getD words)) body
  | .select word clauses => .select ((Part.fillFirst? s word).getD word) clauses
  | .redirected line c redirects =>
    .redirected line c ((Redirect.fillAll? s redirects).getD redirects)
  | c => c

end Command

end PipelineShell.Script
