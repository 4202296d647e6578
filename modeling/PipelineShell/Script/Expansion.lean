/-
Expansion: from phrases to words.

Parameters and arithmetic are replaced by their values; command substitutions
have been replaced before.  A value that was not quoted is cut into words at
the characters of `IFS`.  Assigning to a parameter on the way changes the
parameters, so expansion is a computation on them.
-/
import PipelineShell.Script.Arithmetic
import PipelineShell.Script.Pattern
import PipelineShell.Script.Syntax

namespace PipelineShell.Script

structure Variable where
  value : String
  exported : Bool := false
deriving DecidableEq, Repr

/-- What the parameters of a shell stand for. -/
structure Parameters where
  name : String
  positional : List String := []
  bindings : List (String × Variable) := []
  status : Nat := 0
  pid : Pid := 0
  lastBackground : Option Pid := none
  flags : String := ""
  /-- A parameter that is not set is an error. -/
  strict : Bool := false

namespace Parameters

def binding? (p : Parameters) (name : String) : Option Variable := p.bindings.lookup name

def assign (p : Parameters) (name value : String) : Parameters :=
  let exported := ((p.binding? name).map (·.exported)).getD false
  { p with bindings := (name, ⟨value, exported⟩) :: p.bindings.filter (·.1 ≠ name) }

/-- Marks a variable for the environment of programs. -/
def publish (p : Parameters) (name : String) : Parameters :=
  let value := ((p.binding? name).map (·.value)).getD ""
  { p with bindings := (name, ⟨value, true⟩) :: p.bindings.filter (·.1 ≠ name) }

def unset (p : Parameters) (name : String) : Parameters :=
  { p with bindings := p.bindings.filter (·.1 ≠ name) }

/-- What a program that is executed gets. -/
def environment (p : Parameters) : List (String × String) :=
  p.bindings.filterMap fun (name, v) => if v.exported then some (name, v.value) else none

/-- The characters that values are cut at. -/
def separators (p : Parameters) : List Char :=
  match p.binding? "IFS" with
  | some v => v.value.toList
  | none => [' ', '\t', '\n']

/-- The value of a parameter, if it is set. -/
def value? (p : Parameters) (name : String) : Option String :=
  match name with
  | "@" => some (String.intercalate " " p.positional)
  | "*" =>
    let between := match p.separators with
      | c :: _ => String.singleton c
      | [] => ""
    some (String.intercalate between p.positional)
  | "#" => some (toString p.positional.length)
  | "?" => some (toString p.status)
  | "$" => some (toString p.pid)
  | "-" => some p.flags
  | "!" => p.lastBackground.map toString
  | name =>
    if name.toList.all Char.isDigit then
      match name.toNat? with
      | some 0 => some p.name
      | some (n + 1) => p.positional[n]?
      | none => none
    else (p.binding? name).map (·.value)

end Parameters

namespace Expansion

/-- A computation on parameters that may fail with a message. -/
abbrev Expanding := StateT Parameters (Except String)

/-- Words that are being put together: those that are complete, the last one first, and the one
that is not. -/
structure Builder where
  done : List MarkedText := []
  current : Option MarkedText := none

namespace Builder

def add (b : Builder) (text : String) (quoted : Bool) : Builder :=
  { b with current := some (b.current.getD [] ++ text.toList.map (·, quoted)) }

/-- Ends the word, if there is one. -/
def cut (b : Builder) : Builder :=
  match b.current with
  | some word => { done := word :: b.done }
  | none => b

/-- Adds a value that is cut into words. -/
def addSplit (b : Builder) (separators : List Char) (value : String) : Builder :=
  value.toList.foldl
    (fun b c =>
      if !separators.contains c then b.add (String.singleton c) false
      else if c = ' ' || c = '\t' || c = '\n' then b.cut
      else (b.add "" false).cut)
    b

def words (b : Builder) : List MarkedText := b.cut.done.reverse

/-- The text of all words, with a space between them. -/
def joined (b : Builder) : MarkedText := List.intercalate [(' ', true)] b.words

end Builder

/-- Adds a value in the way that its place asks for. -/
def addValue (split quoted : Bool) (value : String) (b : Builder) : Expanding Builder := do
  if quoted || !split then return b.add value quoted
  else return b.addSplit (← get).separators value

/-- Adds the positional parameters as words of their own. -/
def addPositional (positional : List String) (b : Builder) : Builder :=
  match positional with
  | [] => b
  | first :: rest => rest.foldl (fun b word => b.cut.add word true) (b.add first true)

mutual

def expandPart (split : Bool) : Part → Builder → Expanding Builder
  | .text s quoted, b => return b.add s quoted
  | .value s quoted, b => addValue split quoted s b
  | .substitution _ _, b => return b
  | .arithmetic expression quoted, b => do
    let text := Pattern.plain (← expandParts false expression {}).joined
    let parameters ← get
    let value := fun (name : String) => ((parameters.value? name).bind String.toInt?).getD 0
    match Arithmetic.evaluate value text with
    | .ok n => addValue split quoted (toString n) b
    | .error e => throw (e.message text)
  | .parameter name use word quoted, b => do
    let p ← get
    let value := p.value? name
    let isSet := fun (empty : Bool) => value.isSome && !(empty && value = some "")
    let plain := fun (b : Builder) => show Expanding Builder from do
      if name = "@" && split && quoted then return addPositional p.positional b
      else if (name = "@" || name = "*") && split && !quoted then
        return p.positional.foldl (fun b word => (b.addSplit p.separators word).cut) b
      else
        match value with
        | some v => addValue split quoted v b
        | none =>
          if p.strict then throw (name ++ ": parameter not set")
          if quoted then return b.add "" true
          return b
    match use with
    | .value => plain b
    | .length => addValue split quoted (toString ((value.getD "").length)) b
    | .orElse empty => if isSet empty then plain b else expandParts split word b
    | .ifSet empty => if isSet empty then expandParts split word b else return b
    | .orAssign empty =>
      if isSet empty then plain b
      else
        let text := Pattern.plain (← expandParts false word {}).joined
        modify fun p => p.assign name text
        addValue split quoted text b
    | .orFail empty =>
      if isSet empty then plain b
      else
        let text := Pattern.plain (← expandParts false word {}).joined
        let text := if text ≠ "" then text else if empty then "parameter null or not set"
          else "parameter not set"
        throw (name ++ ": " ++ text)
    | .dropFront longest => do
      let pattern := (← expandParts false word {}).joined
      addValue split quoted (Pattern.dropFront longest pattern (value.getD "")) b
    | .dropBack longest => do
      let pattern := (← expandParts false word {}).joined
      addValue split quoted (Pattern.dropBack longest pattern (value.getD "")) b

def expandParts (split : Bool) : List Part → Builder → Expanding Builder
  | [], b => return b
  | part :: rest, b => do expandParts split rest (← expandPart split part b)

end

/-- A phrase whose leading tilde stands for the home directory. -/
def withHome (p : Parameters) (phrase : Phrase) : Phrase :=
  match phrase with
  | .text s false :: rest =>
    match s.toList, p.value? "HOME" with
    | ['~'], some home => .text home true :: rest
    | '~' :: '/' :: path, some home =>
      .text home true :: .text (String.ofList ('/' :: path)) false :: rest
    | _, _ => phrase
  | _ => phrase

/-- The words of a phrase, before patterns are looked at. -/
def wordsOf (phrase : Phrase) : Expanding (List MarkedText) := do
  return (← expandParts true (withHome (← get) phrase) {}).words

def wordsOfAll : List Phrase → Expanding (List MarkedText)
  | [] => return []
  | phrase :: rest => do
    let here ← wordsOf phrase
    return here ++ (← wordsOfAll rest)

/-- The text of a phrase as one pattern. -/
def patternOf (phrase : Phrase) : Expanding MarkedText := do
  return (← expandParts false (withHome (← get) phrase) {}).joined

/-- The text of a phrase as one word. -/
def textOf (phrase : Phrase) : Expanding String := return Pattern.plain (← patternOf phrase)

end Expansion

end PipelineShell.Script
