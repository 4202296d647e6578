/-
TOML values, and how statements build a table of them.

A table remembers how it came about (`Origin`), because TOML lets some tables
be opened again and others not: a table that only a longer header mentioned may
get a header of its own later, one that dotted keys made may only be extended by
dotted keys of the same section, and a table written out in full is closed.

* `addPair` puts one `a.b.c = v` into a section;
* `openTable` and `openElement` put a section into the document, under its
  header `[a.b]` or `[[a.b]]`.

Each answers `none` on a conflict.
-/

namespace PipelineShell.Toml

/-- How a table came about. -/
inductive Origin where
  /-- By a header of its own, or as the whole document. -/
  | header
  /-- As a part of a longer header. -/
  | implied
  /-- By dotted keys. -/
  | dotted
  /-- Written as a value, between braces. -/
  | inlined
deriving DecidableEq, Repr

inductive Value where
  | string (text : String)
  | integer (n : Int)
  /-- A floating-point number, as it is written. -/
  | float (text : String)
  | boolean (b : Bool)
  /-- A date, a time of day or both, as it is written. -/
  | moment (text : String)
  | array (items : List Value)
  | table (origin : Origin) (entries : List (String × Value))
  /-- The tables under `[[…]]` headers of one name, the latest of them apart. -/
  | tables (earlier : List (List (String × Value))) (latest : List (String × Value))
deriving Inhabited

/-- The entries of a table. -/
abbrev Entries := List (String × Value)

namespace Entries

/-- Replaces the value under a key that is there. -/
def replace (entries : Entries) (key : String) (v : Value) : Entries :=
  entries.map fun entry => if entry.1 = key then (key, v) else entry

/-- Adds a key that is not there yet. -/
def addNew (entries : Entries) (key : String) (v : Value) : Option Entries :=
  if (entries.lookup key).isSome then none else some (entries ++ [(key, v)])

/-- Changes the value under a key; `f` gets `none` when the key is not there. -/
def change (entries : Entries) (key : String) (f : Option Value → Option Value) : Option Entries :=
  match entries.lookup key with
  | none => (f none).map fun v => entries ++ [(key, v)]
  | some v => (f (some v)).map fun v => entries.replace key v

/-- Adds `path.key = v` to a section. -/
def addPair (entries : Entries) (path : List String) (key : String) (v : Value) : Option Entries :=
  match path with
  | [] => entries.addNew key v
  | step :: path =>
    entries.change step fun
      | none => (addPair [] path key v).map (.table .dotted)
      | some (.table .dotted inner) => (addPair inner path key v).map (.table .dotted)
      | some (.table .implied inner) =>
        -- a table that a header implied may be passed through, but gets no key from here
        if path.isEmpty then none else (addPair inner path key v).map (.table .implied)
      | some (.tables earlier latest) =>
        if path.isEmpty then none else (addPair latest path key v).map (.tables earlier)
      | some _ => none

/-- Adds the pairs of a section, in order. -/
def addPairs (entries : Entries) (pairs : List (List String × String × Value)) : Option Entries :=
  pairs.foldlM (fun entries pair => entries.addPair pair.1 pair.2.1 pair.2.2) entries

/-- Goes down a header to its last part and changes the value there. -/
def underHeader (f : Option Value → Option Value) (key : String) :
    List String → Entries → Option Entries
  | [], entries => entries.change key f
  | step :: path, entries =>
    entries.change step fun
      | none => (underHeader f key path []).map (.table .implied)
      | some (.table .inlined _) => none
      | some (.table origin inner) => (underHeader f key path inner).map (.table origin)
      | some (.tables earlier latest) => (underHeader f key path latest).map (.tables earlier)
      | some _ => none

/-- The section under `[path.key]`. -/
def openTable (entries : Entries) (path : List String) (key : String)
    (pairs : List (List String × String × Value)) : Option Entries :=
  entries.underHeader (f := fun
    | none => (addPairs [] pairs).map (.table .header)
    | some (.table .implied inner) => (addPairs inner pairs).map (.table .header)
    | some _ => none) key path

/-- The section under `[[path.key]]`. -/
def openElement (entries : Entries) (path : List String) (key : String)
    (pairs : List (List String × String × Value)) : Option Entries :=
  entries.underHeader (f := fun
    | none => (addPairs [] pairs).map (.tables [])
    | some (.tables earlier latest) => (addPairs [] pairs).map (.tables (earlier ++ [latest]))
    | some _ => none) key path

end Entries

end PipelineShell.Toml
