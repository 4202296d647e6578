/-
What commands make of the contents of their files, one after the other.

A `Filter` is told where a file begins and ends and gets its contents in
pieces; at each of these events it may put something out.  Some put out every
piece as it comes, some every line, some wait until the end.
-/
import PipelineShell.Utility.Columns
import PipelineShell.Utility.Sorting
import PipelineShell.Utility.Totals
import PipelineShell.Utility.Replacement

namespace PipelineShell.Utility

inductive Filter where
  | copy
  | bytewise (plan : Replacement.Plan)
  /-- What becomes of each line; `started` is the line that has not ended. -/
  | perLine (f : Bytes → Option Bytes) (started : Bytes)
  /-- What becomes of everything; `gathered` are the pieces, the last one first. -/
  | whole (f : Bytes → Bytes) (gathered : List Bytes)
  /-- What becomes of each file. -/
  | perFile (f : Bytes → Bytes) (gathered : List Bytes)
  | count (options : CountOptions) (width : Nat) (here sum : Totals) (files : Nat)
  /-- The first lines or bytes of each file, and what is still wanted of this one. -/
  | leading (amount left : Tail.Amount)

namespace Filter

/-- Feeds lines as far as they have ended. -/
def feedLines (f : Bytes → Option Bytes) (started : Bytes) (data : Bytes) : Bytes × Bytes :=
  let chunks := Tail.chunks (started ++ data)
  let (complete, rest) := match chunks.getLast? with
    | some last =>
      if last.getLast? = some Bytes.newline then (chunks, []) else (chunks.dropLast, last)
    | none => ([], [])
  (rest, unlines (complete.filterMap fun line => f line.dropLast))

/-- A piece of a file comes. -/
def feed (filter : Filter) (data : Bytes) : Filter × Bytes :=
  match filter with
  | .copy => (.copy, data)
  | .bytewise plan =>
    let (plan, out) := plan.feed data
    (.bytewise plan, out)
  | .perLine f started =>
    let (started, out) := feedLines f started data
    (.perLine f started, out)
  | .whole f gathered => (.whole f (data :: gathered), [])
  | .perFile f gathered => (.perFile f (data :: gathered), [])
  | .count options width here sum files => (.count options width (here.feed data) sum files, [])
  | .leading amount left =>
    let (out, left) := Tail.first left data
    (.leading amount left, out)

/-- More of this file is wanted. -/
def wantsMore : Filter → Bool
  | .leading _ (.lines 0) => false
  | .leading _ (.bytes 0) => false
  | _ => true

/-- A file ends; `name` is empty for input that has not been named. -/
def endFile (filter : Filter) (name : String) : Filter × Bytes :=
  match filter with
  | .perLine f started =>
    if started.isEmpty then (filter, [])
    else (.perLine f [], unlines ((f started).toList))
  | .whole f gathered =>
    match gathered.head?.bind List.getLast? with
    | some b =>
      if b = Bytes.newline then (filter, []) else (.whole f ([Bytes.newline] :: gathered), [])
    | none => (filter, [])
  | .perFile f gathered => (.perFile f [], f gathered.reverse.flatten)
  | .count options width here sum files =>
    (.count options width {} (sum.plus here) (files + 1), here.row options width name)
  | .leading amount _ => (.leading amount amount, [])
  | filter => (filter, [])

/-- A file could not be opened. -/
def passOver : Filter → Filter
  | .count options width here sum files => .count options width here sum (files + 1)
  | filter => filter

/-- The input ends. -/
def finish : Filter → Bytes
  | .whole f gathered => f gathered.reverse.flatten
  | .count options width _ sum files => if files > 1 then sum.row options width "total" else []
  | _ => []

/-- The heading of a file, if there are several. -/
def heading (first : Bool) (name : String) : Bytes :=
  Bytes.ofText ((if first then "" else "\n") ++ "==> " ++ name ++ " <==\n")

end Filter

end PipelineShell.Utility
