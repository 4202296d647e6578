/-
Bytes, and text as bytes.

Files, pipes and streams hold bytes; names and arguments are text.  `ofText`
writes text as UTF-8 and `toText?` reads it back, refusing anything that is not
UTF-8.  `readable` is for places that need some text whatever the bytes are.
-/

namespace PipelineShell

abbrev Bytes := List UInt8

namespace Bytes

/-- The UTF-8 form of a text. -/
def ofText (s : String) : Bytes := s.toUTF8.data.toList

/-- The text that the bytes are the UTF-8 form of. -/
def toText? (b : Bytes) : Option String := String.fromUTF8? ⟨b.toArray⟩

/-- The text of the bytes; bytes that are not UTF-8 stand for the characters of their own value. -/
def readable (b : Bytes) : String :=
  (toText? b).getD (String.ofList (b.map fun x => Char.ofNat x.toNat))

def newline : UInt8 := 10

/-- The first line with its newline, if it has one, and the rest. -/
def splitLine (b : Bytes) : Bytes × Bytes :=
  match b.dropWhile (· ≠ newline) with
  | [] => (b, [])
  | n :: rest => (b.takeWhile (· ≠ newline) ++ [n], rest)

/-- The lines of a text, without their newlines.  A newline at the very end starts no new line. -/
def lines (b : Bytes) : List Bytes :=
  let (done, last) := b.foldr
    (fun x (acc : List Bytes × Option Bytes) =>
      if x = newline then (acc.2.elim acc.1 (· :: acc.1), some [])
      else (acc.1, some (x :: acc.2.getD [])))
    ([], none)
  last.elim done (· :: done)

end Bytes

/-- The number of bytes before the first NUL, if there is one. -/
def nulPosition? (s : String) : Option Nat :=
  let before := s.toList.takeWhile (· ≠ '\x00')
  if before.length < s.toList.length then some (before.foldl (fun n c => n + c.utf8Size) 0)
  else none

end PipelineShell
