/-
Backspaces in a line.

A line that comes as it is may hold backspaces.  Each erases the cluster before
it that is not erased yet, and itself; at the start of the line it erases only
itself.  The size of a cluster is kept in one byte, so of a cluster of 256 bytes
or more only the remainder of its size goes.

`erased? cs` is the line that is left.  A line without backspaces stays as it is
(`erased?_of_not_mem`).
-/
import PipelineShell.Text.Cluster

namespace PipelineShell.Text

def backspace : Char := '\x08'

/-- The number of bytes of a text. -/
def byteSize (cs : List Char) : Nat := cs.foldl (fun n c => n + c.utf8Size) 0

/-- A line on the way, the last character and the last cluster first. -/
structure Typed where
  text : List Char := []
  /-- How many bytes a backspace erases. -/
  sizes : List Nat := []

/-- Takes off characters of so many bytes; `none` if that cuts a character in two. -/
def dropBytes? : Nat → List Char → Option (List Char)
  | 0, cs => some cs
  | _ + 1, [] => none
  | n + 1, c :: cs =>
    if c.utf8Size ≤ n + 1 then dropBytes? (n + 1 - c.utf8Size) cs else none
termination_by _ cs => cs.length

namespace Typed

/-- Types one cluster. -/
def type? (t : Typed) (cluster : List Char) : Option Typed :=
  if cluster = [backspace] then
    match t.sizes with
    | [] => some t
    | size :: sizes => (dropBytes? size t.text).map fun text => { text, sizes }
  else
    some { text := cluster.reverse ++ t.text, sizes := byteSize cluster % 256 :: t.sizes }

theorem foldlM_type?_of_not_mem (groups : List (List Char)) (t : Typed)
    (h : [backspace] ∉ groups) :
    (groups.foldlM type? t).map Typed.text = some (groups.flatten.reverse ++ t.text) := by
  induction groups generalizing t with
  | nil => rfl
  | cons cluster groups ih =>
    have hc : cluster ≠ [backspace] := fun e => h (by simp [e])
    have hg : [backspace] ∉ groups := fun m => h (List.mem_cons_of_mem _ m)
    simp [type?, hc, ih _ hg]

end Typed

/-- The line that is left when the backspaces have erased what is before them. -/
def erased? (cs : List Char) : Option (List Char) :=
  ((clusters cs).foldlM Typed.type? {}).map fun t => t.text.reverse

theorem erased?_of_not_mem {cs : List Char} (h : backspace ∉ cs) : erased? cs = some cs := by
  have hg : [backspace] ∉ clusters cs := fun m =>
    h (flatten_clusters cs ▸ List.mem_flatten.2 ⟨_, m, by simp⟩)
  have := Typed.foldlM_type?_of_not_mem (clusters cs) {} hg
  rw [flatten_clusters] at this
  simp only [erased?]
  cases hf : (clusters cs).foldlM Typed.type? {} with
  | none => simp [hf] at this
  | some t => simp_all

end PipelineShell.Text
