/-
Sets of code points, as inclusive ranges in ascending order.

The tables of this folder hold Unicode 17 data in this form.
-/

namespace PipelineShell.Text

abbrev CodePoints := List (Nat × Nat)

/-- Whether a character lies in one of the ranges. -/
def CodePoints.contains (ranges : CodePoints) (c : Char) : Bool :=
  ranges.any fun r => r.1 ≤ c.toNat && c.toNat ≤ r.2

end PipelineShell.Text
