/-
Statuses as numbers.

There are two places where a status comes from outside the shell: the user names
one when the shell is to leave, and a process leaves one when it ends.

* `askedStatus?` — the status that an argument asks for, a decimal number with a
  sign or without one, within 32 bits;
* **`parseStatus?_eq`** — the worker reads just this;
* `WaitStatus.final?` — the status that a process leaves.

Design notes: the value of a number is the library's `Nat.ofDigits`, which has
the least digit first; the worker goes through the digits as they are written.
-/
import Mathlib.Data.Nat.Digits.Defs
import PipelineShell.Proofs.Worker

namespace PipelineShell

/-! ### The argument of an exit -/

/-- The number that decimal digits stand for. -/
def decimal? (digits : List Char) : Option Nat :=
  if digits ≠ [] ∧ digits.all Char.isDigit then
    some (Nat.ofDigits 10 (digits.map fun c => c.toNat - '0'.toNat).reverse)
  else none

/-- The status that an argument asks for: a number with a sign or without one, within 32 bits. -/
def askedStatus? (argument : String) : Option Int :=
  let number? : Option Int :=
    match argument.toList with
    | '-' :: digits => (decimal? digits).map fun n : Nat => -(n : Int)
    | '+' :: digits => (decimal? digits).map fun n : Nat => (n : Int)
    | digits => (decimal? digits).map fun n : Nat => (n : Int)
  number?.filter fun n => -2147483648 ≤ n ∧ n ≤ 2147483647

/-- The worker reads decimal digits by Horner's rule. -/
theorem foldl_eq_ofDigits (digits : List Char) :
    digits.foldl (fun n c => n * 10 + (c.toNat - '0'.toNat)) 0 =
      Nat.ofDigits 10 (digits.map fun c => c.toNat - '0'.toNat).reverse := by
  have hstep : (fun (n : Nat) (c : Char) => n * 10 + (c.toNat - '0'.toNat)) =
      fun n c => (c.toNat - '0'.toNat) + 10 * n := by
    funext n c
    omega
  rw [hstep, Nat.ofDigits_eq_foldr, List.foldr_reverse, List.foldl_map]
  rfl

/-- **The worker reads the status that an argument asks for**, and nothing else. -/
theorem parseStatus?_eq (argument : String) : parseStatus? argument = askedStatus? argument := by
  have hrange : ∀ n : Int, (decide (-2147483648 ≤ n) && decide (n ≤ 2147483647)) =
      decide (-2147483648 ≤ n ∧ n ≤ 2147483647) := fun n => (Bool.decide_and _ _).symm
  have hnumber : ∀ (digits : List Char) (signed : Nat → Int),
      (if digits.isEmpty || !digits.all Char.isDigit then none
        else
          let n := signed (digits.foldl (fun n c => n * 10 + (c.toNat - '0'.toNat)) 0)
          if -2147483648 ≤ n && n ≤ 2147483647 then some n else none) =
        ((decimal? digits).map signed).filter fun n => -2147483648 ≤ n ∧ n ≤ 2147483647 := by
    intro digits signed
    rw [foldl_eq_ofDigits, decimal?]
    by_cases hdigits : digits ≠ [] ∧ digits.all Char.isDigit
    · have hgood : (digits.isEmpty || !digits.all Char.isDigit) = false := by
        simp [hdigits.1, hdigits.2]
      rw [if_pos hdigits, hgood, Option.map_some, Option.filter_some, ← hrange]
      rfl
    · have hbad : (digits.isEmpty || !digits.all Char.isDigit) = true := by
        rw [Bool.or_eq_true, List.isEmpty_iff, Bool.not_eq_true', ← Bool.not_eq_true]
        exact or_iff_not_imp_left.2 fun hne hall => hdigits ⟨hne, hall⟩
      rw [if_neg hdigits, if_pos hbad]
      rfl
  rw [parseStatus?, askedStatus?]
  generalize argument.toList = text
  rcases text with _ | ⟨c, digits⟩
  · exact hnumber [] fun n => n
  by_cases hminus : c = '-'
  · subst hminus
    exact hnumber digits fun n => -n
  by_cases hplus : c = '+'
  · subst hplus
    exact hnumber digits fun n => n
  · simp only [List.cons.injEq, hminus, hplus, false_and, imp_self, implies_true]
    exact hnumber (c :: digits) fun n => n

example : askedStatus? "-007" = some (-7) ∧ askedStatus? "2147483648" = none ∧
    askedStatus? "-2147483648" = some (-2147483648) ∧ askedStatus? "+" = none := by
  decide +kernel

/-! ### The end of a process -/

namespace WaitStatus

/-- The status that a process leaves: its exit code, or 128 and the number of the signal that ended
it.  One that has stopped leaves none. -/
def final? : WaitStatus → Option Int
  | .exited code => some code
  | .killed signal => some (128 + signal.number)
  | .stopped _ => none

/-- The worker knows the status by the same number. -/
theorem final?_eq_some_iff {status : WaitStatus} {n : Int} :
    status.final? = some n ↔ status.isStop = false ∧ n = status.code := by
  cases status <;> simp [final?, isStop, WaitStatus.code, eq_comm]

end WaitStatus

end PipelineShell
