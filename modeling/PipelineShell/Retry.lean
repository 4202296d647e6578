/-
Repeating an interrupted call, and cleaning up behind it.

`untilUninterrupted` makes a call again for as long as it is interrupted, and
answers with the first other result and the number of calls it made.  The
results of the successive calls are given as a list and, behind its end, one
value for ever, so the number of calls is bounded by the list.

`guarded` runs a step and then its clean-up, whatever the step answered, so a
clean-up runs exactly once.

Both are rules on given results, without a system that answers.  A program has
them built in: one of its requests stands for a call with all its repetitions,
and what comes after a step in it is done whatever the step has come to, as the
pipes are closed in `Plan.launch`.  Transcripts show every repetition, and they
follow the first rule (`Program.Runs.untilUninterrupted_eq`).
-/
import PipelineShell.Errno

namespace PipelineShell.Retry

structure Answer (α : Type) where
  result : Except Errno α
  calls : Nat

/-- Repeats the call while it fails with `EINTR`. -/
def untilUninterrupted {α : Type} (beyond : α) : List (Except Errno α) → Answer α
  | [] => ⟨.ok beyond, 1⟩
  | result :: results =>
    match result with
    | .error .eintr =>
      let rest := untilUninterrupted beyond results
      { rest with calls := rest.calls + 1 }
    | result => ⟨result, 1⟩

/-- A step followed by its clean-up, on whatever state both change. -/
def guarded {σ α : Type} (cleanUp : σ → σ) (step : σ → α × σ) (s : σ) : α × σ :=
  let (answer, s) := step s
  (answer, cleanUp s)

end PipelineShell.Retry
