/-
Transcripts: the calls of a program, in order, with their answers.

`Program.Runs` says with which result a program may end and what its calls have
been answered until then, where every answer comes from a state and leads to the
next one.  A call that is made again when it is interrupted stands in the
transcript once for every time it is made, so that a transcript shows what the
system has seen.

* `Runs.untilUninterrupted_eq` — a call is repeated until it is not interrupted,
  and not once more;
* `runs_bind_iff` — the transcript of a sequence consists of those of its parts;
* `Runs.mono` — more may be answered;
* `exists_runs` — a program ends if every call is answered at some time.

Design notes: `Program.Meets` looks at all answers at once and knows an
interrupted call and its repetitions as one call.  Here there is one run at a
time, and what has happened can be counted.
-/
import PipelineShell.Proofs.Launching
import PipelineShell.Proofs.ProgramLogic
import PipelineShell.Retry

namespace PipelineShell

/-- A call and its answer. -/
structure Exchange (τ : Type) where
  request : Request τ
  answer : request.Answer

abbrev Transcript (τ : Type) := List (Exchange τ)

def Errno.isInterruption {α : Type} : Except Errno α → Bool
  | .error .eintr => true
  | _ => false

theorem Errno.isInterruption_iff {α : Type} {answer : Except Errno α} :
    isInterruption answer = true ↔ answer = .error .eintr := by
  rw [isInterruption.eq_def]
  split
  · exact iff_of_true rfl rfl
  · next h => exact iff_of_false Bool.false_ne_true h

/-- The call has been interrupted and is made again.  Of the other calls every answer counts. -/
def Request.isInterrupted {τ : Type} : (r : Request τ) → r.Answer → Bool
  | .open _ _, answer => Errno.isInterruption answer
  | .close _, answer => Errno.isInterruption answer
  | .duplicate _ _, answer => Errno.isInterruption answer
  | .fork _, answer => Errno.isInterruption answer
  | .wait _ _ _, answer => Errno.isInterruption answer
  | _, _ => false

namespace Program

variable {τ α β σ : Type} {step step' : σ → (r : Request τ) → r.Answer → σ → Prop} {s s' : σ}
  {log : Transcript τ}

/-- The program may end with this value and this transcript, and lead from the one state to the
other. -/
inductive Runs (step : σ → (r : Request τ) → r.Answer → σ → Prop) :
    Program τ α → σ → Transcript τ → α → σ → Prop
  | done (a : α) (s : σ) : Runs step (.done a) s [] a s
  | call {r : Request τ} {next : r.Answer → Program τ α} {s s₁ s' : σ} {log : Transcript τ} {a : α}
      (answer : r.Answer) (hs : step s r answer s₁) (hr : r.isInterrupted answer = false)
      (h : Runs step (next answer) s₁ log a s') :
      Runs step (.call r next) s (⟨r, answer⟩ :: log) a s'
  | again {r : Request τ} {next : r.Answer → Program τ α} {s s₁ s' : σ} {log : Transcript τ} {a : α}
      (answer : r.Answer) (hs : step s r answer s₁) (hr : r.isInterrupted answer = true)
      (h : Runs step (.call r next) s₁ log a s') :
      Runs step (.call r next) s (⟨r, answer⟩ :: log) a s'

theorem runs_done_iff {a b : α} : (done a : Program τ α).Runs step s log b s' ↔
    log = [] ∧ b = a ∧ s' = s := by
  constructor
  · rintro ⟨⟩
    exact ⟨rfl, rfl, rfl⟩
  · rintro ⟨rfl, rfl, rfl⟩
    exact .done b s'

/-- A call is answered, or interrupted and made again. -/
theorem Runs.ask_cases {r : Request τ} {answer : r.Answer}
    (h : (ask r).Runs step s log answer s') :
    (r.isInterrupted answer = false ∧ step s r answer s' ∧ log = [⟨r, answer⟩]) ∨
      ∃ first s₁ rest, r.isInterrupted first = true ∧ step s r first s₁ ∧
        (ask r).Runs step s₁ rest answer s' ∧ log = ⟨r, first⟩ :: rest := by
  rw [ask] at h
  cases h with
  | call first hs hr h =>
    obtain ⟨rfl, rfl, rfl⟩ := runs_done_iff.1 h
    exact .inl ⟨hr, hs, rfl⟩
  | again first hs hr h => exact .inr ⟨first, _, _, hr, hs, h, rfl⟩

/-- A call that is made only once. -/
theorem Runs.ask_once {r : Request τ} {answer : r.Answer} (h : (ask r).Runs step s log answer s')
    (hr : ∀ answer, r.isInterrupted answer = true → (⟨r, answer⟩ : Exchange τ) ∉ log) :
    step s r answer s' ∧ log = [⟨r, answer⟩] := by
  rcases h.ask_cases with ⟨-, hs, rfl⟩ | ⟨first, _, rest, hfirst, -, -, rfl⟩
  · exact ⟨hs, rfl⟩
  · exact absurd List.mem_cons_self (hr first hfirst)

/-- The transcript of a call has the repetitions that `Retry.untilUninterrupted` makes, and the
program goes on with what this answers. -/
theorem Runs.untilUninterrupted_eq {r : Request τ} {view : r.Answer → Except Errno α}
    (hview : ∀ answer, r.isInterrupted answer = Errno.isInterruption (view answer)) (beyond : α)
    {answer : r.Answer} (h : (ask r).Runs step s log answer s') :
    ∃ answers : List r.Answer, log = answers.map (⟨r, ·⟩) ∧
      Retry.untilUninterrupted beyond (answers.map view) = ⟨view answer, log.length⟩ := by
  induction log generalizing s with
  | nil => cases h
  | cons x log ih =>
    rcases h.ask_cases with ⟨hr, -, hlog⟩ | ⟨first, s₁, rest, hr, -, hrest, hlog⟩
    · rw [hview, ← Bool.not_eq_true, Errno.isInterruption_iff] at hr
      refine ⟨[answer], hlog, ?_⟩
      rw [hlog, List.map_singleton, Retry.untilUninterrupted]
      · rfl
      · exact hr
    · obtain ⟨rfl, rfl⟩ := List.cons.inj hlog
      obtain ⟨answers, rfl, hanswer⟩ := ih hrest
      rw [hview, Errno.isInterruption_iff] at hr
      refine ⟨first :: answers, rfl, ?_⟩
      rw [List.map_cons, hr, Retry.untilUninterrupted, hanswer]
      rfl

/-- One program after the other. -/
theorem runs_bind_iff {p : Program τ α} {f : α → Program τ β} {b : β} :
    (p >>= f).Runs step s log b s' ↔
      ∃ a first s₁ rest, p.Runs step s first a s₁ ∧ (f a).Runs step s₁ rest b s' ∧
        log = first ++ rest := by
  induction p generalizing s log with
  | done a =>
    simp only [done_bind, runs_done_iff]
    constructor
    · exact fun h => ⟨a, [], s, log, ⟨rfl, rfl, rfl⟩, h, rfl⟩
    · rintro ⟨_, _, _, rest, ⟨rfl, rfl, rfl⟩, h, rfl⟩
      exact h
  | call r next ih =>
    constructor
    · -- The call may be made any number of times, so the induction goes along the transcript.
      intro h
      induction log generalizing s with
      | nil => cases h
      | cons x log ihlog =>
        cases h with
        | call answer hs hr h =>
          obtain ⟨a, first, s₁, rest, hp, hf, rfl⟩ := (ih answer).1 h
          exact ⟨a, _, s₁, rest, .call answer hs hr hp, hf, rfl⟩
        | again answer hs hr h =>
          obtain ⟨a, first, s₁, rest, hp, hf, rfl⟩ := ihlog h
          exact ⟨a, _, s₁, rest, .again answer hs hr hp, hf, rfl⟩
    · rintro ⟨a, first, s₁, rest, hp, hf, rfl⟩
      induction first generalizing s with
      | nil => cases hp
      | cons x first ihfirst =>
        cases hp with
        | call answer hs hr hp => exact .call answer hs hr ((ih answer).2 ⟨a, _, _, _, hp, hf, rfl⟩)
        | again answer hs hr hp => exact .again answer hs hr (ihfirst hp)

theorem Runs.mono {p : Program τ α} {a : α} (h : p.Runs step s log a s')
    (hstep : ∀ s r answer s', step s r answer s' → step' s r answer s') :
    p.Runs step' s log a s' := by
  induction h with
  | done a s => exact .done a s
  | call answer hs hr _ ih => exact .call answer (hstep _ _ _ _ hs) hr ih
  | again answer hs hr _ ih => exact .again answer (hstep _ _ _ _ hs) hr ih

/-- Interruptions left out, a run is one of the ways in which the program may end. -/
theorem Runs.exists_yields {p : Program τ α} {a : α} (h : p.Runs step s log a s') :
    ∃ pids, p.Yields pids a := by
  induction h with
  | done a s => exact ⟨[], .done a⟩
  | call answer _ _ _ ih =>
    obtain ⟨pids, hpids⟩ := ih
    exact ⟨_, .call answer hpids⟩
  | again _ _ _ _ ih => exact ih

/-- If every call is answered in every state, each program has an end. -/
theorem exists_runs {R : Request τ → Prop} {p : Program τ α} (h : p.Makes R)
    (hstep : ∀ s r, R r → ∃ answer s', step s r answer s' ∧ r.isInterrupted answer = false)
    (s : σ) : ∃ log a s', p.Runs step s log a s' := by
  induction p generalizing s with
  | done a => exact ⟨[], a, s, .done a s⟩
  | call r next ih =>
    obtain ⟨answer, s₁, hs, hr⟩ := hstep s r h.1
    obtain ⟨log, a, s', hnext⟩ := ih answer (h.next answer) s₁
    exact ⟨_, a, s', .call answer hs hr hnext⟩

end Program

end PipelineShell
