/-
A logic for programs.

Who runs a program answers its requests, one after the other, and has a state
that the answers come from and lead to.  `Program.Meets` says what holds in such
a state, whatever is answered: before every request, and when the program is
done.

* `meets_bind` — a sequence of programs meets what its parts meet;
* `Meets.mono` — less may be asked for;
* `Makes` — the calls are all of one kind, whatever is answered.

Design notes: what may be answered is a relation (`step`), so a program that is
given no answer meets everything from there on.  That is right for a process
that ends or executes a file.
-/
import PipelineShell.Launch

namespace PipelineShell

namespace Program

variable {τ α β σ : Type} {step : σ → (r : Request τ) → r.Answer → σ → Prop}
  {P P' : σ → Request τ → Prop} {Q Q' : σ → α → Prop} {s : σ}

/-- `P` holds before every request and `Q` at the end, whatever is answered. -/
def Meets (step : σ → (r : Request τ) → r.Answer → σ → Prop) (P : σ → Request τ → Prop)
    (Q : σ → α → Prop) : Program τ α → σ → Prop
  | .done a, s => Q s a
  | .call r next, s => P s r ∧ ∀ answer s', step s r answer s' → Meets step P Q (next answer) s'

theorem meets_ask {r : Request τ} {Q : σ → r.Answer → Prop} :
    (ask r).Meets step P Q s ↔ P s r ∧ ∀ answer s', step s r answer s' → Q s' answer := Iff.rfl

/-- Nothing comes after the end of a process. -/
theorem meets_exit {code : Nat} :
    (exit code : Program τ α).Meets step P Q s ↔ P s (.exit code) :=
  and_iff_left fun answer => Empty.elim answer

theorem meets_bind {Q : σ → β → Prop} (p : Program τ α) (f : α → Program τ β) :
    (p >>= f).Meets step P Q s ↔ p.Meets step P (fun s a => (f a).Meets step P Q s) s := by
  induction p generalizing s with
  | done a => rfl
  | call r next ih =>
    refine and_congr_right fun _ => forall_congr' fun answer => forall_congr' fun s' => ?_
    exact imp_congr_right fun _ => ih answer

theorem Meets.mono {p : Program τ α} (h : p.Meets step P Q s) (hP : ∀ s r, P s r → P' s r)
    (hQ : ∀ s a, Q s a → Q' s a) : p.Meets step P' Q' s := by
  induction p generalizing s with
  | done a => exact hQ s a h
  | call r next ih => exact ⟨hP s r h.1, fun answer s' hs => ih answer (h.2 answer s' hs)⟩

/-! ### Calls of one kind -/

variable {R : Request τ → Prop}

/-- Every call that the program makes is of this kind. -/
def Makes (R : Request τ → Prop) (p : Program τ α) : Prop :=
  p.Meets (fun (_ : Unit) _ _ _ => True) (fun _ r => R r) (fun _ _ => True) ()

theorem makes_done (a : α) : (done a : Program τ α).Makes R := trivial

theorem makes_ask {r : Request τ} (h : R r) : (ask r).Makes R :=
  meets_ask.2 ⟨h, fun _ _ _ => trivial⟩

theorem makes_exit {code : Nat} (h : R (.exit code)) : (exit code : Program τ α).Makes R :=
  meets_exit.2 h

theorem Makes.bind {p : Program τ α} {f : α → Program τ β} (h : p.Makes R)
    (hf : ∀ a, (f a).Makes R) : (p >>= f).Makes R :=
  (meets_bind p f).2 (h.mono (fun _ _ h => h) fun _ a _ => hf a)

/-- It makes no others after a call. -/
theorem Makes.next {r : Request τ} {next : r.Answer → Program τ α} (h : (call r next).Makes R)
    (answer : r.Answer) : (next answer).Makes R := h.2 answer () trivial

theorem makes_writeAll {fd : Descriptor} (h : ∀ data, R (.write fd data)) (data : Bytes) :
    (writeAll fd data).Makes R := by
  have hgo : ∀ fuel data, (writeAll.go fd fuel data).Makes R := by
    intro fuel
    induction fuel with
    | zero => exact fun data => makes_done _
    | succ fuel ih =>
      intro data
      rw [writeAll.go]
      split
      · exact makes_done _
      · refine (makes_ask (h data)).bind fun answer => ?_
        cases answer with
        | error e => exact makes_done _
        | ok n => exact ih _
  exact hgo _ _

theorem makes_report (h : ∀ data, R (.write .error data)) (name : String) (e : Errno) :
    (report name e).Makes R :=
  (makes_writeAll h _).bind fun _ => makes_done _

section pipes

variable (hclose : ∀ fd, R (.close fd))
include hclose

theorem makes_closePipes : ∀ pipes : List Pipe, (closePipes pipes).Makes R
  | [] => makes_done _
  | (readEnd, writeEnd) :: pipes => by
    rw [closePipes]
    refine (makes_ask (hclose readEnd)).bind fun _ => ?_
    exact (makes_ask (hclose writeEnd)).bind fun _ => makes_closePipes pipes

theorem makes_createPipes (hpipe : R .pipe) :
    ∀ (count : Nat) (made : List Pipe), (createPipes count made).Makes R
  | 0, made => makes_done _
  | count + 1, made => by
    rw [createPipes]
    refine (makes_ask hpipe).bind fun answer => ?_
    cases answer with
    | ok pipe => exact makes_createPipes hpipe count _
    | error e => exact (makes_closePipes hclose made).bind fun _ => makes_done _

end pipes

end Program

/-! ### The calls of a launch -/

section launch

open Program

variable {τ : Type} {R : Request τ → Prop} {enter : Stage → τ} {terminal : Option Descriptor}
  (hgroup : ∀ child group, R (.setGroup child group))
include hgroup

theorem Plan.makes_forkStages {plan : Plan} {pipes : List Pipe}
    (hfork : ∀ group i arguments, R (.fork (enter (plan.stage terminal pipes group i arguments)))) :
    ∀ (stages : List (List String)) (spawned : List Pid),
      (plan.forkStages enter terminal pipes stages spawned).Makes R
  | [], spawned => makes_done _
  | arguments :: rest, spawned => by
    rw [forkStages]
    refine (makes_ask (hfork _ _ _)).bind fun answer => ?_
    cases answer with
    | error e => exact makes_done _
    | ok child =>
      exact (makes_ask (hgroup child _)).bind fun _ => makes_forkStages hfork rest _

theorem CommandLine.makes_launch {line : CommandLine} (hpipe : R .pipe)
    (hclose : ∀ fd, R (.close fd))
    (hfork : ∀ {plan}, Plan.ofCommandLine line = .ok plan → ∀ pipes group i arguments,
      R (.fork (enter (plan.stage terminal pipes group i arguments)))) :
    (line.launch enter terminal).Makes R := by
  rw [launch]
  cases hplan : Plan.ofCommandLine line with
  | error e => exact makes_done _
  | ok plan =>
    refine (makes_createPipes hclose hpipe _ _).bind fun made => ?_
    cases made with
    | error e => exact makes_done _
    | ok pipes =>
      refine (Plan.makes_forkStages hgroup (hfork hplan pipes) _ _).bind fun result => ?_
      exact (makes_closePipes hclose pipes).bind fun _ => makes_done _

end launch

end PipelineShell
