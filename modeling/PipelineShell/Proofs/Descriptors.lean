/-
What a process has on its descriptors.

A descriptor leads to what the shell had there before, to an end of a pipe, or
to a file that has been opened since.  `Holder.Answers` says what a call may be
answered and where the descriptors lead to afterwards; it is all that is
assumed of the system.  From it every call has a rule of its own, and the
programs that a launch consists of have theirs.

* `Piped` — these pipes have been made, and nothing else has changed;
* `meets_createPipes`, `meets_closePipes` — making pipes and closing them;
* `meets_duplicate_orExit`, `meets_openOn_orExit` — putting the end of a pipe,
  or a file, in its place;
* `Quiet` — programs that leave the descriptors alone.

Design notes: an end of a pipe is what came back when the pipe was made.  A
file that is opened is something else, even under a name such as `/dev/stdin`.
Ends are numbered in the order in which the pipes are made, so two pipes never
get mixed up, whichever descriptors they are on.
-/
import Mathlib.Logic.Function.Basic
import PipelineShell.Launch
import PipelineShell.Proofs.ProgramLogic

namespace PipelineShell

/-! ### Answers -/

/-- Where a descriptor leads to. -/
inductive Source where
  /-- What the shell had on this descriptor at the beginning. -/
  | inherited (fd : Descriptor)
  | readEnd (pipe : Nat)
  | writeEnd (pipe : Nat)
  /-- The file that was opened under this path. -/
  | named (path : String) (mode : OpenMode)
deriving DecidableEq, Repr

abbrev Holdings := Descriptor → Option Source

/-- A process, as far as its descriptors go. -/
structure Holder where
  holds : Holdings
  /-- How many pipes have been made. -/
  pipes : Nat := 0
  /-- How many processes it has forked. -/
  forks : Nat := 0
  /-- It has prepared everything and asked for its command to be executed. -/
  ready : Bool := false
  /-- It has been refused a descriptor or a process. -/
  refused : Bool := false

namespace Holder

/-- The process with this on its descriptors. -/
def having (s : Holder) (holds : Holdings) : Holder := { s with holds }

@[simp] theorem holds_having (s : Holder) (holds : Holdings) : (s.having holds).holds = holds := rfl

@[simp] theorem having_having (s : Holder) (holds holds' : Holdings) :
    (s.having holds).having holds' = s.having holds' := rfl

end Holder

/-- The request leaves the descriptors alone, starts no process and comes back. -/
def Request.isQuiet {τ : Type} : Request τ → Bool
  | .open _ _ => false
  | .close _ => false
  | .duplicate _ _ => false
  | .duplicateAbove _ _ => false
  | .pipe => false
  | .fork _ => false
  | .executeCommand _ _ => false
  | .exit _ => false
  | _ => true

/-- The request neither starts a process, nor executes a command, nor ends the process. -/
def Request.isPlain {τ : Type} : Request τ → Bool
  | .fork _ => false
  | .executeCommand _ _ => false
  | .exit _ => false
  | _ => true

theorem Request.isPlain_of_isQuiet {τ : Type} {r : Request τ} (h : r.isQuiet = true) :
    r.isPlain = true := by
  cases r <;> first | rfl | exact h

namespace Holder

variable {τ : Type} {s s' : Holder}

/-- What may be answered, and the process afterwards.  A new descriptor is one that was not in
use. -/
inductive Answers (s : Holder) : (r : Request τ) → r.Answer → Holder → Prop
  | quiet {r : Request τ} (h : r.isQuiet = true) (answer : r.Answer) : Answers s r answer s
  | pipe {readFd writeFd : Descriptor} (unusedRead : s.holds readFd = none)
      (unusedWrite : s.holds writeFd = none) (distinct : readFd ≠ writeFd) :
      Answers s .pipe (.ok (readFd, writeFd))
        { s.having (Function.update (Function.update s.holds readFd (some (.readEnd s.pipes)))
            writeFd (some (.writeEnd s.pipes))) with pipes := s.pipes + 1 }
  | pipeFailed (e : Errno) : Answers s .pipe (.error e) { s with refused := true }
  | fork {child : τ} {pid : Pid} : Answers s (.fork child) (.ok pid) { s with forks := s.forks + 1 }
  | forkFailed {child : τ} (e : Errno) :
      Answers s (.fork child) (.error e) { s with refused := true }
  | duplicate {source target : Descriptor} (used : s.holds source ≠ none) :
      Answers s (.duplicate source target) (.ok ())
        (s.having (Function.update s.holds target (s.holds source)))
  | duplicateFailed {source target : Descriptor} (e : Errno) :
      Answers s (.duplicate source target) (.error e) { s with refused := true }
  | duplicateAbove {source least fd : Descriptor} (used : s.holds source ≠ none)
      (above : least ≤ fd) (unused : s.holds fd = none) :
      Answers s (.duplicateAbove source least) (.ok fd)
        (s.having (Function.update s.holds fd (s.holds source)))
  | duplicateAboveFailed {source least : Descriptor} (e : Errno) :
      Answers s (.duplicateAbove source least) (.error e) { s with refused := true }
  | open {path : String} {mode : OpenMode} {fd : Descriptor} (unused : s.holds fd = none) :
      Answers s (.open path mode) (.ok fd)
        (s.having (Function.update s.holds fd (some (.named path mode))))
  | openFailed {path : String} {mode : OpenMode} (e : Errno) :
      Answers s (.open path mode) (.error e) { s with refused := true }
  | close {fd : Descriptor} (answer : Except Errno Unit) :
      Answers s (.close fd) answer (s.having (Function.update s.holds fd none))
  | executeCommand {name : String} {arguments : List String} (e : Errno) :
      Answers s (.executeCommand name arguments) e { s with ready := true }

theorem Answers.eq_of_isQuiet {r : Request τ} {answer : r.Answer} (h : s.Answers r answer s')
    (hr : r.isQuiet = true) : s' = s := by
  cases h with
  | quiet _ _ => rfl
  | _ => cases hr

/-- A process that prepares itself starts no other one, does not execute its command yet, and ends
only if it has been refused something. -/
def Prepares (s : Holder) (r : Request τ) : Prop :=
  (∀ child, r ≠ .fork child) ∧ (∀ name arguments, r ≠ .executeCommand name arguments) ∧
    ∀ code, r = .exit code → s.refused = true

theorem prepares_of_isPlain {r : Request τ} (h : r.isPlain = true) : s.Prepares r := by
  refine ⟨?_, ?_, ?_⟩
  · rintro child rfl
    cases h
  · rintro name arguments rfl
    cases h
  · rintro code rfl
    cases h

theorem prepares_of_isQuiet {r : Request τ} (h : r.isQuiet = true) : s.Prepares r :=
  prepares_of_isPlain (Request.isPlain_of_isQuiet h)

theorem prepares_exit (h : s.refused = true) (code : Nat) :
    s.Prepares (.exit code : Request τ) :=
  ⟨fun _ h => (by cases h), fun _ _ h => (by cases h), fun _ _ => h⟩

end Holder

/-! ### The rules for calls -/

namespace Program

variable {τ α : Type} {s : Holder} {P : Holder → Request τ → Prop}

theorem meets_ask_of_isQuiet {r : Request τ} {Q : Holder → r.Answer → Prop} (h : r.isQuiet = true)
    (hP : P s r) (hQ : ∀ answer, Q s answer) : (ask r).Meets Holder.Answers P Q s := by
  refine meets_ask.2 ⟨hP, fun answer s' hs => ?_⟩
  rw [hs.eq_of_isQuiet h]
  exact hQ answer

theorem meets_close {fd : Descriptor} {Q : Holder → Except Errno Unit → Prop} (hP : P s (.close fd))
    (hQ : ∀ answer, Q (s.having (Function.update s.holds fd none)) answer) :
    (ask (.close fd)).Meets Holder.Answers P Q s := by
  refine meets_ask.2 ⟨hP, fun answer s' hs => ?_⟩
  cases hs with
  | quiet h => cases h
  | close => exact hQ answer

theorem meets_pipe {Q : Holder → Except Errno Pipe → Prop} (hP : P s .pipe)
    (herr : ∀ e, Q { s with refused := true } (.error e))
    (hok : ∀ readFd writeFd, s.holds readFd = none → s.holds writeFd = none → readFd ≠ writeFd →
      Q { s.having (Function.update (Function.update s.holds readFd (some (.readEnd s.pipes)))
            writeFd (some (.writeEnd s.pipes))) with pipes := s.pipes + 1 }
        (.ok (readFd, writeFd))) :
    (ask .pipe).Meets Holder.Answers P Q s := by
  refine meets_ask.2 ⟨hP, fun answer s' hs => ?_⟩
  cases hs with
  | quiet h => cases h
  | pipe unusedRead unusedWrite distinct => exact hok _ _ unusedRead unusedWrite distinct
  | pipeFailed e => exact herr e

theorem meets_fork {child : τ} {Q : Holder → Except Errno Pid → Prop} (hP : P s (.fork child))
    (herr : ∀ e, Q { s with refused := true } (.error e))
    (hok : ∀ pid, Q { s with forks := s.forks + 1 } (.ok pid)) :
    (ask (.fork child)).Meets Holder.Answers P Q s := by
  refine meets_ask.2 ⟨hP, fun answer s' hs => ?_⟩
  cases hs with
  | quiet h => cases h
  | fork => exact hok _
  | forkFailed e => exact herr e

theorem meets_duplicate {source target : Descriptor} {Q : Holder → Except Errno Unit → Prop}
    (hP : P s (.duplicate source target)) (herr : ∀ e, Q { s with refused := true } (.error e))
    (hok : Q (s.having (Function.update s.holds target (s.holds source))) (.ok ())) :
    (ask (.duplicate source target)).Meets Holder.Answers P Q s := by
  refine meets_ask.2 ⟨hP, fun answer s' hs => ?_⟩
  cases hs with
  | quiet h => cases h
  | duplicate _ => exact hok
  | duplicateFailed e => exact herr e

theorem meets_open {path : String} {mode : OpenMode} {Q : Holder → Except Errno Descriptor → Prop}
    (hP : P s (.open path mode)) (herr : ∀ e, Q { s with refused := true } (.error e))
    (hok : ∀ fd, s.holds fd = none →
      Q (s.having (Function.update s.holds fd (some (.named path mode)))) (.ok fd)) :
    (ask (.open path mode)).Meets Holder.Answers P Q s := by
  refine meets_ask.2 ⟨hP, fun answer s' hs => ?_⟩
  cases hs with
  | quiet h => cases h
  | «open» unused => exact hok _ unused
  | openFailed e => exact herr e

/-- If the call comes back, the command has not been executed, and the descriptors are what they
were. -/
theorem meets_executeCommand {name : String} {arguments : List String} {Q : Holder → Errno → Prop}
    (hP : P s (.executeCommand name arguments)) (hQ : ∀ e, Q { s with ready := true } e) :
    (ask (.executeCommand name arguments)).Meets Holder.Answers P Q s := by
  refine meets_ask.2 ⟨hP, fun answer s' hs => ?_⟩
  cases hs with
  | quiet h => cases h
  | executeCommand => exact hQ answer

/-! ### Programs that leave the descriptors alone -/

def Quiet (p : Program τ α) : Prop :=
  p.Meets (fun (_ : Unit) _ _ _ => True) (fun _ r => r.isQuiet = true) (fun _ _ => True) ()

theorem Quiet.meets {p : Program τ α} (h : p.Quiet) {Q : Holder → α → Prop}
    (hP : ∀ {r}, r.isQuiet = true → P s r) (hQ : ∀ a, Q s a) : p.Meets Holder.Answers P Q s := by
  induction p with
  | done a => exact hQ a
  | call r next ih =>
    refine ⟨hP h.1, fun answer s' hs => ?_⟩
    rw [hs.eq_of_isQuiet h.1]
    exact ih answer (h.2 answer () trivial)

theorem quiet_ask {r : Request τ} (h : r.isQuiet = true) : (ask r).Quiet := makes_ask h

theorem Quiet.bind {β : Type} {p : Program τ α} {f : α → Program τ β} (h : p.Quiet)
    (hf : ∀ a, (f a).Quiet) : (p >>= f).Quiet := Makes.bind h hf

theorem quiet_report (name : String) (e : Errno) : (report name e : Program τ Unit).Quiet :=
  makes_report (fun _ => rfl) name e

end Program

/-! ### Pipes -/

/-- The descriptors of all ends. -/
def Pipe.descriptors (pipes : List Pipe) : List Descriptor :=
  pipes.flatMap fun pipe => [pipe.1, pipe.2]

namespace Holdings

/-- Nothing is left on some descriptors. -/
def without (holds : Holdings) (fds : List Descriptor) : Holdings :=
  fun fd => if fd ∈ fds then none else holds fd

theorem without_nil (holds : Holdings) : holds.without [] = holds := by
  funext fd
  exact if_neg List.not_mem_nil

/-- One descriptor after the other. -/
theorem without_cons (holds : Holdings) (fd : Descriptor) (fds : List Descriptor) :
    without (Function.update holds fd none) fds = holds.without (fd :: fds) := by
  funext other
  by_cases h : other = fd
  · simp [without, h]
  · simp [without, h]

theorem without_update (holds : Holdings) {fd : Descriptor} {fds : List Descriptor} (h : fd ∉ fds)
    (source : Option Source) :
    without (Function.update holds fd source) fds =
      Function.update (holds.without fds) fd source := by
  funext other
  by_cases ho : other = fd
  · simp [without, ho, h]
  · simp [without, ho]

end Holdings

/-- These pipes have been made on descriptors that were not in use, and nothing else has
changed. -/
structure Piped (before : Holdings) (pipes : List Pipe) (holds : Holdings) : Prop where
  ends : ∀ {k : Nat} {pipe : Pipe}, pipes[k]? = some pipe →
    holds pipe.1 = some (.readEnd k) ∧ holds pipe.2 = some (.writeEnd k)
  unused : ∀ fd ∈ Pipe.descriptors pipes, before fd = none
  others : ∀ fd, fd ∉ Pipe.descriptors pipes → holds fd = before fd

namespace Piped

variable {before holds : Holdings} {pipes : List Pipe}

theorem nil (before : Holdings) : Piped before [] before where
  ends h := by cases h
  unused fd h := by cases h
  others fd _ := rfl

/-- What was in use before is no end. -/
theorem not_mem (h : Piped before pipes holds) {fd : Descriptor} (hfd : before fd ≠ none) :
    fd ∉ Pipe.descriptors pipes := fun hmem => hfd (h.unused fd hmem)

/-- What is not in use now was not in use before. -/
theorem before_eq_none (h : Piped before pipes holds) {fd : Descriptor} (hfd : holds fd = none) :
    before fd = none := by
  by_cases hmem : fd ∈ Pipe.descriptors pipes
  · exact h.unused fd hmem
  · rw [← h.others fd hmem, hfd]

/-- One more pipe. -/
theorem append (h : Piped before pipes holds) {readFd writeFd : Descriptor}
    (unusedRead : holds readFd = none) (unusedWrite : holds writeFd = none)
    (distinct : readFd ≠ writeFd) :
    Piped before (pipes ++ [(readFd, writeFd)])
      (Function.update (Function.update holds readFd (some (.readEnd pipes.length)))
        writeFd (some (.writeEnd pipes.length))) := by
  have hold : ∀ {fd}, fd ≠ readFd → fd ≠ writeFd → Function.update (Function.update holds readFd
      (some (.readEnd pipes.length))) writeFd (some (.writeEnd pipes.length)) fd = holds fd := by
    intro fd hread hwrite
    rw [Function.update_of_ne hwrite, Function.update_of_ne hread]
  -- An end from before is on a descriptor in use, so it is on none of the new ones.
  have hused : ∀ {fd source}, holds fd = some source → Function.update (Function.update holds readFd
      (some (.readEnd pipes.length))) writeFd (some (.writeEnd pipes.length)) fd = some source := by
    intro fd source hfd
    rw [hold, hfd]
    · rintro rfl
      cases unusedRead.symm.trans hfd
    · rintro rfl
      cases unusedWrite.symm.trans hfd
  have hmem : ∀ fd, fd ∈ Pipe.descriptors (pipes ++ [(readFd, writeFd)]) ↔
      fd ∈ Pipe.descriptors pipes ∨ fd = readFd ∨ fd = writeFd := by
    intro fd
    simp [Pipe.descriptors]
  constructor
  case ends =>
    intro k pipe hk
    rw [List.getElem?_append] at hk
    split at hk
    · obtain ⟨hread, hwrite⟩ := h.ends hk
      exact ⟨hused hread, hused hwrite⟩
    · rw [List.getElem?_singleton] at hk
      split at hk
      · cases hk
        obtain rfl : k = pipes.length := by omega
        rw [Function.update_of_ne distinct, Function.update_self, Function.update_self]
        exact ⟨rfl, rfl⟩
      · cases hk
  case unused =>
    intro fd hfd
    rcases (hmem fd).1 hfd with hfd | rfl | rfl
    · exact h.unused fd hfd
    · exact h.before_eq_none unusedRead
    · exact h.before_eq_none unusedWrite
  case others =>
    intro fd hfd
    rw [hmem, not_or, not_or] at hfd
    rw [hold hfd.2.1 hfd.2.2, h.others fd hfd.1]

/-- Without its ends nothing is left of the pipes. -/
theorem without (h : Piped before pipes holds) :
    holds.without (Pipe.descriptors pipes) = before := by
  funext fd
  rw [Holdings.without]
  split
  · next hmem => exact (h.unused fd hmem).symm
  · next hmem => exact h.others fd hmem

end Piped

namespace Program

variable {τ α : Type} {s : Holder} {P : Holder → Request τ → Prop}

theorem meets_closePipes {Q : Holder → Unit → Prop} {pipes : List Pipe}
    (hP : ∀ holds fd, P (s.having holds) (.close fd))
    (hQ : Q (s.having (s.holds.without (Pipe.descriptors pipes))) ()) :
    (closePipes pipes).Meets Holder.Answers P Q s := by
  induction pipes generalizing s with
  | nil =>
    rw [Pipe.descriptors, List.flatMap_nil, Holdings.without_nil] at hQ
    exact hQ
  | cons pipe pipes ih =>
    obtain ⟨readFd, writeFd⟩ := pipe
    rw [closePipes]
    refine (meets_bind _ _).2 (meets_close (hP _ _) fun _ => ?_)
    refine (meets_bind _ _).2 (meets_close (hP _ _) fun _ => ?_)
    refine ih (fun holds fd => hP holds fd) ?_
    simp only [Holder.holds_having, Holder.having_having, Holdings.without_cons]
    exact hQ

theorem meets_createPipes {before : Holdings} {Q : Holder → Except Errno (List Pipe) → Prop}
    (hP : ∀ {s r}, r.isPlain = true → P s r)
    (herr : ∀ {s e}, s.holds = before → s.refused = true → Q s (.error e))
    {count : Nat} {made : List Pipe} (hm : Piped before made s.holds) (hn : s.pipes = made.length)
    (hok : ∀ {s' pipes}, Piped before pipes s'.holds → pipes.length = made.length + count →
      s'.forks = s.forks → Q s' (.ok pipes)) :
    (createPipes count made).Meets Holder.Answers P Q s := by
  induction count generalizing s made with
  | zero => exact hok hm rfl rfl
  | succ count ih =>
    rw [createPipes]
    refine (meets_bind _ _).2 (meets_pipe (hP rfl) (fun e => ?_) ?_)
    · exact (meets_bind _ _).2 (meets_closePipes (fun _ _ => hP rfl) (herr hm.without rfl))
    · intro readFd writeFd unusedRead unusedWrite distinct
      refine ih (hn ▸ hm.append unusedRead unusedWrite distinct) ?_ fun hp hlen hforks => ?_
      · rw [hn, List.length_append, List.length_singleton]
      · refine hok hp ?_ hforks
        rw [hlen, List.length_append, List.length_singleton]
        omega

/-! ### Putting something in its place -/

section preparation

variable {Q : Holder → Unit → Prop}
  (hP : ∀ {s' r}, s'.ready = s.ready → s'.Prepares r → P s' r)
include hP

/-- A process that was refused something reports it and ends. -/
theorem meets_orExit_error (holds : Holdings) (name : String) (code : Nat) (e : Errno) :
    (orExit name code (.error e)).Meets Holder.Answers P Q
      { s.having holds with refused := true } := by
  refine (meets_bind _ _).2 ((quiet_report name e).meets ?_ fun _ => meets_exit.2 (hP rfl ?_))
  · exact fun h => hP rfl (Holder.prepares_of_isQuiet h)
  · exact Holder.prepares_exit rfl code

/-- An end of a pipe is put in its place, or the process goes no further. -/
theorem meets_duplicate_orExit {source target : Descriptor} {name : String} {code : Nat}
    (hQ : Q (s.having (Function.update s.holds target (s.holds source))) ()) :
    (ask (.duplicate source target) >>= orExit name code).Meets Holder.Answers P Q s := by
  refine (meets_bind _ _).2 (meets_duplicate ?_ (fun e => ?_) hQ)
  · exact hP rfl (Holder.prepares_of_isPlain rfl)
  · exact meets_orExit_error hP _ name code e

/-- A file is put in its place, or the process goes no further. -/
theorem meets_openOn_orExit {path : String} {target : Descriptor} {mode : OpenMode} {code : Nat}
    (held : s.holds target ≠ none)
    (hQ : Q (s.having (Function.update s.holds target (some (.named path mode)))) ()) :
    (openOn path target mode >>= orExit path code).Meets Holder.Answers P Q s := by
  have hplain : ∀ {s' : Holder} {r : Request τ}, s'.ready = s.ready → r.isPlain = true → P s' r :=
    fun hs hr => hP hs (Holder.prepares_of_isPlain hr)
  rw [openOn]
  refine (meets_bind _ _).2 ((meets_bind _ _).2 (meets_open (hplain rfl rfl)
    (meets_orExit_error hP _ path code) fun fd unused => ?_))
  have hne : fd ≠ target := by
    rintro rfl
    exact held unused
  show Meets _ P _ (if fd = target then .done (.ok ()) else
    ask (.duplicate fd target) >>= fun (result : Except Errno Unit) =>
      ask (.close fd) >>= fun _ => .done result) _
  rw [if_neg hne]
  refine (meets_bind _ _).2 (meets_duplicate (hplain rfl rfl) (fun e => ?_) ?_)
  · refine (meets_bind _ _).2 (meets_close (hplain rfl rfl) fun _ => ?_)
    exact meets_orExit_error hP _ path code e
  · refine (meets_bind _ _).2 (meets_close (hplain rfl rfl) fun _ => ?_)
    -- The descriptor that the file was opened on is free again.
    have hsame : Function.update (Function.update (Function.update s.holds fd
        (some (.named path mode))) target (Function.update s.holds fd (some (.named path mode)) fd))
          fd none = Function.update s.holds target (some (.named path mode)) := by
      funext other
      by_cases h : other = fd
      · rw [h, Function.update_self, Function.update_of_ne hne, unused]
      · rw [Function.update_of_ne h, Function.update_self]
        by_cases ht : other = target
        · rw [ht, Function.update_self, Function.update_self]
        · rw [Function.update_of_ne ht, Function.update_of_ne ht, Function.update_of_ne h]
    exact hsame.symm ▸ hQ

end preparation

end Program

end PipelineShell
