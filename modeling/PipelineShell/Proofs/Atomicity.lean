/-
A launch happens completely, or it tells how far it got, and it leaves no
descriptor behind.

The transcript of a launch shows what has been asked of the system and what came
back.  From it one can tell which pipe could not be made and which process could
not be forked, what the result has to be in that case, and what has become of
the descriptors.

* `Transcript.incidents` — the pipes, forks and closed descriptors of a
  transcript;
* `Plan.runs_launch` — what they are in a launch, for each way it can go;
* `CommandLine.launch_accounts` — so the result tells what has happened, every
  descriptor that was made has been closed once, and the process has on its
  descriptors what it had before.

Design notes: a descriptor that is closed is free afterwards, whatever `close`
is answered, except that nobody can tell after an interrupted one.  So nothing
is said about runs in which that happens.
-/
import Mathlib.Data.List.Nodup
import PipelineShell.Proofs.Transcript
import PipelineShell.Proofs.Wiring

namespace PipelineShell

/-! ### What a transcript shows -/

/-- What happens to pipes, processes and descriptors. -/
inductive Incident (τ : Type) where
  | piped (pipe : Pipe)
  | pipeRefused (e : Errno)
  | forked (child : τ) (answer : Except Errno Pid)
  | closed (fd : Descriptor)

/-- A fork that is interrupted has no effect. -/
def Exchange.incident? {τ : Type} : Exchange τ → Option (Incident τ)
  | ⟨.pipe, .ok pipe⟩ => some (.piped pipe)
  | ⟨.pipe, .error e⟩ => some (.pipeRefused e)
  | ⟨.fork child, answer⟩ =>
    if Errno.isInterruption answer then none else some (.forked child answer)
  | ⟨.close fd, _⟩ => some (.closed fd)
  | _ => none

def Exchange.isInterruptedClose {τ : Type} : Exchange τ → Bool
  | ⟨.close _, answer⟩ => Errno.isInterruption answer
  | _ => false

/-- The calls that an incident can be the trace of. -/
theorem Exchange.incident?_cases {τ : Type} {x : Exchange τ} {i : Incident τ}
    (h : x.incident? = some i) :
    (∃ pipe, x = ⟨.pipe, .ok pipe⟩ ∧ i = .piped pipe) ∨
      (∃ e, x = ⟨.pipe, .error e⟩ ∧ i = .pipeRefused e) ∨
      (∃ child answer, x = ⟨.fork child, answer⟩ ∧ Errno.isInterruption answer = false ∧
        i = .forked child answer) ∨
      ∃ fd answer, x = ⟨.close fd, answer⟩ ∧ i = .closed fd := by
  rw [incident?.eq_def] at h
  split at h
  case h_1 pipe => exact .inl ⟨pipe, rfl, (Option.some.inj h).symm⟩
  case h_2 e => exact .inr (.inl ⟨e, rfl, (Option.some.inj h).symm⟩)
  case h_3 child answer =>
    split at h
    · cases h
    · next hr =>
      refine .inr (.inr (.inl ⟨child, answer, rfl, Bool.eq_false_iff.2 hr, ?_⟩))
      exact (Option.some.inj h).symm
  case h_4 fd answer => exact .inr (.inr (.inr ⟨fd, answer, rfl, (Option.some.inj h).symm⟩))
  case h_5 => cases h

namespace Incident

variable {τ : Type}

def pipe? : Incident τ → Option Pipe
  | .piped pipe => some pipe
  | _ => none

def refusal? : Incident τ → Option Errno
  | .pipeRefused e => some e
  | _ => none

def fork? : Incident τ → Option (τ × Except Errno Pid)
  | .forked child answer => some (child, answer)
  | _ => none

def descriptor? : Incident τ → Option Descriptor
  | .closed fd => some fd
  | _ => none

def ofFork (fork : τ × Except Errno Pid) : Incident τ := .forked fork.1 fork.2

theorem filterMap_fork?_ofFork (forks : List (τ × Except Errno Pid)) :
    (forks.map ofFork).filterMap fork? = forks := by
  rw [List.filterMap_map]
  exact List.filterMap_some

theorem filterMap_ofFork {α : Type} {f : Incident τ → Option α}
    (h : ∀ child answer, f (.forked child answer) = none) (forks : List (τ × Except Errno Pid)) :
    (forks.map ofFork).filterMap f = [] :=
  List.filterMap_eq_nil_iff.2 fun i hi => by
    obtain ⟨fork, -, rfl⟩ := List.mem_map.1 hi
    exact h _ _

end Incident

namespace Transcript

variable {τ : Type}

def incidents (log : Transcript τ) : List (Incident τ) := log.filterMap Exchange.incident?

/-- The pipes that have been made, in order. -/
def pipes (log : Transcript τ) : List Pipe := log.incidents.filterMap Incident.pipe?

/-- Why pipes have been refused. -/
def refusals (log : Transcript τ) : List Errno := log.incidents.filterMap Incident.refusal?

/-- The processes that were to be forked, in order, and the answers. -/
def forks (log : Transcript τ) : List (τ × Except Errno Pid) :=
  log.incidents.filterMap Incident.fork?

/-- The descriptors that have been closed, each as often as it was closed. -/
def closed (log : Transcript τ) : List Descriptor := log.incidents.filterMap Incident.descriptor?

/-- No `close` has been interrupted. -/
def ClosesAtOnce (log : Transcript τ) : Prop := log.all (!·.isInterruptedClose) = true

theorem incidents_append (log log' : Transcript τ) :
    incidents (log ++ log') = log.incidents ++ log'.incidents := List.filterMap_append

theorem mem_refusals {log : Transcript τ} {e : Errno} :
    e ∈ log.refusals ↔ ⟨.pipe, .error e⟩ ∈ log := by
  rw [refusals, incidents, List.filterMap_filterMap, List.mem_filterMap]
  refine ⟨?_, fun h => ⟨_, h, rfl⟩⟩
  rintro ⟨x, hx, he⟩
  obtain ⟨i, hi, he⟩ := Option.bind_eq_some_iff.1 he
  rcases Exchange.incident?_cases hi with
    ⟨_, rfl, rfl⟩ | ⟨_, rfl, rfl⟩ | ⟨_, _, rfl, -, rfl⟩ | ⟨_, _, rfl, rfl⟩ <;> cases he
  exact hx

theorem mem_forks {log : Transcript τ} {child : τ} {answer : Except Errno Pid} :
    (child, answer) ∈ log.forks ↔
      ⟨.fork child, answer⟩ ∈ log ∧ Errno.isInterruption answer = false := by
  rw [forks, incidents, List.filterMap_filterMap, List.mem_filterMap]
  constructor
  · rintro ⟨x, hx, he⟩
    obtain ⟨i, hi, he⟩ := Option.bind_eq_some_iff.1 he
    rcases Exchange.incident?_cases hi with
      ⟨_, rfl, rfl⟩ | ⟨_, rfl, rfl⟩ | ⟨_, _, rfl, hr, rfl⟩ | ⟨_, _, rfl, rfl⟩ <;> cases he
    exact ⟨hx, hr⟩
  · rintro ⟨h, hr⟩
    exact ⟨_, h, by simp [Exchange.incident?, hr, Incident.fork?]⟩

theorem closesAtOnce_append {log log' : Transcript τ} :
    ClosesAtOnce (log ++ log') ↔ log.ClosesAtOnce ∧ log'.ClosesAtOnce := by
  rw [ClosesAtOnce, List.all_append, Bool.and_eq_true, ClosesAtOnce, ClosesAtOnce]

end Transcript

open Transcript

/-- Ends of pipes are on descriptors of their own. -/
theorem Piped.nodup {before holds : Holdings} {pipes : List Pipe} (h : Piped before pipes holds) :
    (Pipe.descriptors pipes).Nodup := by
  refine List.nodup_flatMap.2 ⟨fun pipe hmem => ?_, List.pairwise_iff_getElem.2 ?_⟩
  · obtain ⟨k, hk⟩ := List.getElem?_of_mem hmem
    obtain ⟨hread, hwrite⟩ := h.ends hk
    have hne : pipe.1 ≠ pipe.2 := fun he => by simp [he, hwrite] at hread
    simp [hne]
  · intro i j hi hj hij fd hfd hfd'
    obtain ⟨hread, hwrite⟩ := h.ends (List.getElem?_eq_getElem hi)
    obtain ⟨hread', hwrite'⟩ := h.ends (List.getElem?_eq_getElem hj)
    -- One descriptor leads to one end only.
    have hsource : ∀ {k : Nat} {pipe : Pipe}, holds pipe.1 = some (.readEnd k) →
        holds pipe.2 = some (.writeEnd k) → fd ∈ [pipe.1, pipe.2] →
          holds fd = some (.readEnd k) ∨ holds fd = some (.writeEnd k) := by
      intro k pipe hr hw hmem
      rcases List.mem_pair.1 hmem with rfl | rfl
      · exact .inl hr
      · exact .inr hw
    rcases hsource hread hwrite hfd with h₁ | h₁ <;>
      rcases hsource hread' hwrite' hfd' with h₂ | h₂ <;> simp [h₁] at h₂ <;> omega

/-! ### The calls of a launch -/

namespace Program

variable {τ : Type} {s s' : Holder} {log : Transcript τ}

theorem runs_close {fd : Descriptor} {answer : Except Errno Unit}
    (h : (ask (.close fd) : Program τ _).Runs Holder.Answers s log answer s')
    (hclose : log.ClosesAtOnce) :
    log.incidents = [.closed fd] ∧ s' = s.having (Function.update s.holds fd none) := by
  have honce : ∀ answer : Except Errno Unit, Errno.isInterruption answer = true →
      (⟨.close fd, answer⟩ : Exchange τ) ∉ log := by
    intro answer hr hmem
    have hfalse : (!Errno.isInterruption answer) = true := List.all_eq_true.1 hclose _ hmem
    rw [hr] at hfalse
    cases hfalse
  obtain ⟨hs, hlog⟩ := h.ask_once honce
  refine ⟨by rw [hlog]; rfl, ?_⟩
  cases hs with
  | quiet hq => cases hq
  | close => rfl

theorem runs_pipe {answer : Except Errno Pipe}
    (h : (ask .pipe : Program τ _).Runs Holder.Answers s log answer s') :
    log = [⟨.pipe, answer⟩] ∧ Holder.Answers (τ := τ) s .pipe answer s' :=
  (h.ask_once fun _ hr => by cases hr).symm

/-- However often it is interrupted. -/
theorem runs_fork {child : τ} {answer : Except Errno Pid}
    (h : (ask (.fork child)).Runs Holder.Answers s log answer s') :
    log.incidents = [.forked child answer] ∧ s'.holds = s.holds := by
  have hholds : ∀ {s s' : Holder} {answer}, s.Answers (.fork child) answer s' →
      s'.holds = s.holds := by
    intro s s' answer hs
    cases hs with
    | quiet h => cases h
    | _ => rfl
  induction log generalizing s with
  | nil => rcases h.ask_cases with ⟨-, -, h⟩ | ⟨_, _, _, -, -, -, h⟩ <;> cases h
  | cons x log ih =>
    rcases h.ask_cases with ⟨hr, hs, heq⟩ | ⟨first, s₁, rest, hr, hs, hrest, heq⟩
    · cases heq
      replace hr : Errno.isInterruption answer = false := hr
      exact ⟨by simp [incidents, Exchange.incident?, hr], hholds hs⟩
    · cases heq
      replace hr : Errno.isInterruption first = true := hr
      obtain ⟨hinc, hsame⟩ := ih hrest
      refine ⟨?_, hsame.trans (hholds hs)⟩
      rw [← hinc]
      simp [incidents, Exchange.incident?, hr]

/-! ### Pipes -/

/-- All ends are closed, one after the other. -/
theorem runs_closePipes {pipes : List Pipe}
    (h : (closePipes pipes : Program τ Unit).Runs Holder.Answers s log () s')
    (hclose : log.ClosesAtOnce) :
    log.incidents = (Pipe.descriptors pipes).map .closed ∧
      s' = s.having (s.holds.without (Pipe.descriptors pipes)) := by
  induction pipes generalizing s log with
  | nil =>
    obtain ⟨rfl, -, rfl⟩ := runs_done_iff.1 h
    exact ⟨rfl, congrArg s'.having (Holdings.without_nil s'.holds).symm⟩
  | cons pipe pipes ih =>
    obtain ⟨readFd, writeFd⟩ := pipe
    rw [closePipes] at h
    obtain ⟨_, first, s₁, rest, hread, hothers, rfl⟩ := runs_bind_iff.1 h
    obtain ⟨_, second, s₂, last, hwrite, hpipes, rfl⟩ := runs_bind_iff.1 hothers
    obtain ⟨hfirst, hrest⟩ := closesAtOnce_append.1 hclose
    obtain ⟨hsecond, hlast⟩ := closesAtOnce_append.1 hrest
    obtain ⟨hinc, rfl⟩ := runs_close hread hfirst
    obtain ⟨hinc', rfl⟩ := runs_close hwrite hsecond
    obtain ⟨hincs, rfl⟩ := ih hpipes hlast
    constructor
    · rw [incidents_append, incidents_append, hinc, hinc', hincs]
      rfl
    · simp only [Holder.holds_having, Holder.having_having, Holdings.without_cons]
      rfl

/-- Either all pipes are made, or those up to one that is refused, which are closed again. -/
theorem runs_createPipes {before : Holdings} {result : Except Errno (List Pipe)} {count : Nat}
    {made : List Pipe}
    (h : (createPipes count made : Program τ _).Runs Holder.Answers s log result s')
    (hm : Piped before made s.holds) (hn : s.pipes = made.length) (hclose : log.ClosesAtOnce) :
    ∃ pipes : List Pipe,
      (result = .ok (made ++ pipes) ∧ pipes.length = count ∧
        log.incidents = pipes.map .piped ∧ Piped before (made ++ pipes) s'.holds) ∨
      ∃ e, result = .error e ∧ s'.holds = before ∧ (Pipe.descriptors (made ++ pipes)).Nodup ∧
        log.incidents = pipes.map .piped ++ .pipeRefused e ::
          (Pipe.descriptors (made ++ pipes)).map .closed := by
  induction count generalizing s log made with
  | zero =>
    obtain ⟨rfl, rfl, rfl⟩ := runs_done_iff.1 h
    exact ⟨[], .inl ⟨by rw [List.append_nil], rfl, rfl, by rwa [List.append_nil]⟩⟩
  | succ count ih =>
    rw [createPipes] at h
    obtain ⟨answer, first, s₁, rest, hpipe, hothers, rfl⟩ := runs_bind_iff.1 h
    obtain ⟨rfl, hs⟩ := runs_pipe hpipe
    have hrest := (closesAtOnce_append.1 hclose).2
    cases hs with
    | quiet hq => cases hq
    | pipeFailed e =>
      -- Only the pipes made so far are there to be closed.
      obtain ⟨_, second, s₂, last, hclosing, hend, rfl⟩ := runs_bind_iff.1 hothers
      obtain ⟨rfl, rfl, rfl⟩ := runs_done_iff.1 hend
      obtain ⟨hinc, rfl⟩ := runs_closePipes hclosing (closesAtOnce_append.1 hrest).1
      refine ⟨[], .inr ⟨e, rfl, hm.without, ?_, ?_⟩⟩
      · rw [List.append_nil]
        exact hm.nodup
      · simp only [List.append_nil, incidents_append, hinc]
        rfl
    | @pipe readFd writeFd unusedRead unusedWrite distinct =>
      obtain ⟨pipes, hpipes⟩ := ih hothers (hn ▸ hm.append unusedRead unusedWrite distinct)
        (by rw [List.length_append, List.length_singleton, ← hn]) hrest
      rw [List.append_assoc, List.singleton_append] at hpipes
      refine ⟨(readFd, writeFd) :: pipes, hpipes.imp ?_ ?_⟩
      · rintro ⟨hresult, hlen, hinc, hp⟩
        refine ⟨hresult, congrArg Nat.succ hlen, ?_, hp⟩
        rw [incidents_append, hinc]
        rfl
      · rintro ⟨e, hresult, hholds, hnodup, hinc⟩
        refine ⟨e, hresult, hholds, hnodup, ?_⟩
        rw [incidents_append, hinc]
        rfl

end Program

/-! ### Processes -/

open Program

variable {τ : Type} {s s' : Holder} {log : Transcript τ} {enter : Stage → τ}
  {terminal : Option Descriptor}

namespace Plan

variable {plan : Plan}

/-- These are forks of the stages of a plan, in order. -/
def Forks (plan : Plan) (enter : Stage → τ) (terminal : Option Descriptor) (pipes : List Pipe)
    (start : Nat) (stages : List (List String)) (forks : List (τ × Except Errno Pid)) : Prop :=
  ∀ i child answer, forks[i]? = some (child, answer) → ∃ arguments group,
    stages[i]? = some arguments ∧
      child = enter (plan.stage terminal pipes group (start + i) arguments)

namespace Forks

variable {pipes : List Pipe} {start : Nat} {stages : List (List String)}
  {forks : List (τ × Except Errno Pid)}

theorem nil : plan.Forks enter terminal pipes start stages [] := by
  rintro i child answer ⟨⟩

theorem cons {arguments : List String} (group : Pid) (answer : Except Errno Pid)
    (h : plan.Forks enter terminal pipes (start + 1) stages forks) :
    plan.Forks enter terminal pipes start (arguments :: stages)
      ((enter (plan.stage terminal pipes group start arguments), answer) :: forks) := by
  rintro (_ | i) child answer' hi
  · cases hi
    exact ⟨arguments, group, rfl, rfl⟩
  · obtain ⟨arguments', group', hmem, rfl⟩ := h i child answer' hi
    exact ⟨arguments', group', hmem, by rw [Nat.add_assoc, Nat.add_comm 1]⟩

end Forks

/-- The stages are forked in order, up to the first fork that is refused. -/
theorem runs_forkStages {pipes : List Pipe} {result : Except LaunchError (List Pid)}
    {stages : List (List String)} {spawned : List Pid}
    (h : (plan.forkStages enter terminal pipes stages spawned).Runs Holder.Answers s log result
      s') :
    s'.holds = s.holds ∧ ∃ forks : List (τ × Except Errno Pid), ∃ pids : List Pid,
      log.incidents = forks.map .ofFork ∧
      plan.Forks enter terminal pipes spawned.length stages forks ∧
      ((result = .ok (spawned ++ pids) ∧ pids.length = stages.length ∧
          forks.map Prod.snd = pids.map .ok) ∨
        ∃ e, result = .error (.fork (spawned ++ pids) e) ∧ pids.length < stages.length ∧
          forks.map Prod.snd = pids.map .ok ++ [.error e]) := by
  induction stages generalizing s log spawned with
  | nil =>
    obtain ⟨rfl, rfl, rfl⟩ := runs_done_iff.1 h
    exact ⟨rfl, [], [], rfl, .nil, .inl ⟨by rw [List.append_nil], rfl, rfl⟩⟩
  | cons arguments stages ih =>
    rw [forkStages] at h
    obtain ⟨answer, first, s₁, rest, hfork, hothers, rfl⟩ := runs_bind_iff.1 h
    obtain ⟨hinc, hholds⟩ := runs_fork hfork
    cases answer with
    | error e =>
      -- The stages behind this one are not looked at.
      obtain ⟨rfl, rfl, rfl⟩ := runs_done_iff.1 hothers
      refine ⟨hholds, [(_, .error e)], [], ?_, .cons (spawned.head?.getD 0) _ .nil,
        .inr ⟨e, by rw [List.append_nil], Nat.zero_lt_succ _, rfl⟩⟩
      rw [List.append_nil, hinc]
      rfl
    | ok pid =>
      obtain ⟨_, second, s₂, last, hgroup, hlast, rfl⟩ := runs_bind_iff.1 hothers
      obtain ⟨hs, rfl⟩ := hgroup.ask_once fun _ hr => by cases hr
      obtain rfl := hs.eq_of_isQuiet rfl
      obtain ⟨hsame, forks, pids, hincs, hforks, hresult⟩ := ih hlast
      have hpids : spawned ++ [pid] ++ pids = spawned ++ pid :: pids := by simp
      rw [List.length_append, List.length_singleton] at hforks
      rw [hpids] at hresult
      refine ⟨hsame.trans hholds, (_, .ok pid) :: forks, pid :: pids, ?_,
        hforks.cons (spawned.head?.getD 0) _, hresult.imp ?_ ?_⟩
      · rw [incidents_append, incidents_append, hinc, hincs]
        rfl
      · rintro ⟨hr, hlen, hsnd⟩
        exact ⟨hr, congrArg Nat.succ hlen, congrArg (List.cons _) hsnd⟩
      · rintro ⟨e, hr, hlen, hsnd⟩
        exact ⟨e, hr, Nat.succ_lt_succ hlen, congrArg (List.cons _) hsnd⟩

/-- What is seen of a launch: pipes are made, processes are forked, and all ends are closed. -/
theorem projections {pipes : List Pipe} {between : List (Incident τ)} {fds : List Descriptor}
    (h : log.incidents = pipes.map .piped ++ (between ++ fds.map .closed))
    (hpipe : between.filterMap Incident.pipe? = [])
    (hclosed : between.filterMap Incident.descriptor? = []) :
    log.pipes = pipes ∧ log.refusals = between.filterMap Incident.refusal? ∧
      log.forks = between.filterMap Incident.fork? ∧ log.closed = fds := by
  rw [Transcript.pipes, refusals, forks, closed, h]
  simp [List.filterMap_map, Function.comp_def, hpipe, hclosed, Incident.pipe?, Incident.refusal?,
    Incident.fork?, Incident.descriptor?]

/-- What a launch may look like. -/
theorem runs_launch {before : Holdings} {result : Except LaunchError Spawned}
    (h : (plan.launch enter terminal).Runs Holder.Answers { holds := before } log result s')
    (hclose : log.ClosesAtOnce) :
    s'.holds = before ∧ (Pipe.descriptors log.pipes).Nodup ∧
      log.closed = Pipe.descriptors log.pipes ∧
      plan.Forks enter terminal log.pipes 0 plan.stages log.forks ∧
      ((∃ e, result = .error (.pipe e) ∧ log.refusals = [e] ∧ log.forks = []) ∨
        log.refusals = [] ∧ ∃ pids : List Pid,
          (result = .ok { group := pids.head?.getD 0, pids } ∧ pids.length = plan.size ∧
              log.forks.map Prod.snd = pids.map .ok) ∨
            ∃ e, result = .error (.fork pids e) ∧
              log.forks.map Prod.snd = pids.map .ok ++ [.error e]) := by
  rw [launch] at h
  obtain ⟨made, first, s₁, rest, hpipes, hothers, rfl⟩ := runs_bind_iff.1 h
  obtain ⟨hfirst, hrest⟩ := closesAtOnce_append.1 hclose
  obtain ⟨pipes, ⟨rfl, -, hinc, hp⟩ | ⟨e, rfl, hholds, hnodup, hinc⟩⟩ :=
    runs_createPipes hpipes (.nil before) rfl hfirst
  case inr =>
    -- A pipe has been refused, and the others have been closed already.
    obtain ⟨rfl, rfl, rfl⟩ := runs_done_iff.1 hothers
    rw [List.append_nil]
    replace hinc : first.incidents = pipes.map .piped ++ ([.pipeRefused e] ++
        (Pipe.descriptors pipes).map .closed) := hinc
    obtain ⟨hpipes, hrefusals, hforks, hclosed⟩ := projections hinc rfl rfl
    rw [hpipes, hforks, hclosed]
    exact ⟨hholds, hnodup, rfl, .nil, .inl ⟨e, rfl, hrefusals, rfl⟩⟩
  rw [List.nil_append] at hothers hp
  obtain ⟨outcome, second, s₂, third, hforks, hclosing, rfl⟩ := runs_bind_iff.1 hothers
  obtain ⟨_, fourth, s₃, last, hends, hlast, rfl⟩ := runs_bind_iff.1 hclosing
  obtain ⟨rfl, rfl, rfl⟩ := runs_done_iff.1 hlast
  rw [List.append_nil] at hrest ⊢
  obtain ⟨hsame, forks, pids, hincs, hstages, hresult⟩ := runs_forkStages hforks
  obtain ⟨hinc', rfl⟩ := runs_closePipes hends (closesAtOnce_append.1 hrest).2
  -- All pipes are there; they are closed in the end, however far the forks have got.
  have hall : incidents (first ++ (second ++ fourth)) = pipes.map .piped ++
      (forks.map .ofFork ++ (Pipe.descriptors pipes).map .closed) := by
    rw [incidents_append, incidents_append, hinc, hincs, hinc']
  obtain ⟨hpipes, hrefusals, hforks, hclosed⟩ := projections hall
    (Incident.filterMap_ofFork (fun _ _ => rfl) forks)
    (Incident.filterMap_ofFork (fun _ _ => rfl) forks)
  rw [Incident.filterMap_ofFork (fun _ _ => rfl)] at hrefusals
  rw [Incident.filterMap_fork?_ofFork] at hforks
  rw [hpipes, hrefusals, hforks, hclosed]
  refine ⟨?_, hp.nodup, rfl, hstages, .inr ⟨rfl, pids, hresult.imp ?_ ?_⟩⟩
  · rw [Holder.holds_having, hsame, hp.without]
  · rintro ⟨rfl, hlen, hsnd⟩
    exact ⟨rfl, hlen, hsnd⟩
  · rintro ⟨e, rfl, -, hsnd⟩
    exact ⟨e, rfl, hsnd⟩

end Plan

/-! ### What the transcript says about the result -/

/-- The result of a launch tells what has happened in it. -/
structure CommandLine.Accounts (line : CommandLine) (enter : Stage → τ)
    (terminal : Option Descriptor) (log : Transcript τ) (result : Except LaunchError Spawned) :
    Prop where
  /-- An argument that cannot be passed on: nothing has been asked for. -/
  invalid : ∀ {e}, Plan.ofCommandLine line = .error e →
    result = .error e ∧ (∃ position, e = .invalidArgument position) ∧ log = []
  /-- A pipe that cannot be made: nothing has been forked. -/
  pipeRefused : ∀ {e}, ⟨.pipe, .error e⟩ ∈ log → result = .error (.pipe e) ∧ log.forks = []
  /-- A process that cannot be forked: these have been forked before, and none after it. -/
  forkRefused : ∀ {child e}, ⟨.fork child, .error e⟩ ∈ log → e ≠ .eintr →
    ∃ spawned, result = .error (.fork spawned e) ∧
      log.forks.map Prod.snd = spawned.map .ok ++ [.error e]
  /-- Nothing has failed: every stage has its process. -/
  complete : (∃ plan, Plan.ofCommandLine line = .ok plan) → (∀ e, ⟨.pipe, .error e⟩ ∉ log) →
    (∀ child e, ⟨.fork child, .error e⟩ ∈ log → e = .eintr) →
      ∃ spawned, result = .ok spawned ∧ spawned.pids.length = line.pipeline.size ∧
        spawned.pids.head? = some spawned.group ∧ log.forks.map Prod.snd = spawned.pids.map .ok
  /-- Processes are forked in the order of the stages. -/
  stages : ∀ {plan}, Plan.ofCommandLine line = .ok plan →
    plan.Forks enter terminal log.pipes 0 plan.stages log.forks

/-- The calls of a launch. -/
def Request.launches : Request τ → Bool
  | .pipe => true
  | .fork _ => true
  | .setGroup _ _ => true
  | .close _ => true
  | _ => false

theorem Request.exists_answers {r : Request τ} (h : r.launches = true) (s : Holder) :
    ∃ answer s', s.Answers r answer s' ∧ r.isInterrupted answer = false := by
  cases r with
  | pipe => exact ⟨_, _, .pipeFailed .emfile, rfl⟩
  | fork child => exact ⟨_, _, .forkFailed .eagain, rfl⟩
  | setGroup child group => exact ⟨.ok (), _, .quiet rfl _, rfl⟩
  | close fd => exact ⟨_, _, .close (.ok ()), rfl⟩
  | _ => cases h

namespace CommandLine

variable {line : CommandLine} {before : Holdings} {result : Except LaunchError Spawned}

theorem accounts_of_runs (hn : line.pipeline.size ≠ 0)
    (h : (line.launch enter terminal).Runs Holder.Answers { holds := before } log result s')
    (hclose : log.ClosesAtOnce) :
    line.Accounts enter terminal log result ∧ s'.holds = before ∧
      (Pipe.descriptors log.pipes).Nodup ∧ log.closed = Pipe.descriptors log.pipes := by
  rw [launch] at h
  cases hplan : Plan.ofCommandLine line with
  | error e =>
    rw [hplan] at h
    obtain ⟨rfl, rfl, rfl⟩ := runs_done_iff.1 h
    refine ⟨?_, rfl, List.nodup_nil, rfl⟩
    constructor
    case invalid =>
      intro e' he
      cases hplan.symm.trans he
      exact ⟨rfl, Plan.ofCommandLine_eq_error hplan, rfl⟩
    case pipeRefused => exact fun hmem => by cases hmem
    case forkRefused => exact fun hmem => by cases hmem
    case complete =>
      rintro ⟨plan, hok⟩
      cases hplan.symm.trans hok
    case stages =>
      intro plan hok
      cases hplan.symm.trans hok
  | ok plan =>
    rw [hplan] at h
    obtain ⟨hholds, hnodup, hclosed, hstages, hcases⟩ := Plan.runs_launch h hclose
    refine ⟨?_, hholds, hnodup, hclosed⟩
    -- A fork that is refused in the transcript is one of the forks that count.
    have hrefused : ∀ {child e}, ⟨.fork child, .error e⟩ ∈ log → e ≠ .eintr →
        .error e ∈ log.forks.map Prod.snd := fun hmem hne =>
      List.mem_map_of_mem (mem_forks.2 ⟨hmem, Bool.eq_false_iff.2 fun he =>
        hne (Except.error.inj (Errno.isInterruption_iff.1 he))⟩)
    constructor
    case invalid =>
      intro e he
      cases hplan.symm.trans he
    case stages =>
      intro plan' hok
      cases hplan.symm.trans hok
      exact hstages
    case pipeRefused =>
      intro e hmem
      have he := mem_refusals.2 hmem
      rcases hcases with ⟨e', rfl, hr, hf⟩ | ⟨hr, -⟩
      · rw [hr, List.mem_singleton] at he
        exact ⟨by rw [he], hf⟩
      · rw [hr] at he
        cases he
    case forkRefused =>
      intro child e hmem hne
      have he := hrefused hmem hne
      rcases hcases with ⟨e', -, -, hf⟩ | ⟨-, pids, ⟨-, -, hf⟩ | ⟨e', rfl, hf⟩⟩
      · rw [hf] at he
        cases he
      · rw [hf] at he
        simp at he
      · rw [hf] at he
        obtain rfl : e = e' := by simpa using he
        exact ⟨pids, rfl, hf⟩
    case complete =>
      intro _ hpipe hfork
      rcases hcases with ⟨e, -, hr, -⟩ | ⟨-, pids, ⟨rfl, hlen, hf⟩ | ⟨e, -, hf⟩⟩
      · exact absurd (mem_refusals.1 (hr ▸ List.mem_singleton_self e)) (hpipe e)
      · rw [Plan.size_ofCommandLine hplan] at hlen
        refine ⟨_, rfl, hlen, ?_, hf⟩
        cases pids with
        | nil => exact absurd hlen.symm hn
        | cons pid pids => rfl
      · have he : .error e ∈ log.forks.map Prod.snd := by simp [hf]
        obtain ⟨⟨child, _⟩, hmem, rfl⟩ := List.mem_map.1 he
        obtain ⟨hmem, hr⟩ := mem_forks.1 hmem
        rw [hfork child e hmem] at hr
        cases hr

/-- **A launch happens completely, or it tells how far it got.**  Whatever is answered, it has a
result, and the result tells which pipe or which process was refused and what has been forked until
then.  In any case every descriptor that was made is closed once, no other one is, and the
descriptors are what they were before. -/
theorem launch_accounts (hn : line.pipeline.size ≠ 0)
    {answers : Holder → (r : Request τ) → r.Answer → Holder → Prop}
    (hlawful : ∀ s r answer s', answers s r answer s' → s.Answers r answer s')
    (hanswered : ∀ s r, r.launches = true →
      ∃ answer s', answers s r answer s' ∧ r.isInterrupted answer = false) :
    (∃ log result s', (line.launch enter terminal).Runs answers { holds := before } log result s') ∧
      ∀ log result s', (line.launch enter terminal).Runs answers { holds := before } log result s' →
        log.ClosesAtOnce →
          line.Accounts enter terminal log result ∧ s'.holds = before ∧
            (Pipe.descriptors log.pipes).Nodup ∧ log.closed = Pipe.descriptors log.pipes := by
  constructor
  · refine exists_runs (makes_launch ?_ ?_ ?_ ?_) hanswered _
    · exact fun _ _ => rfl
    · rfl
    · exact fun _ => rfl
    · exact fun _ _ _ _ _ => rfl
  · exact fun log result s' h hclose => accounts_of_runs hn (h.mono hlawful) hclose

/-- The second of two stages cannot be forked; the fork of the first one has been interrupted. -/
theorem launch_accounts_partly : ∃ (log : Transcript Stage) (s' : Holder),
    ((CommandLine.mk (.ofWords [.literal "a", .operator .pipe, .literal "b"]) {}).launch
        id none).Runs Holder.Answers { holds := .inherited (· < 3) } log
      (.error (.fork [7] .eagain)) s' ∧
      log.ClosesAtOnce ∧ log.forks.map Prod.snd = [.ok 7, .error .eagain] ∧
      s'.holds = .inherited (· < 3) ∧ log.closed = [3, 4] := by
  have hsize : (CommandLine.mk (.ofWords [.literal "a", .operator .pipe, .literal "b"])
      {}).pipeline.size ≠ 0 := by decide
  have hruns : ((CommandLine.mk (.ofWords [.literal "a", .operator .pipe, .literal "b"]) {}).launch
      id none).Runs Holder.Answers { holds := .inherited (· < 3) } _
        (.error (.fork [7] .eagain)) _ :=
    .call (r := .pipe) (.ok (3, 4)) (.pipe rfl rfl (by decide)) rfl
      (.again (r := .fork _) (.error .eintr) (.forkFailed .eintr) rfl
      (.call (r := .fork _) (.ok 7) .fork rfl
      (.call (r := .setGroup 7 0) (.ok ()) (.quiet rfl _) rfl
      (.call (r := .fork _) (.error .eagain) (.forkFailed .eagain) rfl
      (.call (r := .close 3) (.ok ()) (.close _) rfl
      (.call (r := .close 4) (.ok ()) (.close _) rfl (.done _ _)))))))
  obtain ⟨-, h⟩ := launch_accounts hsize (fun _ _ _ _ h => h) fun s r hr => r.exists_answers hr s
  obtain ⟨haccounts, hholds, -, hclosed⟩ := h _ _ _ hruns rfl
  obtain ⟨spawned, hresult, hforks⟩ := haccounts.forkRefused
    (.tail _ (.tail _ (.tail _ (.tail _ (.head _))))) (by decide)
  cases hresult
  exact ⟨_, _, hruns, rfl, hforks, hholds, hclosed⟩

end CommandLine

end PipelineShell
