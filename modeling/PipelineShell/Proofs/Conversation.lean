/-
Answers and the requests that they belong to.

An answer names no request, so the reader takes the next one that comes for the
answer to its last request.  That it is right to do so is shown here: an
observer writes down what the worker acted on when it made an answer, and for
which request every process was started, and the answers turn out to belong to
the requests one by one.

* `answers_belong_to_requests` — in every run the worker offers an answer only
  while exactly one request is open, no request is answered twice, and the
  answer to a request comes from handling this request or from a process that
  was started for it in the foreground.

Design notes: who owes how many answers has been counted in `System.Sound`.
What is left is to know whose answer it is, and for that it is enough that the
processes of the job in the foreground were all started for the last request
(`Accounted.foreground`); while there is such a job, no request can be
received and nothing can be forked.
-/
import PipelineShell.Proofs.System

namespace PipelineShell

open Output

/-! ### What an observer writes down -/

/-- What a process was started for. -/
structure Origin where
  /-- The number of the request; the first one is 1. -/
  request : Nat
  foreground : Bool
deriving DecidableEq

/-- What the worker acted on last. -/
inductive Cause where
  /-- The request of this number: the message itself, what came of a directory or a launch, or
  that nothing is left to collect at the end of the input. -/
  | handling (request : Nat)
  /-- News of a child, with what it was started for. -/
  | child (pid : Pid) (origin : Option Origin)
  /-- A message that is no request, or a look at the children that found nothing. -/
  | nothing

/-- The cause lies in this request: it was being handled, or a process has changed that was started
for it in the foreground. -/
def Cause.BelongsTo (request : Nat) : Cause → Prop
  | .handling number => number = request
  | .child _ origin => origin = some { request, foreground := true }
  | .nothing => False

/-- What is being launched will have the foreground. -/
def Doing.takesForeground : Doing → Bool
  | .launching _ line _ _ => !line.modifier.background
  | _ => false

structure Account where
  /-- How many requests the worker has received. -/
  received : Nat := 0
  origin : Pid → Option Origin := fun _ => none
  cause : Cause := .nothing
  /-- The causes of the answers that the reader has been given, in order. -/
  causes : List Cause := []

/-- Writes down one event; `s` is the state in which it happens. -/
def Account.note (a : Account) (s : System) : Event → Account
  | .receive m =>
    if m.isRequest then
      { a with received := a.received + 1, cause := .handling (a.received + 1) }
    else { a with cause := .nothing }
  | .call r answer =>
    { a with
      origin := fun pid =>
        if pid ∈ r.forked answer then
          some { request := a.received, foreground := s.doing.takesForeground }
        else a.origin pid }
  | .directory _ => { a with cause := .handling a.received }
  | .launched _ => { a with cause := .handling a.received }
  | .poll p =>
    { a with
      cause := match p.understood with
        | .ok (some (pid, _)) => .child pid (a.origin pid)
        | _ => if s.doing.isHandling then .handling a.received else .nothing }
  | .reply _ => { a with causes := a.causes ++ [a.cause] }
  | _ => a

def Trace.account : Trace → Account
  | [] => {}
  | (s, e) :: past => (account past).note s e

open Trace

/-! ### What the account always says -/

structure Accounted (past : Trace) (s : System) : Prop where
  received : (account past).received + s.queued = (requests past).length
  answered : (account past).causes.length = (answers past).length
  /-- An answer on its way belongs to the request received last. -/
  offered : replies s.outbox ≠ [] → (account past).cause.BelongsTo (account past).received
  forked : ∀ {text : String} {line : CommandLine} {forked : List Pid}
    {calls : Program Task (Except LaunchError Spawned)},
    s.doing = .launching text line forked calls → ∀ pid ∈ forked,
      (account past).origin pid =
        some { request := (account past).received, foreground := !line.modifier.background }
  /-- The job in the foreground has only processes that were started for the last request. -/
  foreground : ∀ {id : Nat} {job : Job}, s.worker.foreground = some id →
    s.worker.jobs.get? id = some job → ∀ pid ∈ job.pids,
      (account past).origin pid =
        some { request := (account past).received, foreground := true }
  belongs : ∀ {k : Nat} {cause : Cause}, (account past).causes[k]? = some cause →
    cause.BelongsTo (k + 1)

namespace Accounted

variable {past : Trace} {s s' : System}

theorem initial (terminalGroup : Option Pid) (operators : OperatorSet) :
    Accounted [] (.initial terminalGroup operators) where
  received := rfl
  answered := rfl
  offered h := absurd rfl h
  forked h := by cases h
  foreground h := by cases h
  belongs h := by simp [account] at h

/-- While nothing is in the foreground, nothing has to be known about its processes. -/
theorem foreground_of_none {a : Account} (h : s.worker.foreground = none) :
    ∀ {id : Nat} {job : Job}, s.worker.foreground = some id →
      s.worker.jobs.get? id = some job → ∀ pid ∈ job.pids,
        a.origin pid = some { request := a.received, foreground := true } :=
  fun hf => absurd (h.symm.trans hf) (by simp)

/-- A step that begins the next activity has not forked anything for it. -/
theorem forked_take {a : Account} {step : Step} :
    ∀ {text : String} {line : CommandLine} {forked : List Pid}
      {calls : Program Task (Except LaunchError Spawned)},
      (s.take step).doing = .launching text line forked calls → ∀ pid ∈ forked,
        a.origin pid = some { request := a.received, foreground := !line.modifier.background } := by
  intro text line forked calls h pid hp
  obtain ⟨-, rfl, -⟩ := Doing.begin_eq_launching h
  cases hp

theorem receive {m : Message} {rest : List Message} (ha : Accounted past s) (hs : s.Sound)
    (h : s.inbox = m :: rest) :
    Accounted ((s, .receive m) :: past)
      ({ s with inbox := rest }.take (s.worker.received m)) := by
  obtain ⟨status, hw⟩ := s.worker.received_worker m
  have hqueued : s.queued = rest.countP Message.isRequest + if m.isRequest then 1 else 0 := by
    rw [System.queued, h, List.countP_cons]
  have hreceived := ha.received
  rw [hqueued] at hreceived
  cases hm : m.isRequest with
  | false =>
    have haccount : account ((s, .receive m) :: past) = { account past with cause := .nothing } :=
      if_neg (by simp [hm])
    have hquiet : replies (s.worker.received m).outputs = [] := by
      cases m <;> first | rfl | cases hm
    rw [hm] at hreceived
    constructor
    case received => rw [haccount]; exact hreceived
    case answered => rw [haccount]; exact ha.answered
    case offered => exact fun h => absurd hquiet h
    case forked => exact forked_take
    case foreground =>
      intro id job hf hj
      replace hf : (s.worker.received m).worker.foreground = some id := hf
      replace hj : (s.worker.received m).worker.jobs.get? id = some job := hj
      rw [hw] at hf hj
      rw [haccount]
      exact ha.foreground hf hj
    case belongs => rw [haccount]; exact ha.belongs
  -- A request is received only while nothing is in the foreground.
  | true =>
    have haccount : account ((s, .receive m) :: past) =
        { account past with
          received := (account past).received + 1
          cause := .handling ((account past).received + 1) } := if_pos hm
    rw [hm, if_pos rfl] at hreceived
    have hnone : s.worker.foreground = none :=
      hs.foreground_eq_none (.inr (by rw [hqueued, hm, if_pos rfl]; omega))
    constructor
    case received =>
      rw [haccount]
      show (account past).received + 1 + rest.countP Message.isRequest = (requests past).length
      omega
    case answered => rw [haccount]; exact ha.answered
    case offered => rw [haccount]; exact fun _ => rfl
    case forked => exact forked_take
    case foreground =>
      refine foreground_of_none ?_
      show (s.worker.received m).worker.foreground = none
      rw [hw]
      exact hnone
    case belongs => rw [haccount]; exact ha.belongs

theorem directory {name : String} {result : Except DirectoryError String}
    (ha : Accounted past s) (hs : s.Sound) (h : s.doing = .changing name (.done result)) :
    Accounted ((s, .directory result) :: past) (s.take (s.worker.directoryChanged result)) where
  received := ha.received
  answered := ha.answered
  offered _ := rfl
  forked := forked_take
  foreground := by
    obtain ⟨status, hw⟩ := s.worker.directoryChanged_worker result
    refine foreground_of_none ?_
    show (s.worker.directoryChanged result).worker.foreground = none
    rw [hw]
    exact hs.foreground_eq_none (.inl (h ▸ rfl))
  belongs := ha.belongs

theorem call {r : Request Task} {answer : r.Answer} {s' : System} (ha : Accounted past s)
    (hs : s.Sound) (h : s.doing.isHandling = true) (hinbox : s'.inbox = s.inbox)
    (hworker : s'.worker = s.worker) (houtbox : s'.outbox = s.outbox)
    (hforked : ∀ {text line forked calls}, s'.doing = .launching text line forked calls →
      ∃ forked' calls', s.doing = .launching text line forked' calls' ∧
        forked = forked' ++ r.forked answer) :
    Accounted ((s, .call r answer) :: past) s' where
  received := by rw [System.queued, hinbox]; exact ha.received
  answered := ha.answered
  offered := by rw [houtbox]; exact ha.offered
  forked := by
    intro text line forked calls hd pid hp
    obtain ⟨forked', calls', hd', rfl⟩ := hforked hd
    show (if pid ∈ r.forked answer then _ else (account past).origin pid) = _
    by_cases hnew : pid ∈ r.forked answer
    · rw [if_pos hnew, hd']
      rfl
    · rw [if_neg hnew]
      exact ha.forked hd' pid ((List.mem_append.1 hp).resolve_right hnew)
  foreground := foreground_of_none (hworker ▸ hs.foreground_eq_none (.inl h))
  belongs := ha.belongs

theorem launched {text : String} {line : CommandLine} {forked : List Pid}
    {result : Except LaunchError Spawned} (ha : Accounted past s) (hs : s.Sound)
    (h : s.doing = .launching text line forked (.done result)) :
    Accounted ((s, .launched result) :: past) (s.take (s.worker.launched text line result)) where
  received := ha.received
  answered := ha.answered
  offered _ := rfl
  forked := forked_take
  foreground := by
    intro id job hf hj pid hp
    replace hf : (s.worker.launched text line result).worker.foreground = some id := hf
    replace hj : (s.worker.launched text line result).worker.jobs.get? id = some job := hj
    have hnone := hs.foreground_eq_none (.inl (h ▸ rfl))
    rcases s.worker.launched_cases text line result with
      ⟨-, message, he⟩ | ⟨spawned, outputs, hr, ho, he⟩
    · rw [he] at hf
      exact absurd (hnone.symm.trans hf) (by simp)
    rw [he] at hf hj
    rcases s.worker.started_cases text line spawned ho with
      ⟨-, he⟩ | ⟨id', jobs, hi, ⟨-, message, he⟩ | ⟨hb, hw, -, -⟩⟩
    · rw [he] at hf
      exact absurd (hnone.symm.trans hf) (by simp)
    · rw [he] at hf
      exact absurd (hnone.symm.trans hf) (by simp)
    -- The new job has the processes that were forked for the line.
    rw [hw] at hf hj
    obtain rfl := Option.some.inj hf
    obtain ⟨last, hl, -⟩ := JobTable.insert?_eq_some_iff.1 hi
    rw [JobTable.get?_insert? hi hl, if_pos rfl] at hj
    obtain rfl := Option.some.inj hj
    have horigin := ha.forked h pid (hs.pids_of_running? h hr ▸ hp)
    rw [hb] at horigin
    exact horigin
  belongs := ha.belongs

theorem poll {ending : Bool} {p : Poll} {children : Children} (ha : Accounted past s)
    (hs : s.Sound) (h : s.doing = .collecting ending) :
    Accounted ((s, .poll p) :: past)
      ({ s with children }.take (s.worker.polled ending p.understood)) where
  received := ha.received
  answered := ha.answered
  offered := by
    intro hr
    rcases Worker.polled_answers hs.coherent ending hr with
      ⟨pid, status, id, job, hp, hf, hj, hmem⟩ | ⟨he, hp⟩
    · show Cause.BelongsTo _ (match p.understood with
        | .ok (some (pid, _)) => .child pid ((account past).origin pid)
        | _ => if s.doing.isHandling then .handling (account past).received else .nothing)
      rw [hp]
      exact ha.foreground hf hj pid hmem
    · have hd : s.doing.isHandling = true := by rw [h, he]; rfl
      show Cause.BelongsTo _ (match p.understood with
        | .ok (some (pid, _)) => .child pid ((account past).origin pid)
        | _ => if s.doing.isHandling then .handling (account past).received else .nothing)
      split
      · next pid status hq => exact absurd hq (hp pid status)
      · rw [if_pos hd]
        rfl
  forked := forked_take
  foreground := by
    intro id job hf hj pid hp
    obtain ⟨hf, before, hb, hsub⟩ := Worker.polled_foreground hs.coherent ending hf hj
    exact ha.foreground hf hb pid (hsub pid hp)
  belongs := ha.belongs

/-- An answer that is offered is the one to the last request. -/
theorem number_of_offered (ha : Accounted past s) (hs : s.Sound)
    (hopen : (requests past).length = (answers past).length + s.reader.isWaiting.toNat)
    (h : replies s.outbox ≠ []) :
    s.reader = .waiting ∧ (account past).received = (answers past).length + 1 ∧
      (requests past).length = (answers past).length + 1 ∧ (replies s.outbox).length = 1 := by
  obtain ⟨hwaits, hone, hqueued, -, -⟩ := hs.of_offered h
  have hreceived := ha.received
  rw [Reader.isWaiting_eq_true.2 hwaits, Bool.toNat_true] at hopen
  exact ⟨hwaits, by omega, hopen, hone⟩

theorem reply {r : Reply} {rest : List Output} (ha : Accounted past s) (hs : s.Sound)
    (hopen : (requests past).length = (answers past).length + s.reader.isWaiting.toNat)
    (h : s.outbox = .reply r :: rest) :
    Accounted ((s, .reply r) :: past) { s with outbox := rest, reader := r.reader } := by
  have hne : replies s.outbox ≠ [] := by simp [h]
  obtain ⟨-, hnumber, -, hone⟩ := number_of_offered ha hs hopen hne
  have hrest : replies rest = [] := by
    rw [h, replies_cons_reply, List.length_cons] at hone
    exact List.length_eq_zero_iff.1 (by omega)
  have hcause := ha.offered hne
  have hlen := ha.answered
  constructor
  case received => exact ha.received
  case answered =>
    show ((account past).causes ++ [(account past).cause]).length = (answers past ++ [r]).length
    rw [List.length_append, List.length_append, hlen]
    rfl
  case offered => exact fun h => absurd hrest h
  case forked => exact ha.forked
  case foreground => exact ha.foreground
  case belongs =>
    intro k cause hk
    replace hk : ((account past).causes ++ [(account past).cause])[k]? = some cause := hk
    -- An earlier answer, or this one, whose number is that of the last request.
    rcases Nat.lt_or_ge k (account past).causes.length with hlt | hge
    · rw [List.getElem?_append_left hlt] at hk
      exact ha.belongs hk
    · rw [List.getElem?_append_right hge] at hk
      have hlt : k - (account past).causes.length < 1 := (List.getElem?_eq_some_iff.1 hk).1
      have hnum : (account past).received = k + 1 := by omega
      have hzero : k - (account past).causes.length = 0 := by omega
      rw [hzero] at hk
      obtain rfl : (account past).cause = cause := Option.some.inj hk
      exact hnum ▸ hcause

theorem moves {e : Event} (ha : Accounted past s) (hs : s.Sound)
    (hopen : (requests past).length = (answers past).length + s.reader.isWaiting.toNat)
    (m : s.Moves e s') :
    Accounted ((s, e) :: past) s' := by
  cases m with
  | @request m _ hm =>
    constructor
    case received =>
      show (account past).received + (s.inbox ++ [m]).countP Message.isRequest
        = (requests past ++ [m]).length
      have hreceived := ha.received
      rw [System.queued] at hreceived
      rw [List.countP_append, List.countP_singleton, if_pos hm, List.length_append,
        List.length_singleton]
      omega
    case answered => exact ha.answered
    case offered => exact ha.offered
    case forked => exact ha.forked
    case foreground => exact ha.foreground
    case belongs => exact ha.belongs
  | hangUp _ => exact { ha with }
  | child h => exact { ha with }
  | nudge => exact { ha with }
  | notify h =>
    refine { ha with received := ?_ }
    rw [System.queued, List.countP_append]
    exact ha.received
  | signal =>
    refine { ha with received := ?_ }
    rw [System.queued, List.countP_append]
    exact ha.received
  | receive idle done h => exact ha.receive hs h
  | callDirectory h answer =>
    refine ha.call hs (h ▸ rfl) rfl rfl rfl ?_
    intro _ _ _ _ h
    cases h
  | directory done h => exact ha.directory hs h
  | callLaunch h answer new =>
    refine ha.call hs (h ▸ rfl) rfl rfl rfl ?_
    intro _ _ _ _ h'
    cases h'
    exact ⟨_, _, h, rfl⟩
  | launched done h => exact ha.launched hs h
  | poll done h answer => exact ha.poll hs h
  | @put o rest silent h =>
    refine { ha with offered := ?_ }
    have hoffered := ha.offered
    rw [h, replies_cons_of_silent silent] at hoffered
    exact hoffered
  | reply _ h => exact ha.reply hs hopen h

theorem run {terminalGroup : Option Pid} {operators : OperatorSet}
    (h : Run (.initial terminalGroup operators) past s) : Accounted past s := by
  induction h with
  | start => exact initial terminalGroup operators
  | move h m ih =>
    exact ih.moves ((System.sound_initial terminalGroup operators).run h) (length_requests h) m

end Accounted

/-- **Answers belong to requests.**  An answer is offered only while exactly one request is open,
and it is the only one; no more answers are given than requests are made, and at most one request
is open; and the `k`-th answer was made in handling the `k`-th request, or because a process
changed that was started for this request in the foreground. -/
theorem answers_belong_to_requests {terminalGroup : Option Pid} {operators : OperatorSet}
    {past : Trace} {s : System} (h : Run (.initial terminalGroup operators) past s) :
    ((∃ r, Output.reply r ∈ s.outbox) →
      s.reader = .waiting ∧ (requests past).length = (answers past).length + 1 ∧
        (replies s.outbox).length = 1) ∧
    (answers past).length ≤ (requests past).length ∧
    (requests past).length ≤ (answers past).length + 1 ∧
    (account past).causes.length = (answers past).length ∧
    ∀ (k : Nat) (cause : Cause), (account past).causes[k]? = some cause →
      cause.BelongsTo (k + 1) := by
  have hinit := System.sound_initial terminalGroup operators
  have hs : s.Sound := hinit.run h
  have ha := Accounted.run h
  have hopen := length_requests h
  have hle := Bool.toNat_le s.reader.isWaiting
  refine ⟨?_, by omega, by omega, ha.answered, fun k cause => ha.belongs⟩
  rintro ⟨r, hr⟩
  have hne : replies s.outbox ≠ [] := List.ne_nil_of_mem (mem_replies.2 hr)
  obtain ⟨hw, -, hlen, hone⟩ := ha.number_of_offered hs hopen hne
  exact ⟨hw, hlen, hone⟩

theorem answered_line_belongs : ∃ (past : Trace) (s : System),
    Run (.initial none .full) past s ∧ requests past = [.line "a"] ∧ answers past = [.resume 3] ∧
      ∃ cause, (account past).causes = [cause] ∧ cause.BelongsTo 1 := by
  obtain ⟨s₁, s₂, s₃, s₄, s₅, s₆, s₇, s, stage, h⟩ := Run.exists_answered
  obtain ⟨-, -, -, hlen, hbelongs⟩ := answers_belong_to_requests h
  obtain ⟨cause, hcause⟩ := List.length_eq_one_iff.1 hlen
  exact ⟨_, s, h, rfl, rfl, cause, hcause, hbelongs 0 cause (by rw [hcause]; rfl)⟩

end PipelineShell
