/-
The worker is always woken up.

While the reader waits for an answer the worker sleeps when it has nothing to
do, and only a message wakes it up.  If a child could end or stop without one,
with no other child of the job in the foreground left to change, the reader
would wait for ever.

* `System.owed_eq` — an answer is owed exactly while the reader waits;
* `System.Watched` — the processes that the reader waits for run, or there is
  news of them;
* `Alert` — where there is news of a child, the worker looks for it, a message
  about it is in the queue, or the notice has not been passed on;
* `awake_of_waiting` — no wakeup is lost.

Design notes: whether a notice is due is read off the history
(`Trace.unannounced`), because the kernel may also give one for less: when a
child goes on, or without a reason.
-/
import PipelineShell.Proofs.Uncollected

namespace PipelineShell

open Output Trace

/-! ### No answer is forgotten -/

/-- A step of a worker that has this many answers to give forgets none. -/
def Step.Remembers (w : Worker) (owed : Nat) (s : Step) : Prop :=
  w.foreground.isSome.toNat + owed ≤
    (replies s.outputs).length + s.next.isHandling.toNat + s.worker.foreground.isSome.toNat

namespace Worker

variable {w : Worker}

theorem goOn_remembers (next : Activity) :
    Step.Remembers w next.isHandling.toNat { worker := w, next } := by
  show w.foreground.isSome.toNat + next.isHandling.toNat ≤
    0 + next.isHandling.toNat + w.foreground.isSome.toNat
  omega

theorem answer_remembers (status : Int) (outputs : List Output) :
    Step.Remembers w 1 (w.answer status outputs) := by
  simp only [Step.Remembers, answer, replies_append, replies_cons_reply, replies_nil,
    List.length_append, List.length_singleton]
  omega

theorem received_remembers (m : Message) :
    Step.Remembers w m.isRequest.toNat (w.received m) := by
  have hquit : ∀ status,
      Step.Remembers w 1 { worker := w, outputs := [.reply (.quit status)] } := by
    intro status
    simp only [Step.Remembers, replies_cons_reply, replies_nil, List.length_singleton]
    omega
  cases m with
  | line text =>
    show Step.Remembers w 1 (w.lineRead text)
    rw [lineRead]
    split
    · exact answer_remembers _ _
    split
    · exact goOn_remembers (.changing _)
    · rw [leave.eq_def]
      split
      · exact answer_remembers _ _
      split
      · exact hquit _
      split
      · exact hquit _
      · exact answer_remembers _ _
    · exact goOn_remembers (.launching _ _)
  | endOfInput => exact goOn_remembers (.collecting true)
  | childChanged => exact goOn_remembers (.collecting false)
  | signal => exact goOn_remembers .listening

theorem directoryChanged_remembers (result : Except DirectoryError String) :
    Step.Remembers w 1 (w.directoryChanged result) := by
  cases result with
  | ok directory => exact answer_remembers _ _
  | error e => exact answer_remembers _ _

/-- A line is answered after its launch, or its job is in the foreground. -/
theorem launched_remembers {text : String} {line : CommandLine}
    {result : Except LaunchError Spawned} (hf : w.foreground = none)
    (hi : ∀ {spawned}, running? result = some spawned → ∀ title background,
      w.jobs.insert? title spawned.group spawned.pids background ≠ none) :
    Step.Remembers w 1 (w.launched text line result) := by
  rcases w.launched_cases text line result with ⟨-, message, h⟩ | ⟨spawned, outputs, hr, ho, h⟩
  · rw [h]
    exact answer_remembers _ _
  rw [h]
  rcases w.started_cases text line spawned ho with
    ⟨hnone, -⟩ | ⟨id, jobs, -, ⟨-, message, h⟩ | ⟨-, hw, -, -⟩⟩
  · exact absurd hnone (hi hr _ _)
  · rw [h]
    exact answer_remembers (w := { w with jobs }) _ _
  · rw [Step.Remembers, hw, hf]
    simp

theorem collected_remembers (ending : Bool) {outputs : List Output} (h : replies outputs = []) :
    Step.Remembers w ending.toNat (w.collected ending outputs) := by
  obtain ⟨hw, -, hr⟩ := w.collected_cases ending h
  rw [Step.Remembers, hw, hr]
  cases ending with
  | false =>
    show w.foreground.isSome.toNat + 0 ≤ 0 + _ + w.foreground.isSome.toNat
    omega
  | true =>
    show w.foreground.isSome.toNat + 1 ≤ 1 + _ + w.foreground.isSome.toNat
    omega

/-- The job in the foreground leaves it only with an answer. -/
theorem polled_remembers (hc : w.jobs.Coherent) (ending : Bool) (poll : Poll) :
    Step.Remembers w ending.toNat (w.polled ending poll) := by
  rcases poll with e | _ | ⟨pid, status⟩
  case error =>
    by_cases he : e = .eintr
    · subst he
      exact goOn_remembers (.collecting ending)
    · obtain ⟨outputs, ho, h⟩ := w.polled_error ending he
      exact h ▸ collected_remembers ending ho
  case ok.none => exact collected_remembers ending rfl
  case ok.some =>
    cases hs : status.isStop with
    | true =>
      obtain ⟨signal, rfl⟩ := WaitStatus.isStop_iff.1 hs
      rw [polled]
      rcases w.processStopped_cases pid with ⟨id, job, hf, -, -, hw, hr⟩ | ⟨-, he⟩
      · simp only [Step.Remembers, hr, hw, hf, Activity.isHandling]
        show 1 + ending.toNat ≤ 1 + ending.toNat + 0
        omega
      · rw [he]
        exact goOn_remembers (.collecting ending)
    | false =>
      rw [polled_of_not_stopped w ending pid hs, Step.Remembers]
      obtain ⟨-, -, ⟨id, job, hf, -, -, -, hf', -, hr⟩ | ⟨-, hf', -, hr⟩⟩ :=
        processEnded_cases hc pid status.code
      · rw [hr, hf, hf']
        show 1 + ending.toNat ≤ 1 + ending.toNat + 0
        omega
      · rw [hr, hf']
        show w.foreground.isSome.toNat + ending.toNat ≤ 0 + ending.toNat + _
        omega

end Worker

namespace System

variable {s s' : System} {e : Event}

theorem owed_take {step : Step} {n : Nat} (hr : step.Remembers s.worker n)
    (hn : s.reader.isWaiting.toNat ≤ s.queued + s.worker.foreground.isSome.toNat + n) :
    (s.take step).reader.isWaiting.toNat ≤ (s.take step).owed := by
  rw [Step.Remembers] at hr
  show s.reader.isWaiting.toNat ≤ s.queued + (replies step.outputs).length +
    (Doing.begin step.worker step.next).isHandling.toNat + step.worker.foreground.isSome.toNat
  rw [Doing.isHandling_begin]
  omega

theorem owed_moves (hs : s.Sound) (ho : s.Owned) (howed : s.reader.isWaiting.toNat ≤ s.owed)
    (m : s.Moves e s') : s'.reader.isWaiting.toNat ≤ s'.owed := by
  unfold owed at howed
  cases m with
  | request prompt h =>
    simp only [owed, queued, List.countP_append, List.countP_singleton, h, if_true,
      Reader.isWaiting, Bool.toNat_true]
    omega
  | hangUp prompt => exact Nat.zero_le _
  | notify h => simpa [owed, queued, Message.isRequest] using howed
  | signal => simpa [owed, queued, Message.isRequest] using howed
  | @receive m rest idle done h =>
    refine owed_take (Worker.received_remembers m) ?_
    have hm : (if m.isRequest = true then 1 else 0) = m.isRequest.toNat := by
      cases m.isRequest <;> rfl
    rw [queued, h, List.countP_cons, hm, done, idle] at howed
    simp only [replies_nil, List.length_nil, Doing.isHandling, Bool.toNat_false] at howed
    show s.reader.isWaiting.toNat ≤
      rest.countP Message.isRequest + s.worker.foreground.isSome.toNat + m.isRequest.toNat
    omega
  | callDirectory h answer =>
    rw [h] at howed
    exact howed
  | @directory directory result done h =>
    refine owed_take (Worker.directoryChanged_remembers result) ?_
    rw [h, done, Doing.isHandling, Bool.toNat_true, replies_nil, List.length_nil] at howed
    omega
  | callLaunch h answer new =>
    rw [h] at howed
    exact howed
  | @launched text line forked result done h =>
    have hf := hs.foreground_eq_none (.inl (by rw [h]; rfl))
    refine owed_take (Worker.launched_remembers hf fun hr title background => ?_) ?_
    · obtain ⟨id, jobs, hi⟩ := ho.exists_insert? hs h hr title background
      simp [hi]
    · rw [h, done, Doing.isHandling, Bool.toNat_true, replies_nil, List.length_nil] at howed
      omega
  | @poll ending p children done h answer =>
    refine owed_take (Worker.polled_remembers hs.coherent ending p.understood) ?_
    rw [h, done, Doing.isHandling, replies_nil, List.length_nil] at howed
    show s.reader.isWaiting.toNat ≤ s.queued + s.worker.foreground.isSome.toNat + ending.toNat
    omega
  | @put o rest silent h =>
    rw [h, replies_cons_of_silent silent] at howed
    exact howed
  | @reply r rest waits h =>
    show r.reader.isWaiting.toNat ≤ _
    rw [Reply.isWaiting_reader]
    exact Nat.zero_le _
  | _ => exact howed

/-- An answer is owed exactly while the reader waits for one. -/
theorem owed_eq {terminalGroup : Option Pid} {operators : OperatorSet} {past : Trace}
    (h : Run (.initial terminalGroup operators) past s) (he : ∀ x ∈ past, x.2.Collects) :
    s.owed = s.reader.isWaiting.toNat := by
  refine Nat.le_antisymm ((sound_initial terminalGroup operators).run h).owed_le ?_
  induction h with
  | start => exact Nat.zero_le _
  | move h m ih =>
    have he' := fun x hx => he x (List.mem_cons_of_mem _ hx)
    exact owed_moves ((sound_initial terminalGroup operators).run h) (Owned.run h he') (ih he') m

end System

/-! ### The processes that the reader waits for -/

namespace Children

variable {c c' : Children} {pid : Pid}

/-- The child runs, or its parent has not been told yet what it does instead. -/
def Fresh (c : Children) (pid : Pid) : Prop := c pid = some .running ∨ c.HasNews pid

theorem Changes.fresh {e : ChildEvent} (h : Changes c e c') (hp : c.Fresh pid) : c'.Fresh pid := by
  have hne : ∀ {q : Pid} {condition : Condition}, pid ≠ q →
      Children.Fresh (Function.update c q (some condition)) pid := by
    intro q condition hq
    simpa only [Fresh, HasNews, Function.update_of_ne hq] using hp
  cases h with
  | @ended q status alive final =>
    by_cases hq : pid = q
    · exact .inr (.inl ⟨status, by simp [hq]⟩)
    · exact hne hq
  | @stopped q signal alive =>
    by_cases hq : pid = q
    · exact .inr (.inr ⟨signal, by simp [hq]⟩)
    · exact hne hq
  | @continued q signal told halted =>
    by_cases hq : pid = q
    · exact .inl (by simp [hq])
    · exact hne hq

theorem Answers.fresh {p : Poll} (h : c.Answers p c') (hp : c.Fresh pid)
    (hq : ∀ status, p ≠ .ok (some (pid, status))) : c'.Fresh pid := by
  have hne : ∀ {q : Pid} {status : WaitStatus} {condition : Option Condition},
      p = .ok (some (q, status)) → Children.Fresh (Function.update c q condition) pid := by
    rintro q status condition rfl
    have hq' : pid ≠ q := by
      rintro rfl
      exact hq status rfl
    simpa only [Fresh, HasNews, Function.update_of_ne hq'] using hp
  cases h with
  | ended _ _ => exact hne rfl
  | stopped _ => exact hne rfl
  | _ => exact hp

end Children

namespace Worker

variable {w : Worker} {ending : Bool} {id : Nat} {job : Job}

/-- A job that stays in the foreground stays in the table. -/
theorem get?_polled_ne_none (hc : w.jobs.Coherent) {poll : Poll}
    (hf : (w.polled ending poll).worker.foreground = some id)
    (hj : w.foreground = some id → w.jobs.get? id ≠ none) :
    (w.polled ending poll).worker.jobs.get? id ≠ none := by
  rcases poll.news_cases with ⟨pid, signal, rfl⟩ | ⟨pid, status, hs, rfl⟩ | hp
  · rw [polled] at hf ⊢
    rcases w.processStopped_cases pid with ⟨id, job, -, -, -, hw, -⟩ | ⟨-, he⟩
    · simp only [hw] at hf
      cases hf
    · rw [he] at hf ⊢
      exact hj hf
  · rw [polled_of_not_stopped w ending pid hs] at hf ⊢
    obtain ⟨hjobs, -, ⟨-, -, -, -, -, -, hf', -⟩ | ⟨hleft, hf', -, -⟩⟩ :=
      processEnded_cases hc pid status.code
    · cases hf'.symm.trans hf
    · replace hf := hf'.symm.trans hf
      obtain ⟨job, hget⟩ := Option.ne_none_iff_exists'.1 (hj hf)
      rw [hjobs]
      by_cases hp : pid ∈ job.pids
      · rw [hc.get?_remove_of_mem _ hget hp, if_neg (hleft id job hf hget hp)]
        exact Option.some_ne_none _
      · rw [hc.get?_remove_of_not_mem _ hget hp]
        exact Option.some_ne_none _
  · rw [(w.polled_of_no_child ending hp).1] at hf ⊢
    exact hj hf

/-- A process that was found to have changed is none of the job that stays in the foreground. -/
theorem not_mem_of_polled (hc : w.jobs.Coherent) {pid : Pid} {status : WaitStatus}
    (hf : (w.polled ending (.ok (some (pid, status)))).worker.foreground = some id)
    (hj : (w.polled ending (.ok (some (pid, status)))).worker.jobs.get? id = some job) :
    pid ∉ job.pids := by
  cases hs : status.isStop with
  | true =>
    obtain ⟨signal, rfl⟩ := WaitStatus.isStop_iff.1 hs
    rw [polled] at hf hj
    rcases w.processStopped_cases pid with ⟨id, job, -, -, -, hw, -⟩ | ⟨hnone, he⟩
    · simp only [hw] at hf
      cases hf
    · rw [he] at hf hj
      exact hnone id job hf hj
  | false =>
    rw [polled_of_not_stopped w ending pid hs] at hj
    rw [(processEnded_cases hc pid status.code).1] at hj
    rcases hc.get?_remove_cases hj with ⟨-, hp⟩ | ⟨before, -, -, rfl, -⟩
    · exact hp
    · exact fun hp => (Job.mem_pids_collect.1 hp).2 rfl

end Worker

namespace System

/-- The reader waits for the process: it has been forked for the line that is being launched, or the
job in the foreground has it. -/
def Awaits (s : System) (pid : Pid) : Prop :=
  pid ∈ s.doing.forked ∨ ∃ id job, s.worker.foreground = some id ∧
    s.worker.jobs.get? id = some job ∧ pid ∈ job.pids

structure Watched (s : System) : Prop where
  foreground : ∀ {id : Nat}, s.worker.foreground = some id → s.worker.jobs.get? id ≠ none
  fresh : ∀ {pid : Pid}, s.Awaits pid → s.children.Fresh pid

namespace Watched

variable {s s' : System} {e : Event}

/-- After a step of the worker the reader waits for the job in the foreground, if at all. -/
theorem take {step : Step}
    (hf : ∀ {id}, step.worker.foreground = some id → step.worker.jobs.get? id ≠ none)
    (hp : ∀ {id job pid}, step.worker.foreground = some id → step.worker.jobs.get? id = some job →
      pid ∈ job.pids → s.children.Fresh pid) : (s.take step).Watched where
  foreground := hf
  fresh {pid} h := by
    rcases h with h | ⟨id, job, hf, hj, hmem⟩
    · replace h : pid ∈ (Doing.begin step.worker step.next).forked := h
      rw [Doing.forked_begin] at h
      cases h
    · exact hp hf hj hmem

theorem take_status (hw : s.Watched) {step : Step} {status : Int}
    (h : step.worker = { s.worker with status }) : (s.take step).Watched := by
  refine take (fun {id} hf => ?_) fun {id job pid} hf hj hp => ?_
  · rw [h] at hf ⊢
    exact hw.foreground hf
  · rw [h] at hf hj
    exact hw.fresh (.inr ⟨id, job, hf, hj, hp⟩)

theorem launched (hw : s.Watched) (hs : s.Sound) {text : String} {line : CommandLine}
    {forked : List Pid} {result : Except LaunchError Spawned}
    (h : s.doing = .launching text line forked (.done result)) :
    (s.take (s.worker.launched text line result)).Watched := by
  have hnone := hs.foreground_eq_none (.inl (by rw [h]; rfl))
  have htake : ∀ {step : Step}, step.worker.foreground = none → (s.take step).Watched := by
    intro step hf
    refine take (fun h => ?_) fun h => ?_
    · cases hf.symm.trans h
    · cases hf.symm.trans h
  rcases s.worker.launched_cases text line result with
    ⟨-, message, he⟩ | ⟨spawned, outputs, hr, ho, he⟩
  · exact htake (he ▸ hnone)
  rw [he]
  rcases s.worker.started_cases text line spawned ho with
    ⟨-, he⟩ | ⟨id, jobs, hi, ⟨-, message, he⟩ | ⟨-, hw', -, -⟩⟩
  · exact htake (he ▸ hnone)
  · exact htake (he ▸ hnone)
  -- The job in the foreground is the new one, which has what was forked for the line.
  obtain ⟨last, hlast, -⟩ := JobTable.insert?_eq_some_iff.1 hi
  have hget := JobTable.get?_insert? hi hlast id
  rw [if_pos rfl] at hget
  refine take (fun {id'} hf => ?_) fun {id' job pid} hf hj hp => hw.fresh (.inl ?_)
  · rw [hw'] at hf ⊢
    cases hf
    simp [hget]
  · rw [hw'] at hf hj
    cases hf
    cases hget.symm.trans hj
    rw [h, ← hs.pids_of_running? h hr]
    exact hp

theorem poll (hw : s.Watched) (hs : s.Sound) {ending : Bool} {p : Poll} {children : Children}
    (answer : s.children.Answers p children) (hp : (Event.poll p).Collects) :
    ({ s with children }.take (s.worker.polled ending p.understood)).Watched := by
  rw [hp.understood_eq]
  refine take (fun {id} hf => ?_) fun {id job pid} hf hj hmem => ?_
  · exact Worker.get?_polled_ne_none hs.coherent hf fun hf => hw.foreground hf
  · obtain ⟨hf', before, hj', hsub⟩ := Worker.polled_foreground hs.coherent ending hf hj
    refine answer.fresh (hw.fresh (.inr ⟨id, before, hf', hj', hsub pid hmem⟩)) ?_
    rintro status rfl
    exact Worker.not_mem_of_polled hs.coherent hf hj hmem

theorem moves (hw : s.Watched) (hs : s.Sound) (he : e.Collects) (m : s.Moves e s') :
    s'.Watched := by
  cases m with
  | child h => exact ⟨hw.foreground, fun hp => h.fresh (hw.fresh hp)⟩
  | @receive m rest idle done h =>
    obtain ⟨status, hm⟩ := s.worker.received_worker m
    exact take_status (s := { s with inbox := rest }) ⟨hw.foreground, hw.fresh⟩ hm
  | callDirectory h answer =>
    exact ⟨hw.foreground, fun hp => hw.fresh (.inr (hp.resolve_left List.not_mem_nil))⟩
  | @directory directory result done h =>
    obtain ⟨status, hm⟩ := s.worker.directoryChanged_worker result
    exact hw.take_status hm
  | @callLaunch text line forked r next h answer new =>
    refine ⟨hw.foreground, fun {pid} hp => ?_⟩
    by_cases hnew : pid ∈ r.forked answer
    · exact .inl (if_pos hnew)
    · have hsame : s.children.start (r.forked answer) pid = s.children pid := if_neg hnew
      have hfresh : s.children.Fresh pid := by
        refine hw.fresh (hp.imp_left fun hmem => ?_)
        rw [h]
        exact (List.mem_append.1 hmem).resolve_right hnew
      simpa only [Children.Fresh, Children.HasNews, hsame] using hfresh
  | launched done h => exact hw.launched hs h
  | poll done h answer => exact hw.poll hs answer he
  | _ => exact ⟨hw.foreground, hw.fresh⟩

theorem run {terminalGroup : Option Pid} {operators : OperatorSet} {past : Trace}
    (h : Run (.initial terminalGroup operators) past s) (he : ∀ x ∈ past, x.2.Collects) :
    s.Watched := by
  induction h with
  | start =>
    refine ⟨nofun, fun {pid} hp => ?_⟩
    rcases hp with hp | ⟨id, job, hf, -⟩
    · cases hp
    · cases hf
  | move h m ih =>
    have he' := fun x hx => he x (List.mem_cons_of_mem _ hx)
    refine (ih he').moves ((sound_initial terminalGroup operators).run h) ?_ m
    exact he _ List.mem_cons_self

end Watched

end System

/-! ### News of children -/

/-- Some child has ended or stopped since a notice was passed on last. -/
def Trace.unannounced : Trace → Bool
  | [] => false
  | (_, .child (.ended _ _)) :: _ => true
  | (_, .child (.stopped _ _)) :: _ => true
  | (_, .notify) :: _ => false
  | _ :: past => unannounced past

/-- The worker goes on looking while there is news. -/
theorem Worker.polled_next_of_news (w : Worker) {ending : Bool} {p : Poll}
    {children children' : Children} {pid : Pid} (hp : (Event.poll p).Collects)
    (answer : children.Answers p children') (news : children'.HasNews pid) :
    (w.polled ending p).next = .collecting ending := by
  cases answer with
  | ended _ final => rw [polled_of_not_stopped w ending _ final]
  | stopped _ => rfl
  | quiet _ no_news => exact absurd news (no_news pid)
  | childless no_child => simp [Children.HasNews, no_child] at news
  | @failed e h =>
    obtain rfl | rfl := hp e rfl
    · exact absurd rfl h
    · rfl

/-- News of a child reaches the worker. -/
structure Alert (past : Trace) (s : System) : Prop where
  /-- A notice that is due has been given. -/
  notice : unannounced past = true → s.notice = true
  news : ∀ {pid : Pid}, s.children.HasNews pid → unannounced past = true ∨
    .childChanged ∈ s.inbox ∨ ∃ ending, s.doing = .collecting ending

namespace Alert

variable {past : Trace} {s s' : System} {e : Event}

/-- The worker does something that has nothing to do with children. -/
theorem unconcerned (ha : Alert past s) (hd : ∀ ending, s.doing ≠ .collecting ending)
    {past' : Trace} (hpast : unannounced past' = unannounced past)
    (hnotice : s'.notice = s.notice) (hinbox : s'.inbox = s.inbox)
    (hchildren : ∀ pid, s'.children.HasNews pid → s.children.HasNews pid) : Alert past' s' where
  notice := by
    rw [hpast, hnotice]
    exact ha.notice
  news {pid} hn := by
    rw [hpast, hinbox]
    refine (ha.news (hchildren pid hn)).imp_right fun hn => .inl (hn.resolve_right ?_)
    rintro ⟨ending, h⟩
    exact hd ending h

theorem moves (ha : Alert past s) (he : e.Collects) (m : s.Moves e s') :
    Alert ((s, e) :: past) s' := by
  cases m with
  | request prompt h =>
    refine ⟨ha.notice, fun hn => (ha.news hn).imp_right fun hn => ?_⟩
    exact hn.imp_left (List.mem_append_left _)
  | child h =>
    cases h with
    | ended alive final => exact ⟨fun _ => rfl, fun _ => .inl rfl⟩
    | stopped alive => exact ⟨fun _ => rfl, fun _ => .inl rfl⟩
    | @continued q signal told halted =>
      refine ⟨fun _ => rfl, fun {pid} hn => ?_⟩
      have hold : s.children.HasNews pid := by
        by_cases hp : pid = q
        · simp [Children.HasNews, hp] at hn
        · simpa only [Children.HasNews, Function.update_of_ne hp] using hn
      exact ha.news hold
  | nudge => exact ⟨fun _ => rfl, ha.news⟩
  | notify h => exact ⟨nofun, fun _ => .inr (.inl (by simp))⟩
  | signal =>
    refine ⟨ha.notice, fun hn => (ha.news hn).imp_right fun hn => ?_⟩
    exact hn.imp_left (List.mem_append_left _)
  | @receive m rest idle done h =>
    refine ⟨ha.notice, fun hn => (ha.news hn).imp_right fun hn => ?_⟩
    rcases hn with hn | ⟨ending, hd⟩
    · rw [h] at hn
      rcases List.mem_cons.1 hn with rfl | hn
      · exact .inr ⟨false, rfl⟩
      · exact .inl hn
    · cases idle.symm.trans hd
  | callDirectory h answer => exact ha.unconcerned (by simp [h]) rfl rfl rfl fun _ h => h
  | directory done h => exact ha.unconcerned (by simp [h]) rfl rfl rfl fun _ h => h
  | @callLaunch text line forked r next h answer new =>
    refine ha.unconcerned (by simp [h]) rfl rfl rfl fun pid hn => ?_
    by_cases hnew : pid ∈ r.forked answer
    · simp [Children.HasNews, Children.start, hnew] at hn
    · simpa only [Children.HasNews, Children.start, if_neg hnew] using hn
  | launched done h => exact ha.unconcerned (by simp [h]) rfl rfl rfl fun _ h => h
  | @poll ending p children done h answer =>
    refine ⟨ha.notice, fun {pid} hn => .inr (.inr ⟨ending, ?_⟩)⟩
    show Doing.begin _ (s.worker.polled ending p.understood).next = .collecting ending
    rw [he.understood_eq, s.worker.polled_next_of_news he answer hn]
    rfl
  | _ => exact ⟨ha.notice, ha.news⟩

theorem run {terminalGroup : Option Pid} {operators : OperatorSet}
    (h : Run (.initial terminalGroup operators) past s) (he : ∀ x ∈ past, x.2.Collects) :
    Alert past s := by
  induction h with
  | start => exact ⟨nofun, fun hn => by simp [System.initial, Children.HasNews] at hn⟩
  | move h m ih =>
    exact (ih fun x hx => he x (List.mem_cons_of_mem _ hx)).moves (he _ List.mem_cons_self) m

end Alert

/-- **No wakeup is lost.**  If looking for children does not fail, then while the reader waits the
worker is busy or has something to put out, a message is in the queue, a child has ended or stopped
and the notice of it is still to be passed on, or there is a job in the foreground with a process,
and all its processes run. -/
theorem awake_of_waiting {terminalGroup : Option Pid} {operators : OperatorSet} {past : Trace}
    {s : System} (h : Run (.initial terminalGroup operators) past s)
    (collects : ∀ x ∈ past, x.2.Collects) (waits : s.reader = .waiting) :
    s.doing ≠ .listening ∨ s.outbox ≠ [] ∨ s.inbox ≠ [] ∨
      (unannounced past = true ∧ s.notice = true) ∨
      ∃ id job, s.worker.foreground = some id ∧ s.worker.jobs.get? id = some job ∧
        job.pids ≠ [] ∧ ∀ pid ∈ job.pids, s.children pid = some .running := by
  have hs := (System.sound_initial terminalGroup operators).run h
  have hw := System.Watched.run h collects
  have ha := Alert.run h collects
  by_contra hnot
  simp only [not_or, not_not, not_exists, not_and] at hnot
  obtain ⟨hd, ho, hi, hu, hnone⟩ := hnot
  have howed := System.owed_eq h collects
  rw [System.owed, System.queued, hd, ho, hi, waits] at howed
  -- Only the job in the foreground is left to answer for.
  obtain ⟨id, hf⟩ : ∃ id, s.worker.foreground = some id := by
    rw [← Option.isSome_iff_exists]
    by_contra hf
    simp [hf, Doing.isHandling, Reader.isWaiting] at howed
  obtain ⟨job, hj⟩ := Option.ne_none_iff_exists'.1 (hw.foreground hf)
  refine hnone id job hf hj (hs.coherent.inhabited hj) fun pid hp => ?_
  refine (hw.fresh (.inr ⟨id, job, hf, hj, hp⟩)).resolve_right fun hnews => ?_
  rcases ha.news hnews with hn | hn | ⟨ending, hn⟩
  · exact hu hn (ha.notice hn)
  · rw [hi] at hn
    cases hn
  · cases hd.symm.trans hn

theorem awake_of_partly_started : ∃ (past : Trace) (s : System),
    Run (.initial none .full) past s ∧ (∀ x ∈ past, x.2.Collects) ∧ s.reader = .waiting ∧
      s.doing = .listening ∧ s.outbox = [] ∧ s.inbox = [] ∧ s.notice = false ∧
      ∃ id job, s.worker.foreground = some id ∧ s.worker.jobs.get? id = some job ∧
        job.pids ≠ [] ∧ ∀ pid ∈ job.pids, s.children pid = some .running := by
  obtain ⟨past, s, h, collects, -, -, waits, hd, ho, hi, hn⟩ := Run.exists_partly_started
  refine ⟨past, s, h, collects, waits, hd, ho, hi, hn, ?_⟩
  rcases awake_of_waiting h collects waits with h | h | h | ⟨-, h⟩ | h
  · exact absurd hd h
  · exact absurd ho h
  · exact absurd hi h
  · cases hn.symm.trans h
  · exact h

end PipelineShell
