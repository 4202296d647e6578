/-
What becomes of a child that has ended.

The shell takes the process out of its table when it is told that it has ended,
and answers the reader when this was the last process of the job in the
foreground.  But a child that a signal without a name has ended is collected
too, and only the shell does not learn which one it was.

* `WaitStatus.isNameless` — such an end;
* `System.Settled` — a process that has been collected, and what the table says
  of it: that does not change any more;
* `System.Deserted` — the job in the foreground has processes, but none of them
  is a child any more: nobody is answered from then on;
* `System.ended_accounted` — what becomes of a child, by the way it has ended;
* `Run.exists_unaccounted` — there are runs in which the reader waits for ever.

Design notes: both invariants are about what comes after a child has been
collected, whatever that may be, so nothing is assumed of the run before.
-/
import PipelineShell.Proofs.Foreground
import PipelineShell.Proofs.Handling
import PipelineShell.Proofs.Status

namespace PipelineShell

open Output

/-! ### What is told of a child that has ended -/

/-- A signal without a name has ended the process; the last one with a name is 31. -/
def WaitStatus.isNameless : WaitStatus → Bool
  | .killed signal => 31 < signal.number
  | _ => false

namespace Poll

variable {pid : Pid} {status : WaitStatus}

theorem understood_of_nameless (h : status.isNameless = true) :
    understood (.ok (some (pid, status))) = .error .einval := by
  cases status with
  | killed signal => exact if_pos h
  | _ => cases h

theorem understood_of_named (h : status.isNameless = false) :
    understood (.ok (some (pid, status))) = .ok (some (pid, status)) := by
  cases status with
  | killed signal => exact if_neg (by simpa [WaitStatus.isNameless, Signal.isRealTime] using h)
  | _ => rfl

/-- Nothing is understood that has not been told. -/
theorem eq_of_understood {p : Poll} (h : p.understood = .ok (some (pid, status))) :
    p = .ok (some (pid, status)) := by
  rcases p with e | _ | ⟨q, status'⟩
  case error => cases h
  case ok.none => cases h
  case ok.some =>
    cases hn : status'.isNameless with
    | true => cases (understood_of_nameless hn).symm.trans h
    | false => exact (understood_of_named hn).symm.trans h

end Poll

namespace Children

variable {c c' : Children} {p : Poll} {pid : Pid}

theorem Answers.ne_none {status : WaitStatus} (h : c.Answers p c')
    (hp : p = .ok (some (pid, status))) : c pid ≠ none := by
  subst hp
  cases h with
  | ended news _ => simp [news]
  | stopped news => simp [news]

/-- Nobody is told of a child that has been collected. -/
theorem Answers.eq_none (h : c.Answers p c') (hc : c pid = none) : c' pid = none := by
  have hne : ∀ {q : Pid} {condition new : Option Condition}, c q = condition → condition ≠ none →
      Function.update c q new pid = none := by
    intro q condition new hq hsome
    have hpid : pid ≠ q := by
      rintro rfl
      exact hsome (hq.symm.trans hc)
    rw [Function.update_of_ne hpid, hc]
  cases h with
  | ended news _ => exact hne news (Option.some_ne_none _)
  | stopped news => exact hne news (Option.some_ne_none _)
  | _ => exact hc

end Children

/-! ### What the steps of a worker leave as it is -/

namespace Worker

variable {w : Worker} {p : Poll} {pid : Pid}

/-- Looking for children takes a process from the table only if it has ended. -/
theorem owner?_polled (hc : w.jobs.Coherent) (ending : Bool)
    (hp : ∀ status, p ≠ .ok (some (pid, status))) :
    (w.polled ending p).worker.jobs.owner? pid = w.jobs.owner? pid := by
  rcases jobs_polled_cases hc ending p with h | ⟨id, h⟩ | ⟨q, status, rfl, h⟩
  · rw [h]
  · rw [h, JobTable.owner?_setBackground]
  · have hne : pid ≠ q := by
      rintro rfl
      exact hp status rfl
    rw [h, hc.owner?_remove, if_neg hne]

/-- A launch brings only its own processes into the table. -/
theorem owner?_launched (text : String) (line : CommandLine) {result : Except LaunchError Spawned}
    (h : ∀ {spawned}, running? result = some spawned → pid ∉ spawned.pids) :
    (w.launched text line result).worker.jobs.owner? pid = w.jobs.owner? pid := by
  rcases w.jobs_launched_cases text line result with he | ⟨spawned, id, hr, hi⟩
  · rw [he]
  · exact (JobTable.owner?_insert? hi pid).trans (if_neg (h hr))

/-- News of other processes are no business of the job in the foreground. -/
theorem polled_of_not_mem (hc : w.jobs.Coherent) (ending : Bool) {id : Nat} {job : Job}
    (hf : w.foreground = some id) (hj : w.jobs.get? id = some job)
    (hp : ∀ pid status, p = .ok (some (pid, status)) → pid ∉ job.pids) :
    (w.polled ending p).worker.foreground = some id ∧
      (w.polled ending p).worker.jobs.get? id = some job := by
  rcases p.news_cases with ⟨q, signal, rfl⟩ | ⟨q, status, final, rfl⟩ | hnone
  · rw [polled]
    rcases w.processStopped_cases q with ⟨id', job', hf', hj', hmem, -⟩ | ⟨-, he⟩
    · obtain rfl := Option.some.inj (hf.symm.trans hf')
      obtain rfl := Option.some.inj (hj.symm.trans hj')
      exact absurd hmem (hp q _ rfl)
    · rw [he]
      exact ⟨hf, hj⟩
  · rw [polled_of_not_stopped w ending q final]
    obtain ⟨hjobs, -, ⟨id', job', hf', hj', hmem, -⟩ | ⟨-, hf', -⟩⟩ :=
      processEnded_cases hc q status.code
    · obtain rfl := Option.some.inj (hf.symm.trans hf')
      obtain rfl := Option.some.inj (hj.symm.trans hj')
      exact absurd hmem (hp q _ rfl)
    · refine ⟨hf'.trans hf, ?_⟩
      show (w.processEnded q status.code).1.jobs.get? id = some job
      rw [hjobs]
      exact hc.get?_remove_of_not_mem _ hj (hp q _ rfl)
  · rw [(w.polled_of_no_child ending hnone).1]
    exact ⟨hf, hj⟩

end Worker

namespace System

variable {s s' s₁ : System} {e : Event} {past later : Trace}

/-! ### A process that has been collected -/

/-- The process is no child any more, and this is the job that has it, if any. -/
structure Settled (s : System) (pid : Pid) (owner : Option Nat) : Prop where
  gone : s.children pid = none
  unforked : pid ∉ s.doing.forked
  owner : s.worker.jobs.owner? pid = owner

namespace Settled

variable {pid : Pid} {owner : Option Nat}

theorem take {step : Step} (gone : s.children pid = none)
    (howner : step.worker.jobs.owner? pid = owner) : (s.take step).Settled pid owner where
  gone := gone
  unforked := by
    show pid ∉ (Doing.begin step.worker step.next).forked
    simp
  owner := howner

theorem moves (h : s.Settled pid owner) (hs : s.Sound) (m : s.Moves e s')
    (he : pid ∉ e.forked) : s'.Settled pid owner := by
  cases m with
  | child hc => exact ⟨(hc.eq_none_iff pid).2 h.gone, h.unforked, h.owner⟩
  | @receive m rest idle done hm =>
    obtain ⟨status, hw⟩ := s.worker.received_worker m
    refine take (s := { s with inbox := rest }) h.gone ?_
    show (s.worker.received m).worker.jobs.owner? pid = owner
    rw [hw]
    exact h.owner
  | callDirectory hd answer => exact ⟨h.gone, fun hp => (List.not_mem_nil hp).elim, h.owner⟩
  | @directory directory result done hd =>
    obtain ⟨status, hw⟩ := s.worker.directoryChanged_worker result
    refine take h.gone ?_
    show (s.worker.directoryChanged result).worker.jobs.owner? pid = owner
    rw [hw]
    exact h.owner
  | @callLaunch text line forked r next hd answer new =>
    have hforked : pid ∉ forked := by
      have := h.unforked
      rwa [hd] at this
    refine ⟨(if_neg he).trans h.gone, fun hp => ?_, h.owner⟩
    exact (List.mem_append.1 hp).elim hforked he
  | @launched text line forked result done hd =>
    refine take h.gone ((Worker.owner?_launched text line fun hr => ?_).trans h.owner)
    have := h.unforked
    rwa [hd, Doing.forked, ← hs.pids_of_running? hd hr] at this
  | @poll ending p children done hd answer =>
    refine take (s := { s with children }) (answer.eq_none h.gone) ?_
    refine (Worker.owner?_polled hs.coherent ending fun status hp => ?_).trans h.owner
    exact answer.ne_none (Poll.eq_of_understood hp) h.gone
  | _ => exact ⟨h.gone, h.unforked, h.owner⟩

theorem run (h : s₁.Settled pid owner) (hs : s₁.Sound) (hlater : Run s₁ later s')
    (hnew : pid ∉ later.forked) : s'.Settled pid owner := by
  induction hlater with
  | start => exact h
  | move hlater m ih =>
    rw [Trace.forked_cons, List.mem_append, not_or] at hnew
    exact (ih hnew.1).moves (hs.run hlater) m hnew.2

end Settled

/-! ### A job without children -/

/-- The job in the foreground has processes, but they have all been collected. -/
structure Deserted (s : System) (id : Nat) (job : Job) : Prop where
  foreground : s.worker.foreground = some id
  entry : s.worker.jobs.get? id = some job
  gone : ∀ pid ∈ job.pids, s.children pid = none

namespace Deserted

variable {id : Nat} {job : Job}

theorem moves (h : s.Deserted id job) (hs : s.Sound) (m : s.Moves e s') :
    s'.Deserted id job := by
  have hidle : ¬ (s.doing.isHandling = true ∨ 0 < s.queued) := fun hd => by
    cases (hs.foreground_eq_none hd).symm.trans h.foreground
  have hdoing : s.doing.isHandling ≠ true := fun hd => hidle (.inl hd)
  cases m with
  | child hc =>
    exact ⟨h.foreground, h.entry, fun pid hp => (hc.eq_none_iff pid).2 (h.gone pid hp)⟩
  | @receive m rest idle done hm =>
    obtain ⟨status, hw⟩ := s.worker.received_worker m
    refine ⟨?_, ?_, h.gone⟩
    · show (s.worker.received m).worker.foreground = some id
      rw [hw]
      exact h.foreground
    · show (s.worker.received m).worker.jobs.get? id = some job
      rw [hw]
      exact h.entry
  | callDirectory hd answer => exact absurd (by rw [hd]; rfl) hdoing
  | directory done hd => exact absurd (by rw [hd]; rfl) hdoing
  | callLaunch hd answer new => exact absurd (by rw [hd]; rfl) hdoing
  | launched done hd => exact absurd (by rw [hd]; rfl) hdoing
  | @poll ending p children done hd answer =>
    obtain ⟨hf, hj⟩ := Worker.polled_of_not_mem hs.coherent ending h.foreground h.entry
      (p := p.understood) fun pid status hp hmem =>
        answer.ne_none (Poll.eq_of_understood hp) (h.gone pid hmem)
    exact ⟨hf, hj, fun pid hp => answer.eq_none (h.gone pid hp)⟩
  | _ => exact ⟨h.foreground, h.entry, h.gone⟩

/-- Nobody is answered any more. -/
theorem run (h : s₁.Deserted id job) (hs : s₁.Sound) (hlater : Run s₁ later s') :
    s'.Deserted id job ∧ later.answers = [] := by
  induction hlater with
  | start => exact ⟨h, rfl⟩
  | @move later s s' e hlater m ih =>
    obtain ⟨hd, hnone⟩ := ih
    have hs := hs.run hlater
    refine ⟨hd.moves hs m, ?_⟩
    cases m with
    | @reply r rest waits hout =>
      obtain ⟨-, -, -, -, hf⟩ := hs.of_offered (by rw [hout]; exact List.cons_ne_nil _ _)
      cases hf.symm.trans hd.foreground
    | _ => exact hnone

end Deserted

/-! ### How a child has ended -/

/-- When the last process of the job in the foreground has ended, the status of the job is the
answer, if the shell understands how it has ended. -/
theorem promises_of_last (hc : s.worker.jobs.Coherent) (ending : Bool) (children : Children)
    {id : Nat} {job : Job} {pid : Pid} {status : WaitStatus} (final : status.isStop = false)
    (named : status.isNameless = false) (hf : s.worker.foreground = some id)
    (hj : s.worker.jobs.get? id = some job) (hp : pid ∈ job.pids)
    (hlast : ∀ q ∈ job.pids, q = pid) :
    ∃ n : Int, (pid = job.last → status.final? = some n) ∧
      (pid ≠ job.last → job.status = some n) ∧
      Promises (.resume n) [] ({ s with children }.take
        (s.worker.polled ending (Poll.understood (.ok (some (pid, status)))))) := by
  have hnil : (job.collect pid status.code).pids = [] := by
    refine List.eq_nil_iff_forall_not_mem.2 fun q hq => ?_
    obtain ⟨hmem, hne⟩ := Job.mem_pids_collect.1 hq
    exact hne (hlast q hmem)
  obtain ⟨n, hstatus⟩ := hc.exists_status hj hnil
  refine ⟨n, fun he => ?_, fun hne => ?_, .offered rfl ?_⟩
  · exact WaitStatus.final?_eq_some_iff.2
      ⟨final, (Option.some.inj ((if_pos he).symm.trans hstatus)).symm⟩
  · exact (if_neg hne).symm.trans hstatus
  · rw [Poll.understood_of_named named, Worker.polled_of_not_stopped _ _ _ final]
    obtain ⟨-, -, ⟨id', job', hf', hj', -, -, -, -, hr⟩ | ⟨hmore, -⟩⟩ :=
      Worker.processEnded_cases hc pid status.code
    · obtain rfl := Option.some.inj (hf.symm.trans hf')
      obtain rfl := Option.some.inj (hj.symm.trans hj')
      rw [hstatus, Option.getD_some] at hr
      exact hr
    · exact absurd hnil (hmore id job hf hj hp)

/-- The job in the foreground has no children left, but it has a process left: this one, if it is
not understood how it has ended, or another one. -/
theorem exists_deserted (hc : s.worker.jobs.Coherent) (ending : Bool) {id : Nat} {job : Job}
    {pid : Pid} {status : WaitStatus} {children : Children} (final : status.isStop = false)
    (hf : s.worker.foreground = some id) (hj : s.worker.jobs.get? id = some job)
    (hp : pid ∈ job.pids) (hgone : ∀ q ∈ job.pids, children q = none)
    (hleft : status.isNameless = true ∨ ∃ q ∈ job.pids, q ≠ pid) :
    ∃ job', Deserted ({ s with children }.take
      (s.worker.polled ending (Poll.understood (.ok (some (pid, status)))))) id job' := by
  cases hn : status.isNameless with
  | true =>
    have hw : (s.worker.polled ending (.error .einval)).worker = s.worker :=
      (s.worker.polled_of_no_child ending fun _ _ h => by cases h).1
    refine ⟨job, ?_, ?_, hgone⟩
    · rw [Poll.understood_of_nameless hn]
      show (s.worker.polled ending (.error .einval)).worker.foreground = some id
      rw [hw, hf]
    · rw [Poll.understood_of_nameless hn]
      show (s.worker.polled ending (.error .einval)).worker.jobs.get? id = some job
      rw [hw, hj]
  | false =>
    obtain ⟨q, hq, hne⟩ := hleft.resolve_left (by simp [hn])
    have hnil : (job.collect pid status.code).pids ≠ [] :=
      List.ne_nil_of_mem (Job.mem_pids_collect.2 ⟨hq, hne⟩)
    rw [Poll.understood_of_named hn, Worker.polled_of_not_stopped _ _ _ final]
    obtain ⟨hjobs, -, ⟨id', job', hf', hj', -, hnil', -⟩ | ⟨-, hf', -⟩⟩ :=
      Worker.processEnded_cases hc pid status.code
    · obtain rfl := Option.some.inj (hf.symm.trans hf')
      obtain rfl := Option.some.inj (hj.symm.trans hj')
      exact absurd hnil' hnil
    · refine ⟨job.collect pid status.code, hf'.trans hf, ?_, fun r hr => ?_⟩
      · show (s.worker.processEnded pid status.code).1.jobs.get? id = _
        rw [hjobs, hc.get?_remove_of_mem _ hj hp, if_neg hnil]
      · exact hgone r (Job.mem_pids_collect.1 hr).1

/-- What the table says of a process that is found to have ended. -/
theorem settled_of_ended (hc : s.worker.jobs.Coherent) (ending : Bool) {pid : Pid}
    {status : WaitStatus} {children : Children} (final : status.isStop = false)
    (answer : s.children.Answers (.ok (some (pid, status))) children) :
    Settled ({ s with children }.take
        (s.worker.polled ending (Poll.understood (.ok (some (pid, status)))))) pid
      (if status.isNameless then s.worker.jobs.owner? pid else none) := by
  have hgone : children pid = none := by
    rw [(answer.of_ended final).2, Function.update_self]
  refine Settled.take (s := { s with children }) hgone ?_
  cases hn : status.isNameless with
  | true =>
    rw [Poll.understood_of_nameless hn]
    exact Worker.owner?_polled hc ending fun _ h => by cases h
  | false =>
    rw [Poll.understood_of_named hn, Worker.polled_of_not_stopped _ _ _ final]
    show (s.worker.processEnded pid status.code).1.jobs.owner? pid = none
    rw [(Worker.processEnded_cases hc pid status.code).1, hc.owner?_remove, if_pos rfl]

/-- **What becomes of a child that has ended.**  Once the shell has collected it, no job has the
process any more, unless a signal without a name has ended it: then the table stays as it is.  If
no process of the job in the foreground is a child any more, then the reader waits and is answered
next: the status of this process (its exit code, or 128 and the number of the signal) if it was the
one of the last stage, and otherwise the status that the last stage had ended with.  But if a signal
without a name has ended it, or the job has another process left, then the reader is not answered at
all.  Another process can be left only where looking for children has failed before. -/
theorem ended_accounted {terminalGroup : Option Pid} {operators : OperatorSet} {pid : Pid}
    {status : WaitStatus} (h : Run (.initial terminalGroup operators) past s)
    (m : s.Moves (.poll (.ok (some (pid, status)))) s₁) (final : status.isStop = false)
    (hlater : Run s₁ later s') :
    (pid ∉ later.forked → s'.children pid = none ∧
      s'.worker.jobs.owner? pid =
        if status.isNameless then s.worker.jobs.owner? pid else none) ∧
    ∀ id job, s.worker.foreground = some id → s.worker.jobs.get? id = some job →
      pid ∈ job.pids → (∀ q ∈ job.pids, s₁.children q = none) →
        (status.isNameless = false → (∀ q ∈ job.pids, q = pid) →
          ∃ n : Int, (pid = job.last → status.final? = some n) ∧
            (pid ≠ job.last → job.status = some n) ∧ s₁.reader = .waiting ∧
            Promises (.resume n) later s') ∧
        (status.isNameless = true ∨ (∃ q ∈ job.pids, q ≠ pid) →
          s'.reader = .waiting ∧ later.answers = []) ∧
        ((∀ x ∈ past, x.2.Collects) → ∀ q ∈ job.pids, q = pid) := by
  have hs := (sound_initial terminalGroup operators).run h
  have hs₁ := hs.moves m
  cases m with
  | @poll ending p children done hd answer =>
    refine ⟨fun hnew => ?_, fun id job hf hj hp hgone => ⟨fun named hlast => ?_, fun hleft => ?_,
      fun collects q hq => ?_⟩⟩
    · have hsettled := (settled_of_ended hs.coherent ending final answer).run hs₁ hlater hnew
      exact ⟨hsettled.gone, hsettled.owner⟩
    · obtain ⟨n, hcode, hstatus, hpromise⟩ :=
        promises_of_last hs.coherent ending children final named hf hj hp hlast
      exact ⟨n, hcode, hstatus, hs.waiting_of_foreground hf, hpromise.run hlater⟩
    · obtain ⟨job', hdeserted⟩ := exists_deserted hs.coherent ending final hf hj hp hgone hleft
      obtain ⟨hdeserted', hnone⟩ := hdeserted.run hs₁ hlater
      exact ⟨(hs₁.run hlater).waiting_of_foreground hdeserted'.foreground, hnone⟩
    -- A process of a job is a child as long as looking for children does not fail.
    · by_contra hne
      have howner : s.worker.jobs.owner? q = some id := hs.coherent.owned.2 ⟨job, hj, hq⟩
      have hchild : s.children q ≠ none :=
        ((Owned.run h collects).child_iff q).2 (.inl (howner ▸ Option.some_ne_none id))
      have hgone' : children q = none := hgone q hq
      rw [(answer.of_ended final).2, Function.update_of_ne hne] at hgone'
      exact hchild hgone'

end System

/-- There are runs in which a signal ends a child: here a line is asked, a signal ends its only
stage, and the shell is told so. -/
theorem Run.exists_killed (signal : Signal) : ∃ (past : Trace) (s s₁ : System) (job : Job),
    Run (.initial none .full) past s ∧ past.requests = [.line "a"] ∧ past.answers = [] ∧
      s.Moves (.poll (.ok (some (7, .killed signal)))) s₁ ∧ (∀ pid, s₁.children pid = none) ∧
      s.worker.foreground = some 1 ∧ s.worker.jobs.get? 1 = some job ∧ job.pids = [7] ∧
      job.last = 7 := by
  have hparse : CommandLine.parse "a" .full = .ok ⟨Pipeline.ofWords [.literal "a"], {}⟩ := by
    decide +kernel
  have asked : Run (.initial none .full) [(_, .request (.line "a"))] _ :=
    start.move (.request rfl rfl)
  have received := asked.move (.receive_line rfl rfl rfl hparse rfl)
  have forked := received.move (.callLaunch (r := .fork _) rfl (.ok 7) fun _ _ => rfl)
  have grouped := forked.move (.callLaunch (r := .setGroup 7 0) rfl (.ok ()) fun _ h => by cases h)
  have launched := grouped.move (.launched rfl rfl)
  have killed : Run _ ((_, .child (.ended 7 (.killed signal))) :: _) _ :=
    launched.move (.child (.ended (.inl rfl) rfl))
  -- Only the stage has ever been a child, and it has been collected.
  have hgone : ∀ pid, Function.update (Function.update (Children.start (Children.start
      (fun _ => none) [7]) []) 7 (some (.ended (.killed signal)))) 7 none pid = none := by
    intro pid
    by_cases hp : pid = 7 <;> simp [Children.start, hp]
  exact ⟨_, _, _, _, killed, rfl, rfl, .poll rfl rfl (.ended rfl rfl), hgone, rfl, rfl, rfl, rfl⟩

/-- The child has been killed, and this is the answer. -/
theorem System.ended_accounted_killed : ∃ (past : Trace) (s s₁ : System),
    Run (.initial none .full) past s ∧
      s.Moves (.poll (.ok (some (7, .killed .kill)))) s₁ ∧ s₁.worker.jobs.owner? 7 = none ∧
      s₁.reader = .waiting ∧ System.Promises (.resume 137) [] s₁ := by
  obtain ⟨past, s, s₁, job, h, -, -, m, hgone, hf, hj, hpids, hlast⟩ := Run.exists_killed .kill
  obtain ⟨htable, hjob⟩ := ended_accounted h m rfl .start
  obtain ⟨-, howner⟩ := htable List.not_mem_nil
  have hmem : ∀ q, q ∈ job.pids ↔ q = 7 := fun q => by rw [hpids, List.mem_singleton]
  obtain ⟨n, hcode, -, hwaits, hpromise⟩ := (hjob 1 job hf hj ((hmem 7).2 rfl)
    fun q _ => hgone q).1 rfl fun q hq => (hmem q).1 hq
  obtain rfl : (137 : Int) = n := Option.some.inj (hcode hlast.symm)
  exact ⟨past, s, s₁, h, m, howner, hwaits, hpromise⟩

/-- **A reader can wait for ever.**  Here a real-time signal ends the only stage of a line: it is no
child any more, but its job is still in the foreground and has it, and whatever happens nobody is
answered. -/
theorem Run.exists_unaccounted : ∃ (past : Trace) (s s₁ : System),
    Run (.initial none .full) past s ∧ past.requests = [.line "a"] ∧ past.answers = [] ∧
      s.Moves (.poll (.ok (some (7, .killed ⟨34, by decide⟩)))) s₁ ∧
      (∀ pid, s₁.children pid = none) ∧
      s₁.worker.foreground = some 1 ∧ s₁.worker.jobs.owner? 7 = some 1 ∧
      ∀ later s', Run s₁ later s' → s'.reader = .waiting ∧ later.answers = [] := by
  obtain ⟨past, s, s₁, job, h, hrequests, hanswers, m, hgone, hf, hj, hpids, -⟩ :=
    Run.exists_killed ⟨34, by decide⟩
  have hs := (System.sound_initial none .full).run h
  have hs₁ := hs.moves m
  have hp : (7 : Pid) ∈ job.pids := by rw [hpids, List.mem_singleton]
  obtain ⟨⟨job', hdeserted⟩, howner⟩ :
      (∃ job', s₁.Deserted 1 job') ∧ s₁.worker.jobs.owner? 7 = some 1 := by
    cases m with
    | @poll ending p children done hd answer =>
      refine ⟨System.exists_deserted hs.coherent ending rfl hf hj hp (fun q _ => hgone q)
        (.inl rfl), ?_⟩
      exact (System.settled_of_ended hs.coherent ending rfl answer).owner.trans
        (hs.coherent.owned.2 ⟨job, hj, hp⟩)
  refine ⟨past, s, s₁, h, hrequests, hanswers, m, hgone, hdeserted.foreground,
    howner, fun later s' hlater => ?_⟩
  obtain ⟨hdeserted', hnone⟩ := hdeserted.run hs₁ hlater
  exact ⟨(hs₁.run hlater).waiting_of_foreground hdeserted'.foreground, hnone⟩

end PipelineShell
