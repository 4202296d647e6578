/-
What a line is answered of which not all stages could be started.

If nothing has been started, the answer is 1.  But if some stages run already,
they become a job like any other one, and then nothing tells that others are
missing: in the background the answer is 0, and in the foreground it is what the
last stage that was started ended with.

* `PartialAnswer` — the answers that there may be;
* `Pending` — how far a line has got on the way to its answer;
* `first_answer_of_partial` — the first answer after a launch that has failed is
  one of these, so it is 0 only if something was started, and then in the
  background or if the last of these processes ended with 0;
* `Run.exists_answered_zero` — that does happen.

Design notes: that the child that is told of last is the last one of the job is
nothing that is asked for here; what the job will answer is written down in the
job as soon as its last stage is collected (`Pending.waiting`).
-/
import PipelineShell.Proofs.Foreground
import PipelineShell.Proofs.Handling
import PipelineShell.Proofs.Status

namespace PipelineShell

open Output

/-! ### What has been told of children -/

/-- The shell has been told this of the process, and it has understood it. -/
def Trace.Told (past : Trace) (pid : Pid) (status : WaitStatus) : Prop :=
  ∃ t p, (t, Event.poll p) ∈ past ∧ p.understood = .ok (some (pid, status))

theorem Trace.Told.mono {past longer : Trace} {pid : Pid} {status : WaitStatus}
    (h : past.Told pid status) (hsub : ∀ x ∈ past, x ∈ longer) : longer.Told pid status := by
  obtain ⟨t, p, hmem, hp⟩ := h
  exact ⟨t, p, hsub _ hmem, hp⟩

/-- Only a process that has ended with 0 leaves 0. -/
theorem WaitStatus.eq_of_final?_eq_zero {status : WaitStatus} (h : status.final? = some 0) :
    status = .exited 0 := by
  cases status with
  | exited code => exact congrArg WaitStatus.exited (Int.ofNat.inj (Option.some.inj h))
  | killed signal =>
    have := Option.some.inj h
    omega
  | stopped signal => cases h

/-- The status of a job, if it has one, is what its last process has ended with. -/
def Job.Foretold (job : Job) (told : Pid → WaitStatus → Prop) : Prop :=
  ∀ n, job.status = some n →
    ∃ status, told job.last status ∧ status.final? = some n

namespace Job.Foretold

variable {job : Job} {told told' : Pid → WaitStatus → Prop}

theorem mono (h : job.Foretold told) (hsub : ∀ {pid status}, told pid status → told' pid status) :
    job.Foretold told' := by
  intro n hn
  obtain ⟨status, ht, hstatus⟩ := h n hn
  exact ⟨status, hsub ht, hstatus⟩

theorem collect (h : job.Foretold told) {pid : Pid} {status : WaitStatus} (ht : told pid status)
    (final : status.isStop = false) : (job.collect pid status.code).Foretold told := by
  intro n hn
  by_cases hlast : pid = job.last
  · have hcode : (status.code : Int) = n := Option.some.inj ((if_pos hlast).symm.trans hn)
    exact ⟨status, hlast ▸ ht, WaitStatus.final?_eq_some_iff.2 ⟨final, hcode.symm⟩⟩
  · exact h n ((if_neg hlast).symm.trans hn)

end Job.Foretold

/-! ### Answers -/

/-- What a line may be answered of which only these stages could be started. -/
inductive PartialAnswer (background : Bool) (started : List Pid) (told : Pid → WaitStatus → Prop) :
    Reply → Prop
  | nothing (h : started = []) : PartialAnswer background started told (.resume 1)
  | background (h : started ≠ []) (hb : background = true) :
      PartialAnswer background started told (.resume 0)
  /-- The last of the processes has ended. -/
  | ended {last : Pid} {status : WaitStatus} {n : Int} (hb : background = false)
      (hl : started.getLast? = some last) (ht : told last status) (final : status.final? = some n) :
      PartialAnswer background started told (.resume n)
  /-- Any of them has stopped: 128 and the signal by which a terminal stops a job. -/
  | stopped {pid : Pid} {signal : Signal} (hb : background = false) (hp : pid ∈ started)
      (ht : told pid (.stopped signal)) :
      PartialAnswer background started told (.resume 148)

namespace PartialAnswer

variable {background : Bool} {started : List Pid} {told told' : Pid → WaitStatus → Prop} {r : Reply}

theorem mono (h : PartialAnswer background started told r)
    (hsub : ∀ pid status, told pid status → told' pid status) :
    PartialAnswer background started told' r := by
  cases h with
  | nothing h => exact .nothing h
  | background h hb => exact .background h hb
  | ended hb hl ht final => exact .ended hb hl (hsub _ _ ht) final
  | stopped hb hp ht => exact .stopped hb hp (hsub _ _ ht)

/-- When 0 is answered. -/
theorem eq_zero (h : PartialAnswer background started told (.resume 0)) :
    started ≠ [] ∧ (background = true ∨
      ∃ last, started.getLast? = some last ∧ told last (.exited 0)) := by
  generalize hr : Reply.resume 0 = r at h
  cases h with
  | nothing h => cases hr
  | background h hb => exact ⟨h, .inl hb⟩
  | @ended last status n hb hl ht final =>
    cases hr
    rw [WaitStatus.eq_of_final?_eq_zero final] at ht
    refine ⟨?_, .inr ⟨last, hl, ht⟩⟩
    rintro rfl
    cases hl
  | stopped hb hp ht => cases hr

end PartialAnswer

namespace System

variable {s s' : System} {e : Event}

/-! ### Nothing is owed without a request -/

theorem owed_take_le {step : Step} {n : Nat} (hf : step.Faithful s.worker n)
    (hn : s.queued + s.worker.foreground.isSome.toNat + n ≤ s'.owed) :
    (s.take step).owed ≤ s'.owed := by
  have ha := hf.answers
  show s.queued + (replies step.outputs).length +
    (Doing.begin step.worker step.next).isHandling.toNat + step.worker.foreground.isSome.toNat
      ≤ s'.owed
  rw [Doing.isHandling_begin]
  omega

theorem Sound.owed_moves_le (hs : s.Sound) (m : s.Moves e s') (he : ∀ m, e ≠ .request m) :
    s'.owed ≤ s.owed := by
  cases m with
  | request prompt h => exact absurd rfl (he _)
  | notify h => simp [owed, queued, Message.isRequest]
  | signal => simp [owed, queued, Message.isRequest]
  | @receive m rest idle done h =>
    refine owed_take_le (Worker.received_faithful m) ?_
    have hm : (if m.isRequest = true then 1 else 0) = m.isRequest.toNat := by
      cases m.isRequest <;> rfl
    show rest.countP Message.isRequest + s.worker.foreground.isSome.toNat + m.isRequest.toNat ≤ _
    rw [owed, queued, h, List.countP_cons, hm]
    omega
  | callDirectory h answer => simp [owed, queued, h, Doing.isHandling]
  | @directory directory result done h =>
    refine owed_take_le (Worker.directoryChanged_faithful result) ?_
    rw [owed, h, Doing.isHandling, Bool.toNat_true]
    omega
  | callLaunch h answer new => simp [owed, queued, h, Doing.isHandling]
  | @launched text line forked result done h =>
    refine owed_take_le (Worker.launched_faithful hs.coherent text line result) ?_
    rw [owed, h, Doing.isHandling, Bool.toNat_true]
    omega
  | @poll ending p children done h answer =>
    refine owed_take_le (Worker.polled_faithful hs.coherent ending p.understood) ?_
    show s.queued + s.worker.foreground.isSome.toNat + ending.toNat ≤ _
    rw [owed, h, Doing.isHandling]
    omega
  | @put o rest silent h =>
    have hr : replies s.outbox = replies rest := by rw [h, replies_cons_of_silent silent]
    show s.queued + (replies rest).length + _ + _ ≤ _
    rw [owed, hr]
  | @reply r rest waits h =>
    have hr : replies s.outbox = r :: replies rest := by rw [h, replies_cons_reply]
    show s.queued + (replies rest).length + s.doing.isHandling.toNat +
      s.worker.foreground.isSome.toNat ≤ _
    rw [owed, hr, List.length_cons]
    omega
  | _ => exact Nat.le_refl _

/-! ### On the way to the answer -/

/-- How far a line has got of which these stages have been started. -/
inductive Pending (background : Bool) (started : List Pid) (later : Trace) (s : System) : Prop
  /-- The job is in the foreground, and its status is what its last process has ended with. -/
  | waiting {id : Nat} {job : Job} (none_yet : later.answers = []) (quiet : replies s.outbox = [])
      (hb : background = false) (fg : s.worker.foreground = some id)
      (hj : s.worker.jobs.get? id = some job) (last : started.getLast? = some job.last)
      (sub : ∀ pid ∈ job.pids, pid ∈ started)
      (known : ∀ n, job.status = some n →
        ∃ status, later.Told job.last status ∧ status.final? = some n)
  | offered {r : Reply} (none_yet : later.answers = []) (offer : replies s.outbox = [r])
      (ok : PartialAnswer background started later.Told r)
  | answered {r : Reply} (given : later.answers.head? = some r)
      (ok : PartialAnswer background started later.Told r)
  /-- The processes have found no place in the table. -/
  | lost (none_yet : later.answers = []) (reader : s.reader = .waiting) (owed : s.owed = 0)

variable {background : Bool} {started : List Pid} {later : Trace}

theorem Trace.told_cons {past : Trace} {pid : Pid} {status : WaitStatus} (x : System × Event)
    (h : past.Told pid status) : Trace.Told (x :: past) pid status :=
  h.mono fun _ => List.mem_cons_of_mem x

/-- An answer that is offered stays so until it is taken. -/
theorem Pending.moves_offered (m : s.Moves e s') {r : Reply} (none_yet : later.answers = [])
    (offer : replies s.outbox = [r]) (ok : PartialAnswer background started later.Told r) :
    Pending background started ((s, e) :: later) s' := by
  have ok' := ok.mono fun _ _ => Trace.told_cons (s, e)
  cases (Promises.offered none_yet offer).moves m with
  | offered none_yet offer => exact .offered none_yet offer ok'
  | given first => exact .answered first ok'

/-- Nobody answers where nothing is owed. -/
theorem Pending.moves_lost (hs : s.Sound) (m : s.Moves e s') (none_yet : later.answers = [])
    (reader : s.reader = .waiting) (howed : s.owed = 0) :
    Pending background started ((s, e) :: later) s' := by
  have hle : (∀ m, e ≠ .request m) → s'.owed = 0 :=
    fun he => Nat.le_zero.1 ((hs.owed_moves_le m he).trans_eq howed)
  cases m with
  | request prompt h => cases reader.symm.trans prompt
  | hangUp prompt => cases reader.symm.trans prompt
  | reply waits h =>
    rw [owed, h, replies_cons_reply, List.length_cons] at howed
    omega
  | _ => exact .lost none_yet reader (hle fun _ h => by cases h)

/-- A poll finds out about the job in the foreground, or about something else. -/
theorem Pending.moves_poll (hs : s.Sound) {p : Poll} {ending : Bool} {id : Nat} {job : Job}
    (hd : s.doing = .collecting ending) (none_yet : later.answers = [])
    (hb : background = false) (fg : s.worker.foreground = some id)
    (hj : s.worker.jobs.get? id = some job) (last : started.getLast? = some job.last)
    (sub : ∀ pid ∈ job.pids, pid ∈ started) (known : job.Foretold later.Told)
    (children : Children) :
    Pending background started ((s, .poll p) :: later)
      ({ s with children }.take (s.worker.polled ending p.understood)) := by
  have hknown : job.Foretold (Trace.Told ((s, .poll p) :: later)) := known.mono (Trace.told_cons _)
  rcases p.understood.news_cases with ⟨pid, signal, hp⟩ | ⟨pid, status, final, hp⟩ | hp
  · -- A process has stopped, of this job or of another one.
    have htold : Trace.Told ((s, .poll p) :: later) pid (.stopped signal) :=
      ⟨s, p, List.mem_cons_self, hp⟩
    rw [hp, Worker.polled]
    rcases s.worker.processStopped_cases pid with ⟨id', job', hf', hj', hmem, -, hr⟩ | ⟨-, hsame⟩
    · obtain rfl := Option.some.inj (fg.symm.trans hf')
      obtain rfl := Option.some.inj (hj.symm.trans hj')
      exact .offered none_yet hr (.stopped hb (sub pid hmem) htold)
    · rw [hsame]
      exact .waiting none_yet rfl hb fg hj last sub hknown
  · -- A process has ended; it is the last one of this job, another one of it, or none.
    have htold : Trace.Told ((s, .poll p) :: later) pid status := ⟨s, p, List.mem_cons_self, hp⟩
    rw [hp, Worker.polled_of_not_stopped _ _ _ final]
    obtain ⟨hjobs, -, hcases⟩ := Worker.processEnded_cases hs.coherent pid (status.code : Int)
    have hknown' := hknown.collect htold final
    rcases hcases with ⟨id', job', hf', hj', hmem, hnil, -, -, hr⟩ | ⟨hmore, hf', -, hr⟩
    · obtain rfl := Option.some.inj (fg.symm.trans hf')
      obtain rfl := Option.some.inj (hj.symm.trans hj')
      obtain ⟨n, hn⟩ := hs.coherent.exists_status hj hnil
      obtain ⟨status', ht, hfinal⟩ := hknown' n hn
      rw [hn, Option.getD_some] at hr
      exact .offered none_yet hr (.ended hb last ht hfinal)
    · by_cases hmem : pid ∈ job.pids
      · have hget := hs.coherent.get?_remove_of_mem (status.code : Int) hj hmem
        rw [if_neg (hmore id job fg hj hmem), ← hjobs] at hget
        exact .waiting none_yet hr hb (hf'.trans fg) hget last
          (fun q hq => sub q (Job.mem_pids_collect.1 hq).1) hknown'
      · have hget := hs.coherent.get?_remove_of_not_mem (status.code : Int) hj hmem
        rw [← hjobs] at hget
        exact .waiting none_yet hr hb (hf'.trans fg) hget last sub hknown
  · -- There is no news; an answer at the end of the input would be one too many.
    obtain ⟨hw, hcases⟩ := s.worker.polled_of_no_child ending hp
    have hending : ending = false := by
      cases ending with
      | false => rfl
      | true => cases (hs.foreground_eq_none (.inl (by rw [hd]; rfl))).symm.trans fg
    rcases hcases with ⟨hr, -⟩ | ⟨htrue, -⟩
    · have fg' : (s.worker.polled ending p.understood).worker.foreground = some id := by
        rw [hw, fg]
      have hj' : (s.worker.polled ending p.understood).worker.jobs.get? id = some job := by
        rw [hw, hj]
      exact .waiting none_yet hr hb fg' hj' last sub hknown
    · cases hending.symm.trans htrue

theorem Pending.moves (hp : Pending background started later s) (hs : s.Sound)
    (m : s.Moves e s') : Pending background started ((s, e) :: later) s' := by
  cases hp with
  | offered none_yet offer ok => exact Pending.moves_offered m none_yet offer ok
  | lost none_yet reader owed => exact Pending.moves_lost hs m none_yet reader owed
  | @answered r given ok =>
    refine .answered (r := r) ?_ (ok.mono fun _ _ => Trace.told_cons (s, e))
    rw [← List.singleton_append, Trace.answers_append, List.head?_append, given]
    rfl
  | @waiting id job none_yet quiet hb fg hj last sub known =>
    have known' : job.Foretold (Trace.Told ((s, e) :: later)) :=
      Job.Foretold.mono known (Trace.told_cons _)
    -- No request is handled while the reader waits for this one.
    have hidle : s.doing.isHandling = false ∧ s.queued = 0 := by
      constructor
      · by_contra hne
        cases (hs.foreground_eq_none (.inl (Bool.not_eq_false _ ▸ hne))).symm.trans fg
      · by_contra hne
        cases (hs.foreground_eq_none (.inr (Nat.pos_of_ne_zero hne))).symm.trans fg
    cases m with
    | @receive m rest idle done h =>
      obtain ⟨status, hw⟩ := s.worker.received_worker m
      have hm : m.isRequest = false := by
        have hq := hidle.2
        rw [queued, h, List.countP_cons] at hq
        by_contra hne
        rw [Bool.not_eq_false] at hne
        simp [hne] at hq
      have hquiet : replies (s.worker.received m).outputs = [] := by
        cases m with
        | line text => cases hm
        | endOfInput => cases hm
        | childChanged => rfl
        | signal => rfl
      have fg' : (s.worker.received m).worker.foreground = some id := by rw [hw, fg]
      have hj' : (s.worker.received m).worker.jobs.get? id = some job := by rw [hw, hj]
      exact .waiting none_yet hquiet hb fg' hj' last sub known'
    | directory done h => rw [h] at hidle; cases hidle.1
    | callDirectory h answer => rw [h] at hidle; cases hidle.1
    | launched done h => rw [h] at hidle; cases hidle.1
    | callLaunch h answer new => rw [h] at hidle; cases hidle.1
    | poll done h answer =>
      exact Pending.moves_poll hs h none_yet hb fg hj last sub known _
    | put silent h =>
      rw [h, replies_cons_of_silent silent] at quiet
      exact .waiting none_yet quiet hb fg hj last sub known'
    | reply waits h =>
      rw [h, replies_cons_reply] at quiet
      cases quiet
    | _ => exact .waiting none_yet quiet hb fg hj last sub known'

theorem Pending.run {s₁ : System} {before : Trace} (hp : Pending background started before s₁)
    (hs : s₁.Sound) (h : Run s₁ later s') : Pending background started (later ++ before) s' := by
  induction h with
  | start => exact hp
  | move h m ih => exact ih.moves (hs.run h) m

/-- How a line goes on after a launch that has failed. -/
theorem Pending.of_launched (hs : s.Sound) {text : String} {line : CommandLine}
    {forked : List Pid} {cause : LaunchError}
    (hd : s.doing = .launching text line forked (.done (.error cause))) :
    Pending line.modifier.background forked []
      (s.take (s.worker.launched text line (.error cause))) := by
  have hfg : s.worker.foreground = none := hs.foreground_eq_none (.inl (by rw [hd]; rfl))
  have howed := hs.owed_le
  rw [owed, hd, Doing.isHandling, Bool.toNat_true] at howed
  have hle := Bool.toNat_le s.reader.isWaiting
  have hwaits : s.reader = .waiting := by
    refine Reader.isWaiting_eq_true.1 ?_
    by_contra hno
    rw [Bool.not_eq_true] at hno
    rw [hno, Bool.toNat_false] at howed
    omega
  rcases s.worker.launched_cases text line (.error cause) with
    ⟨hr, message, h⟩ | ⟨spawned, outputs, hr, hout, h⟩
  · rw [h]
    exact .offered rfl rfl (.nothing (hs.forked_eq_nil hd hr))
  obtain rfl := hs.pids_of_running? hd hr
  rw [h]
  rcases s.worker.started_cases text line spawned hout with
    ⟨hi, h⟩ | ⟨id, jobs, hi, ⟨hb, message, h⟩ | ⟨hb, hw, hq, hn⟩⟩
  · -- The one answer that was owed is lost.
    rw [h]
    refine .lost rfl hwaits ?_
    show s.queued + (replies outputs).length + 0 + s.worker.foreground.isSome.toNat = 0
    rw [hout, List.length_nil]
    omega
  · obtain ⟨last, hl, -⟩ := JobTable.insert?_eq_some_iff.1 hi
    rw [h]
    refine .offered rfl ?_ (.background ?_ hb)
    · show replies ((outputs ++ [Output.report message]) ++ [Output.reply (.resume 0)]) = _
      simp [hout]
    · rintro hnil
      rw [hnil] at hl
      cases hl
  · obtain ⟨last, hl, -⟩ := JobTable.insert?_eq_some_iff.1 hi
    have hj := JobTable.get?_insert? hi hl id
    rw [if_pos rfl] at hj
    have fg : (s.worker.started text line spawned outputs).worker.foreground = some id := by
      rw [hw]
    have hjobs : (s.worker.started text line spawned outputs).worker.jobs = jobs := by rw [hw]
    rw [← hjobs] at hj
    exact .waiting rfl hq hb fg hj hl (fun _ h => h) fun _ h => by cases h

/-- **What a line is answered that could not be launched completely.**  If nothing has been started,
the answer is 1.  Otherwise the answer tells of the processes that have been started and not of
those that have not: it is 0 in the background, and in the foreground it is the status of the last
one of them, or 148 if one of them has stopped.  So the answer is 0 only if something has been
started, and then in the background or if the last of these processes has ended with 0. -/
theorem first_answer_of_partial {terminalGroup : Option Pid} {operators : OperatorSet}
    {past : Trace} {s₁ : System} {text : String} {line : CommandLine} {forked : List Pid}
    {cause : LaunchError} {r : Reply} (h : Run (.initial terminalGroup operators) past s)
    (hd : s.doing = .launching text line forked (.done (.error cause)))
    (m : s.Moves (.launched (.error cause)) s₁) (hlater : Run s₁ later s')
    (hr : later.answers.head? = some r) :
    PartialAnswer line.modifier.background forked later.Told r ∧
      ∃ status, r = .resume status ∧ (status = 0 → forked ≠ [] ∧
        (line.modifier.background = true ∨
          ∃ last, forked.getLast? = some last ∧ later.Told last (.exited 0))) := by
  have hs := (sound_initial terminalGroup operators).run h
  have hstart : Pending line.modifier.background forked [] s₁ := by
    cases m with
    | launched done hd' =>
      cases hd.symm.trans hd'
      exact Pending.of_launched hs hd
  have hpending := hstart.run (hs.moves m) hlater
  rw [List.append_nil] at hpending
  have hnone : later.answers ≠ [] := by
    rintro hnil
    rw [hnil] at hr
    cases hr
  have hanswer : PartialAnswer line.modifier.background forked later.Told r := by
    cases hpending with
    | waiting none_yet => exact absurd none_yet hnone
    | offered none_yet => exact absurd none_yet hnone
    | lost none_yet => exact absurd none_yet hnone
    | answered given ok =>
      obtain rfl := Option.some.inj (given.symm.trans hr)
      exact ok
  refine ⟨hanswer, ?_⟩
  obtain ⟨status, rfl⟩ : ∃ status, r = .resume status := by
    cases hanswer <;> exact ⟨_, rfl⟩
  refine ⟨status, rfl, ?_⟩
  rintro rfl
  exact hanswer.eq_zero

end System

/-! ### Success is reported although a stage is missing -/

/-- There are runs in which a line is launched in part and answered: here the second of two stages
cannot be forked, and the first one ends with 0. -/
theorem Run.exists_half_launched : ∃ (past later : Trace) (s s₁ s' : System) (line : CommandLine),
    Run (.initial none .full) past s ∧ Run s₁ later s' ∧
      s.doing = .launching "a | b" line [7] (.done (.error (.fork [7] .eagain))) ∧
      s.Moves (.launched (.error (.fork [7] .eagain))) s₁ ∧
      past.requests = [.line "a | b"] ∧ past.answers = [] ∧ later.requests = [] ∧
      later.answers = [.resume 0] ∧
      ∀ x ∈ later ++ (s, .launched (.error (.fork [7] .eagain))) :: past, x.2.Collects := by
  have hparse : CommandLine.parse "a | b" .full =
      .ok ⟨Pipeline.ofWords [.literal "a", .operator .pipe, .literal "b"], {}⟩ := by
    decide +kernel
  have asked : Run (.initial none .full) [(_, .request (.line "a | b"))] _ :=
    start.move (.request rfl rfl)
  have received := asked.move (.receive_line rfl rfl rfl hparse rfl)
  have piped := received.move (.callLaunch (r := .pipe) rfl (.ok (3, 4)) fun _ h => by cases h)
  have forked := piped.move (.callLaunch (r := .fork _) rfl (.ok 7) fun _ _ => rfl)
  have grouped := forked.move (.callLaunch (r := .setGroup 7 0) rfl (.ok ()) fun _ h => by cases h)
  have failed := grouped.move
    (.callLaunch (r := .fork _) rfl (.error .eagain) fun _ h => by cases h)
  have closedRead := failed.move (.callLaunch (r := .close 3) rfl (.ok ()) fun _ h => by cases h)
  have closed := closedRead.move (.callLaunch (r := .close 4) rfl (.ok ()) fun _ h => by cases h)
  have launched := closed.move (.launched rfl rfl)
  have reported := launched.move (.put (fun _ h => by cases h) rfl)
  have ended := reported.move (.child (e := .ended 7 (.exited 0)) (.ended (.inl rfl) rfl))
  have collected := ended.move (.poll (p := .ok (some (7, .exited 0))) rfl rfl (.ended rfl rfl))
  have answered := collected.move (.reply rfl rfl)
  obtain ⟨hpast, s₁, m, hlater⟩ := @Run.split _ _ _ _ [_, _, _, _] _ answered
  refine ⟨_, _, _, s₁, _, _, hpast, hlater, rfl, m, rfl, rfl, rfl, rfl, ?_⟩
  simp only [List.forall_mem_cons, List.forall_mem_append]
  refine ⟨⟨⟨⟩, ?_, ⟨⟩, ⟨⟩, fun x hx => by cases hx⟩, ⟨⟩, ⟨⟩, ⟨⟩, ⟨⟩, ⟨⟩, ⟨⟩, ⟨⟩, ⟨⟩, ⟨⟩,
    fun x hx => by cases hx⟩
  intro e he
  cases he

/-- **A line can be answered 0 of which only the first stage could be started.** -/
theorem Run.exists_answered_zero : ∃ (past : Trace) (s t : System),
    Run (.initial none .full) past s ∧ (∀ x ∈ past, x.2.Collects) ∧
      past.requests = [.line "a | b"] ∧ (t, .launched (.error (.fork [7] .eagain))) ∈ past ∧
      past.answers = [.resume 0] := by
  obtain ⟨past, later, s, s₁, s', line, hpast, hlater, -, m, hrequests, hnone, hmore, hanswers,
    hcollect⟩ := Run.exists_half_launched
  refine ⟨_, s', s, Run.append_iff.2 ⟨s₁, hpast.move m, hlater⟩, hcollect, ?_, by simp, ?_⟩
  · rw [Trace.requests_append, hmore, List.append_nil]
    exact hrequests
  · rw [Trace.answers_append, hanswers]
    exact congrArg (· ++ [Reply.resume 0]) hnone

/-- The answer tells of the first stage, which has ended with 0. -/
theorem System.first_answer_of_half : ∃ (past later : Trace) (s s₁ s' : System)
    (line : CommandLine), Run (.initial none .full) past s ∧
      s.doing = .launching "a | b" line [7] (.done (.error (.fork [7] .eagain))) ∧
      s.Moves (.launched (.error (.fork [7] .eagain))) s₁ ∧ Run s₁ later s' ∧
      later.answers.head? = some (.resume 0) ∧
      PartialAnswer line.modifier.background [7] later.Told (.resume 0) := by
  obtain ⟨past, later, s, s₁, s', line, hpast, hlater, hd, m, -, -, -, hanswers, -⟩ :=
    Run.exists_half_launched
  have hhead : later.answers.head? = some (.resume 0) := by rw [hanswers]; rfl
  exact ⟨past, later, s, s₁, s', line, hpast, hd, m, hlater, hhead,
    (first_answer_of_partial hpast hd m hlater hhead).1⟩

end PipelineShell
