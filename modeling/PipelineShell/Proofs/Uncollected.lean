/-
Processes that the shell has still to collect.

A process that has been forked stays with the kernel until the shell has been
told that it has ended.  The table of jobs is meant to have exactly these
processes, so that nothing is left behind when the shell is told to exit with no
job left.

* `uncollected` — the forked processes that have not been collected, written
  down from what was answered to the shell and from nothing else;
* `uncollected_eq_owned` — between two messages they are those in the index of
  the table, what has been launched always finds its place there, and the shell
  leaves with processes left only at the end of the input.

Design notes: that an answer to leave is meant for the request made last is
known from the queue: what waits in it are the last requests that were made
(`Leaving.queue`), and there is never more than one.
-/
import Mathlib.Data.Set.Insert
import PipelineShell.Proofs.Ownership
import PipelineShell.Proofs.ProgramLogic
import PipelineShell.Proofs.Representation

namespace PipelineShell

open Output Trace

/-! ### What has been forked and not been collected -/

/-- The processes that have been forked and of which the shell has not been told that they have
ended. -/
def Trace.uncollected : Trace → Set Pid
  | [] => ∅
  | (_, .call r answer) :: past => uncollected past ∪ {pid | pid ∈ r.forked answer}
  | (_, .poll (.ok (some (pid, status)))) :: past =>
    if status.isStop then uncollected past else uncollected past \ {pid}
  | _ :: past => uncollected past

/-- No request of the program starts a process. -/
def Program.ForksNothing {τ α : Type} (p : Program τ α) : Prop :=
  p.Meets (fun (_ : Unit) _ _ _ => True) (fun _ r => ∀ answer, r.forked answer = [])
    (fun _ _ => True) ()

theorem forksNothing_changeDirectory {τ : Type} (directory : String) :
    (changeDirectory directory : Program τ _).ForksNothing := by
  rw [changeDirectory]
  split
  · trivial
  · refine (Program.meets_bind _ _).2 (Program.meets_ask.2 ⟨fun _ => rfl, fun answer _ _ => ?_⟩)
    cases answer with
    | error e => trivial
    | ok _ =>
      exact (Program.meets_bind _ _).2
        (Program.meets_ask.2 ⟨fun _ => rfl, fun _ _ _ => trivial⟩)

namespace System

variable {past : Trace} {s s' : System} {e : Event}

/-- Changing the directory starts no process, whatever is left of it. -/
def ChangesQuietly (s : System) : Prop :=
  ∀ {directory : String} {calls : Program Task (Except DirectoryError String)},
    s.doing = .changing directory calls → calls.ForksNothing

theorem changesQuietly_take (s : System) (step : Step) : (s.take step).ChangesQuietly := by
  intro directory calls h
  cases hn : step.next with
  | changing directory' =>
    replace h : Doing.begin step.worker step.next = .changing directory calls := h
    rw [hn] at h
    cases h
    exact forksNothing_changeDirectory directory
  | _ =>
    replace h : Doing.begin step.worker step.next = .changing directory calls := h
    rw [hn] at h
    cases h

theorem ChangesQuietly.moves (hq : s.ChangesQuietly) (m : s.Moves e s') : s'.ChangesQuietly := by
  cases m with
  | receive idle done h => exact changesQuietly_take _ _
  | directory done h => exact changesQuietly_take _ _
  | launched done h => exact changesQuietly_take _ _
  | poll done h answer => exact changesQuietly_take _ _
  | callDirectory h answer =>
    intro _ _ h'
    cases h'
    exact (hq h).2 answer () trivial
  | callLaunch h answer new =>
    intro _ _ h'
    cases h'
  | _ => exact hq

theorem ChangesQuietly.run {terminalGroup : Option Pid} {operators : OperatorSet}
    (h : Run (.initial terminalGroup operators) past s) : s.ChangesQuietly := by
  induction h with
  | start =>
    intro _ _ h
    cases h
  | move _ m ih => exact ih.moves m

end System

/-- The kernel has exactly the processes that have been forked and not been collected. -/
theorem mem_uncollected_iff {terminalGroup : Option Pid} {operators : OperatorSet} {past : Trace}
    {s : System} (h : Run (.initial terminalGroup operators) past s) (pid : Pid) :
    pid ∈ uncollected past ↔ s.children pid ≠ none := by
  induction h with
  | start => simp [uncollected, System.initial]
  | @move past s s' e h m ih =>
    cases m with
    | child hc => exact ih.trans (not_congr (hc.eq_none_iff pid)).symm
    | @callDirectory directory r next hd answer =>
      have hnone : r.forked answer = [] := (System.ChangesQuietly.run h hd).1 answer
      show pid ∈ uncollected past ∪ {pid | pid ∈ r.forked answer} ↔ _
      simpa [hnone] using ih
    | @callLaunch text line forked r next hd answer new =>
      show pid ∈ uncollected past ∪ {pid | pid ∈ r.forked answer} ↔
        s.children.start (r.forked answer) pid ≠ none
      rw [Set.mem_union, ih, Children.start]
      by_cases hp : pid ∈ r.forked answer <;> simp [hp]
    | @poll ending p children done hd answer =>
      show _ ↔ children pid ≠ none
      rcases p.news_cases with ⟨q, signal, rfl⟩ | ⟨q, status, hend, rfl⟩ | hnone
      · obtain ⟨hq, rfl⟩ := answer.of_stopped
        show pid ∈ uncollected past ↔ _
        rw [ih]
        by_cases hp : pid = q
        · simp [hp, hq]
        · rw [Function.update_of_ne hp]
      · obtain ⟨-, rfl⟩ := answer.of_ended hend
        rw [uncollected, if_neg (by simp [hend]), Set.mem_sdiff, ih, Set.mem_singleton_iff]
        by_cases hp : pid = q
        · simp [hp]
        · rw [Function.update_of_ne hp]
          exact and_iff_left hp
      · rw [answer.of_no_child hnone, ← ih]
        rcases p with e | _ | ⟨q, status⟩
        case error => rfl
        case ok.none => rfl
        case ok.some => exact absurd rfl (hnone q status)
    | _ => exact ih

/-! ### Leaving -/

namespace Worker

variable {w : Worker} {n : Int}

theorem quit_not_mem_answer {status : Int} {outputs : List Output} (h : replies outputs = []) :
    .quit n ∉ replies (w.answer status outputs).outputs := by
  simp [answer, h]

/-- The shell is left by a line only if there are no jobs. -/
theorem isEmpty_of_quit_lineRead {text : String}
    (h : .quit n ∈ replies (w.lineRead text).outputs) : w.jobs.isEmpty = true := by
  rw [lineRead] at h
  split at h
  · exact absurd h (quit_not_mem_answer rfl)
  split at h
  · cases h
  · by_contra hne
    rw [leave.eq_def, if_pos (by simp [hne])] at h
    exact quit_not_mem_answer rfl h
  · cases h

theorem quit_not_mem_directoryChanged (result : Except DirectoryError String) :
    .quit n ∉ replies (w.directoryChanged result).outputs := by
  cases result with
  | ok directory => exact quit_not_mem_answer rfl
  | error e => exact quit_not_mem_answer rfl

theorem quit_not_mem_launched (text : String) (line : CommandLine)
    (result : Except LaunchError Spawned) :
    .quit n ∉ replies (w.launched text line result).outputs := by
  rcases w.launched_cases text line result with ⟨-, message, h⟩ | ⟨spawned, outputs, -, ho, h⟩
  · rw [h]
    exact quit_not_mem_answer rfl
  rw [h]
  rcases w.started_cases text line spawned ho with
    ⟨-, h⟩ | ⟨id, jobs, -, ⟨-, message, h⟩ | ⟨-, -, hr, -⟩⟩
  · simp [h, ho]
  · rw [h]
    exact quit_not_mem_answer (by simp [ho])
  · simp [hr]

/-- The next thing after a launch is to listen or to look for children of the new job. -/
theorem launched_next (w : Worker) (text : String) (line : CommandLine)
    (result : Except LaunchError Spawned) :
    (w.launched text line result).next = .listening ∨
      (w.launched text line result).next = .collecting false := by
  rcases w.launched_cases text line result with ⟨-, message, h⟩ | ⟨spawned, outputs, -, ho, h⟩
  · exact .inl (h ▸ rfl)
  rw [h]
  rcases w.started_cases text line spawned ho with
    ⟨-, h⟩ | ⟨id, jobs, -, ⟨-, message, h⟩ | ⟨-, -, -, hn⟩⟩
  · exact .inl (h ▸ rfl)
  · exact .inl (h ▸ rfl)
  · exact .inr hn

/-- Looking for children ends in leaving only at the end of the input. -/
theorem ending_of_quit_polled (hc : w.jobs.Coherent) {ending : Bool} {p : Poll}
    (h : .quit n ∈ replies (w.polled ending p).outputs) : ending = true := by
  rcases p.news_cases with ⟨pid, signal, rfl⟩ | ⟨pid, status, hend, rfl⟩ | hnone
  · rw [polled] at h
    rcases w.processStopped_cases pid with ⟨id, job, -, -, -, -, hr⟩ | ⟨-, he⟩
    · simp [hr] at h
    · simp [he] at h
  · rw [polled_of_not_stopped w ending pid hend] at h
    obtain ⟨-, -, ⟨id, job, -, -, -, -, -, -, hr⟩ | ⟨-, -, -, hr⟩⟩ :=
      processEnded_cases hc pid status.code
    · simp [hr] at h
    · simp [hr] at h
  · rcases (w.polled_of_no_child ending hnone).2 with ⟨hr, -⟩ | ⟨he, -⟩
    · simp [hr] at h
    · exact he

end Worker

/-- An answer to leave is meant for the end of the input, or no child is left. -/
structure Leaving (past : Trace) (s : System) : Prop where
  /-- What waits in the queue are the last requests that were made. -/
  queue : ∃ done, requests past = done ++ s.inbox.filter Message.isRequest
  ending : s.doing = .collecting true → (requests past).getLast? = some .endOfInput
  quit : ∀ {n : Int}, .quit n ∈ replies s.outbox →
    (requests past).getLast? = some .endOfInput ∨ ∀ pid, s.children pid = none

namespace Leaving

variable {past : Trace} {s s' : System} {e : Event}

theorem congr {past' : Trace} (hl : Leaving past s) (h : requests past = requests past') :
    Leaving past' s :=
  ⟨h ▸ hl.queue, h ▸ hl.ending, h ▸ hl.quit⟩

/-- A message that is no request. -/
theorem queue_append (hl : Leaving past s) {m : Message} (h : m.isRequest = false) :
    ∃ done, requests past = done ++ (s.inbox ++ [m]).filter Message.isRequest := by
  rw [List.filter_append, List.filter_cons_of_neg (by simp [h]), List.filter_nil, List.append_nil]
  exact hl.queue

/-- A request that is received is the last one that was made. -/
theorem getLast?_of_receive (hl : Leaving past s) (hs : s.Sound) {m : Message}
    {rest : List Message} (h : s.inbox = m :: rest) (hm : m.isRequest = true) :
    (requests past).getLast? = some m := by
  obtain ⟨done, hqueue⟩ := hl.queue
  have hnone : rest.filter Message.isRequest = [] := by
    have howed := hs.owed_le
    have hle := Bool.toNat_le s.reader.isWaiting
    rw [System.owed, System.queued, h, List.countP_cons, if_pos hm] at howed
    rw [← List.length_eq_zero_iff, ← List.countP_eq_length_filter]
    omega
  rw [hqueue, h, List.filter_cons_of_pos hm, hnone]
  simp

/-- Nothing is asked for while an answer is owed. -/
theorem not_atPrompt (hs : s.Sound)
    (h : s.doing.isHandling = true ∨ replies s.outbox ≠ []) : s.reader ≠ .atPrompt := by
  intro hprompt
  have howed := hs.owed_le
  rw [System.owed, hprompt] at howed
  simp only [Reader.isWaiting, Bool.toNat_false] at howed
  rcases h with h | h
  · rw [h, Bool.toNat_true] at howed
    omega
  · have hpos := List.length_pos_of_ne_nil h
    omega

/-- A step of the worker that does not answer to leave. -/
theorem take {inbox : List Message} {children : Children} {step : Step}
    (queue : ∃ done, requests past = done ++ inbox.filter Message.isRequest)
    (ending : step.next = .collecting true → (requests past).getLast? = some .endOfInput)
    (quit : ∀ {n : Int}, .quit n ∈ replies step.outputs →
      (requests past).getLast? = some .endOfInput ∨ ∀ pid, children pid = none) :
    Leaving past ({ s with inbox, children }.take step) where
  queue := queue
  ending h := by
    replace h : Doing.begin step.worker step.next = .collecting true := h
    cases hn : step.next with
    | collecting e =>
      rw [hn] at h
      cases h
      exact ending hn
    | _ =>
      rw [hn] at h
      cases h
  quit := quit

theorem receive {m : Message} {rest : List Message} (hl : Leaving past s) (hs : s.Sound)
    (ho : s.Owned) (idle : s.doing = .listening) (h : s.inbox = m :: rest) :
    Leaving past ({ s with inbox := rest }.take (s.worker.received m)) := by
  refine take ?_ (fun hn => ?_) fun {n} hquit => ?_
  · obtain ⟨done, hqueue⟩ := hl.queue
    rw [h, List.filter_cons] at hqueue
    split at hqueue
    · exact ⟨done ++ [m], by rw [hqueue, List.append_assoc, List.singleton_append]⟩
    · exact ⟨done, hqueue⟩
  · cases m with
    | endOfInput => exact hl.getLast?_of_receive hs h rfl
    | line text =>
      replace hn : (s.worker.lineRead text).next = .collecting true := hn
      rw [Worker.lineRead] at hn
      split at hn
      · cases hn
      split at hn
      · cases hn
      · rw [Worker.leave.eq_def] at hn
        repeat' split at hn
        all_goals cases hn
      · cases hn
    | childChanged => cases hn
    | signal => cases hn
  · cases m with
    | line text =>
      have hjobs : s.worker.jobs.jobs = [] :=
        JobTable.isEmpty_iff.1 (Worker.isEmpty_of_quit_lineRead hquit)
      refine .inr fun pid => not_not.1 fun hchild => ?_
      obtain ⟨id, hid⟩ := Option.ne_none_iff_exists'.1
        ((ho.child_iff_of_forked (by rw [idle]; rfl) pid).1 hchild)
      obtain ⟨job, hj, -⟩ := hs.coherent.owned.1 hid
      rw [JobTable.get?, hjobs] at hj
      cases hj
    | endOfInput => cases hquit
    | childChanged => cases hquit
    | signal => cases hquit

theorem moves (hl : Leaving past s) (hs : s.Sound) (ho : s.Owned) (m : s.Moves e s') :
    Leaving ((s, e) :: past) s' := by
  cases m with
  | @request m prompt hm =>
    refine ⟨?_, fun hd => ?_, fun {n} hquit => ?_⟩
    · obtain ⟨done, hqueue⟩ := hl.queue
      refine ⟨done, ?_⟩
      show requests past ++ [m] = _
      rw [hqueue, List.filter_append, List.filter_cons_of_pos hm, List.filter_nil,
        List.append_assoc]
    · replace hd : s.doing = .collecting true := hd
      exact absurd prompt (not_atPrompt hs (.inl (by rw [hd]; rfl)))
    · exact absurd prompt (not_atPrompt hs (.inr (List.ne_nil_of_mem hquit)))
  | child h =>
    refine ⟨hl.queue, hl.ending, fun hquit => (hl.quit hquit).imp_right fun hnone pid => ?_⟩
    exact (h.eq_none_iff pid).2 (hnone pid)
  | notify h => exact ⟨hl.queue_append (m := .childChanged) rfl, hl.ending, hl.quit⟩
  | signal => exact ⟨hl.queue_append (m := .signal) rfl, hl.ending, hl.quit⟩
  | receive idle done h => exact (hl.receive hs ho idle h).congr rfl
  | callDirectory h answer => exact ⟨hl.queue, nofun, hl.quit⟩
  | @directory directory result done h =>
    refine take (s := s) hl.queue (fun hn => ?_) fun hquit => ?_
    · cases result <;> cases hn
    · exact absurd hquit (Worker.quit_not_mem_directoryChanged result)
  | callLaunch h answer new =>
    refine ⟨hl.queue, nofun, fun hquit => ?_⟩
    obtain ⟨-, -, -, hidle, -⟩ := hs.of_offered (List.ne_nil_of_mem hquit)
    rw [h] at hidle
    cases hidle
  | @launched text line forked result done h =>
    refine take (s := s) hl.queue (fun hn => ?_) fun hquit => ?_
    · rcases s.worker.launched_next text line result with hnext | hnext
      · cases hnext.symm.trans hn
      · cases hnext.symm.trans hn
    · exact absurd hquit (Worker.quit_not_mem_launched text line result)
  | @poll ending p children done h answer =>
    have hlast : ending = true → (requests past).getLast? = some .endOfInput := by
      rintro rfl
      exact hl.ending h
    refine take hl.queue (fun hn => hlast ?_) fun hquit => .inl (hlast ?_)
    · rcases s.worker.polled_next ending p.understood with hnext | hnext
      · cases hnext.symm.trans hn
      · cases hnext.symm.trans hn
        rfl
    · exact Worker.ending_of_quit_polled hs.coherent hquit
  | @put o rest silent h =>
    have hquiet : replies s.outbox = replies rest := by rw [h, replies_cons_of_silent silent]
    exact ⟨hl.queue, hl.ending, fun hquit => hl.quit (hquiet ▸ hquit)⟩
  | @reply r rest waits h =>
    have hreplies : replies s.outbox = r :: replies rest := by rw [h, replies_cons_reply]
    exact ⟨hl.queue, hl.ending, fun hquit => hl.quit (hreplies ▸ List.mem_cons_of_mem r hquit)⟩
  | hangUp prompt => exact ⟨hl.queue, hl.ending, hl.quit⟩
  | nudge => exact ⟨hl.queue, hl.ending, hl.quit⟩

theorem run {terminalGroup : Option Pid} {operators : OperatorSet}
    (h : Run (.initial terminalGroup operators) past s) (he : ∀ x ∈ past, x.2.Collects) :
    Leaving past s := by
  induction h with
  | start => exact ⟨⟨[], rfl⟩, nofun, nofun⟩
  | move h m ih =>
    have he' := fun x hx => he x (List.mem_cons_of_mem _ hx)
    exact (ih he').moves ((System.sound_initial terminalGroup operators).run h)
      (System.Owned.run h he') m

end Leaving

/-! ### The table and the processes -/

/-- There are runs in which a fork fails behind others: here the first of two stages is running and
the second one could not be started. -/
theorem Run.exists_partly_started : ∃ (past : Trace) (s : System),
    Run (.initial none .full) past s ∧ (∀ x ∈ past, x.2.Collects) ∧
      requests past = [.line "a | b"] ∧ uncollected past = {7} ∧ s.reader = .waiting ∧
      s.doing = .listening ∧ s.outbox = [] ∧ s.inbox = [] ∧ s.notice = false := by
  have hparse : CommandLine.parse "a | b" .full =
      .ok ⟨Pipeline.ofWords [.literal "a", .operator .pipe, .literal "b"], {}⟩ := by
    decide +kernel
  have asked : Run (.initial none .full) [(_, .request (.line "a | b"))] _ :=
    start.move (.request rfl rfl)
  have received := asked.move (.receive_line rfl rfl rfl hparse rfl)
  have piped := received.move (.callLaunch (r := .pipe) rfl (.ok (3, 4)) fun _ h => by cases h)
  have forked := piped.move (.callLaunch (r := .fork _) rfl (.ok 7) fun _ _ => rfl)
  have grouped := forked.move (.callLaunch (r := .setGroup 7 0) rfl (.ok ()) fun _ h => by cases h)
  have failed := grouped.move
    (.callLaunch (r := .fork _) rfl (.error .eagain) fun _ h => by cases h)
  have closedRead := failed.move (.callLaunch (r := .close 3) rfl (.ok ()) fun _ h => by cases h)
  have closed := closedRead.move (.callLaunch (r := .close 4) rfl (.ok ()) fun _ h => by cases h)
  have launched := closed.move (.launched rfl rfl)
  have reported := launched.move (.put (fun _ h => by cases h) rfl)
  -- Only the first stage is a child, and it runs.
  have hchild : ∀ pid, Children.start (Children.start (Children.start (Children.start
      (Children.start (Children.start (fun _ => none) []) [7]) []) []) []) [] pid =
        if pid = 7 then some .running else none := by
    intro pid
    simp [Children.start]
  have looked := reported.move (.poll (p := .ok none) rfl rfl
    (.quiet ⟨7, by decide⟩ fun pid => ?_))
  · refine ⟨_, _, looked, ?_, rfl, Set.ext fun pid => ?_, rfl, rfl, rfl, rfl, rfl⟩
    · simp only [List.forall_mem_cons]
      refine ⟨?_, ⟨⟩, ⟨⟩, ⟨⟩, ⟨⟩, ⟨⟩, ⟨⟩, ⟨⟩, ⟨⟩, ⟨⟩, ⟨⟩, fun x hx => (List.not_mem_nil hx).elim⟩
      intro e he
      cases he
    · refine (mem_uncollected_iff looked pid).trans ?_
      refine (not_congr (iff_of_eq (congrArg (· = none) (hchild pid)))).trans ?_
      simp
  · rintro (⟨status, h⟩ | ⟨signal, h⟩)
    · have hpid := (hchild pid).symm.trans h
      split at hpid <;> cases hpid
    · have hpid := (hchild pid).symm.trans h
      split at hpid <;> cases hpid

/-- **The table of jobs has exactly the processes that are still to be collected.**  If looking for
children does not fail, then between two messages the processes that have been forked and not been
collected are those in the index of the table; what runs after a launch, all of it or a part, can
always be added to the table; and an answer to leave is on its way only at the end of the input or
when there is no such process. -/
theorem uncollected_eq_owned {terminalGroup : Option Pid} {operators : OperatorSet}
    {past : Trace} {s : System} (h : Run (.initial terminalGroup operators) past s)
    (collects : ∀ x ∈ past, x.2.Collects) :
    (s.doing = .listening → uncollected past = {pid | s.worker.jobs.owner? pid ≠ none}) ∧
    (∀ text line forked result spawned title background,
      s.doing = .launching text line forked (.done result) →
      Worker.running? result = some spawned →
      s.worker.jobs.insert? title spawned.group spawned.pids background ≠ none) ∧
    ∀ n, .reply (.quit n) ∈ s.outbox →
      (requests past).getLast? = some .endOfInput ∨ uncollected past = ∅ := by
  have hs := (System.sound_initial terminalGroup operators).run h
  have ho := System.Owned.run h collects
  refine ⟨fun hd => ?_, fun text line forked result spawned title background hd hr => ?_,
    fun n hquit => ?_⟩
  · ext pid
    rw [mem_uncollected_iff h, Set.mem_ofPred_eq]
    exact ho.child_iff_of_forked (by rw [hd]; rfl) pid
  · obtain ⟨id, jobs, hi⟩ := ho.exists_insert? hs hd hr title background
    simp [hi]
  · refine ((Leaving.run h collects).quit (mem_replies.2 hquit)).imp_right fun hnone => ?_
    refine Set.eq_empty_of_forall_notMem fun pid hp => ?_
    exact (mem_uncollected_iff h pid).1 hp (hnone pid)

theorem owned_of_partly_started : ∃ (past : Trace) (s : System),
    Run (.initial none .full) past s ∧ (∀ x ∈ past, x.2.Collects) ∧ s.doing = .listening ∧
      uncollected past = {7} ∧ {pid | s.worker.jobs.owner? pid ≠ none} = {7} := by
  obtain ⟨past, s, h, collects, -, hchildren, -, hd, -⟩ := Run.exists_partly_started
  obtain ⟨hsame, -, -⟩ := uncollected_eq_owned h collects
  exact ⟨past, s, h, collects, hd, hchildren, (hsame hd).symm.trans hchildren⟩

end PipelineShell
