/-
The job in the foreground.

A worker remembers which job the reader waits for, and every job remembers
whether it runs in the background.  The two are changed in different places:
a launch enters a job and puts it in the foreground, the last process that is
collected takes it out of the table, and a stop sends it to the background.
They never disagree.

* `Worker.Marked` — the job in the foreground is in the table, and it is the
  only one that is not marked as running in the background;
* `Worker.Marked.polled`, `Worker.Marked.launched` — what the worker learns of
  a child, and a launch, keep it so;
* `foreground_of_run` — in every run the job in the foreground has processes
  that are to be collected and the reader waits, no other job is unmarked, and
  at the prompt all of them are marked.

Design notes: numbers are used again as soon as they are free, so a number that
was left behind would name a later job.  That the job in the foreground is in
the table is what rules this out, since a new number is never in it.
-/
import PipelineShell.Proofs.Wakeup

namespace PipelineShell

namespace Worker

/-- The job in the foreground is in the table, and all others are marked as running in the
background. -/
structure Marked (w : Worker) : Prop where
  present : ∀ {id : Nat}, w.foreground = some id → w.jobs.get? id ≠ none
  unmarked_iff : ∀ {id : Nat} {job : Job}, w.jobs.get? id = some job →
    (job.background = false ↔ w.foreground = some id)

namespace Marked

variable {w w' : Worker} {id : Nat} {job : Job}

theorem initial (terminalGroup : Option Pid) (operators : OperatorSet) :
    Marked { terminalGroup, operators } where
  present := nofun
  unmarked_iff h := by simp [JobTable.empty, JobTable.get?] at h

theorem congr (h : w.Marked) (hf : w'.foreground = w.foreground) (hj : w'.jobs = w.jobs) :
    w'.Marked where
  present := by
    rw [hf, hj]
    exact h.present
  unmarked_iff := by
    rw [hf, hj]
    exact h.unmarked_iff

/-- Without a job in the foreground all are marked. -/
theorem background_of_none (h : w.Marked) (hf : w.foreground = none)
    (hj : w.jobs.get? id = some job) : job.background = true := by
  rw [← Bool.not_eq_false, h.unmarked_iff hj, hf]
  exact nofun

/-! ### A changed child -/

/-- A stop marks the job that was in the foreground. -/
theorem unmarked_iff_processStopped (h : w.Marked) {pid : Pid}
    (hj : (w.processStopped pid).1.jobs.get? id = some job) :
    job.background = false ↔ (w.processStopped pid).1.foreground = some id := by
  rcases w.processStopped_cases pid with ⟨front, before, hf, hb, -, hw, -⟩ | ⟨-, he⟩
  · rw [hw] at hj ⊢
    have hmarked : job.background = true := by
      rw [JobTable.get?_setBackground] at hj
      split at hj
      · rw [hb] at hj
        cases hj
        rfl
      · next hne =>
        rw [← Bool.not_eq_false, h.unmarked_iff hj, hf, Option.some_inj]
        exact Ne.symm hne
    simp [hmarked]
  · rw [he] at hj ⊢
    exact h.unmarked_iff hj

/-- An end takes no mark off and puts none on, and the job in the foreground stays there as long as
it is in the table. -/
theorem unmarked_iff_processEnded (h : w.Marked) (hc : w.jobs.Coherent) {pid : Pid} {status : Int}
    (hj : (w.processEnded pid status).1.jobs.get? id = some job) :
    job.background = false ↔ (w.processEnded pid status).1.foreground = some id := by
  obtain ⟨hjobs, -, hcases⟩ := processEnded_cases hc pid status
  rw [hjobs] at hj
  have hbefore : job.background = false ↔ w.foreground = some id := by
    rcases hc.get?_remove_cases hj with ⟨hj, -⟩ | ⟨before, hb, -, he, -⟩
    · exact h.unmarked_iff hj
    · rw [he]
      show before.background = false ↔ w.foreground = some id
      exact h.unmarked_iff hb
  rcases hcases with ⟨front, before, hf, hb, hp, hlast, hf', -⟩ | ⟨-, hf', -⟩
  · rw [hbefore, hf, hf']
    refine iff_of_false (fun e => ?_) nofun
    -- The job that was in the foreground has left the table.
    obtain rfl := Option.some.inj e
    rw [hc.get?_remove_of_mem status hb hp, if_pos hlast] at hj
    cases hj
  · rw [hbefore, hf']

theorem polled (h : w.Marked) (hc : w.jobs.Coherent) (ending : Bool) (poll : Poll) :
    (w.polled ending poll).worker.Marked where
  present hf := get?_polled_ne_none hc hf h.present
  unmarked_iff {id job} hj := by
    rcases poll.news_cases with ⟨pid, signal, rfl⟩ | ⟨pid, status, hs, rfl⟩ | hnone
    · exact h.unmarked_iff_processStopped hj
    · rw [polled_of_not_stopped w ending pid hs] at hj ⊢
      exact h.unmarked_iff_processEnded hc hj
    · rw [(w.polled_of_no_child ending hnone).1] at hj ⊢
      exact h.unmarked_iff hj

/-! ### A launch -/

/-- A job that is entered when none is in the foreground. -/
theorem insert? (h : w.Marked) {title : String} {group : Pid} {pids : List Pid}
    {background : Bool} {jobs : JobTable} (hf : w.foreground = none)
    (hi : w.jobs.insert? title group pids background = some (id, jobs)) :
    Marked { w with jobs, foreground := if background then none else some id } := by
  obtain ⟨last, hlast, -⟩ := JobTable.insert?_eq_some_iff.1 hi
  have hget := JobTable.get?_insert? hi hlast
  refine ⟨fun {k} hk => ?_, fun {k job} hk => ?_⟩
  · cases background with
    | true => cases hk
    | false =>
      cases hk
      show jobs.get? id ≠ none
      rw [hget, if_pos rfl]
      exact Option.some_ne_none _
  · replace hk : jobs.get? k = some job := hk
    rw [hget] at hk
    split at hk
    · next he =>
      subst he
      cases hk
      cases background <;> simp
    · next hne =>
      -- The jobs that were there are all marked.
      have hmarked := h.background_of_none hf hk
      cases background <;> simp [hmarked, Ne.symm hne]

theorem launched (h : w.Marked) (hf : w.foreground = none) (text : String) (line : CommandLine)
    (result : Except LaunchError Spawned) : (w.launched text line result).worker.Marked := by
  rcases w.launched_cases text line result with ⟨-, message, he⟩ | ⟨spawned, outputs, -, ho, he⟩
  · rw [he]
    exact h.congr rfl rfl
  rw [he]
  rcases w.started_cases text line spawned ho with
    ⟨-, he⟩ | ⟨id, jobs, hi, ⟨hb, message, he⟩ | ⟨hb, hw, -⟩⟩
  · rw [he]
    exact h
  · rw [he]
    have hentered := h.insert? hf hi
    rw [hb, if_pos rfl] at hentered
    exact hentered.congr hf rfl
  · rw [hw]
    have hentered := h.insert? hf hi
    rwa [hb, if_neg Bool.false_ne_true] at hentered

end Marked

end Worker

/-! ### A whole run -/

namespace System

variable {s s' : System} {e : Event}

theorem marked_moves (hm : s.worker.Marked) (hs : s.Sound) (m : s.Moves e s') :
    s'.worker.Marked := by
  cases m with
  | @receive m rest idle done h =>
    obtain ⟨status, hw⟩ := s.worker.received_worker m
    show (s.worker.received m).worker.Marked
    rw [hw]
    exact hm.congr rfl rfl
  | @directory directory result done h =>
    obtain ⟨status, hw⟩ := s.worker.directoryChanged_worker result
    show (s.worker.directoryChanged result).worker.Marked
    rw [hw]
    exact hm.congr rfl rfl
  | @launched text line forked result done h =>
    exact hm.launched (hs.foreground_eq_none (.inl (by rw [h]; rfl))) text line result
  | @poll ending p children done h answer => exact hm.polled hs.coherent ending p.understood
  | _ => exact hm

theorem marked_run {terminalGroup : Option Pid} {operators : OperatorSet} {past : Trace}
    (h : Run (.initial terminalGroup operators) past s) : s.worker.Marked := by
  induction h with
  | start => exact .initial terminalGroup operators
  | move h m ih => exact marked_moves ih ((sound_initial terminalGroup operators).run h) m

/-- While a job is in the foreground the reader waits. -/
theorem Sound.waiting_of_foreground (hs : s.Sound) {id : Nat}
    (hf : s.worker.foreground = some id) : s.reader = .waiting := by
  have howed := hs.owed_le
  rw [owed, hf, Option.isSome_some, Bool.toNat_true] at howed
  have hwaits : s.reader.isWaiting = true := by
    by_contra hno
    rw [Bool.not_eq_true] at hno
    rw [hno, Bool.toNat_false] at howed
    omega
  exact Reader.isWaiting_eq_true.1 hwaits

end System

/-- **What is known of the foreground is right at all times.**  While a job is in the foreground
the reader waits, and the job is in the table with a process; if looking for children does not fail,
all its processes are children that have not been collected.  A job is not marked as running in the
background exactly if it is the one in the foreground, so at most one job is not.  At the prompt no
job is in the foreground and all of them are marked. -/
theorem foreground_of_run {terminalGroup : Option Pid} {operators : OperatorSet} {past : Trace}
    {s : System} (h : Run (.initial terminalGroup operators) past s) :
    (∀ id, s.worker.foreground = some id → s.reader = .waiting ∧
      ∃ job, s.worker.jobs.get? id = some job ∧ job.pids ≠ [] ∧
        ((∀ x ∈ past, x.2.Collects) → ∀ pid ∈ job.pids, s.children pid ≠ none)) ∧
    (∀ id job, s.worker.jobs.get? id = some job →
      (job.background = false ↔ s.worker.foreground = some id)) ∧
    (∀ id job id' job', s.worker.jobs.get? id = some job → s.worker.jobs.get? id' = some job' →
      job.background = false → job'.background = false → id = id') ∧
    (s.reader = .atPrompt → s.worker.foreground = none ∧
      ∀ id job, s.worker.jobs.get? id = some job → job.background = true) := by
  have hs := (System.sound_initial terminalGroup operators).run h
  have hm := System.marked_run h
  refine ⟨fun id hf => ?_, fun id job hj => hm.unmarked_iff hj, ?_, fun hprompt => ?_⟩
  · obtain ⟨job, hj⟩ := Option.ne_none_iff_exists'.1 (hm.present hf)
    refine ⟨hs.waiting_of_foreground hf, job, hj, hs.coherent.inhabited hj, ?_⟩
    intro collects pid hp
    have howner : s.worker.jobs.owner? pid = some id := hs.coherent.owned.2 ⟨job, hj, hp⟩
    exact ((System.Owned.run h collects).child_iff pid).2 (.inl (howner ▸ Option.some_ne_none id))
  · intro id job id' job' hj hj' hb hb'
    have hf := (hm.unmarked_iff hj).1 hb
    have hf' := (hm.unmarked_iff hj').1 hb'
    exact Option.some.inj (hf.symm.trans hf')
  · have hnone : s.worker.foreground = none := by
      cases hf : s.worker.foreground with
      | none => rfl
      | some id => cases hprompt.symm.trans (hs.waiting_of_foreground hf)
    exact ⟨hnone, fun id job hj => hm.background_of_none hnone hj⟩

/-- There are runs in which a job is stopped: here a line is asked, its only stage stops, and the
reader is back at the prompt. -/
theorem Run.exists_stopped : ∃ (past : Trace) (s : System),
    Run (.initial none .full) past s ∧ s.reader = .atPrompt ∧
      ∃ job, s.worker.jobs.get? 1 = some job ∧ job.pids = [7] := by
  have hparse : CommandLine.parse "a" .full = .ok ⟨Pipeline.ofWords [.literal "a"], {}⟩ := by
    decide +kernel
  have asked : Run (.initial none .full) [(_, .request (.line "a"))] _ :=
    start.move (.request rfl rfl)
  have received := asked.move (.receive_line rfl rfl rfl hparse rfl)
  have forked := received.move (.callLaunch (r := .fork _) rfl (.ok 7) fun _ _ => rfl)
  have grouped := forked.move (.callLaunch (r := .setGroup 7 0) rfl (.ok ()) fun _ h => by cases h)
  have launched := grouped.move (.launched rfl rfl)
  have stopped : Run _ ((_, .child (.stopped 7 .terminalStop)) :: _) _ :=
    launched.move (.child (.stopped rfl))
  have collected : Run _ ((_, .poll (.ok (some (7, .stopped .terminalStop)))) :: _) _ :=
    stopped.move (.poll rfl rfl (.stopped rfl))
  have reported := collected.move (.put (fun _ h => by cases h) rfl)
  have answered := reported.move (.reply rfl rfl)
  exact ⟨_, _, answered, rfl, _, rfl, rfl⟩

theorem background_of_stopped : ∃ (past : Trace) (s : System) (job : Job),
    Run (.initial none .full) past s ∧ s.reader = .atPrompt ∧ s.worker.foreground = none ∧
      s.worker.jobs.get? 1 = some job ∧ job.pids = [7] ∧ job.background = true := by
  obtain ⟨past, s, h, hprompt, job, hj, hpids⟩ := Run.exists_stopped
  obtain ⟨-, -, -, hquiet⟩ := foreground_of_run h
  obtain ⟨hnone, hmarked⟩ := hquiet hprompt
  exact ⟨past, s, job, h, hprompt, hnone, hj, hpids, hmarked 1 job hj⟩

end PipelineShell
