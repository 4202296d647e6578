/-
The children of the shell and the processes that it knows of.

A process is forked for a line, then the job of the line has it, and when the
shell has been told that it has ended it is gone.  So the children are, at any
time, the processes of the jobs and those that have been forked for the line
that is being launched, and no process is counted twice.

* `System.Owned` — the children are exactly these processes;
* `System.Owned.moves`, `System.Owned.run` — it stays so in every run in which
  looking for children does not fail;
* `System.Owned.exists_insert?` — what runs after a launch can be added to the
  table of jobs.

Design notes: the condition on the run (`Event.Collects`) cannot be left out.
If a child has been ended by a real-time signal, it is collected, but the shell
is not told which one it was, so its job keeps it.
-/
import PipelineShell.Proofs.Grammar
import PipelineShell.Proofs.System

namespace PipelineShell

/-! ### What is assumed of a run -/

/-- Looking for children does not fail, except for want of a child or because it is interrupted. -/
def Event.Collects : Event → Prop
  | .poll p => ∀ e, p.understood = .error e → e = .echild ∨ e = .eintr
  | _ => True

theorem Event.Collects.understood_eq {p : Poll} (h : (Event.poll p).Collects) :
    p.understood = p := by
  rcases p with e | _ | ⟨pid, code | signal | signal⟩
  case ok.some.killed =>
    cases hr : signal.isRealTime with
    | false => simp [Poll.understood, hr]
    | true => rcases h .einval (by simp [Poll.understood, hr]) with h | h <;> cases h
  all_goals rfl

/-! ### The invariant -/

/-- What has been forked for a line whose job is not in the table yet. -/
def Doing.forked : Doing → List Pid
  | .launching _ _ forked _ => forked
  | _ => []

@[simp] theorem Doing.forked_begin (w : Worker) (a : Activity) : (begin w a).forked = [] := by
  cases a <;> rfl

namespace System

structure Owned (s : System) : Prop where
  child_iff : ∀ pid, s.children pid ≠ none ↔
    s.worker.jobs.owner? pid ≠ none ∨ pid ∈ s.doing.forked
  /-- No job has a process of the line that is being launched. -/
  new : ∀ pid ∈ s.doing.forked, s.worker.jobs.owner? pid = none
  nodup : s.doing.forked.Nodup
  /-- The line that is being launched has a stage. -/
  size_pos : ∀ {text : String} {line : CommandLine} {forked : List Pid}
    {calls : Program Task (Except LaunchError Spawned)},
    s.doing = .launching text line forked calls → 0 < line.pipeline.size

namespace Owned

variable {s s' : System} {e : Event}

theorem initial (terminalGroup : Option Pid) (operators : OperatorSet) :
    (System.initial terminalGroup operators).Owned where
  child_iff pid := by simp [System.initial, JobTable.empty, JobTable.owner?, Doing.forked]
  new pid h := (List.not_mem_nil h).elim
  nodup := List.nodup_nil
  size_pos h := by cases h

/-- After a step of the worker nothing has been forked for the next line. -/
theorem take {step : Step}
    (hc : ∀ pid, s.children pid ≠ none ↔ step.worker.jobs.owner? pid ≠ none)
    (hn : ∀ text line, step.next = .launching text line → 0 < line.pipeline.size) :
    (s.take step).Owned where
  child_iff pid := by
    show s.children pid ≠ none ↔ step.worker.jobs.owner? pid ≠ none ∨
      pid ∈ (Doing.begin step.worker step.next).forked
    rw [Doing.forked_begin, hc]
    simp
  new pid h := by
    replace h : pid ∈ (Doing.begin step.worker step.next).forked := h
    rw [Doing.forked_begin] at h
    cases h
  nodup := by
    show (Doing.begin step.worker step.next).forked.Nodup
    rw [Doing.forked_begin]
    exact List.nodup_nil
  size_pos {text line forked calls} h := by
    obtain ⟨hnext, -, -⟩ := Doing.begin_eq_launching h
    exact hn text line hnext

/-- Nothing is being launched, so every child belongs to a job. -/
theorem child_iff_of_forked (ho : s.Owned) (h : s.doing.forked = []) (pid : Pid) :
    s.children pid ≠ none ↔ s.worker.jobs.owner? pid ≠ none := by
  rw [ho.child_iff, h]
  simp

/-! ### A launch -/

/-- Something runs after a launch exactly if something has been forked. -/
theorem isSome_running?_iff (ho : s.Owned) (hs : s.Sound) {text : String} {line : CommandLine}
    {forked : List Pid} {result : Except LaunchError Spawned}
    (h : s.doing = .launching text line forked (.done result)) :
    (Worker.running? result).isSome ↔ forked ≠ [] := by
  have hsize := ho.size_pos h
  obtain ⟨terminal, hy⟩ := hs.yields h
  have hl := CommandLine.yields_launch (hy (.done result))
  rw [List.append_nil] at hl
  rcases hl with ⟨rfl, hl⟩ | ⟨e, rfl, -⟩ | ⟨rfl, e, rfl, he⟩
  · have hne : forked ≠ [] := List.ne_nil_of_length_pos (hl ▸ hsize)
    simp [Worker.running?, hne]
  · cases forked <;> simp [Worker.running?]
  · rcases e with _ | _ | ⟨spawned, cause⟩
    · simp [Worker.running?]
    · simp [Worker.running?]
    · exact absurd rfl (he spawned cause)

/-- **What runs after a launch finds its place in the table of jobs.** -/
theorem exists_insert? (ho : s.Owned) (hs : s.Sound) {text : String} {line : CommandLine}
    {forked : List Pid} {result : Except LaunchError Spawned} {spawned : Spawned}
    (h : s.doing = .launching text line forked (.done result))
    (hr : Worker.running? result = some spawned) (title : String) (background : Bool) :
    ∃ id jobs, s.worker.jobs.insert? title spawned.group spawned.pids background =
      some (id, jobs) := by
  have hforked : s.doing.forked = forked := by rw [h]; rfl
  have hne := (ho.isSome_running?_iff hs h).1 (by rw [hr]; rfl)
  rw [hs.pids_of_running? h hr, ← hforked]
  exact JobTable.exists_insert? (hforked ▸ hne) ho.nodup ho.new title spawned.group background

theorem launched (ho : s.Owned) (hs : s.Sound) {text : String} {line : CommandLine}
    {forked : List Pid} {result : Except LaunchError Spawned}
    (h : s.doing = .launching text line forked (.done result)) :
    (s.take (s.worker.launched text line result)).Owned := by
  have hforked : s.doing.forked = forked := by rw [h]; rfl
  rcases s.worker.launched_cases text line result with
    ⟨hr, message, he⟩ | ⟨spawned, outputs, hr, hout, he⟩
  · have hnil : forked = [] := by
      by_contra hne
      have hsome := (ho.isSome_running?_iff hs h).2 hne
      rw [hr] at hsome
      cases hsome
    rw [he]
    exact take (ho.child_iff_of_forked (hforked.trans hnil)) fun _ _ h => by cases h
  rw [he]
  -- What was forked for the line moves over to the new job.
  rcases s.worker.started_cases text line spawned hout with
    ⟨hnone, -⟩ | ⟨id, jobs, hi, hstep⟩
  · obtain ⟨id, jobs, hi⟩ := ho.exists_insert? hs h hr
      (String.ofList (Text.trim text.toList)) line.modifier.background
    cases hnone.symm.trans hi
  have hjobs : ∀ pid, s.children pid ≠ none ↔ jobs.owner? pid ≠ none := by
    intro pid
    rw [JobTable.owner?_insert? hi, ho.child_iff, hforked, hs.pids_of_running? h hr]
    by_cases hp : pid ∈ forked <;> simp [hp]
  rcases hstep with ⟨-, message, he⟩ | ⟨-, hw, -, hn⟩
  · rw [he]
    exact take hjobs fun _ _ h => by cases h
  · refine take (fun pid => ?_) fun _ _ h => ?_
    · rw [hw]
      exact hjobs pid
    · rw [hn] at h
      cases h

/-! ### The steps -/

theorem receive (ho : s.Owned) {m : Message} {rest : List Message} (idle : s.doing = .listening) :
    ({ s with inbox := rest }.take (s.worker.received m)).Owned := by
  obtain ⟨status, hw⟩ := s.worker.received_worker m
  refine take (fun pid => ?_) fun text line h => ?_
  · rw [hw]
    exact ho.child_iff_of_forked (by rw [idle]; rfl) pid
  · exact CommandLine.size_pos_of_parse (Worker.received_of_launching h).2.1

theorem poll (ho : s.Owned) (hs : s.Sound) {ending : Bool} {p : Poll} {children : Children}
    (h : s.doing = .collecting ending) (answer : s.children.Answers p children)
    (hp : (Event.poll p).Collects) :
    ({ s with children }.take (s.worker.polled ending p.understood)).Owned := by
  have hchild := ho.child_iff_of_forked (by rw [h]; rfl)
  rw [hp.understood_eq]
  refine take ?_ fun text line h => ?_
  · show ∀ pid, children pid ≠ none ↔ (s.worker.polled ending p).worker.jobs.owner? pid ≠ none
    rcases p.news_cases with ⟨pid, signal, rfl⟩ | ⟨pid, status, hend, rfl⟩ | hnone
    · obtain ⟨hnews, rfl⟩ := answer.of_stopped
      have howner : ∀ q, (s.worker.processStopped pid).1.jobs.owner? q
          = s.worker.jobs.owner? q := by
        intro q
        rcases s.worker.processStopped_cases pid with ⟨id, job, -, -, -, hw, -⟩ | ⟨-, he⟩
        · rw [hw]
          rfl
        · rw [he]
      intro q
      show _ ↔ (s.worker.processStopped pid).1.jobs.owner? q ≠ none
      rw [howner, ← hchild]
      by_cases hq : q = pid
      · simp [hq, hnews]
      · rw [Function.update_of_ne hq]
    -- The child is gone, and so is the process from its job.
    · obtain ⟨-, rfl⟩ := answer.of_ended hend
      rw [Worker.polled_of_not_stopped s.worker ending pid hend]
      intro q
      show _ ↔ (s.worker.processEnded pid status.code).1.jobs.owner? q ≠ none
      rw [(Worker.processEnded_cases hs.coherent pid status.code).1, hs.coherent.owner?_remove]
      by_cases hq : q = pid
      · simp [hq]
      · rw [Function.update_of_ne hq, if_neg hq, hchild]
    · rw [answer.of_no_child hnone, (s.worker.polled_of_no_child ending hnone).1]
      exact hchild
  · rcases s.worker.polled_next ending p with hn | hn
    · rw [hn] at h
      cases h
    · rw [hn] at h
      cases h

theorem callLaunch (ho : s.Owned) {text : String} {line : CommandLine} {forked : List Pid}
    {r : Request Task} {next : r.Answer → Program Task (Except LaunchError Spawned)}
    (h : s.doing = .launching text line forked (.call r next)) (answer : r.Answer)
    (new : ∀ pid ∈ r.forked answer, s.children pid = none) :
    Owned
      { s with
        doing := .launching text line (forked ++ r.forked answer) (next answer)
        children := s.children.start (r.forked answer) } := by
  have hforked : s.doing.forked = forked := by rw [h]; rfl
  -- A new process is neither in the table nor forked for the line.
  have hfresh : ∀ pid ∈ r.forked answer, s.worker.jobs.owner? pid = none ∧ pid ∉ forked := by
    intro pid hp
    have hnot := mt (ho.child_iff pid).2 (not_not.2 (new pid hp))
    rw [hforked, not_or, not_not] at hnot
    exact hnot
  constructor
  case child_iff =>
    intro pid
    show s.children.start (r.forked answer) pid ≠ none ↔ _ ∨ pid ∈ forked ++ r.forked answer
    rw [List.mem_append, Children.start]
    by_cases hp : pid ∈ r.forked answer
    · simp [hp]
    · rw [if_neg hp, ho.child_iff, hforked]
      simp [hp]
  case new =>
    intro pid hp
    rcases List.mem_append.1 hp with hp | hp
    · exact ho.new pid (hforked ▸ hp)
    · exact (hfresh pid hp).1
  case nodup =>
    refine List.nodup_append.2 ⟨hforked ▸ ho.nodup, r.nodup_forked answer, ?_⟩
    exact fun pid hp q hq he => (hfresh q hq).2 (he ▸ hp)
  case size_pos =>
    intro _ _ _ _ h'
    cases h'
    exact ho.size_pos h

theorem moves (ho : s.Owned) (hs : s.Sound) (he : e.Collects) (m : s.Moves e s') : s'.Owned := by
  cases m with
  | child h =>
    refine ⟨fun pid => ?_, ho.new, ho.nodup, ho.size_pos⟩
    rw [ne_eq, h.eq_none_iff]
    exact ho.child_iff pid
  | receive idle done h => exact ho.receive idle
  | @callDirectory directory r next h answer =>
    have hnil : s.doing.forked = [] := by rw [h]; rfl
    refine ⟨fun pid => ?_, fun pid h => (List.not_mem_nil h).elim, List.nodup_nil,
      fun h => by cases h⟩
    rw [ho.child_iff_of_forked hnil]
    simp [Doing.forked]
  | @directory directory result done h =>
    obtain ⟨status, hw⟩ := s.worker.directoryChanged_worker result
    refine take (fun pid => ?_) fun text line hn => ?_
    · show s.children pid ≠ none ↔
        (s.worker.directoryChanged result).worker.jobs.owner? pid ≠ none
      rw [hw]
      exact ho.child_iff_of_forked (by rw [h]; rfl) pid
    · cases result <;> cases hn
  | callLaunch h answer new => exact ho.callLaunch h answer new
  | launched done h => exact ho.launched hs h
  | poll done h answer => exact ho.poll hs h answer he
  | _ => exact { ho with }

theorem run {terminalGroup : Option Pid} {operators : OperatorSet} {past : Trace}
    (h : Run (.initial terminalGroup operators) past s) (he : ∀ x ∈ past, x.2.Collects) :
    s.Owned := by
  induction h with
  | start => exact initial terminalGroup operators
  | move h m ih =>
    refine (ih fun x hx => he x (List.mem_cons_of_mem _ hx)).moves ?_ ?_ m
    · exact (sound_initial terminalGroup operators).run h
    · exact he _ List.mem_cons_self

end Owned

end System

end PipelineShell
