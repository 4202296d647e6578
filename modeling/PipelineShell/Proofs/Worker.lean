/-
What one step of a worker does.

Each handler of the worker has one lemma that says all it can come to; the
lines for the user are left open, the replies never are.  What all handlers
have in common is `Faithful`: a step makes no reply out of nothing.

* `processEnded_cases`, `processStopped_cases` — a changed process leads to a
  reply only if it belongs to the job in the foreground, and then the shell has
  the foreground again;
* `collected_cases`, `polled_of_no_child`, `launched_cases`, `started_cases` —
  the other handlers;
* `jobs_polled_cases`, `jobs_launched_cases` — what becomes of the table;
* `received_faithful`, `polled_faithful`, `directoryChanged_faithful`,
  `launched_faithful` — every step is faithful.

Design notes: an answer is owed for the message that is being handled, or for
the job in the foreground, or it is already on its way.  `Faithful.answers`
counts the three together, so that a whole run only has to add up.
-/
import PipelineShell.Proofs.JobTable
import PipelineShell.Worker

namespace PipelineShell

/-! ### Replies and what they say about the status -/

/-- The replies among outputs. -/
def Output.replies (outputs : List Output) : List Reply :=
  outputs.filterMap fun
    | .reply r => some r
    | _ => none

open Output

namespace Output

variable {outputs : List Output}

@[simp] theorem replies_nil : replies [] = [] := rfl

@[simp] theorem replies_cons_report (text : String) :
    replies (.report text :: outputs) = replies outputs := rfl

@[simp] theorem replies_cons_terminal (group : Pid) :
    replies (.terminal group :: outputs) = replies outputs := rfl

@[simp] theorem replies_cons_reply (r : Reply) :
    replies (.reply r :: outputs) = r :: replies outputs := rfl

theorem replies_cons_of_silent {o : Output} (h : ∀ r, o ≠ .reply r) :
    replies (o :: outputs) = replies outputs := by
  cases o with
  | reply r => exact absurd rfl (h r)
  | _ => rfl

@[simp] theorem replies_append (outputs others : List Output) :
    replies (outputs ++ others) = replies outputs ++ replies others := by
  rw [replies, List.filterMap_append]
  rfl

@[simp] theorem replies_terminal (group : Option Pid) :
    replies (group.map Output.terminal).toList = [] := by
  cases group <;> rfl

theorem mem_replies {r : Reply} : r ∈ replies outputs ↔ .reply r ∈ outputs := by
  rw [replies, List.mem_filterMap]
  constructor
  · rintro ⟨o, hmem, ho⟩
    cases o <;> cases ho
    exact hmem
  · exact fun h => ⟨_, h, rfl⟩

end Output

/-- The status of the last line, after one more reply. -/
def Reply.status (before : Int) : Reply → Int
  | .resume status => status
  | .quit _ => before

/-- The status of the last line, after some more replies. -/
def statusAfter (before : Int) (replies : List Reply) : Int := replies.foldl Reply.status before

/-- A line or the end of the input, which is to be answered. -/
def Message.isRequest : Message → Bool
  | .line _ => true
  | .endOfInput => true
  | .childChanged => false
  | .signal => false

/-- An answer will be given at the end of this activity, unless a job in the foreground takes it
over. -/
def Activity.isHandling : Activity → Bool
  | .listening => false
  | .collecting ending => ending
  | .changing _ => true
  | .launching _ _ => true

/-- The process has only stopped. -/
def WaitStatus.isStop : WaitStatus → Bool
  | .stopped _ => true
  | _ => false

theorem WaitStatus.isStop_iff {status : WaitStatus} :
    status.isStop = true ↔ ∃ signal, status = .stopped signal := by
  cases status <;> simp [isStop]

/-- Looking for a changed child finds one that has stopped, one that has ended, or none. -/
theorem Poll.news_cases (p : Poll) : (∃ pid signal, p = .ok (some (pid, .stopped signal))) ∨
    (∃ pid status, status.isStop = false ∧ p = .ok (some (pid, status))) ∨
      ∀ pid status, p ≠ .ok (some (pid, status)) := by
  rcases p with e | _ | ⟨pid, status⟩
  case error => exact .inr (.inr fun _ _ h => by cases h)
  case ok.none => exact .inr (.inr fun _ _ h => by cases h)
  case ok.some =>
    cases hs : status.isStop with
    | false => exact .inr (.inl ⟨pid, status, hs, rfl⟩)
    | true =>
      obtain ⟨signal, rfl⟩ := WaitStatus.isStop_iff.1 hs
      exact .inl ⟨pid, signal, rfl⟩

/-- What every step of a worker respects that may give this many answers. -/
structure Step.Faithful (w : Worker) (owed : Nat) (s : Step) : Prop where
  /-- Answers are given, or put off, but not made up. -/
  answers : (replies s.outputs).length + s.next.isHandling.toNat +
    s.worker.foreground.isSome.toNat ≤ w.foreground.isSome.toNat + owed
  status : s.worker.status = statusAfter w.status (replies s.outputs)
  coherent : w.jobs.Coherent → s.worker.jobs.Coherent
  operators : s.worker.operators = w.operators

namespace Worker

variable {w : Worker}

/-! ### Answers at once -/

/-- The answer is put off until the next activity. -/
theorem goOn_faithful (next : Activity) :
    Step.Faithful w next.isHandling.toNat { worker := w, next } where
  answers := by
    show 0 + next.isHandling.toNat + w.foreground.isSome.toNat ≤ _
    omega
  status := rfl
  coherent hc := hc
  operators := rfl

theorem answer_faithful (status : Int) {outputs : List Output} (h : replies outputs = []) :
    Step.Faithful w 1 (w.answer status outputs) where
  answers := by
    simp only [answer, replies_append, h, replies_cons_reply, replies_nil, List.nil_append,
      List.length_singleton, Activity.isHandling, Bool.toNat_false]
    omega
  status := by simp [answer, h, statusAfter, Reply.status]
  coherent hc := hc
  operators := rfl

theorem refuse_faithful (text : String) : Step.Faithful w 1 (w.refuse text) :=
  answer_faithful 1 rfl

theorem directoryChanged_faithful (result : Except DirectoryError String) :
    Step.Faithful w 1 (w.directoryChanged result) := by
  cases result with
  | ok directory => exact answer_faithful 0 rfl
  | error e => exact refuse_faithful e.message

/-! ### A changed child -/

/-- A process that ends leads to an answer exactly if it is the last one of the job in the
foreground. -/
theorem processEnded_cases (hc : w.jobs.Coherent) (pid : Pid) (status : Int) :
    (w.processEnded pid status).1.jobs = (w.jobs.remove pid status).2 ∧
    (w.processEnded pid status).1.operators = w.operators ∧
    ((∃ id job, w.foreground = some id ∧ w.jobs.get? id = some job ∧ pid ∈ job.pids ∧
        (job.collect pid status).pids = [] ∧ (w.processEnded pid status).1.foreground = none ∧
        (w.processEnded pid status).1.status = (job.collect pid status).status.getD status ∧
        replies (w.processEnded pid status).2 =
          [.resume ((job.collect pid status).status.getD status)]) ∨
      ((∀ id job, w.foreground = some id → w.jobs.get? id = some job → pid ∈ job.pids →
          (job.collect pid status).pids ≠ []) ∧
        (w.processEnded pid status).1.foreground = w.foreground ∧
        (w.processEnded pid status).1.status = w.status ∧
        replies (w.processEnded pid status).2 = [])) := by
  rw [processEnded]
  rcases hc.owner?_cases pid with ho | ⟨id, job, ho, hj, hp⟩
  · rw [JobTable.remove_of_owner?_eq_none status ho]
    refine ⟨rfl, rfl, .inr ⟨fun id job _ hj hp => ?_, rfl, rfl, rfl⟩⟩
    exact absurd (ho.symm.trans (hc.owned.2 ⟨job, hj, hp⟩)) (by simp)
  -- The job is the only one that has the process.
  have hunique : ∀ id' job', w.jobs.get? id' = some job' → pid ∈ job'.pids →
      id' = id ∧ job' = job := by
    intro id' job' hj' hp'
    obtain rfl := hc.eq_of_mem hj' hj hp' hp
    exact ⟨rfl, Option.some.inj (hj'.symm.trans hj)⟩
  rw [JobTable.remove_eq status ho hj]
  by_cases hlast : (job.collect pid status).pids = []
  · rw [if_pos hlast]
    by_cases hf : w.foreground = some id
    · refine ⟨?_, ?_, .inl ⟨id, job, hf, hj, hp, hlast, ?_⟩⟩
      all_goals simp [hf, takeOver]
    · refine ⟨?_, ?_, .inr ⟨fun id' job' hf' hj' hp' => ?_, ?_⟩⟩
      · simp [hf]
      · simp [hf]
      · exact absurd (hf'.trans (congrArg some (hunique id' job' hj' hp').1)) hf
      · simp [hf]
  · rw [if_neg hlast]
    refine ⟨rfl, rfl, .inr ⟨fun id' job' _ hj' hp' => ?_, rfl, rfl, rfl⟩⟩
    rw [(hunique id' job' hj' hp').2]
    exact hlast

/-- A process that stops leads to an answer exactly if the job in the foreground has it. -/
theorem processStopped_cases (w : Worker) (pid : Pid) :
    (∃ id job, w.foreground = some id ∧ w.jobs.get? id = some job ∧ pid ∈ job.pids ∧
        (w.processStopped pid).1 =
          { w with
            jobs := w.jobs.setBackground id, status := 128 + Signal.terminalStop.number
            foreground := none } ∧
        replies (w.processStopped pid).2 = [.resume (128 + Signal.terminalStop.number)]) ∨
      ((∀ id job, w.foreground = some id → w.jobs.get? id = some job → pid ∉ job.pids) ∧
        w.processStopped pid = (w, [])) := by
  rw [processStopped]
  cases hf : w.foreground with
  | none => exact .inr ⟨by simp, rfl⟩
  | some id =>
    cases hj : w.jobs.get? id with
    | none =>
      refine .inr ⟨fun id' job' hf' hj' => ?_, by simp [hj]⟩
      obtain rfl := Option.some.inj hf'
      exact absurd (hj.symm.trans hj') (by simp)
    | some job =>
      by_cases hp : pid ∈ job.pids
      · refine .inl ⟨id, job, rfl, hj, hp, ?_⟩
        simp [hj, hp, takeOver]
      · refine .inr ⟨fun id' job' hf' hj' => ?_, by simp [hj, hp]⟩
        obtain rfl := Option.some.inj hf'
        obtain rfl := Option.some.inj (hj.symm.trans hj')
        exact hp

/-- With nothing left to collect, an answer is given exactly at the end of the input. -/
theorem collected_cases (w : Worker) (ending : Bool) {outputs : List Output}
    (h : replies outputs = []) :
    (w.collected ending outputs).worker = w ∧ (w.collected ending outputs).next = .listening ∧
      replies (w.collected ending outputs).outputs = if ending then [.quit w.status] else [] := by
  cases ending with
  | false => exact ⟨rfl, rfl, h⟩
  | true =>
    refine ⟨rfl, rfl, ?_⟩
    by_cases he : w.jobs.isEmpty <;> simp [collected, h, he, complaint]

theorem polled_error (w : Worker) (ending : Bool) {e : Errno} (h : e ≠ .eintr) :
    ∃ outputs, replies outputs = [] ∧ w.polled ending (.error e) = w.collected ending outputs := by
  cases e <;> first | exact absurd rfl h | exact ⟨_, rfl, rfl⟩

theorem polled_of_not_stopped (w : Worker) (ending : Bool) (pid : Pid) {status : WaitStatus}
    (h : status.isStop = false) :
    w.polled ending (.ok (some (pid, status))) =
      { worker := (w.processEnded pid status.code).1
        outputs := (w.processEnded pid status.code).2
        next := .collecting ending } := by
  cases status with
  | exited code => rfl
  | killed signal => rfl
  | stopped signal => cases h

theorem collected_faithful (hc : w.jobs.Coherent) (ending : Bool) {outputs : List Output}
    (h : replies outputs = []) : Step.Faithful w ending.toNat (w.collected ending outputs) := by
  obtain ⟨hw, hn, hr⟩ := w.collected_cases ending h
  constructor
  case answers =>
    rw [hr, hn, hw]
    cases ending <;> simp [Activity.isHandling]
    omega
  case status =>
    rw [hr, hw]
    cases ending <;> rfl
  case coherent =>
    rw [hw]
    exact fun _ => hc
  case operators => rw [hw]

theorem polled_faithful (hc : w.jobs.Coherent) (ending : Bool) (poll : Poll) :
    Step.Faithful w ending.toNat (w.polled ending poll) := by
  rcases poll with e | _ | ⟨pid, status⟩
  case error =>
    by_cases he : e = .eintr
    · subst he
      exact goOn_faithful (.collecting ending)
    · obtain ⟨outputs, ho, h⟩ := w.polled_error ending he
      exact h ▸ collected_faithful hc ending ho
  case ok.none => exact collected_faithful hc ending rfl
  case ok.some =>
    by_cases hs : status.isStop = true
    · obtain ⟨signal, rfl⟩ := WaitStatus.isStop_iff.1 hs
      rw [polled]
      rcases w.processStopped_cases pid with ⟨id, job, hf, hj, hp, hw, hr⟩ | ⟨-, he⟩
      · constructor
        case answers =>
          simp only [hr, hw, hf, Activity.isHandling]
          simp
        case status => simp only [hr, hw]; rfl
        case coherent => simp only [hw]; exact fun _ => hc.setBackground id
        case operators => simp only [hw]
      · rw [he]
        exact goOn_faithful (.collecting ending)
    · rw [polled_of_not_stopped w ending pid (Bool.not_eq_true _ ▸ hs)]
      obtain ⟨hjobs, hops, hcases⟩ := processEnded_cases hc pid status.code
      constructor
      case answers =>
        rcases hcases with ⟨id, job, hf, -, -, -, hf', -, hr⟩ | ⟨-, hf', -, hr⟩
        · simp only [hr, hf, hf', Activity.isHandling]
          simp
        · simp only [hr, hf', Activity.isHandling]
          simp
          omega
      case status =>
        rcases hcases with ⟨id, job, -, -, -, -, -, hs, hr⟩ | ⟨-, -, hs, hr⟩
        · rw [hs, hr]
          rfl
        · rw [hs, hr]
          rfl
      case coherent => exact fun _ => hjobs ▸ hc.remove pid status.code
      case operators => exact hops

/-- Without a changed child an answer is given at the end of the input, unless the worker goes on
looking. -/
theorem polled_of_no_child (w : Worker) (ending : Bool) {poll : Poll}
    (h : ∀ pid status, poll ≠ .ok (some (pid, status))) :
    (w.polled ending poll).worker = w ∧
      (replies (w.polled ending poll).outputs = [] ∧
          (ending = true → (w.polled ending poll).next = .collecting true) ∨
        ending = true ∧ replies (w.polled ending poll).outputs = [.quit w.status]) := by
  have hcollected : ∀ outputs, replies outputs = [] → (w.collected ending outputs).worker = w ∧
      (replies (w.collected ending outputs).outputs = [] ∧
          (ending = true → (w.collected ending outputs).next = .collecting true) ∨
        ending = true ∧ replies (w.collected ending outputs).outputs = [.quit w.status]) := by
    intro outputs ho
    obtain ⟨hw, -, hr⟩ := w.collected_cases ending ho
    refine ⟨hw, ?_⟩
    cases ending with
    | false => exact .inl ⟨hr, fun h => by cases h⟩
    | true => exact .inr ⟨rfl, hr⟩
  rcases poll with e | _ | ⟨pid, status⟩
  case error =>
    by_cases he : e = .eintr
    · subst he
      exact ⟨rfl, .inl ⟨rfl, fun h => by rw [h]; rfl⟩⟩
    · obtain ⟨outputs, ho, h⟩ := w.polled_error ending he
      rw [h]
      exact hcollected outputs ho
  case ok.none => exact hcollected [] rfl
  case ok.some => exact absurd rfl (h pid status)

/-- Looking for a changed child leads to an answer only if it finds one of the job in the
foreground, or none at the end of the input. -/
theorem polled_answers (hc : w.jobs.Coherent) (ending : Bool) {poll : Poll}
    (h : replies (w.polled ending poll).outputs ≠ []) :
    (∃ pid status id job, poll = .ok (some (pid, status)) ∧ w.foreground = some id ∧
        w.jobs.get? id = some job ∧ pid ∈ job.pids) ∨
      (ending = true ∧ ∀ pid status, poll ≠ .ok (some (pid, status))) := by
  rcases poll.news_cases with ⟨pid, signal, rfl⟩ | ⟨pid, status, hs, rfl⟩ | hp
  · rcases w.processStopped_cases pid with ⟨id, job, hf, hj, hp, -⟩ | ⟨-, he⟩
    · exact .inl ⟨pid, _, id, job, rfl, hf, hj, hp⟩
    · rw [polled, he] at h
      exact absurd rfl h
  · rw [polled_of_not_stopped w ending pid hs] at h
    obtain ⟨-, -, ⟨id, job, hf, hj, hp, -⟩ | ⟨-, -, -, hr⟩⟩ :=
      processEnded_cases hc pid status.code
    · exact .inl ⟨pid, status, id, job, rfl, hf, hj, hp⟩
    · exact absurd hr h
  · rcases (w.polled_of_no_child ending hp).2 with ⟨hr, -⟩ | ⟨he, -⟩
    · exact absurd hr h
    · exact .inr ⟨he, hp⟩

/-- A job that stays in the foreground gets no new processes. -/
theorem polled_foreground (hc : w.jobs.Coherent) (ending : Bool) {poll : Poll} {id : Nat}
    {job : Job} (hf : (w.polled ending poll).worker.foreground = some id)
    (hj : (w.polled ending poll).worker.jobs.get? id = some job) :
    w.foreground = some id ∧
      ∃ before, w.jobs.get? id = some before ∧ ∀ pid ∈ job.pids, pid ∈ before.pids := by
  rcases poll.news_cases with ⟨pid, signal, rfl⟩ | ⟨pid, status, hs, rfl⟩ | hp
  · rw [polled] at hf hj
    rcases w.processStopped_cases pid with ⟨id, job, -, -, -, hw, -⟩ | ⟨-, he⟩
    · simp only [hw] at hf
      cases hf
    · rw [he] at hf hj
      exact ⟨hf, job, hj, fun _ h => h⟩
  · rw [polled_of_not_stopped w ending pid hs] at hf hj
    obtain ⟨hjobs, -, ⟨-, -, -, -, -, -, hf', -⟩ | ⟨-, hf', -, -⟩⟩ :=
      processEnded_cases hc pid status.code
    · cases hf'.symm.trans hf
    · rw [hjobs] at hj
      refine ⟨hf'.symm.trans hf, ?_⟩
      rcases hc.get?_remove_cases hj with ⟨hj, -⟩ | ⟨before, hb, -, rfl, -⟩
      · exact ⟨job, hj, fun _ h => h⟩
      · exact ⟨before, hb, fun q hq => (Job.mem_pids_collect.1 hq).1⟩
  · rw [(w.polled_of_no_child ending hp).1] at hf hj
    exact ⟨hf, job, hj, fun _ h => h⟩

/-- What looking for a changed child does to the table: one job goes to the background, or a process
that has ended is taken from its job. -/
theorem jobs_polled_cases (hc : w.jobs.Coherent) (ending : Bool) (poll : Poll) :
    (w.polled ending poll).worker.jobs = w.jobs ∨
      (∃ id, (w.polled ending poll).worker.jobs = w.jobs.setBackground id) ∨
      ∃ pid status, poll = .ok (some (pid, status)) ∧
        (w.polled ending poll).worker.jobs = (w.jobs.remove pid status.code).2 := by
  rcases poll.news_cases with ⟨pid, signal, rfl⟩ | ⟨pid, status, hs, rfl⟩ | hp
  · rw [polled]
    rcases w.processStopped_cases pid with ⟨id, job, -, -, -, hw, -⟩ | ⟨-, he⟩
    · exact .inr (.inl ⟨id, by simp only [hw]⟩)
    · exact .inl (by simp only [he])
  · rw [polled_of_not_stopped w ending pid hs]
    obtain ⟨hjobs, -⟩ := processEnded_cases hc pid status.code
    exact .inr (.inr ⟨pid, status, rfl, hjobs⟩)
  · exact .inl (congrArg Worker.jobs (w.polled_of_no_child ending hp).1)

/-- Nothing is launched right after looking for children. -/
theorem polled_next (w : Worker) (ending : Bool) (poll : Poll) :
    (w.polled ending poll).next = .listening ∨
      (w.polled ending poll).next = .collecting ending := by
  have hcollected : ∀ outputs, (w.collected ending outputs).next = .listening := by
    intro outputs
    rw [collected]
    split <;> rfl
  rw [polled.eq_def]
  split
  · exact .inr rfl
  · exact .inr rfl
  · exact .inl (hcollected _)
  · exact .inl (hcollected _)
  · exact .inr rfl
  · exact .inl (hcollected _)

/-! ### A launch -/

/-- What runs after a launch: all stages, or those that were started before a fork failed. -/
def running? : Except LaunchError Spawned → Option Spawned
  | .ok spawned => some spawned
  | .error (.fork (first :: rest) _) => some { group := first, pids := first :: rest }
  | .error _ => none

theorem started_cases (w : Worker) (text : String) (line : CommandLine) (spawned : Spawned)
    {outputs : List Output} (h : replies outputs = []) :
    (w.jobs.insert? (String.ofList (Text.trim text.toList)) spawned.group spawned.pids
          line.modifier.background = none ∧
        w.started text line spawned outputs = { worker := w, outputs }) ∨
      ∃ id jobs,
        w.jobs.insert? (String.ofList (Text.trim text.toList)) spawned.group spawned.pids
          line.modifier.background = some (id, jobs) ∧
        ((line.modifier.background = true ∧ ∃ message : String,
            w.started text line spawned outputs =
              { w with jobs }.answer 0 (outputs ++ [Output.report message])) ∨
          (line.modifier.background = false ∧
            (w.started text line spawned outputs).worker =
              { w with jobs, foreground := some id } ∧
            replies (w.started text line spawned outputs).outputs = [] ∧
            (w.started text line spawned outputs).next = .collecting false)) := by
  rw [started]
  cases hi : w.jobs.insert? (String.ofList (Text.trim text.toList)) spawned.group spawned.pids
      line.modifier.background with
  | none => exact .inl ⟨rfl, rfl⟩
  | some entry =>
    obtain ⟨id, jobs⟩ := entry
    refine .inr ⟨id, jobs, rfl, ?_⟩
    cases hb : line.modifier.background with
    | true => exact .inl ⟨rfl, _, rfl⟩
    | false =>
      refine .inr ⟨rfl, rfl, ?_, rfl⟩
      have hterm : replies (w.terminalGroup.map fun _ => Output.terminal spawned.group).toList
          = [] := by
        cases w.terminalGroup <;> rfl
      simp [h, hterm]

theorem launched_cases (w : Worker) (text : String) (line : CommandLine)
    (result : Except LaunchError Spawned) :
    (running? result = none ∧ ∃ message, w.launched text line result = w.refuse message) ∨
      ∃ spawned outputs, running? result = some spawned ∧ replies outputs = [] ∧
        w.launched text line result = w.started text line spawned outputs := by
  rcases result with (_ | _ | ⟨_ | ⟨first, rest⟩, e⟩) | spawned
  case error.invalidArgument => exact .inl ⟨rfl, _, rfl⟩
  case error.pipe => exact .inl ⟨rfl, _, rfl⟩
  case error.fork.nil => exact .inl ⟨rfl, _, rfl⟩
  case error.fork.cons => exact .inr ⟨_, _, rfl, rfl, rfl⟩
  case ok => exact .inr ⟨spawned, [], rfl, rfl, rfl⟩

/-- What a launch does to the table: a job is added for what runs. -/
theorem jobs_launched_cases (w : Worker) (text : String) (line : CommandLine)
    (result : Except LaunchError Spawned) :
    (w.launched text line result).worker.jobs = w.jobs ∨
      ∃ spawned id, running? result = some spawned ∧
        w.jobs.insert? (String.ofList (Text.trim text.toList)) spawned.group spawned.pids
            line.modifier.background =
          some (id, (w.launched text line result).worker.jobs) := by
  rcases w.launched_cases text line result with ⟨-, message, h⟩ | ⟨spawned, outputs, hr, ho, h⟩
  · exact .inl (by rw [h]; rfl)
  rw [h]
  rcases w.started_cases text line spawned ho with ⟨-, h⟩ | ⟨id, jobs, hi, h⟩
  · exact .inl (by rw [h])
  · refine .inr ⟨spawned, id, hr, ?_⟩
    rcases h with ⟨-, message, h⟩ | ⟨-, h, -⟩
    · rw [h]
      exact hi
    · rw [h]
      exact hi

theorem launched_faithful (hc : w.jobs.Coherent) (text : String) (line : CommandLine)
    (result : Except LaunchError Spawned) : Step.Faithful w 1 (w.launched text line result) := by
  rcases w.launched_cases text line result with ⟨-, message, h⟩ | ⟨spawned, outputs, -, ho, h⟩
  · exact h ▸ refuse_faithful message
  rw [h]
  rcases w.started_cases text line spawned ho with ⟨-, h⟩ | ⟨id, jobs, hi, hb | hb⟩
  · rw [h]
    exact ⟨by simp [ho, Activity.isHandling], by simp [ho, statusAfter], fun _ => hc, rfl⟩
  · obtain ⟨-, message, h⟩ := hb
    rw [h]
    have hquiet : replies (outputs ++ [Output.report message]) = [] := by simp [ho]
    have hf : Step.Faithful { w with jobs } 1 _ := answer_faithful 0 hquiet
    exact ⟨hf.answers, hf.status, fun _ => hf.coherent (hc.insert? hi), rfl⟩
  · obtain ⟨-, hw, hr, hn⟩ := hb
    constructor
    case answers => simp [hr, hw, hn, Activity.isHandling]
    case status => rw [hr, hw]; rfl
    case coherent => rw [hw]; exact fun _ => hc.insert? hi
    case operators => rw [hw]

/-! ### A message -/

theorem leave_faithful (argument : Option String) : Step.Faithful w 1 (w.leave argument) := by
  have hquit : ∀ status, Step.Faithful w 1 { worker := w, outputs := [.reply (.quit status)] } :=
    fun status => ⟨by simp [Activity.isHandling]; omega, rfl, id, rfl⟩
  rw [leave.eq_def]
  split
  · exact refuse_faithful _
  split
  · exact hquit w.status
  split
  · exact hquit _
  · exact refuse_faithful _

theorem lineRead_faithful (text : String) : Step.Faithful w 1 (w.lineRead text) := by
  rw [lineRead]
  split
  · exact refuse_faithful _
  split
  · exact goOn_faithful (.changing _)
  · exact leave_faithful _
  · exact goOn_faithful (.launching _ _)

/-- A message changes neither the jobs nor what is in the foreground. -/
theorem received_worker (w : Worker) (m : Message) :
    ∃ status, (w.received m).worker = { w with status } := by
  cases m with
  | line text =>
    show ∃ status, (w.lineRead text).worker = { w with status }
    rw [lineRead]
    split
    · exact ⟨1, rfl⟩
    split
    · exact ⟨w.status, rfl⟩
    · rw [leave.eq_def]
      repeat' split
      all_goals first | exact ⟨1, rfl⟩ | exact ⟨w.status, rfl⟩
    · exact ⟨w.status, rfl⟩
  | endOfInput => exact ⟨w.status, rfl⟩
  | childChanged => exact ⟨w.status, rfl⟩
  | signal => exact ⟨w.status, rfl⟩

theorem directoryChanged_worker (w : Worker) (result : Except DirectoryError String) :
    ∃ status, (w.directoryChanged result).worker = { w with status } := by
  cases result with
  | ok directory => exact ⟨0, rfl⟩
  | error e => exact ⟨1, rfl⟩

theorem lineRead_of_builtin?_eq_none {text : String} {line : CommandLine}
    (h : CommandLine.parse text w.operators = .ok line) (hb : line.builtin? = none) :
    w.lineRead text = { worker := w, next := .launching text line } := by
  simp only [lineRead, h, hb]

/-- A line is launched exactly if it can be read and the shell does not run it itself. -/
theorem lineRead_next_eq_launching_iff {text text' : String} {line : CommandLine} :
    (w.lineRead text).next = .launching text' line ↔
      text' = text ∧ CommandLine.parse text w.operators = .ok line ∧ line.builtin? = none := by
  constructor
  · intro h
    rw [lineRead] at h
    split at h
    · cases h
    next hp =>
    split at h
    · cases h
    · rw [leave.eq_def] at h
      repeat' split at h
      all_goals cases h
    next hb =>
      cases h
      exact ⟨rfl, hp, hb⟩
  · rintro ⟨rfl, hp, hb⟩
    rw [lineRead_of_builtin?_eq_none hp hb]

/-- Only a line that can be read is launched, and nothing has changed by then. -/
theorem received_of_launching {m : Message} {text : String} {line : CommandLine}
    (h : (w.received m).next = .launching text line) :
    m = .line text ∧ CommandLine.parse text w.operators = .ok line ∧ line.builtin? = none ∧
      w.received m = { worker := w, next := .launching text line } := by
  cases m with
  | line text' =>
    obtain ⟨rfl, hp, hb⟩ := lineRead_next_eq_launching_iff.1 h
    exact ⟨rfl, hp, hb, lineRead_of_builtin?_eq_none hp hb⟩
  | endOfInput => cases h
  | childChanged => cases h
  | signal => cases h

theorem received_faithful (m : Message) :
    Step.Faithful w m.isRequest.toNat (w.received m) := by
  cases m with
  | line text => exact lineRead_faithful text
  | endOfInput => exact goOn_faithful (.collecting true)
  | childChanged => exact goOn_faithful (.collecting false)
  | signal => exact goOn_faithful .listening

end Worker

end PipelineShell
