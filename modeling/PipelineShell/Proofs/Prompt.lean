/-
The terminal at the prompt.

When the reader asks for a line, the shell should have the terminal.  It takes
the terminal back at the right time, with the last process of the job or with
the first stop; but a stage that has not got as far as its command may still
take it away.  After the last process no stage is left.  After a stop one may
be, and then the terminal is lost (`Console.exists_lost`).

* `Step.Returns` — a step of the worker that leaves no job in the foreground
  has given the terminal back;
* `Console.Lawful` — who may take the terminal belongs to the line in the
  foreground, and without one the terminal is on its way back to the shell;
* `Console.owner_at_prompt` — if no stage is on its way when its job stops, the
  shell has the terminal whenever the reader is at the prompt.

Design notes: the invariant speaks of the group that will have the terminal when
everything has been put out (`ownerAfter`), because the worker decides about the
terminal and tells it later.
-/
import PipelineShell.Proofs.Terminal

namespace PipelineShell

open Output Program

/-! ### What a step of the worker puts out -/

namespace Output

/-- The terminal is given away only with an answer behind it. -/
def Answered : List Output → Prop
  | [] => True
  | .terminal _ :: rest => replies rest ≠ [] ∧ Answered rest
  | _ :: rest => Answered rest

/-- Nothing in it is about the terminal. -/
def Unconcerned (outputs : List Output) : Prop := ∀ group, .terminal group ∉ outputs

variable {o : Output} {outputs : List Output}

theorem Answered.tail (h : Answered (o :: outputs)) : Answered outputs := by
  cases o with
  | terminal group => exact h.2
  | _ => exact h

theorem unconcerned_nil : Unconcerned [] := fun _ => List.not_mem_nil

theorem unconcerned_report (text : String) : Unconcerned [.report text] :=
  fun _ hmem => nomatch List.mem_singleton.1 hmem

theorem unconcerned_reply (r : Reply) : Unconcerned [.reply r] :=
  fun _ hmem => nomatch List.mem_singleton.1 hmem

theorem Unconcerned.append (h : Unconcerned outputs) {others : List Output}
    (ho : Unconcerned others) : Unconcerned (outputs ++ others) := by
  intro group hmem
  rcases List.mem_append.1 hmem with hmem | hmem
  · exact h group hmem
  · exact ho group hmem

theorem Unconcerned.tail (h : Unconcerned (o :: outputs)) : Unconcerned outputs :=
  fun group hmem => h group (List.mem_cons_of_mem _ hmem)

theorem Unconcerned.answered_append (h : Unconcerned outputs) {others : List Output}
    (ha : Answered others) : Answered (outputs ++ others) := by
  induction outputs with
  | nil => exact ha
  | cons o rest ih =>
    cases o with
    | terminal group => exact absurd List.mem_cons_self (h group)
    | _ => exact ih h.tail

theorem Unconcerned.answered (h : Unconcerned outputs) : Answered outputs := by
  rw [← List.append_nil outputs]
  exact h.answered_append trivial

/-- Without an answer in it, it gives the terminal to nobody. -/
theorem Answered.unconcerned (h : Answered outputs) (hr : replies outputs = []) :
    Unconcerned outputs := by
  induction outputs with
  | nil => exact unconcerned_nil
  | cons o rest ih =>
    cases o with
    | reply r => cases hr
    | terminal group => exact absurd hr h.1
    | report text => exact (unconcerned_report text).append (ih h hr)

theorem Unconcerned.ownerAfter_eq (h : Unconcerned outputs) (before : Pid) :
    ownerAfter before outputs = before := by
  induction outputs with
  | nil => rfl
  | cons o rest ih =>
    cases o with
    | terminal group => exact absurd List.mem_cons_self (h group)
    | _ => exact ih h.tail

end Output

/-- When it leaves no job in the foreground, the terminal goes back to this group. -/
structure Step.Returns (w : Worker) (group : Pid) (s : Step) : Prop where
  terminalGroup : s.worker.terminalGroup = w.terminalGroup
  owner : s.worker.foreground = none → ∀ {before : Pid},
    (w.foreground = none → before = group) → ownerAfter before s.outputs = group
  answered : s.worker.foreground = none → Answered s.outputs

namespace Worker

variable {w : Worker} {group : Pid}

/-- The job in the foreground, if any, stays there. -/
theorem returns_of_unconcerned {s : Step} (hg : s.worker.terminalGroup = w.terminalGroup)
    (hf : s.worker.foreground = none → w.foreground = none) (ho : Unconcerned s.outputs) :
    Step.Returns w group s where
  terminalGroup := hg
  owner hnone before hbefore := by
    rw [ho.ownerAfter_eq]
    exact hbefore (hf hnone)
  answered _ := ho.answered

theorem unconcerned_answer {status : Int} {outputs : List Output} (h : Unconcerned outputs) :
    Unconcerned (w.answer status outputs).outputs := h.append (unconcerned_reply _)

theorem unconcerned_refuse {text : String} : Unconcerned (w.refuse text).outputs :=
  unconcerned_answer (unconcerned_report _)

/-- With the foreground the shell takes the terminal. -/
theorem returns_takeOver (hg : w.terminalGroup = some group) {w' : Worker}
    (hg' : w'.terminalGroup = w.terminalGroup) {outputs : List Output}
    (ho : Unconcerned outputs) (next : Activity) :
    Step.Returns w group
      { worker := w'.takeOver.1, outputs := outputs ++ w'.takeOver.2, next } := by
  have htail : w'.takeOver.2 = [.terminal group, .reply (.resume w'.status)] := by
    rw [takeOver, hg', hg]
    rfl
  refine ⟨hg', fun _ before _ => ?_, fun _ => ?_⟩
  · show ownerAfter before (outputs ++ w'.takeOver.2) = group
    rw [htail, ownerAfter, List.foldl_append]
    rfl
  · show Answered (outputs ++ w'.takeOver.2)
    rw [htail]
    exact ho.answered_append ⟨List.cons_ne_nil _ _, trivial⟩

theorem received_returns (m : Message) : Step.Returns w group (w.received m) := by
  obtain ⟨status, hw⟩ := w.received_worker m
  refine returns_of_unconcerned (by rw [hw]) (fun hf => by rwa [hw] at hf) ?_
  cases m with
  | line text =>
    show Unconcerned (w.lineRead text).outputs
    rw [lineRead]
    split
    · exact unconcerned_refuse
    split
    · exact unconcerned_nil
    · rw [leave.eq_def]
      repeat' split
      all_goals first | exact unconcerned_refuse | exact unconcerned_reply _
    · exact unconcerned_nil
  | _ => exact unconcerned_nil

theorem directoryChanged_returns (result : Except DirectoryError String) :
    Step.Returns w group (w.directoryChanged result) := by
  obtain ⟨status, hw⟩ := w.directoryChanged_worker result
  refine returns_of_unconcerned (by rw [hw]) (fun hf => by rwa [hw] at hf) ?_
  cases result with
  | ok directory => exact unconcerned_answer unconcerned_nil
  | error e => exact unconcerned_refuse

/-- Only the reader is told when nothing is left to collect. -/
theorem collected_returns (ending : Bool) {outputs : List Output} (ho : Unconcerned outputs) :
    Step.Returns w group (w.collected ending outputs) := by
  rw [collected]
  split
  · exact returns_of_unconcerned rfl id ho
  · refine returns_of_unconcerned rfl id ((ho.append ?_).append (unconcerned_reply _))
    split
    · exact unconcerned_nil
    · exact unconcerned_report _

theorem processEnded_returns (hg : w.terminalGroup = some group) (pid : Pid) (status : Int)
    (next : Activity) : Step.Returns w group
      { worker := (w.processEnded pid status).1
        outputs := (w.processEnded pid status).2
        next } := by
  rw [processEnded]
  split
  · split
    · exact returns_takeOver hg (by rfl) unconcerned_nil next
    · exact returns_of_unconcerned rfl id (unconcerned_report _)
  · exact returns_of_unconcerned rfl id unconcerned_nil

theorem processStopped_returns (hg : w.terminalGroup = some group) (pid : Pid)
    (next : Activity) : Step.Returns w group
      { worker := (w.processStopped pid).1
        outputs := (w.processStopped pid).2
        next } := by
  have hnone : Step.Returns w group { worker := w, next } :=
    returns_of_unconcerned rfl id unconcerned_nil
  rw [processStopped]
  split
  · exact hnone
  split
  · exact hnone
  split
  · exact hnone
  · exact returns_takeOver hg (by rfl) (unconcerned_report _) next

theorem polled_returns (hg : w.terminalGroup = some group) (ending : Bool) (p : Poll) :
    Step.Returns w group (w.polled ending p) := by
  rw [polled.eq_def]
  split
  · exact processStopped_returns hg _ _
  · exact processEnded_returns hg _ _ _
  · exact collected_returns ending unconcerned_nil
  · exact collected_returns ending unconcerned_nil
  · exact returns_of_unconcerned rfl id unconcerned_nil
  · exact collected_returns ending (unconcerned_report _)

/-- The terminal goes to a job only if the job goes to the foreground. -/
theorem started_returns (text : String) (line : CommandLine) (spawned : Spawned)
    {outputs : List Output} (ho : Unconcerned outputs) :
    Step.Returns w group (w.started text line spawned outputs) := by
  rw [started]
  cases w.jobs.insert? (String.ofList (Text.trim text.toList)) spawned.group spawned.pids
      line.modifier.background with
  | none => exact returns_of_unconcerned rfl id ho
  | some entry =>
    obtain ⟨number, jobs⟩ := entry
    cases line.modifier.background with
    | true =>
      refine returns_of_unconcerned rfl id (unconcerned_answer ?_)
      exact ho.append (unconcerned_report _)
    | false =>
      refine ⟨rfl, fun hf => ?_, fun hf => ?_⟩
      · cases hf
      · cases hf

theorem launched_returns (text : String) (line : CommandLine)
    (result : Except LaunchError Spawned) :
    Step.Returns w group (w.launched text line result) := by
  rw [launched.eq_def]
  split
  · exact started_returns text line _ unconcerned_nil
  · split
    · exact started_returns text line _ (unconcerned_report _)
    · exact returns_of_unconcerned rfl id unconcerned_refuse

end Worker

/-! ### Who may take the terminal -/

/-- What has been forked for a line that is being launched in the foreground. -/
def Doing.lent : Doing → List Pid
  | .launching _ line forked _ => if line.modifier.background then [] else forked
  | _ => []

/-- The process belongs to the job in the foreground. -/
def Worker.InForeground (w : Worker) (pid : Pid) : Prop :=
  ∃ id job, w.foreground = some id ∧ w.jobs.get? id = some job ∧ pid ∈ job.pids

/-- The process belongs to the line that is being launched in the foreground, or to the job
there. -/
def System.Lends (s : System) (pid : Pid) : Prop :=
  pid ∈ s.doing.lent ∨ s.worker.InForeground pid

/-- A process stays in the foreground as long as neither it ends nor one of its job stops. -/
theorem Worker.InForeground.polled {w : Worker} {pid : Pid} (h : w.InForeground pid)
    (hc : w.jobs.Coherent) {p : Poll}
    (hstopped : ∀ q signal, p = .ok (some (q, .stopped signal)) → ¬ w.InForeground q)
    (hended : ∀ status, status.isStop = false → p ≠ .ok (some (pid, status))) (ending : Bool) :
    (w.polled ending p).worker.InForeground pid := by
  obtain ⟨id, job, hf, hj, hp⟩ := h
  rcases p.news_cases with ⟨q, signal, rfl⟩ | ⟨q, status, hend, rfl⟩ | hnone
  · show (w.processStopped q).1.InForeground pid
    rcases w.processStopped_cases q with ⟨front, before, hf', hb, hq, -⟩ | ⟨-, he⟩
    · exact absurd ⟨front, before, hf', hb, hq⟩ (hstopped q signal rfl)
    · rw [he]
      exact ⟨id, job, hf, hj, hp⟩
  · have hne : pid ≠ q := by
      rintro rfl
      exact hended status hend rfl
    rw [polled_of_not_stopped w ending q hend]
    obtain ⟨hjobs, -, hcases⟩ := processEnded_cases hc q status.code
    -- It is still among the processes of its job, so this was not the last one.
    have hleft : ∀ {before : Job}, w.jobs.get? id = some before →
        pid ∈ (before.collect q status.code).pids := by
      intro before hb
      cases hj.symm.trans hb
      exact Job.mem_pids_collect.2 ⟨hp, hne⟩
    rcases hcases with ⟨front, before, hf', hb, -, hlast, -⟩ | ⟨-, hf', -⟩
    · cases hf.symm.trans hf'
      have hmem := hleft hb
      rw [hlast] at hmem
      cases hmem
    · refine ⟨id, ?_⟩
      rw [hf', hjobs]
      by_cases hq : q ∈ job.pids
      · refine ⟨job.collect q status.code, hf, ?_, hleft hj⟩
        rw [hc.get?_remove_of_mem _ hj hq, if_neg (List.ne_nil_of_mem (hleft hj))]
      · refine ⟨job, hf, ?_, hp⟩
        rw [hc.get?_remove_of_not_mem _ hj hq]
  · rw [(w.polled_of_no_child ending hnone).1]
    exact ⟨id, job, hf, hj, hp⟩

/-- What has been forked for a line in the foreground is in the foreground when it has been
launched. -/
theorem System.Owned.inForeground_launched {s : System} (ho : s.Owned) (hs : s.Sound)
    {text : String} {line : CommandLine} {forked : List Pid} {result : Except LaunchError Spawned}
    (h : s.doing = .launching text line forked (.done result)) {pid : Pid}
    (hp : pid ∈ s.doing.lent) : (s.worker.launched text line result).worker.InForeground pid := by
  rw [h] at hp
  replace hp : pid ∈ if line.modifier.background then [] else forked := hp
  split at hp
  · cases hp
  next hb =>
  rcases s.worker.launched_cases text line result with
    ⟨hr, -⟩ | ⟨spawned, outputs, hr, hout, he⟩
  · have hsome := (ho.isSome_running?_iff hs h).2 (List.ne_nil_of_mem hp)
    rw [hr] at hsome
    cases hsome
  rw [he]
  rcases s.worker.started_cases text line spawned hout with
    ⟨hfull, -⟩ | ⟨id, jobs, hi, ⟨hb', -⟩ | ⟨-, hw, -⟩⟩
  · obtain ⟨id, jobs, hi⟩ := ho.exists_insert? hs h hr
      (String.ofList (Text.trim text.toList)) line.modifier.background
    cases hfull.symm.trans hi
  · exact absurd hb' hb
  · obtain ⟨last, hlast, -⟩ := JobTable.insert?_eq_some_iff.1 hi
    have hget := JobTable.get?_insert? hi hlast id
    rw [if_pos rfl] at hget
    rw [hw]
    exact ⟨id, _, rfl, hget, (hs.pids_of_running? h hr).symm ▸ hp⟩

namespace Children

variable {c c' : Children} {pid : Pid}

/-- The child has not ended. -/
def Alive (c : Children) (pid : Pid) : Prop :=
  c pid = some .running ∨ ∃ signal told, c pid = some (.stopped signal told)

/-- No child comes back to life. -/
theorem Changes.alive {e : ChildEvent} (h : Changes c e c') (hp : c'.Alive pid) : c.Alive pid := by
  have hne : ∀ {q : Pid} {condition : Condition}, pid ≠ q →
      Children.Alive (Function.update c q (some condition)) pid → c.Alive pid := by
    intro q condition hq hp
    simpa only [Alive, Function.update_of_ne hq] using hp
  cases h with
  | @ended q status alive final =>
    by_cases hq : pid = q
    · exact hq ▸ alive
    · exact hne hq hp
  | @stopped q signal alive =>
    by_cases hq : pid = q
    · exact .inl (hq ▸ alive)
    · exact hne hq hp
  | @continued q signal told halted =>
    by_cases hq : pid = q
    · exact .inr ⟨signal, told, hq ▸ halted⟩
    · exact hne hq hp

/-- Nor does one when its parent is told of it, and it has not ended then. -/
theorem Answers.alive {p : Poll} (h : c.Answers p c') (hp : c'.Alive pid) :
    c.Alive pid ∧ ∀ status, status.isStop = false → p ≠ .ok (some (pid, status)) := by
  have hne : ∀ {q : Pid} {condition : Option Condition}, pid ≠ q →
      Children.Alive (Function.update c q condition) pid → c.Alive pid := by
    intro q condition hq hp
    simpa only [Alive, Function.update_of_ne hq] using hp
  cases h with
  | @ended q status news final =>
    have hq : pid ≠ q := by
      rintro rfl
      simp [Alive] at hp
    refine ⟨hne hq hp, ?_⟩
    rintro _ - ⟨⟩
    exact hq rfl
  | @stopped q signal news =>
    refine ⟨?_, ?_⟩
    · by_cases hq : pid = q
      · exact .inr ⟨signal, false, hq ▸ news⟩
      · exact hne hq hp
    · rintro _ hs ⟨⟩
      cases hs
  | quiet some_child no_news => exact ⟨hp, nofun⟩
  | childless no_child => exact ⟨hp, nofun⟩
  | failed he => exact ⟨hp, nofun⟩

end Children

/-- The process has not ended and may still take the terminal on its way to its command. -/
def Console.MayTake (c : Console) (pid : Pid) : Prop :=
  c.system.children.Alive pid ∧ ∃ p, c.stages pid = some p ∧ ¬ p.Keeps

/-- When the shell is told that a process of the job in the foreground has stopped, no process of
this job may take the terminal any more. -/
def Act.Settled (c : Console) : Act → Prop
  | .system (.poll (.ok (some (pid, .stopped _)))) =>
    c.system.worker.InForeground pid →
      ∀ other, c.system.worker.InForeground other → ¬ c.MayTake other
  | _ => True

/-- A process that a call has started has all its calls to make; for all others nothing changes. -/
theorem Event.stages_call_cases (before : Stages) (r : Request Task) (answer : r.Answer)
    (pid : Pid) :
    (pid ∉ r.forked answer ∧ (Event.call r answer).stages before pid = before pid) ∨
      (pid ∈ r.forked answer ∧ ∃ child, r = .fork child ∧
        (Event.call r answer).stages before pid = some child.round) := by
  by_cases hfork : ∃ child, r = .fork child
  · obtain ⟨child, rfl⟩ := hfork
    cases answer with
    | error e => exact .inl ⟨List.not_mem_nil, rfl⟩
    | ok new =>
      by_cases hp : pid = new
      · subst hp
        exact .inr ⟨List.mem_singleton_self _, child, rfl, Function.update_self ..⟩
      · exact .inl ⟨mt List.mem_singleton.1 hp, Function.update_of_ne hp ..⟩
  · refine .inl ?_
    cases r with
    | fork child => exact absurd ⟨child, rfl⟩ hfork
    | _ => exact ⟨List.not_mem_nil, rfl⟩

/-! ### The invariant -/

namespace Console

structure Lawful (group : Pid) (c : Console) : Prop where
  terminalGroup : c.system.worker.terminalGroup = some group
  lends : ∀ {pid : Pid}, c.MayTake pid → c.system.Lends pid
  /-- With nothing in the foreground the terminal is the shell's, or on its way to it. -/
  owner : c.system.worker.foreground = none → c.system.doing.lent = [] →
    ownerAfter c.owner c.system.outbox = group
  answered : c.system.worker.foreground = none → Answered c.system.outbox
  background : ∀ {text : String} {line : CommandLine} {forked : List Pid}
    {calls : Program Task (Except LaunchError Spawned)},
    c.system.doing = .launching text line forked calls → line.modifier.background = true →
      calls.Makes Request.StartsKeeping

namespace Lawful

variable {c : Console} {group pid : Pid}

theorem initial (group : Pid) (operators : OperatorSet) :
    Lawful group (.initial group operators) where
  terminalGroup := rfl
  lends h := by
    obtain ⟨-, p, hp, -⟩ := h
    cases hp
  owner _ _ := rfl
  answered _ := trivial
  background h := by cases h

/-- While nothing is being launched, only processes in the foreground may take the terminal. -/
theorem inForeground (hl : c.Lawful group) (hlent : c.system.doing.lent = []) (h : c.MayTake pid) :
    c.system.worker.InForeground pid :=
  (hl.lends h).resolve_left (by simp [hlent])

/-- A step of the worker. -/
theorem take (hl : c.Lawful group) {s : System} {step : Step}
    (hr : step.Returns c.system.worker group) (done : c.system.outbox = [])
    (hlent : step.worker.foreground = none → c.system.worker.foreground = none →
      c.system.doing.lent = [])
    (hlends : ∀ {pid}, s.children.Alive pid → (∃ p, c.stages pid = some p ∧ ¬ p.Keeps) →
      step.worker.InForeground pid) :
    Lawful group { system := s.take step, owner := c.owner, stages := c.stages } where
  terminalGroup := hr.terminalGroup.trans hl.terminalGroup
  lends h := .inr (hlends h.1 h.2)
  owner hf _ := by
    refine hr.owner hf fun hnone => ?_
    have howner := hl.owner hnone (hlent hf hnone)
    rw [done] at howner
    exact howner
  answered := hr.answered
  background {text line forked calls} h hb := by
    obtain ⟨-, -, rfl⟩ := Doing.begin_eq_launching h
    exact CommandLine.startsKeeping_launch hb _

/-- A step of the worker that has nothing to do with jobs. -/
theorem take_status (hl : c.Lawful group) {s : System} {step : Step} {status : Int}
    (hr : step.Returns c.system.worker group) (done : c.system.outbox = [])
    (hchildren : s.children = c.system.children) (hlent : c.system.doing.lent = [])
    (hw : step.worker = { c.system.worker with status }) :
    Lawful group { system := s.take step, owner := c.owner, stages := c.stages } := by
  refine hl.take hr done (fun _ _ => hlent) fun halive hstage => ?_
  rw [hw]
  exact hl.inForeground hlent ⟨hchildren ▸ halive, hstage⟩

theorem launched (hl : c.Lawful group) (hs : c.system.Sound) (ho : c.system.Owned)
    {text : String} {line : CommandLine} {forked : List Pid} {result : Except LaunchError Spawned}
    (done : c.system.outbox = [])
    (h : c.system.doing = .launching text line forked (.done result)) :
    Lawful group
      { system := c.system.take (c.system.worker.launched text line result)
        owner := c.owner, stages := c.stages } := by
  refine hl.take (Worker.launched_returns text line result) done (fun hf _ => ?_)
    fun {pid} halive hstage => ?_
  · refine List.eq_nil_iff_forall_not_mem.2 fun pid hp => ?_
    obtain ⟨id, job, hfront, -⟩ := ho.inForeground_launched hs h hp
    cases hf.symm.trans hfront
  · refine ho.inForeground_launched hs h ((hl.lends ⟨halive, hstage⟩).resolve_right ?_)
    -- While a line is being launched no job is in the foreground.
    rintro ⟨id, job, hf, -⟩
    have hnone := hs.foreground_eq_none (.inl (by rw [h]; rfl))
    cases hnone.symm.trans hf

theorem poll (hl : c.Lawful group) (hs : c.system.Sound) {ending : Bool} {p : Poll}
    {children : Children} (done : c.system.outbox = [])
    (h : c.system.doing = .collecting ending) (answer : c.system.children.Answers p children)
    (collects : (Event.poll p).Collects) (settled : (Act.system (.poll p)).Settled c) :
    Lawful group
      { system := { c.system with children }.take (c.system.worker.polled ending p.understood)
        owner := c.owner, stages := c.stages } := by
  have hlent : c.system.doing.lent = [] := by rw [h]; rfl
  rw [collects.understood_eq]
  refine hl.take (Worker.polled_returns hl.terminalGroup ending p) done (fun _ _ => hlent)
    fun {pid} halive hstage => ?_
  obtain ⟨hbefore, hended⟩ := answer.alive halive
  have hfront := hl.inForeground hlent ⟨hbefore, hstage⟩
  refine hfront.polled hs.coherent (fun q signal hp hq => ?_) hended ending
  -- This process may still take the terminal, so none of its job was found to have stopped.
  subst hp
  exact settled hq pid hfront ⟨hbefore, hstage⟩

theorem callDirectory (hl : c.Lawful group) (hq : c.system.ChangesQuietly) {directory : String}
    {r : Request Task} {next : r.Answer → Program Task (Except DirectoryError String)}
    (h : c.system.doing = .changing directory (.call r next)) (answer : r.Answer) :
    Lawful group
      { system := { c.system with doing := .changing directory (next answer) }
        owner := c.owner, stages := (Event.call r answer).stages c.stages } := by
  have hlent : c.system.doing.lent = [] := by rw [h]; rfl
  have hsame : (Event.call r answer).stages c.stages = c.stages := by
    funext pid
    rcases Event.stages_call_cases c.stages r answer pid with ⟨-, he⟩ | ⟨hp, -⟩
    · exact he
    · rw [(hq h).1 answer] at hp
      cases hp
  rw [hsame]
  refine ⟨hl.terminalGroup, fun hp => .inr (hl.inForeground hlent hp), fun hf _ => ?_,
    hl.answered, nofun⟩
  exact hl.owner hf hlent

/-- What is forked for a line in the foreground is lent the terminal; what is forked for one in the
background never takes it. -/
theorem callLaunch (hl : c.Lawful group) {text : String} {line : CommandLine} {forked : List Pid}
    {r : Request Task} {next : r.Answer → Program Task (Except LaunchError Spawned)}
    (h : c.system.doing = .launching text line forked (.call r next)) (answer : r.Answer) :
    Lawful group
      { system :=
          { c.system with
            doing := .launching text line (forked ++ r.forked answer) (next answer)
            children := c.system.children.start (r.forked answer) }
        owner := c.owner, stages := (Event.call r answer).stages c.stages } where
  terminalGroup := hl.terminalGroup
  lends {pid} hp := by
    obtain ⟨halive, p, hstage, htakes⟩ := hp
    show pid ∈ (if line.modifier.background then [] else forked ++ r.forked answer) ∨ _
    rcases Event.stages_call_cases c.stages r answer pid with ⟨hold, he⟩ | ⟨hnew, child, hr, he⟩
    · have hbefore : c.system.children.Alive pid := by
        have hsame : c.system.children.start (r.forked answer) pid = c.system.children pid :=
          if_neg hold
        simpa only [Children.Alive, hsame] using halive
      refine (hl.lends ⟨hbefore, p, he ▸ hstage, htakes⟩).imp_left fun hmem => ?_
      rw [h] at hmem
      replace hmem : pid ∈ if line.modifier.background then [] else forked := hmem
      split at hmem
      · cases hmem
      · next hb =>
        rw [if_neg hb]
        exact List.mem_append_left _ hmem
    · cases he.symm.trans hstage
      have hb : ¬ line.modifier.background = true := fun hb =>
        htakes ((hl.background h hb).1 child hr)
      rw [if_neg hb]
      exact .inl (List.mem_append_right _ hnew)
  owner hf hlent := by
    refine hl.owner hf ?_
    replace hlent : (if line.modifier.background then [] else forked ++ r.forked answer) = [] :=
      hlent
    rw [h]
    show (if line.modifier.background then [] else forked) = []
    split
    · rfl
    · next hb =>
      rw [if_neg hb] at hlent
      exact (List.append_eq_nil_iff.1 hlent).1
  answered := hl.answered
  background h' hb := by
    cases h'
    exact (hl.background h hb).next answer

theorem put (hl : c.Lawful group) {o : Output} {rest : List Output} {reader : Reader}
    (h : c.system.outbox = o :: rest) :
    Lawful group
      { system := { c.system with outbox := rest, reader }
        owner := o.owner c.owner, stages := c.stages } where
  terminalGroup := hl.terminalGroup
  lends := hl.lends
  owner hf hlent := by
    have howner := hl.owner hf hlent
    rw [h] at howner
    exact howner
  answered hf := by
    have hanswered := hl.answered hf
    rw [h] at hanswered
    exact hanswered.tail
  background := hl.background

/-- Only a process that may take the terminal does so. -/
theorem stage (hl : c.Lawful group) {r : Request Task} {next : r.Answer → Program Task Task}
    (runs : c.system.children pid = some .running) (h : c.stages pid = some (.call r next))
    (answer : r.Answer) :
    Lawful group
      { c with
        owner := r.owner c.owner answer
        stages := Function.update c.stages pid (some (next answer)) } where
  terminalGroup := hl.terminalGroup
  lends {q} hq := by
    obtain ⟨halive, p, hstage, htakes⟩ := hq
    refine hl.lends ⟨halive, ?_⟩
    by_cases he : q = pid
    · subst he
      cases (Function.update_self ..).symm.trans hstage
      exact ⟨_, h, fun hkeeps => htakes (hkeeps.next answer)⟩
    · exact ⟨p, (Function.update_of_ne he ..).symm.trans hstage, htakes⟩
  owner hf hlent := by
    have hkeeps : r.takesTerminal = false := by
      by_contra htakes
      have hmay : c.MayTake pid := ⟨.inl runs, _, h, fun hkeeps => htakes hkeeps.1⟩
      obtain ⟨id, job, hfront, -⟩ := hl.inForeground hlent hmay
      cases hf.symm.trans hfront
    have hsame : r.owner c.owner answer = c.owner := by
      cases r with
      | setForeground fd group => cases hkeeps
      | _ => rfl
    rw [hsame]
    exact hl.owner hf hlent
  answered := hl.answered
  background := hl.background

theorem execute (hl : c.Lawful group) :
    Lawful group { c with stages := Function.update c.stages pid none } where
  terminalGroup := hl.terminalGroup
  lends {q} hq := by
    obtain ⟨halive, p, hstage, htakes⟩ := hq
    by_cases he : q = pid
    · subst he
      cases (Function.update_self ..).symm.trans hstage
    · exact hl.lends ⟨halive, p, (Function.update_of_ne he ..).symm.trans hstage, htakes⟩
  owner := hl.owner
  answered := hl.answered
  background := hl.background

theorem moves (hl : c.Lawful group) (hs : c.system.Sound) (ho : c.system.Owned)
    (hq : c.system.ChangesQuietly) {a : Act} {c' : Console} (collects : a.Collects)
    (settled : a.Settled c) (m : c.Moves a c') : c'.Lawful group := by
  cases m with
  | stage pid runs h answer own => exact hl.stage runs h answer
  | execute pid runs h => exact hl.execute
  | system m =>
    cases m with
    | child h =>
      exact ⟨hl.terminalGroup, fun hp => hl.lends ⟨h.alive hp.1, hp.2⟩, hl.owner, hl.answered,
        hl.background⟩
    | @receive m rest idle done h =>
      obtain ⟨status, hw⟩ := c.system.worker.received_worker m
      exact hl.take_status (s := { c.system with inbox := rest }) (Worker.received_returns m) done
        rfl (by rw [idle]; rfl) hw
    | callDirectory h answer => exact hl.callDirectory hq h answer
    | @directory directory result done h =>
      obtain ⟨status, hw⟩ := c.system.worker.directoryChanged_worker result
      exact hl.take_status (Worker.directoryChanged_returns result) done rfl (by rw [h]; rfl) hw
    | callLaunch h answer new => exact hl.callLaunch h answer
    | launched done h => exact hl.launched hs ho done h
    | poll done h answer => exact hl.poll hs done h answer collects settled
    | put silent h => exact hl.put h
    | reply waits h => exact hl.put h
    | _ => exact { hl with }

theorem run {operators : OperatorSet} {past : Trace} (h : Run (.initial group operators) past c)
    (collects : ∀ x ∈ past, x.2.Collects) (settled : ∀ x ∈ past, x.2.Settled x.1) :
    c.Lawful group := by
  induction h with
  | start => exact initial group operators
  | move h m ih =>
    obtain ⟨hcollects, collects⟩ := List.forall_mem_cons.1 collects
    obtain ⟨hsettled, settled⟩ := List.forall_mem_cons.1 settled
    refine (ih collects settled).moves ?_ ?_ ?_ hcollects hsettled m
    · exact (System.sound_initial (some group) operators).run h.system
    · exact System.Owned.run h.system (Trace.collects_system collects)
    · exact System.ChangesQuietly.run h.system

end Lawful

/-- There are runs in which the terminal is given away and comes back: here the only stage of `/a`
executes its command and stops. -/
theorem exists_returned : ∃ (past : Trace) (c : Console),
    Run (.initial 5 .full) past c ∧ (∀ x ∈ past, x.2.Collects ∧ x.2.Settled x.1) ∧
      (∃ x ∈ past, x.1.owner = 7) ∧ c.system.reader = .atPrompt := by
  have hparse : CommandLine.parse "/a" .full =
      .ok ⟨Pipeline.ofWords [.literal "/a"], {}⟩ := by
    decide +kernel
  have begun : RunOf (fun x => x.2.Collects ∧ x.2.Settled x.1) (.initial 5 .full) []
      (.initial 5 .full) := .start
  have asked := begun.move (.system (.request (m := .line "/a") rfl rfl)) ⟨⟨⟩, ⟨⟩⟩
  have received := asked.move (.system (.receive_line rfl rfl rfl hparse rfl)) ⟨⟨⟩, ⟨⟩⟩
  have forked := received.move
    (.system (.callLaunch (r := .fork _) rfl (.ok 7) fun _ _ => rfl)) ⟨⟨⟩, ⟨⟩⟩
  have grouped := forked.move
    (.system (.callLaunch (r := .setGroup 7 0) rfl (.ok ()) fun _ h => by cases h)) ⟨⟨⟩, ⟨⟩⟩
  have launched := grouped.move (.system (.launched rfl rfl)) ⟨⟨⟩, ⟨⟩⟩
  have given := launched.move (.system (.put (fun _ h => by cases h) rfl)) ⟨⟨⟩, ⟨⟩⟩
  have joined := given.move (.stage 7 (r := .setGroup 0 0) rfl rfl (.ok ()) ⟨⟩) ⟨⟨⟩, ⟨⟩⟩
  have named := joined.move (.stage 7 (r := .processId) rfl rfl (7 : Pid) rfl) ⟨⟨⟩, ⟨⟩⟩
  have taken := named.move
    (.stage 7 (r := .setForeground 0 7) rfl rfl (.ok ()) ⟨⟩) ⟨⟨⟩, ⟨⟩⟩
  have reset := taken.move (.stage 7 (r := .setDisposition _ _) rfl rfl (.ok ()) ⟨⟩) ⟨⟨⟩, ⟨⟩⟩
  have settled := reset.move
    (.stage 7 (r := .setDisposition _ _) rfl rfl (.ok ()) ⟨⟩) ⟨⟨⟩, ⟨⟩⟩
  have executed := settled.move (.execute 7 rfl rfl) ⟨⟨⟩, ⟨⟩⟩
  have stopped := executed.move
    (.system (.child (e := .stopped 7 .stop) (.stopped rfl))) ⟨⟨⟩, ⟨⟩⟩
  have collected := stopped.move
    (.system (.poll (p := .ok (some (7, .stopped .stop))) rfl rfl (.stopped rfl))) ⟨nofun, ?_⟩
  · have reported := collected.move (.system (.put (fun _ h => by cases h) rfl)) ⟨⟨⟩, ⟨⟩⟩
    have returned := reported.move (.system (.put (fun _ h => by cases h) rfl)) ⟨⟨⟩, ⟨⟩⟩
    have answered := returned.move (.system (.reply rfl rfl)) ⟨⟨⟩, ⟨⟩⟩
    -- Right before the shell takes it back, the job has the terminal.
    exact ⟨_, _, answered.run, answered.all,
      ⟨_, List.mem_cons_of_mem _ List.mem_cons_self, rfl⟩, rfl⟩
  -- The job has one process, and it has executed its command.
  · rintro - other ⟨id, job, hf, hj, hmem⟩ ⟨-, p, hstage, -⟩
    cases hf
    cases hj
    cases List.mem_singleton.1 hmem
    cases hstage

/-- **The shell has the terminal whenever the reader is at the prompt**, as long as looking for
children does not fail, and every stage of the job in the foreground has ended or is past the point
at which it takes the terminal when the shell is told that one of them has stopped. -/
theorem owner_at_prompt {group : Pid} {operators : OperatorSet} {past : Trace} {c : Console}
    (h : Run (.initial group operators) past c) (collects : ∀ x ∈ past, x.2.Collects)
    (settled : ∀ x ∈ past, x.2.Settled x.1) (prompt : c.system.reader = .atPrompt) :
    c.owner = group := by
  have hs := (System.sound_initial (some group) operators).run h.system
  have hl := Lawful.run h collects settled
  -- At the prompt nothing is owed, so nothing is in the foreground and no answer is on its way.
  have howed := hs.owed_le
  rw [System.owed, prompt] at howed
  simp only [Reader.isWaiting, Bool.toNat_false] at howed
  have hanswers : replies c.system.outbox = [] := List.eq_nil_of_length_eq_zero (by omega)
  have hfront : c.system.worker.foreground = none := by
    cases hf : c.system.worker.foreground with
    | none => rfl
    | some id => cases prompt.symm.trans (hs.waiting_of_foreground hf)
  have hlent : c.system.doing.lent = [] := by
    cases hd : c.system.doing with
    | launching text line forked calls =>
      rw [hd, Doing.isHandling, Bool.toNat_true] at howed
      omega
    | _ => rfl
  have hquiet := (hl.answered hfront).unconcerned hanswers
  rw [← hl.owner hfront hlent, hquiet.ownerAfter_eq]

theorem owner_of_stopped : ∃ (past : Trace) (c : Console),
    Run (.initial 5 .full) past c ∧ (∀ x ∈ past, x.2.Collects) ∧ (∀ x ∈ past, x.2.Settled x.1) ∧
      (∃ x ∈ past, x.1.owner = 7) ∧ c.system.reader = .atPrompt ∧ c.owner = 5 := by
  obtain ⟨past, c, h, hall, hgiven, prompt⟩ := exists_returned
  have collects : ∀ x ∈ past, x.2.Collects := fun x hx => (hall x hx).1
  have settled : ∀ x ∈ past, x.2.Settled x.1 := fun x hx => (hall x hx).2
  exact ⟨past, c, h, collects, settled, hgiven, prompt, owner_at_prompt h collects settled prompt⟩

end Console

end PipelineShell
