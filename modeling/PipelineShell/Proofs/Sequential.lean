/-
A sequential interpreter for requests, and what an observer knows of each.

Seen from the reader, the worker with its children, its queue and its jobs is a
program that reads one request after the other and answers each.  `interpret`
is this program: it has one variable, the status of the last line, and it is
told what came of each request (`Outcome`), which says nothing about processes
of other lines.

* `interpret` — the answers to requests, one after the other;
* `diary`, `outcomes` — what came of the requests of a run, written down from
  the events alone, for a pipeline from the reports on its own stages;
* `Tracks` — the job in the foreground keeps the same facts in another form: its
  processes are the stages without a report, and its status is the one that the
  last stage was reported with.

Design notes: a stage that has been reported is no child any more, so it is not
reported twice (`Tracks.gone`), and its first report is the only one.
-/
import PipelineShell.Proofs.Builtins
import PipelineShell.Proofs.Ownership
import PipelineShell.Proofs.Status

namespace PipelineShell

open Output Trace

/-! ### What is asked and what came of it -/

/-- What a request asks for. -/
inductive Intent where
  /-- Nothing that can be understood. -/
  | nothing
  | changeDirectory
  | exit (argument : Option String)
  /-- A pipeline in the background. -/
  | background
  /-- A pipeline in the foreground. -/
  | foreground
  | endOfInput
deriving DecidableEq

/-- A single command may be one of the shell's own; the value of its first word tells. -/
def CommandLine.intent (line : CommandLine) : Intent :=
  match line.pipeline.stages.map (·.map Word.unquoted) with
  | [[some "cd", _]] => .changeDirectory
  | [some "exit" :: arguments] => .exit arguments.head?.join
  | _ => if line.modifier.background then .background else .foreground

def Message.intent (operators : OperatorSet) : Message → Intent
  | .line text =>
    match CommandLine.parse text operators with
    | .error _ => .nothing
    | .ok parsed => parsed.intent
  | .endOfInput => .endOfInput
  | .childChanged => .nothing
  | .signal => .nothing

/-- What the shell runs itself it takes for what it is. -/
theorem CommandLine.intent_of_parse {text : String} {ops : OperatorSet} {line : CommandLine}
    (h : parse text ops = .ok line) :
    line.intent =
      match line.builtin? with
      | some (.changeDirectory _) => .changeDirectory
      | some (.exit argument) => .exit argument
      | none => if line.modifier.background then .background else .foreground := by
  rcases exists_single_of_parse h with hsize | ⟨raw, arguments, hs⟩
  · rw [builtin?_of_several hsize, intent]
    rw [← Pipeline.length_stages, ← List.length_map (·.map Word.unquoted)] at hsize
    split
    · next he => simp [he] at hsize
    · next he => simp [he] at hsize
    · rfl
  · rw [builtin?_of_single hs, intent, hs]
    by_cases hcd : Word.stripQuotes raw = "cd"
    · obtain ⟨directory, rfl⟩ := exists_directory_of_parse h hs hcd
      simp [Word.unquoted, hcd]
    by_cases hexit : Word.stripQuotes raw = "exit"
    · cases arguments <;> simp [Word.unquoted, hexit]
    · simp [Word.unquoted, hcd, hexit]

namespace Sequential

/-- What came of a request, as far as an answer depends on it. -/
inductive Outcome where
  | nothing
  /-- Whether the directory was changed. -/
  | directory (changed : Bool)
  /-- Whether the shell had jobs when it was to exit. -/
  | jobs (left : Bool)
  /-- No stage was started. -/
  | notStarted
  | started
  /-- All stages have been collected, the last one with this status. -/
  | ended (status : Int)
  /-- A stage has stopped before all were collected. -/
  | stopped
  /-- Some stage has neither been collected nor stopped. -/
  | unfinished
deriving DecidableEq

/-- The answer to a request, by the status of the last line and what came of the request.  A
pipeline that has stopped has the status 148: 128 and the signal by which a terminal stops a job. -/
def answer (operators : OperatorSet) (status : Int) (m : Message) (outcome : Outcome) : Reply :=
  match m.intent operators, outcome with
  | .changeDirectory, .directory true => .resume 0
  | .exit none, .jobs false => .quit status
  | .exit (some argument), .jobs false =>
    match askedStatus? argument with
    | some n => .quit n
    | none => .resume 1
  | .background, .started => .resume 0
  | .foreground, .ended n => .resume n
  | .foreground, .stopped => .resume 148
  | .endOfInput, _ => .quit status
  | _, _ => .resume 1

/-- The answers to requests, one after the other; the status goes from one to the next. -/
def interpret (operators : OperatorSet) : Int → List (Message × Outcome) → List Reply
  | _, [] => []
  | status, (m, outcome) :: rest =>
    let r := answer operators status m outcome
    r :: interpret operators (r.status status) rest

theorem interpret_append (operators : OperatorSet) (m : Message) (outcome : Outcome) :
    ∀ (status : Int) (xs : List (Message × Outcome)),
      interpret operators status (xs ++ [(m, outcome)]) =
        interpret operators status xs ++
          [answer operators (statusAfter status (interpret operators status xs)) m outcome]
  | _, [] => rfl
  | status, (m', outcome') :: xs => by
    rw [List.cons_append, interpret, interpret, interpret_append, List.cons_append]
    rfl

theorem length_interpret (operators : OperatorSet) :
    ∀ (status : Int) (xs : List (Message × Outcome)),
      (interpret operators status xs).length = xs.length
  | _, [] => rfl
  | status, (m, outcome) :: xs => by
    rw [interpret, List.length_cons, List.length_cons, length_interpret]

/-! ### What an observer writes down -/

/-- What has been seen of one request. -/
structure Record where
  request : Message
  /-- There were jobs when it came. -/
  jobsLeft : Bool
  /-- The directory has been changed. -/
  changed : Bool := false
  /-- The processes of its pipeline, if all have been started. -/
  stages : List Pid := []
  /-- What was told about these processes, in order. -/
  reports : List (Pid × WaitStatus) := []

namespace Record

/-- What was told first about a process. -/
def report? (x : Record) (pid : Pid) : Option WaitStatus := x.reports.lookup pid

/-- What came of a pipeline in the foreground, by the reports on its stages. -/
def ending (x : Record) : Outcome :=
  if x.stages = [] then .notStarted
  else if x.reports.any fun report => report.2.isStop then .stopped
  else
    match (x.stages.getLast?.bind x.report?).bind WaitStatus.final? with
    | some status =>
      if x.stages.all fun pid => (x.report? pid).isSome then .ended status else .unfinished
    | none => .unfinished

/-- What came of the request. -/
def outcome (operators : OperatorSet) (x : Record) : Outcome :=
  match x.request.intent operators with
  | .changeDirectory => .directory x.changed
  | .exit _ => .jobs x.jobsLeft
  | .background => if x.stages = [] then .notStarted else .started
  | .foreground => x.ending
  | _ => .nothing

/-- Adds what looking for a changed child has found, if it is about a stage. -/
def add (x : Record) : Poll → Record
  | .ok (some (pid, status)) =>
    if pid ∈ x.stages then { x with reports := x.reports ++ [(pid, status)] } else x
  | _ => x

@[simp] theorem request_add (x : Record) (p : Poll) : (x.add p).request = x.request := by
  unfold add
  split
  · split <;> rfl
  · rfl

end Record

structure Diary where
  /-- What has been seen of the request that the worker has received and not answered. -/
  current : Option Record := none
  /-- What came of the requests that have been answered, in order. -/
  outcomes : List Outcome := []

/-- Writes down one event; `s` is the state in which it happens. -/
def Diary.note (operators : OperatorSet) (d : Diary) (s : System) : Event → Diary
  | .receive m =>
    if m.isRequest then
      { d with current := some { request := m, jobsLeft := s.worker.jobs.jobs ≠ [] } }
    else d
  | .directory result =>
    { d with current := d.current.map fun x => { x with changed := result.toBool } }
  | .launched (.ok spawned) =>
    { d with current := d.current.map fun x => { x with stages := spawned.pids } }
  | .poll p => { d with current := d.current.map (·.add p) }
  | .reply _ =>
    { current := none
      outcomes := d.outcomes ++ (d.current.map (·.outcome operators)).toList }
  | _ => d

def diary (operators : OperatorSet) : Trace → Diary
  | [] => {}
  | (s, e) :: past => (diary operators past).note operators s e

/-- What came of the requests that have been answered, in order. -/
def outcomes (operators : OperatorSet) (past : Trace) : List Outcome :=
  (diary operators past).outcomes

/-- Looking for children does not fail, and no fork fails in the middle of a pipeline. -/
structure Orderly (e : Event) : Prop where
  collects : e.Collects
  whole : ∀ first rest cause, e ≠ .launched (.error (.fork (first :: rest) cause))

/-! ### The job in the foreground -/

/-- The job has the facts that have been written down about its line. -/
structure Tracks (c : Children) (x : Record) (job : Job) : Prop where
  running : ∀ report ∈ x.reports, report.2.isStop = false
  pids : job.pids = x.stages.filter fun pid => (x.report? pid).isNone
  last : x.stages.getLast? = some job.last
  status : job.status = (x.report? job.last).bind WaitStatus.final?
  /-- What has been reported is no child any more. -/
  gone : ∀ pid ∈ x.stages, pid ∉ job.pids → c pid = none

namespace Tracks

variable {c c' : Children} {x : Record} {job : Job} {pid : Pid}

theorem congr (h : Tracks c x job) (hc : ∀ pid ∈ x.stages, c pid = none → c' pid = none) :
    Tracks c' x job :=
  { h with gone := fun pid hp hnot => hc pid hp (h.gone pid hp hnot) }

theorem mem_pids (h : Tracks c x job) :
    pid ∈ job.pids ↔ pid ∈ x.stages ∧ x.report? pid = none := by
  rw [h.pids, List.mem_filter, Option.isNone_iff_eq_none]

theorem last_mem (h : Tracks c x job) : job.last ∈ x.stages := List.mem_of_getLast? h.last

theorem any_isStop (h : Tracks c x job) :
    (x.reports.any fun report => report.2.isStop) = false := by
  rw [List.any_eq_false]
  intro report hmem
  simp [h.running report hmem]

/-- A child that the job does not have is none of its stages. -/
theorem other (h : Tracks c x job) (hp : pid ∉ job.pids) (hc : c pid ≠ none) (status : WaitStatus)
    (condition : Option Condition) : x.add (.ok (some (pid, status))) = x ∧
      Tracks (Function.update c pid condition) x job := by
  have hnot : pid ∉ x.stages := fun hmem => hc (h.gone pid hmem hp)
  refine ⟨if_neg hnot, h.congr fun q hq hnone => ?_⟩
  have hne : q ≠ pid := by
    rintro rfl
    exact hnot hq
  rw [Function.update_of_ne hne]
  exact hnone

theorem report?_add (status : WaitStatus) (hp : pid ∈ x.stages) (q : Pid) :
    (x.add (.ok (some (pid, status)))).report? q =
      (x.report? q).or (if q = pid then some status else none) := by
  rw [Record.add, if_pos hp]
  show (x.reports ++ [(pid, status)]).lookup q = _
  rw [List.lookup_append, List.lookup_cons, List.lookup_nil]
  by_cases hq : q = pid
  · rw [if_pos hq, hq, beq_self_eq_true]
    rfl
  · rw [if_neg hq, beq_false_of_ne hq]
    rfl

/-- The first stages have been started and nothing is known about them. -/
theorem start {line : String} {group last : Pid} {pids : List Pid} {background : Bool}
    (hstages : x.stages = pids) (hreports : x.reports = []) (hl : pids.getLast? = some last) :
    Tracks c x { group, line, pids, last, background, status := none } where
  running := by simp [hreports]
  pids := by simp [Record.report?, hreports, hstages]
  last := by rw [hstages, hl]
  status := by simp [Record.report?, hreports]
  gone pid hp hnot := absurd (hstages ▸ hp) hnot

/-- One of its processes has ended. -/
theorem collect (h : Tracks c x job) (hp : pid ∈ job.pids) {status : WaitStatus}
    (hs : status.isStop = false) :
    Tracks (Function.update c pid none) (x.add (.ok (some (pid, status))))
      (job.collect pid status.code) := by
  obtain ⟨hstage, hnone⟩ := h.mem_pids.1 hp
  have hreport := report?_add status hstage
  have hadd : x.add (.ok (some (pid, status))) =
      { x with reports := x.reports ++ [(pid, status)] } := if_pos hstage
  constructor
  case running =>
    rw [hadd]
    intro report hr
    rcases List.mem_append.1 hr with hr | hr
    · exact h.running report hr
    · rw [List.mem_singleton.1 hr]
      exact hs
  case pids =>
    show job.pids.filter _ = _
    rw [h.pids, List.filter_filter, hadd]
    refine List.filter_congr fun q _ => ?_
    rw [← hadd, hreport]
    by_cases hq : q = pid
    · simp [hq]
    · simp [hq]
  case last => rw [hadd]; exact h.last
  case status =>
    show (if pid = job.last then some (status.code : Int) else job.status) = _
    show _ = ((x.add (.ok (some (pid, status)))).report? job.last).bind _
    rw [hreport, h.status]
    by_cases hl : pid = job.last
    · simp [← hl, hnone, WaitStatus.final?_eq_some_iff.2 ⟨hs, rfl⟩]
    · simp [hl, Ne.symm hl]
  case gone =>
    rw [hadd]
    intro q hq hnot
    by_cases he : q = pid
    · rw [he, Function.update_self]
    · rw [Function.update_of_ne he]
      exact h.gone q hq fun hmem => hnot (Job.mem_pids_collect.2 ⟨hmem, he⟩)

/-- Once it has no process left, its status is that of the last stage. -/
theorem ending_of_finished (h : Tracks c x job) (he : job.pids = []) :
    ∃ status : Int, job.status = some status ∧ x.ending = .ended status := by
  have hall : ∀ pid ∈ x.stages, (x.report? pid).isSome = true := by
    intro pid hp
    have hnot : pid ∉ job.pids := by simp [he]
    rw [h.mem_pids] at hnot
    exact Option.isSome_iff_ne_none.2 fun hr => hnot ⟨hp, hr⟩
  obtain ⟨status, hr⟩ := Option.isSome_iff_exists.1 (hall job.last h.last_mem)
  obtain ⟨before, after, hreports, -⟩ := List.lookup_eq_some_iff.1 hr
  have hs : status.isStop = false := h.running (job.last, status) (by simp [hreports])
  have hfinal : status.final? = some (status.code : Int) :=
    WaitStatus.final?_eq_some_iff.2 ⟨hs, rfl⟩
  refine ⟨status.code, by rw [h.status, hr, Option.bind_some, hfinal], ?_⟩
  rw [Record.ending, if_neg (List.ne_nil_of_mem h.last_mem), h.any_isStop, h.last,
    Option.bind_some, hr, Option.bind_some, hfinal]
  simp only [Bool.false_eq_true, if_false]
  rw [if_pos (List.all_eq_true.2 hall)]

/-- As long as it has processes left, nothing has come of the pipeline. -/
theorem ending_of_running (h : Tracks c x job) (hne : job.pids ≠ []) : x.ending = .unfinished := by
  obtain ⟨pid, hp⟩ := List.exists_mem_of_ne_nil _ hne
  obtain ⟨hstage, hnone⟩ := h.mem_pids.1 hp
  have hall : (x.stages.all fun pid => (x.report? pid).isSome) = false := by
    rw [List.all_eq_false]
    exact ⟨pid, hstage, by simp [hnone]⟩
  rw [Record.ending, if_neg (List.ne_nil_of_mem hstage), h.any_isStop]
  simp only [Bool.false_eq_true, if_false]
  split
  · rw [hall]
    rfl
  · rfl

/-- One of its processes has stopped. -/
theorem ending_of_stopped (h : Tracks c x job) (hp : pid ∈ job.pids) (signal : Signal) :
    (x.add (.ok (some (pid, .stopped signal)))).ending = .stopped := by
  obtain ⟨hstage, -⟩ := h.mem_pids.1 hp
  have hadd : x.add (.ok (some (pid, .stopped signal))) =
      { x with reports := x.reports ++ [(pid, .stopped signal)] } := if_pos hstage
  rw [hadd, Record.ending, if_neg (List.ne_nil_of_mem hstage), if_pos]
  simp [WaitStatus.isStop]

end Tracks

end Sequential

end PipelineShell
