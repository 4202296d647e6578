/-
What the user is told about jobs.

Whether the end of a job answers a line or is announced is decided when its last
process is collected, by looking at which number has the foreground.  Numbers
are used again, and a stop may have taken the foreground away in the meantime.

* `jobLines` — the lines about jobs among all that is put out;
* `Ledger.Books` — the ledger and the system agree, and what is put out is what
  the ledger says;
* `Ledger.Books.moves`, `Ledger.Books.run` — it stays so in every run in which
  looking for children does not fail;
* `jobs_reported_once` — every end is reported once, as an answer or as a line.

Design notes: news that wait to be put out are part of the invariant
(`Ledger.Told`), since a number is free again as soon as the job has left the
table, but nothing new is started before the user has been told.
-/
import PipelineShell.Proofs.Foreground
import PipelineShell.Proofs.Handling
import PipelineShell.Proofs.Ledger

namespace PipelineShell

open Output Trace Ledger

/-! ### Lines about jobs -/

namespace Output

/-- Lines about jobs begin with a bracket, those about anything else with the name of the shell. -/
def isJobLine (text : String) : Bool :=
  match text.toList with
  | '[' :: _ => true
  | '\n' :: '[' :: _ => true
  | _ => false

def jobLine? : Output → Option String
  | .report text => if isJobLine text then some text else none
  | _ => none

/-- The lines about jobs among outputs. -/
def jobLines (outputs : List Output) : List String := outputs.filterMap jobLine?

variable {outputs : List Output}

@[simp] theorem jobLines_nil : jobLines [] = [] := rfl

@[simp] theorem jobLines_append (outputs others : List Output) :
    jobLines (outputs ++ others) = jobLines outputs ++ jobLines others := List.filterMap_append

@[simp] theorem jobLines_cons_reply (r : Reply) :
    jobLines (.reply r :: outputs) = jobLines outputs := rfl

@[simp] theorem jobLines_terminal (group : Option Pid) :
    jobLines (group.map Output.terminal).toList = [] := by
  cases group <;> rfl

@[simp] theorem jobLines_cons_complaint (text : String) :
    jobLines (Worker.complaint text :: outputs) = jobLines outputs := by
  have h : isJobLine ("PipeSh: " ++ text ++ "\n") = false := by
    rw [isJobLine, String.toList_append, String.toList_append]
    rfl
  simp [jobLines, jobLine?, Worker.complaint, h]

theorem isJobLine_report (x : JobEntry) (mark : Mark) : isJobLine (x.report mark) = true := by
  cases mark <;> simp [isJobLine, JobEntry.report]

@[simp] theorem jobLines_cons_report (x : JobEntry) (mark : Mark) :
    jobLines (.report (x.report mark) :: outputs) = x.report mark :: jobLines outputs := by
  simp [jobLines, jobLine?, isJobLine_report]

end Output

/-! ### What a worker says about jobs -/

namespace Worker

variable {w : Worker}

@[simp] theorem jobLines_refuse (text : String) : jobLines (w.refuse text).outputs = [] := by
  simp [refuse, answer]

theorem jobLines_received (m : Message) : jobLines (w.received m).outputs = [] := by
  cases m with
  | line text =>
    show jobLines (w.lineRead text).outputs = []
    rw [lineRead]
    split
    · exact jobLines_refuse _
    split
    · rfl
    · rw [leave.eq_def]
      split
      · exact jobLines_refuse _
      split
      · rfl
      split
      · rfl
      · exact jobLines_refuse _
    · rfl
  | _ => rfl

theorem jobLines_directoryChanged (result : Except DirectoryError String) :
    jobLines (w.directoryChanged result).outputs = [] := by
  cases result with
  | ok directory => rfl
  | error e => exact jobLines_refuse _

theorem jobLines_collected (ending : Bool) : jobLines (w.collected ending []).outputs = [] := by
  rw [collected]
  split
  · rfl
  · split <;> simp

/-- If looking for children does not fail and finds none that has changed, nothing is said. -/
theorem jobLines_polled {p : Poll} (ending : Bool) (hp : (Event.poll p).Collects)
    (hnone : ∀ pid status, p ≠ .ok (some (pid, status))) :
    jobLines (w.polled ending p).outputs = [] := by
  have hp := hp.understood_eq ▸ hp
  rcases p with e | _ | ⟨pid, status⟩
  case error =>
    rcases hp e rfl with rfl | rfl
    · exact jobLines_collected ending
    · rfl
  case ok.none => exact jobLines_collected ending
  case ok.some => exact absurd rfl (hnone pid status)

/-- What is entered after a launch, and what is said about it. -/
theorem launched_of_insert? {x : JobEntry} {line : CommandLine}
    {result : Except LaunchError Spawned} {jobs : JobTable}
    (hr : running? result = some ⟨x.group, x.left⟩)
    (hb : line.modifier.background = x.detached)
    (hi : w.jobs.insert? x.line x.group x.left x.detached = some (x.id, jobs)) :
    (w.launched x.text line result).worker.jobs = jobs ∧
      jobLines (w.launched x.text line result).outputs =
        (if x.detached then [x.news .started] else []).map News.text := by
  have hstarted : ∀ {outputs}, jobLines outputs = [] →
      (w.started x.text line ⟨x.group, x.left⟩ outputs).worker.jobs = jobs ∧
        jobLines (w.started x.text line ⟨x.group, x.left⟩ outputs).outputs =
          (if x.detached then [x.news .started] else []).map News.text := by
    intro outputs ho
    have hterm : jobLines (w.terminalGroup.map fun _ => Output.terminal x.group).toList = [] := by
      cases w.terminalGroup <;> rfl
    replace hi : w.jobs.insert? (String.ofList (Text.trim x.text.toList)) x.group x.left
      x.detached = some (x.id, jobs) := hi
    rw [started, hb, hi]
    cases x.detached with
    | true =>
      refine ⟨rfl, ?_⟩
      show jobLines (outputs ++ [.report (x.report .started)] ++ [.reply (.resume 0)]) =
        [x.report .started]
      simp [ho]
    | false => simp [ho, hterm]
  rcases result with (_ | _ | ⟨_ | ⟨first, rest⟩, e⟩) | spawned
  case error.fork.cons =>
    obtain ⟨hgroup, hleft⟩ := Spawned.mk.inj (Option.some.inj hr)
    rw [← hgroup, ← hleft] at hstarted
    exact hstarted (by simp)
  case ok =>
    obtain rfl := Option.some.inj hr
    exact hstarted rfl
  all_goals cases hr

/-- What is said about the end of a process. -/
theorem processEnded_outputs (hc : w.jobs.Coherent) (pid : Pid) (status : Int) :
    (w.jobs.owner? pid = none ∧ (w.processEnded pid status).2 = []) ∨
      ∃ id job, w.jobs.get? id = some job ∧ pid ∈ job.pids ∧
        (w.processEnded pid status).2 =
          if (job.collect pid status).pids = [] then
            if w.foreground = some id then
              (w.terminalGroup.map Output.terminal).toList ++
                [.reply (.resume ((job.collect pid status).status.getD status))]
            else [.report (jobLabel id ++ " 終了\t" ++ job.line ++ "\n")]
          else [] := by
  rw [processEnded]
  rcases hc.owner?_cases pid with ho | ⟨id, job, ho, hj, hp⟩
  · rw [JobTable.remove_of_owner?_eq_none status ho]
    exact .inl ⟨ho, rfl⟩
  refine .inr ⟨id, job, hj, hp, ?_⟩
  rw [JobTable.remove_eq status ho hj]
  by_cases hlast : (job.collect pid status).pids = []
  · rw [if_pos hlast, if_pos hlast]
    by_cases hf : w.foreground = some id
    · simp [hf, takeOver]
    · simp [hf, Job.collect]
  · rw [if_neg hlast, if_neg hlast]

/-- What a stop of the job in the foreground comes to. -/
theorem processStopped_of_mem {pid : Pid} {id : Nat} {job : Job} (hf : w.foreground = some id)
    (hj : w.jobs.get? id = some job) (hp : pid ∈ job.pids) :
    (w.processStopped pid).1.foreground = none ∧
      (w.processStopped pid).1.jobs = w.jobs.setBackground id ∧
      (w.processStopped pid).2 = .report ("\n" ++ jobLabel id ++ " 停止\t" ++ job.line ++ "\n") ::
        (w.terminalGroup.map Output.terminal).toList ++
          [.reply (.resume (128 + Signal.terminalStop.number))] := by
  rw [processStopped]
  simp [hf, hj, hp, takeOver]

end Worker

/-! ### The ledger and what is put out -/

namespace Ledger

variable {l l' : Ledger} {x y : JobEntry} {pid : Pid}

/-- What has been put out and what waits to be is what there was to tell.  As long as the end of a
job has not been put out, no other job has its number. -/
def Told (l : Ledger) (past waiting : List Output) : Prop :=
  ∃ before after, l.news = before ++ after ∧ before.map News.text = jobLines past ∧
    after.map News.text = jobLines waiting ∧
    ∀ {x y}, x ∈ l.jobs → x.news .ended ∈ after → y ∈ l.jobs → y.left ≠ [] → y.id ≠ x.id

namespace Told

variable {past waiting : List Output}

/-- More is put out only when nothing waits. -/
theorem add (h : l.Told past []) {fresh : List News} (hnews : l'.news = l.news ++ fresh)
    (hfresh : fresh.map News.text = jobLines waiting)
    (hid : ∀ {x y}, x ∈ l'.jobs → x.news .ended ∈ fresh → y ∈ l'.jobs → y.left ≠ [] →
      y.id ≠ x.id) : l'.Told past waiting := by
  obtain ⟨before, after, hall, hbefore, hafter, -⟩ := h
  obtain rfl := List.map_eq_nil_iff.1 hafter
  rw [List.append_nil] at hall
  exact ⟨before, fresh, by rw [hnews, hall], hbefore, hfresh, hid⟩

theorem put {o : Output} (h : l.Told past (o :: waiting)) : l.Told (past ++ [o]) waiting := by
  obtain ⟨before, after, hall, hbefore, hafter, hid⟩ := h
  rw [jobLines, List.filterMap_cons] at hafter
  cases ho : o.jobLine? with
  | none =>
    rw [ho] at hafter
    refine ⟨before, after, hall, ?_, hafter, hid⟩
    simp [hbefore, jobLines, ho]
  | some text =>
    rw [ho] at hafter
    obtain ⟨n, after, rfl, hn, hafter⟩ := List.map_eq_cons_iff.1 hafter
    refine ⟨before ++ [n], after, by simp [hall], ?_, hafter, fun hx hmem => ?_⟩
    · simp [hbefore, jobLines, ho, hn]
    · exact hid hx (List.mem_cons_of_mem n hmem)

end Told

/-- The ledger is right about the system. -/
structure Books (l : Ledger) (past : Trace) (s : System) : Prop where
  exact : l.Exact
  mirrors : l.Mirrors s.worker.jobs
  requests_eq : requests past = l.received ++ s.inbox.filter Message.isRequest
  /-- No request is received while a line is launched. -/
  launching : ∀ {text : String} {line : CommandLine} {forked : List Pid}
    {calls : Program Task (Except LaunchError Spawned)},
    s.doing = .launching text line forked calls → l.received.getLast? = some (.line text)
  requested : ∀ {x : JobEntry}, x ∈ l.jobs →
    1 ≤ x.request ∧ l.received[x.request - 1]? = some (.line x.text)
  /-- The job in the foreground was started for the last request. -/
  foreground : ∀ {x : JobEntry}, x ∈ l.jobs → x.left ≠ [] → x.background = false →
    x.request = l.received.length
  told : l.Told past.outputs s.outbox

/-- A job that is open is in the foreground of the worker unless it is marked in the ledger. -/
theorem Mirrors.background_eq_false_iff {w : Worker} (h : l.Mirrors w.jobs) (hm : w.Marked)
    (hx : x ∈ l.jobs) (hleft : x.left ≠ []) :
    x.background = false ↔ w.foreground = some x.id := by
  obtain ⟨job, hj, hd⟩ := h.describes hx hleft
  rw [← hd.background]
  exact hm.unmarked_iff hj

/-- What is said when a job ends: the job in the foreground is answered for, any other one is
announced. -/
theorem Mirrors.outputs_of_endsAt {w : Worker} (h : l.Mirrors w.jobs) (hc : w.jobs.Coherent)
    (hm : w.Marked) (hx : x ∈ l.jobs) (he : x.endsAt pid = true) (status : Int) :
    (x.background = true → (w.processEnded pid status).2 = [.report (x.report .ended)]) ∧
      (x.background = false → ∃ status', (w.processEnded pid status).2 =
        (w.terminalGroup.map Output.terminal).toList ++ [.reply (.resume status')]) := by
  obtain ⟨hp, hlast⟩ := JobEntry.endsAt_iff.1 he
  have hleft := List.ne_nil_of_mem hp
  obtain ⟨job, hj, hd⟩ := h.describes hx hleft
  have howner : w.jobs.owner? pid = some x.id := hc.owned.2 ⟨job, hj, hd.pids ▸ hp⟩
  have hpids : (job.collect pid status).pids = [] := (hd.collect pid status).pids.trans hlast
  have hfront := h.background_eq_false_iff hm hx hleft
  rcases w.processEnded_outputs hc pid status with ⟨hnone, -⟩ | ⟨id, job', hj', hp', hout⟩
  · cases hnone.symm.trans howner
  have hid : id = x.id := hc.eq_of_mem hj' hj hp' (hd.pids ▸ hp)
  subst hid
  obtain rfl := Option.some.inj (hj.symm.trans hj')
  rw [hout, if_pos hpids]
  constructor
  · intro hback
    rw [if_neg fun hf => by simp [hfront.2 hf] at hback, hd.line]
    rfl
  · exact fun hback => ⟨_, if_pos (hfront.1 hback)⟩

/-- Otherwise nothing is said. -/
theorem Mirrors.outputs_of_not_endsAt {w : Worker} (h : l.Mirrors w.jobs) (hc : w.jobs.Coherent)
    (he : ∀ {x}, x ∈ l.jobs → x.endsAt pid = false) (status : Int) :
    (w.processEnded pid status).2 = [] := by
  rcases w.processEnded_outputs hc pid status with ⟨-, hout⟩ | ⟨id, job, hj, hp, hout⟩
  · exact hout
  obtain ⟨x, hx, -, -, hd⟩ := h.exists_describes hj
  refine hout.trans (if_neg fun hlast => ?_)
  have hpids : (x.collect pid).left = [] := (hd.collect pid status).pids.symm.trans hlast
  exact Bool.eq_false_iff.1 (he hx) (JobEntry.endsAt_iff.2 ⟨hd.pids ▸ hp, hpids⟩)

/-- The only entry that is told about. -/
theorem Exact.filter_eq (h : l.Exact) {c : JobEntry → Bool} (hx : x ∈ l.jobs) (hc : c x = true)
    (hone : ∀ {y}, y ∈ l.jobs → c y = true → y = x) : l.jobs.filter c = [x] := by
  refine List.perm_singleton.1 ((List.perm_ext_iff_of_nodup (h.nodup_jobs.filter c)
    (List.nodup_singleton x)).2 fun y => ?_)
  rw [List.mem_filter, List.mem_singleton]
  constructor
  · exact fun hy => hone hy.1 hy.2
  · rintro rfl
    exact ⟨hx, hc⟩

/-- Nobody is concerned. -/
theorem tell_of_none {f : JobEntry → JobEntry} {c : JobEntry → Bool} (mark : Mark)
    (hf : ∀ {x}, x ∈ l.jobs → f x = x) (hc : ∀ {x}, x ∈ l.jobs → c x = false) :
    l.tell f c mark = l := by
  have hjobs : l.jobs.map f = l.jobs := (List.map_congr_left fun x hx => hf hx).trans l.jobs.map_id
  have hnews : l.jobs.filter c = [] := List.filter_eq_nil_iff.2 fun x hx => by simp [hc hx]
  simp [tell, hjobs, hnews]

/-- A process that has ended is collected. -/
theorem note_ended {s : System} {status : WaitStatus}
    (hp : (Event.poll (.ok (some (pid, status)))).Collects) (hend : status.isStop = false) :
    l.note s (.poll (.ok (some (pid, status)))) = l.collect pid := by
  rw [note, hp.understood_eq]
  simp only [hend]
  rfl

namespace Books

variable {past : Trace} {s s' : System} {e : Event}

theorem initial (terminalGroup : Option Pid) (operators : OperatorSet) :
    Books {} [] (.initial terminalGroup operators) where
  exact := .empty
  mirrors := .empty
  requests_eq := rfl
  launching h := by cases h
  requested h := by cases h
  foreground h := by cases h
  told := ⟨[], [], rfl, rfl, rfl, fun h => by cases h⟩

/-- No job in the foreground, none that is open without a mark. -/
theorem foreground_of_none (hb : l.Books past s) (hm : s.worker.Marked)
    (h : s.worker.foreground = none) {x : JobEntry} (hx : x ∈ l.jobs) (hleft : x.left ≠ []) :
    x.background = true := by
  rw [← Bool.not_eq_false, hb.mirrors.background_eq_false_iff hm hx hleft, h]
  exact fun h => by cases h

theorem told_nil (hb : l.Books past s) (done : s.outbox = []) : l.Told past.outputs [] :=
  done ▸ hb.told

/-- A step of the worker, with what it comes to in the ledger. -/
theorem take (hb : l.Books past s) {s₁ : System} {step : Step} (hinbox : s₁.inbox = s.inbox)
    (hrequests : requests ((s, e) :: past) = requests past) (houtputs : e.outputs = [])
    (hreceived : l'.received = l.received) (hexact : l'.Exact)
    (hmirrors : l'.Mirrors step.worker.jobs)
    (hrequested : ∀ {y}, y ∈ l'.jobs →
      1 ≤ y.request ∧ l.received[y.request - 1]? = some (.line y.text))
    (hforeground : ∀ {y}, y ∈ l'.jobs → y.left ≠ [] → y.background = false →
      y.request = l.received.length)
    (htold : l'.Told past.outputs step.outputs)
    (hnext : ∀ text line, step.next ≠ .launching text line) :
    l'.Books ((s, e) :: past) (s₁.take step) where
  exact := hexact
  mirrors := hmirrors
  requests_eq := by
    rw [hrequests, hreceived]
    show requests past = l.received ++ s₁.inbox.filter Message.isRequest
    rw [hinbox]
    exact hb.requests_eq
  launching h := absurd (Doing.begin_eq_launching h).1 (hnext _ _)
  requested := by
    rw [hreceived]
    exact hrequested
  foreground := by
    rw [hreceived]
    exact hforeground
  told := by
    rw [outputs_cons, houtputs, List.append_nil]
    exact htold

/-- Entries that were there go on. -/
theorem carry (hb : l.Books past s) {s₁ : System} {step : Step} (hinbox : s₁.inbox = s.inbox)
    (hrequests : requests ((s, e) :: past) = requests past) (houtputs : e.outputs = [])
    (hreceived : l'.received = l.received) (hexact : l'.Exact)
    (hmirrors : l'.Mirrors step.worker.jobs)
    (hjobs : ∀ {y}, y ∈ l'.jobs → ∃ x ∈ l.jobs, y.request = x.request ∧ y.text = x.text ∧
      (y.left ≠ [] → x.left ≠ []) ∧ (y.background = false → x.background = false))
    (htold : l'.Told past.outputs step.outputs)
    (hnext : ∀ text line, step.next ≠ .launching text line) :
    l'.Books ((s, e) :: past) (s₁.take step) := by
  refine hb.take hinbox hrequests houtputs hreceived hexact hmirrors (fun hy => ?_)
    (fun hy hleft hfront => ?_) htold hnext
  · obtain ⟨x, hx, hrequest, htext, -⟩ := hjobs hy
    rw [hrequest, htext]
    exact hb.requested hx
  · obtain ⟨x, hx, hrequest, -, hopen, hmark⟩ := hjobs hy
    rw [hrequest]
    exact hb.foreground hx (hopen hleft) (hmark hfront)

/-- A step that has nothing to do with jobs. -/
theorem quiet (hb : l.Books past s) (done : s.outbox = []) {s₁ : System} {step : Step}
    (hinbox : s₁.inbox = s.inbox) (hrequests : requests ((s, e) :: past) = requests past)
    (houtputs : e.outputs = []) (hjobs : step.worker.jobs = s.worker.jobs)
    (hlines : jobLines step.outputs = [])
    (hnext : ∀ text line, step.next ≠ .launching text line) :
    l.Books ((s, e) :: past) (s₁.take step) := by
  refine hb.carry hinbox hrequests houtputs rfl hb.exact (hjobs ▸ hb.mirrors)
    (fun hy => ⟨_, hy, rfl, rfl, id, id⟩) ?_ hnext
  exact (hb.told_nil done).add (List.append_nil l.news).symm hlines.symm fun _ h => by cases h

/-! #### A changed child -/

/-- A process has stopped. -/
theorem stopped (hb : l.Books past s) (hs : s.Sound) (hm : s.worker.Marked) {pid : Pid}
    {signal : Signal} {ending : Bool} {children : Children} (done : s.outbox = []) :
    (l.stop pid).Books ((s, .poll (.ok (some (pid, .stopped signal)))) :: past)
      ({ s with children }.take (s.worker.polled ending (.ok (some (pid, .stopped signal))))) := by
  have hstep : s.worker.polled ending (.ok (some (pid, .stopped signal))) =
      { worker := (s.worker.processStopped pid).1
        outputs := (s.worker.processStopped pid).2
        next := .collecting ending } := rfl
  rw [hstep]
  by_cases hstops : ∃ x ∈ l.jobs, x.stopsAt pid = true
  · obtain ⟨x, hx, hstops⟩ := hstops
    obtain ⟨hp, hfront⟩ := JobEntry.stopsAt_iff.1 hstops
    have hf := (hb.mirrors.background_eq_false_iff hm hx (List.ne_nil_of_mem hp)).1 hfront
    obtain ⟨job, hj, hd⟩ := hb.mirrors.describes hx (List.ne_nil_of_mem hp)
    obtain ⟨-, hjobs, hout⟩ := Worker.processStopped_of_mem hf hj (hd.pids ▸ hp)
    -- A process has one job only, so only this one is told about.
    have hone : l.jobs.filter (·.stopsAt pid) = [x] :=
      hb.exact.filter_eq hx hstops fun hy hs' =>
        hb.mirrors.eq_of_mem hs.coherent hy hx (JobEntry.stopsAt_iff.1 hs').1 hp
    refine hb.carry rfl rfl rfl rfl (hb.exact.stop pid) ?_ ?_ ?_ fun _ _ h => by cases h
    · rw [hjobs]
      exact hb.mirrors.stop hs.coherent hx hstops
    · intro y hy
      obtain ⟨x, hx, rfl⟩ := List.mem_map.1 hy
      refine ⟨x, hx, rfl, rfl, fun h => h, fun h => ?_⟩
      rw [JobEntry.background, JobEntry.stop, ← Bool.or_assoc, Bool.or_eq_false_iff] at h
      exact h.1
    · refine (hb.told_nil done).add rfl ?_ fun _ hmem => ?_
      · rw [hone, hout, hd.line]
        show [x.report .stopped] = jobLines (.report (x.report .stopped) :: _)
        simp
      · obtain ⟨z, -, he⟩ := List.mem_map.1 hmem
        cases congrArg News.mark he
  -- The process does not belong to the job in the foreground.
  · have hnone : ∀ {x}, x ∈ l.jobs → x.stopsAt pid = false := fun hx =>
      Bool.eq_false_iff.2 fun h => hstops ⟨_, hx, h⟩
    have hquiet : s.worker.processStopped pid = (s.worker, []) := by
      rcases s.worker.processStopped_cases pid with ⟨id, job, hf, hj, hp, -⟩ | ⟨-, hquiet⟩
      · obtain ⟨x, hx, rfl, hleft, hd⟩ := hb.mirrors.exists_describes hj
        have hfront := (hb.mirrors.background_eq_false_iff hm hx hleft).2 hf
        exact absurd (hnone hx) (by simp [JobEntry.stopsAt, hfront, hd.pids ▸ hp])
      · exact hquiet
    rw [hquiet, stop, tell_of_none .stopped (fun hx => JobEntry.stop_of_not (hnone hx)) hnone]
    exact hb.quiet done rfl rfl rfl rfl rfl fun _ _ h => by cases h

/-- A process has ended. -/
theorem ended (hb : l.Books past s) (hs : s.Sound) (hm : s.worker.Marked) {pid : Pid}
    {status : WaitStatus} (hend : status.isStop = false) {ending : Bool} {children : Children}
    (done : s.outbox = []) :
    (l.collect pid).Books ((s, .poll (.ok (some (pid, status)))) :: past)
      ({ s with children }.take (s.worker.polled ending (.ok (some (pid, status))))) := by
  rw [Worker.polled_of_not_stopped s.worker ending pid hend]
  obtain ⟨hjobs, -⟩ := Worker.processEnded_cases hs.coherent pid status.code
  refine hb.carry rfl rfl rfl rfl (hb.exact.collect pid) ?_ ?_ ?_ fun _ _ h => by cases h
  · exact hjobs ▸ hb.mirrors.collect hs.coherent pid status.code
  · intro y hy
    obtain ⟨x, hx, rfl⟩ := List.mem_map.1 hy
    exact ⟨x, hx, rfl, rfl, JobEntry.left_ne_nil_of_collect, id⟩
  refine (hb.told_nil done).add rfl ?_ fun {y z} hy hmem hz hleft he => ?_
  · by_cases hends : ∃ x ∈ l.jobs, x.endsAt pid = true
    · obtain ⟨x, hx, hends⟩ := hends
      obtain ⟨hannounced, hanswered⟩ :=
        hb.mirrors.outputs_of_endsAt hs.coherent hm hx hends status.code
      have hone : ∀ {y}, y ∈ l.jobs → (y.endsAt pid && y.background) = true → y = x :=
        fun hy hc => hb.mirrors.eq_of_mem hs.coherent hy hx
          (JobEntry.endsAt_iff.1 (Bool.and_eq_true_iff.1 hc).1).1 (JobEntry.endsAt_iff.1 hends).1
      cases hback : x.background with
      | true =>
        rw [hb.exact.filter_eq hx (by simp [hends, hback]) hone, hannounced hback]
        simp [JobEntry.news]
      | false =>
        have hnone : l.jobs.filter (fun x => x.endsAt pid && x.background) = [] := by
          refine List.filter_eq_nil_iff.2 fun y hy hc => ?_
          rw [hone hy hc, hback, Bool.and_false] at hc
          cases hc
        obtain ⟨status', hout⟩ := hanswered hback
        rw [hnone, hout]
        simp
    · have hnone : ∀ {x}, x ∈ l.jobs → x.endsAt pid = false := fun hx =>
        Bool.eq_false_iff.2 fun h => hends ⟨_, hx, h⟩
      rw [hb.mirrors.outputs_of_not_endsAt hs.coherent hnone,
        List.filter_eq_nil_iff.2 fun x hx => by simp [hnone hx]]
      rfl
  -- The job that has ended was open until now, and so was the other one.
  · obtain ⟨x, hx, hnews⟩ := List.mem_map.1 hmem
    obtain ⟨hx, hc⟩ := List.mem_filter.1 hx
    obtain ⟨hp, hlast⟩ := JobEntry.endsAt_iff.1 (Bool.and_eq_true_iff.1 hc).1
    obtain ⟨y, hy', rfl⟩ := List.mem_map.1 hy
    obtain ⟨z, hz', rfl⟩ := List.mem_map.1 hz
    obtain rfl : x = y := hb.exact.eq_of_number hx hy' (congrArg News.job hnews)
    obtain rfl := hb.mirrors.eq_of_id hz' hx (JobEntry.left_ne_nil_of_collect hleft)
      (List.ne_nil_of_mem hp) he
    exact hleft hlast

theorem poll (hb : l.Books past s) (hs : s.Sound) (hm : s.worker.Marked) {ending : Bool} {p : Poll}
    {children : Children} (done : s.outbox = []) (hp : (Event.poll p).Collects) :
    (l.note s (.poll p)).Books ((s, .poll p) :: past)
      ({ s with children }.take (s.worker.polled ending p.understood)) := by
  rcases p.news_cases with ⟨pid, signal, rfl⟩ | ⟨pid, status, hend, rfl⟩ | hnone
  · exact hb.stopped hs hm done
  · rw [note_ended hp hend, hp.understood_eq]
    exact hb.ended hs hm hend done
  · rw [note, hp.understood_eq]
    split
    · exact absurd rfl (hnone _ _)
    refine hb.quiet done rfl rfl rfl ?_ (Worker.jobLines_polled ending hp hnone) fun _ _ h => ?_
    · rw [(s.worker.polled_of_no_child ending hnone).1]
    · rcases s.worker.polled_next ending p with hn | hn <;> cases hn.symm.trans h

/-! #### A launch -/

/-- A job is started for the last request. -/
theorem started (hb : l.Books past s) (hs : s.Sound) (hm : s.worker.Marked) {line : CommandLine}
    {forked : List Pid} {calls : Program Task (Except LaunchError Spawned)}
    {result : Except LaunchError Spawned} {jobs : JobTable} (done : s.outbox = [])
    (h : s.doing = .launching x.text line forked calls)
    (hnumber : x.number = l.jobs.length) (hrequest : x.request = l.received.length)
    (hdemoted : x.demoted = false) (hr : Worker.running? result = some ⟨x.group, x.left⟩)
    (hdetached : line.modifier.background = x.detached)
    (hi : s.worker.jobs.insert? x.line x.group x.left x.detached = some (x.id, jobs)) :
    (l.start x).Books ((s, .launched result) :: past)
      (s.take (s.worker.launched x.text line result)) := by
  obtain ⟨last, hlast, -⟩ := JobTable.insert?_eq_some_iff.1 hi
  obtain ⟨hjobs, hlines⟩ := Worker.launched_of_insert? hr hdetached hi
  -- A line is answered before the next one, so no other one has a job in the foreground.
  have hnone := hs.foreground_eq_none (.inl (by rw [h]; rfl))
  have hleft : x.left ≠ [] := List.ne_nil_of_mem (List.mem_of_getLast? hlast)
  have hreceived : 1 ≤ x.request ∧ l.received[x.request - 1]? = some (.line x.text) := by
    have hline := hb.launching h
    refine ⟨hrequest ▸ List.length_pos_of_mem (List.mem_of_getLast? hline), ?_⟩
    rw [hrequest, ← List.getLast?_eq_getElem?]
    exact hline
  refine hb.take rfl rfl rfl rfl (hb.exact.start hnumber hdemoted hleft) ?_ (fun {y} hy => ?_)
    (fun {y} hy hopen hfront => ?_) ?_ fun text' line' he => ?_
  · exact hjobs ▸ hb.mirrors.start hdemoted hi
  · rcases List.mem_append.1 hy with hy | hy
    · exact hb.requested hy
    · rwa [List.mem_singleton.1 hy]
  -- None of the jobs that were there is in the foreground.
  · rcases List.mem_append.1 hy with hy | hy
    · cases hfront.symm.trans (hb.foreground_of_none hm hnone hy hopen)
    · rwa [List.mem_singleton.1 hy]
  · refine (hb.told_nil done).add rfl hlines.symm fun _ hmem => ?_
    split at hmem
    · cases congrArg News.mark (List.mem_singleton.1 hmem)
    · cases hmem
  · rcases s.worker.launched_next x.text line result with hn | hn <;> cases hn.symm.trans he

theorem launched (hb : l.Books past s) (hs : s.Sound) (ho : s.Owned) (hm : s.worker.Marked)
    {text : String} {line : CommandLine} {forked : List Pid}
    {result : Except LaunchError Spawned} (done : s.outbox = [])
    (h : s.doing = .launching text line forked (.done result)) :
    (l.note s (.launched result)).Books ((s, .launched result) :: past)
      (s.take (s.worker.launched text line result)) := by
  rw [note, h]
  cases hr : Worker.running? result with
  | none =>
    rcases s.worker.launched_cases text line result with ⟨-, message, he⟩ | ⟨_, _, hr', -⟩
    · rw [he]
      exact hb.quiet done rfl rfl rfl rfl (Worker.jobLines_refuse message) fun _ _ h => by cases h
    · cases hr.symm.trans hr'
  | some spawned =>
    obtain ⟨id, jobs, hi⟩ := ho.exists_insert? hs h hr (String.ofList (Text.trim text.toList))
      line.modifier.background
    obtain ⟨-, -, -, -, rfl, -⟩ := JobTable.insert?_eq_some_iff.1 hi
    exact hb.started hs hm done h rfl rfl rfl hr rfl hi

/-! #### A message -/

theorem receive (hb : l.Books past s) (hs : s.Sound) (hm : s.worker.Marked) {m : Message}
    {rest : List Message} (done : s.outbox = []) (h : s.inbox = m :: rest) :
    (l.note s (.receive m)).Books ((s, .receive m) :: past)
      ({ s with inbox := rest }.take (s.worker.received m)) := by
  obtain ⟨status, hw⟩ := s.worker.received_worker m
  have hnone : m.isRequest = true → s.worker.foreground = none := fun hm =>
    hs.foreground_eq_none (.inr (by simp [System.queued, h, hm]))
  constructor
  case exact => exact ⟨hb.exact.numbers, hb.exact.nodup, hb.exact.mem_iff, hb.exact.known⟩
  case mirrors =>
    show Mirrors _ (s.worker.received m).worker.jobs
    rw [hw]
    exact ⟨hb.mirrors.describes, hb.mirrors.exists_entry, hb.mirrors.eq_of_id⟩
  case requests_eq =>
    show requests past =
      l.received ++ [m].filter Message.isRequest ++ rest.filter Message.isRequest
    rw [hb.requests_eq, h, List.append_assoc, ← List.filter_append, List.singleton_append]
  case launching =>
    intro text line forked calls hd
    obtain ⟨rfl, -⟩ := Worker.received_of_launching (Doing.begin_eq_launching hd).1
    exact List.getLast?_concat
  case requested =>
    intro x hx
    obtain ⟨hpos, hline⟩ := hb.requested hx
    refine ⟨hpos, ?_⟩
    rw [← hline]
    exact List.getElem?_append_left (List.getElem?_eq_some_iff.1 hline).1
  -- A request comes only when no job is in the foreground.
  case foreground =>
    intro x hx hleft hfront
    cases hr : m.isRequest with
    | false => simpa [note, hr] using hb.foreground hx hleft hfront
    | true => cases hfront.symm.trans (hb.foreground_of_none hm (hnone hr) hx hleft)
  case told =>
    rw [outputs_cons]
    show Told _ (past.outputs ++ []) _
    rw [List.append_nil]
    exact (hb.told_nil done).add (List.append_nil l.news).symm (Worker.jobLines_received m).symm
      fun _ h => by cases h

/-! #### Everything else -/

/-- An event that the worker has no part in. -/
theorem others (hb : l.Books past s) (hworker : s'.worker = s.worker)
    (hrequests : requests ((s, e) :: past) = l.received ++ s'.inbox.filter Message.isRequest)
    (hlaunching : ∀ {text : String} {line : CommandLine} {forked : List Pid}
      {calls : Program Task (Except LaunchError Spawned)},
      s'.doing = .launching text line forked calls →
        ∃ forked calls, s.doing = .launching text line forked calls)
    (htold : l.Told (past.outputs ++ e.outputs) s'.outbox) : l.Books ((s, e) :: past) s' where
  exact := hb.exact
  mirrors := hworker ▸ hb.mirrors
  requests_eq := hrequests
  launching h :=
    let ⟨_, _, h⟩ := hlaunching h
    hb.launching h
  requested := hb.requested
  foreground := hb.foreground
  told := outputs_cons ▸ htold

/-- **What may happen next keeps the books right.** -/
theorem moves (hb : l.Books past s) (hs : s.Sound) (ho : s.Owned) (hm : s.worker.Marked)
    (he : e.Collects) (m : s.Moves e s') : (l.note s e).Books ((s, e) :: past) s' := by
  have hsilent : l.Told (past.outputs ++ []) s.outbox := (List.append_nil _).symm ▸ hb.told
  have hsame := hb.requests_eq
  have hmore : ∀ {m : Message}, m.isRequest = false →
      requests past = l.received ++ (s.inbox ++ [m]).filter Message.isRequest := by
    intro m hm
    rw [List.filter_append, List.filter_cons_of_neg (by simp [hm]), List.filter_nil,
      List.append_nil]
    exact hsame
  cases m with
  | @request m prompt h =>
    refine hb.others rfl ?_ (fun h => ⟨_, _, h⟩) hsilent
    show requests past ++ [m] = l.received ++ (s.inbox ++ [m]).filter Message.isRequest
    rw [hsame, List.filter_append, List.filter_cons_of_pos h, List.filter_nil, List.append_assoc]
  | hangUp prompt => exact hb.others rfl hsame (fun h => ⟨_, _, h⟩) hsilent
  | child h => exact hb.others rfl hsame (fun h => ⟨_, _, h⟩) hsilent
  | nudge => exact hb.others rfl hsame (fun h => ⟨_, _, h⟩) hsilent
  | notify h => exact hb.others rfl (hmore rfl) (fun h => ⟨_, _, h⟩) hsilent
  | signal => exact hb.others rfl (hmore rfl) (fun h => ⟨_, _, h⟩) hsilent
  | receive idle done h => exact hb.receive hs hm done h
  | callDirectory h answer => exact hb.others rfl hsame (fun h => by cases h) hsilent
  | @directory directory result done h =>
    obtain ⟨status, hw⟩ := s.worker.directoryChanged_worker result
    refine hb.quiet done rfl rfl rfl ?_ (Worker.jobLines_directoryChanged result) fun _ _ h => ?_
    · show (s.worker.directoryChanged result).worker.jobs = _
      rw [hw]
    · cases result <;> cases h
  | callLaunch h answer new =>
    refine hb.others rfl hsame (fun h' => ?_) hsilent
    cases h'
    exact ⟨_, _, h⟩
  | launched done h => exact hb.launched hs ho hm done h
  | poll done h answer => exact hb.poll hs hm done he
  | put silent h => exact hb.others rfl hsame (fun h => ⟨_, _, h⟩) (h ▸ hb.told).put
  | reply waits h => exact hb.others rfl hsame (fun h => ⟨_, _, h⟩) (h ▸ hb.told).put

theorem run {terminalGroup : Option Pid} {operators : OperatorSet}
    (h : Run (.initial terminalGroup operators) past s) (collects : ∀ x ∈ past, x.2.Collects) :
    past.ledger.Books past s := by
  induction h with
  | start => exact .initial terminalGroup operators
  | move h m ih =>
    obtain ⟨he, collects⟩ := List.forall_mem_cons.1 collects
    exact (ih collects).moves ((System.sound_initial terminalGroup operators).run h)
      (.run h collects) (System.marked_run h) he m

end Books

/-! ### When a job ends or stops -/

/-- The answer that is put out is that to the line which the job was started for. -/
def JobEntry.Answered (x : JobEntry) (before : Trace) (t : System) : Prop :=
  (requests before)[x.request - 1]? = some (.line x.text) ∧
    (answers before).length + 1 = x.request ∧ ∃ status, replies t.outbox = [.resume status]

/-- What is put out when a job has ended. -/
structure JobEntry.Ends (x : JobEntry) (before : Trace) (t : System) : Prop where
  announced : x.background = true → t.outbox = [.report (x.report .ended)]
  answered : x.background = false → jobLines t.outbox = [] ∧ x.Answered before t

/-- What is put out when the job in the foreground has stopped; it is not there any more. -/
structure JobEntry.Stops (x : JobEntry) (before : Trace) (t : System) : Prop where
  announced : jobLines t.outbox = [x.report .stopped]
  answered : x.Answered before t
  foreground : t.worker.foreground = none
  background : ∃ job, t.worker.jobs.get? x.id = some job ∧ job.background = true

namespace Books

variable {terminalGroup : Option Pid} {operators : OperatorSet} {before : Trace} {t t' : System}
  {status : WaitStatus} {signal : Signal}

/-- The line of the job in the foreground is the one that is not answered. -/
theorem answered (hb : l.Books before t) (h : Run (.initial terminalGroup operators) before t)
    (hx : x ∈ l.jobs) (hleft : x.left ≠ []) (hfront : x.background = false)
    {status : Int} (hreply : replies t'.outbox = [.resume status]) : x.Answered before t' := by
  have hs := (System.sound_initial terminalGroup operators).run h
  have hf := (hb.mirrors.background_eq_false_iff (System.marked_run h) hx hleft).1 hfront
  have hwaits := hs.waiting_of_foreground hf
  have hlength := length_requests h
  have howed := hs.owed_le
  rw [System.owed, hf, Option.isSome_some, hwaits] at howed
  rw [hwaits] at hlength
  simp only [Reader.isWaiting, Bool.toNat_true] at howed hlength
  -- All requests have been received.
  have hnone : t.inbox.filter Message.isRequest = [] := by
    rw [← List.length_eq_zero_iff, ← List.countP_eq_length_filter]
    show t.queued = 0
    omega
  have hall : requests before = l.received := by
    rw [hb.requests_eq, hnone, List.append_nil]
  refine ⟨hall ▸ (hb.requested hx).2, ?_, status, hreply⟩
  rw [hb.foreground hx hleft hfront, ← hall, hlength]

theorem ends (hb : l.Books before t) (h : Run (.initial terminalGroup operators) before t)
    (m : t.Moves (.poll (.ok (some (pid, status)))) t')
    (hp : (Event.poll (.ok (some (pid, status)))).Collects) (hend : status.isStop = false)
    (hx : x ∈ l.jobs) (he : x.endsAt pid = true) : x.Ends before t' := by
  have hs := (System.sound_initial terminalGroup operators).run h
  have hout : t'.outbox = (t.worker.processEnded pid status.code).2 := by
    cases m with
    | @poll ending _ children done hd answer =>
      show (t.worker.polled ending (Poll.understood (.ok (some (pid, status))))).outputs = _
      rw [hp.understood_eq, Worker.polled_of_not_stopped t.worker ending pid hend]
  obtain ⟨hannounced, hanswered⟩ :=
    hb.mirrors.outputs_of_endsAt hs.coherent (System.marked_run h) hx he status.code
  refine ⟨fun hback => hout.trans (hannounced hback), fun hback => ?_⟩
  obtain ⟨status', hout'⟩ := hanswered hback
  have hreply : replies t'.outbox = [.resume status'] := by simp [hout, hout']
  have hleft := List.ne_nil_of_mem (JobEntry.endsAt_iff.1 he).1
  exact ⟨by simp [hout, hout'], hb.answered h hx hleft hback hreply⟩

theorem stops (hb : l.Books before t) (h : Run (.initial terminalGroup operators) before t)
    (m : t.Moves (.poll (.ok (some (pid, .stopped signal)))) t') (hx : x ∈ l.jobs)
    (hstops : x.stopsAt pid = true) : x.Stops before t' := by
  have hs := (System.sound_initial terminalGroup operators).run h
  have hm := System.marked_run h
  obtain ⟨hp, hfront⟩ := JobEntry.stopsAt_iff.1 hstops
  have hleft := List.ne_nil_of_mem hp
  have hf := (hb.mirrors.background_eq_false_iff hm hx hleft).1 hfront
  obtain ⟨job, hj, hd⟩ := hb.mirrors.describes hx hleft
  obtain ⟨hnone, hjobs, hout⟩ := Worker.processStopped_of_mem hf hj (hd.pids ▸ hp)
  rw [hd.line] at hout
  cases m with
  | @poll ending _ children done hd answer =>
    have hlines : jobLines (t.worker.processStopped pid).2 = [x.report .stopped] := by
      rw [hout]
      show jobLines (.report (x.report .stopped) :: _) = _
      simp
    have hreply : replies (t.worker.processStopped pid).2 =
        [.resume (128 + Signal.terminalStop.number)] := by
      rw [hout]
      simp
    refine ⟨hlines, hb.answered h hx hleft hfront hreply, hnone,
      { job with background := true }, ?_, rfl⟩
    show (t.worker.processStopped pid).1.jobs.get? x.id = _
    rw [hjobs, JobTable.get?_setBackground, if_pos rfl, hj]
    rfl

end Books

end Ledger

/-- **Every end of a job is reported once.**  The lines about jobs, with those that wait to be put
out, are the news of the ledger: nothing is told twice, and what is told are the start of a job in
the background, the stop of one in the foreground, which is in the background from then on, and the
end of a job in the background.  The table has exactly the jobs that are open, and the job that is
not in the background is the one in the foreground of the worker.  Until the end of a job in the
background has been put out, no other job in the table has its number.

When the last process of a job is collected and the job is in the background, the line about its
end is put out and nothing else.  If the job is in the foreground, the answer to the line that it
was started for is put out, and no line about it.  Either way it stays in the ledger as it is then.
When a process of the job in the foreground stops, a line and this answer are put out, and the job
is in the background. -/
theorem jobs_reported_once {terminalGroup : Option Pid} {operators : OperatorSet} {past : Trace}
    {s : System} (h : Run (.initial terminalGroup operators) past s)
    (collects : ∀ x ∈ past, x.2.Collects) :
    jobLines past.outputs ++ jobLines s.outbox = past.ledger.news.map News.text ∧
    past.ledger.Exact ∧ past.ledger.Mirrors s.worker.jobs ∧
    (∀ x ∈ past.ledger.jobs, x.left ≠ [] →
      (x.background = false ↔ s.worker.foreground = some x.id)) ∧
    (∀ x ∈ past.ledger.jobs, x.background = true →
      x.news .ended ∉ past.ledger.news.take (jobLines past.outputs).length →
      ∀ y ∈ past.ledger.jobs, y.left ≠ [] → y.id = x.id → y = x) ∧
    ∀ (after before : Trace) (t : System) (pid : Pid) (status : WaitStatus),
      past = after ++ (t, .poll (.ok (some (pid, status)))) :: before →
      ∃ t', t.Moves (.poll (.ok (some (pid, status)))) t' ∧ Run t' after s ∧
        ∀ x ∈ before.ledger.jobs,
          (status.isStop = false → x.endsAt pid = true →
            x.Ends before t' ∧ x.collect pid ∈ past.ledger.jobs) ∧
          (status.isStop = true → x.stopsAt pid = true → x.Stops before t') := by
  have hb := Books.run h collects
  have hm := System.marked_run h
  refine ⟨?_, hb.exact, hb.mirrors,
    fun x hx hleft => hb.mirrors.background_eq_false_iff hm hx hleft,
    fun x hx hback hnot y hy hleft he => ?_, ?_⟩
  · obtain ⟨before, after, hnews, hbefore, hafter, -⟩ := hb.told
    rw [hnews, List.map_append, hbefore, hafter]
  · by_cases hx' : x.left = []
    -- Its end is news already, and if it has not been put out it is among those that wait.
    · obtain ⟨before, after, hnews, hbefore, -, hid⟩ := hb.told
      have hended : x.news .ended ∈ before ++ after := by
        rw [← hnews, hb.exact.mem_iff hx]
        simp [JobEntry.told, hx', hback]
      rw [hnews, ← hbefore, List.length_map, List.take_left] at hnot
      exact absurd he (hid hx ((List.mem_append.1 hended).resolve_left hnot) hy hleft)
    · exact hb.mirrors.eq_of_id hy hx hleft hx' he
  -- What holds of the run until the event is all that is needed to see what comes of it.
  · rintro after before t pid status rfl
    obtain ⟨hbefore, t', m, hafter⟩ := h.split
    obtain ⟨hp, hcollects⟩ := List.forall_mem_cons.1 (List.forall_mem_append.1 collects).2
    replace hb := Books.run hbefore hcollects
    refine ⟨t', m, hafter, fun x hx => ⟨fun hend he => ?_, fun hstop hs' => ?_⟩⟩
    · refine ⟨hb.ends hbefore m hp hend hx he, mem_append ?_ (JobEntry.endsAt_iff.1 he).2⟩
      show x.collect pid ∈ (before.ledger.note t (.poll (.ok (some (pid, status))))).jobs
      rw [note_ended hp hend]
      exact List.mem_map_of_mem hx
    · obtain ⟨signal, rfl⟩ := WaitStatus.isStop_iff.1 hstop
      exact hb.stops hbefore m hx hs'

/-- There are runs in which a job ends in the background: here the line, which has blanks around it,
has been answered when its only stage ends. -/
theorem Run.exists_detached : ∃ (before : Trace) (t s : System) (x : JobEntry),
    Run (.initial none .full) ((t, .poll (.ok (some (7, .exited 3)))) :: before) s ∧
      (∀ y ∈ (t, Event.poll (.ok (some (7, .exited 3)))) :: before, y.2.Collects) ∧
      before.ledger.jobs = [x] ∧ x.background = true ∧
      x.endsAt 7 = true ∧ x.report .ended = "[1] 終了\ta &\n" := by
  have hparse : CommandLine.parse " a &\t" .full =
      .ok ⟨Pipeline.ofWords [.literal "a"], { background := true }⟩ := by
    decide +kernel
  have asked : Run (.initial none .full) [(_, .request (.line " a &\t"))] _ :=
    Run.start.move (.request rfl rfl)
  have received := asked.move (.receive_line rfl rfl rfl hparse rfl)
  have forked := received.move (.callLaunch (r := .fork _) rfl (.ok 7) fun _ _ => rfl)
  have grouped := forked.move (.callLaunch (r := .setGroup 7 0) rfl (.ok ()) fun _ h => by cases h)
  have launched := grouped.move (.launched rfl rfl)
  have reported := launched.move (.put (fun _ h => by cases h) rfl)
  have answered := reported.move (.reply rfl rfl)
  have ended : Run _ ((_, .child (.ended 7 (.exited 3))) :: _) _ :=
    answered.move (.child (.ended (.inl rfl) rfl))
  have notified := ended.move (.notify rfl)
  have woken := notified.move (.receive rfl rfl rfl)
  have collected : Run _ ((_, .poll (.ok (some (7, .exited 3)))) :: _) _ :=
    woken.move (.poll rfl rfl (.ended rfl rfl))
  refine ⟨_, _, _, _, collected, ?_, rfl, rfl, rfl, by decide +kernel⟩
  simp only [List.forall_mem_cons]
  refine ⟨(fun _ h => by cases h), ⟨⟩, ⟨⟩, ⟨⟩, ⟨⟩, ⟨⟩, ⟨⟩, ⟨⟩, ⟨⟩, ⟨⟩, ⟨⟩, fun x hx => ?_⟩
  exact (List.not_mem_nil hx).elim

theorem jobs_reported_once_detached : ∃ (past : Trace) (s : System) (x : JobEntry),
    Run (.initial none .full) past s ∧ (∀ x ∈ past, x.2.Collects) ∧ x ∈ past.ledger.jobs ∧
      x.left = [] ∧ x.news .ended ∈ past.ledger.news ∧
      s.outbox = [.report "[1] 終了\ta &\n"] := by
  obtain ⟨before, t, s, x, h, collects, hjobs, hback, he, hreport⟩ := Run.exists_detached
  obtain ⟨-, hexact, -, -, -, hends⟩ := jobs_reported_once h collects
  obtain ⟨s', -, hrun, hreported⟩ := hends [] before t 7 (.exited 3) rfl
  obtain ⟨hx, hclosed⟩ := (hreported x (hjobs ▸ List.mem_singleton_self x)).1 rfl he
  have hleft := (JobEntry.endsAt_iff.1 he).2
  refine ⟨_, s, x.collect 7, h, collects, hclosed, hleft, (hexact.mem_iff hclosed .ended).2 ?_, ?_⟩
  · rw [JobEntry.told, hleft]
    exact hback
  · cases hrun
    rw [hx.announced hback, hreport]

end PipelineShell
