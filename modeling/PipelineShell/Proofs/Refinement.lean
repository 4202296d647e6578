/-
The shell as a sequential interpreter.

The worker handles requests while children of other lines end and stop, and it
looks for all of them in one loop.  None of this shows in the answers: they are
those that a sequential interpreter gives to the requests.

* `answers_eq_interpret` — in every run in which looking for children does not
  fail and no fork fails in the middle of a pipeline, the answers are those of
  `interpret`.  So two runs with the same requests and the same outcomes give
  the same answers, whatever else goes on.  And no answer is lost: a request
  that nobody handles any more is a pipeline whose stages have neither all ended
  nor one of them stopped.

Design notes: `Refines` relates a state to what has been written down.  A step
of the worker keeps it if it `Serves` the request that is written down and the
job in the foreground still `Follows` it (`Refines.act`); the other events leave
the worker alone.
-/
import PipelineShell.Proofs.Ownership
import PipelineShell.Proofs.Sequential

namespace PipelineShell

open Output Trace

namespace Sequential

/-! ### The simulation -/

/-- What must have been written down while the worker is doing this. -/
def Expects (operators : OperatorSet) (current : Option Record) : Doing → Prop
  | .collecting true => ∃ x, current = some x ∧ x.request = .endOfInput
  | .changing _ _ => ∃ x, current = some x ∧ x.request.intent operators = .changeDirectory
  | .launching _ line _ _ => ∃ x, current = some x ∧
      x.request.intent operators = (if line.modifier.background then .background else .foreground) ∧
      x.stages = [] ∧ x.reports = []
  | _ => True

/-- The answer is the one of the sequential interpreter. -/
def Right (operators : OperatorSet) (status : Int) (current : Option Record) (r : Reply) : Prop :=
  ∃ x, current = some x ∧ r = answer operators status x.request (x.outcome operators) ∧
    x.outcome operators ≠ .unfinished

/-- The step answers the request that is written down, or goes on with it. -/
structure Serves (operators : OperatorSet) (status : Int) (current : Option Record)
    (step : Step) : Prop where
  right : ∀ r ∈ replies step.outputs, Right operators status current r
  expects : Expects operators current (.begin step.worker step.next)
  /-- If it gives no answer, the answer is to come. -/
  goes_on : current ≠ none → replies step.outputs = [] →
    step.next.isHandling = true ∨ step.worker.foreground ≠ none

/-- The job in the foreground belongs to the request that is written down. -/
def Follows (operators : OperatorSet) (current : Option Record) (w : Worker) (c : Children) :
    Prop :=
  ∀ id : Nat, w.foreground = some id → ∃ x job, current = some x ∧
    x.request.intent operators = .foreground ∧ w.jobs.get? id = some job ∧ Tracks c x job

structure Refines (operators : OperatorSet) (past : Trace) (s : System) : Prop where
  same_operators : s.worker.operators = operators
  /-- The status of the last line, once the answers on their way have been given. -/
  status : s.worker.status = statusAfter (statusAfter 0 (answers past)) (replies s.outbox)
  /-- Every request has been answered, or is being handled, or waits in the queue. -/
  answered : ∃ done : List Message,
    requests past = done ++ (((diary operators past).current.map (·.request)).toList ++
      s.inbox.filter Message.isRequest) ∧
    done.length = (outcomes operators past).length ∧
    answers past = interpret operators 0 (done.zip (outcomes operators past))
  finished : Outcome.unfinished ∉ outcomes operators past
  offered : ∀ r ∈ replies s.outbox,
    Right operators (statusAfter 0 (answers past)) (diary operators past).current r
  expects : Expects operators (diary operators past).current s.doing
  /-- What has been received and not answered is not forgotten. -/
  goes_on : (diary operators past).current ≠ none → replies s.outbox = [] →
    s.doing.isHandling = true ∨ s.worker.foreground ≠ none
  foreground : Follows operators (diary operators past).current s.worker s.children

namespace Refines

variable {operators : OperatorSet} {past : Trace} {s s' : System} {e : Event}

theorem initial (terminalGroup : Option Pid) (operators : OperatorSet) :
    Refines operators [] (.initial terminalGroup operators) where
  same_operators := rfl
  status := rfl
  answered := ⟨[], rfl, rfl, rfl⟩
  finished := List.not_mem_nil
  offered r h := by cases h
  expects := trivial
  goes_on h := absurd rfl h
  foreground _ h := by cases h

/-- A step of the worker that writes down `current` and gives only right answers. -/
theorem act {step : Step} {n : Nat} (hr : Refines operators past s) (current : Option Record)
    (inbox : List Message) (children : Children) (houtbox : s.outbox = [])
    (hf : step.Faithful s.worker n)
    (hdiary : diary operators ((s, e) :: past) = { diary operators past with current })
    (hanswers : answers ((s, e) :: past) = answers past)
    (hrequests : requests ((s, e) :: past) = requests past)
    (hqueue : (current.map (·.request)).toList ++ inbox.filter Message.isRequest =
      ((diary operators past).current.map (·.request)).toList ++ s.inbox.filter Message.isRequest)
    (hserves : Serves operators s.worker.status current step)
    (hfollows : Follows operators current step.worker children) :
    Refines operators ((s, e) :: past) ({ s with inbox, children }.take step) := by
  have hstatus : s.worker.status = statusAfter 0 (answers past) := by
    rw [hr.status, houtbox]
    rfl
  constructor
  case same_operators => exact hf.operators.trans hr.same_operators
  case status => rw [hanswers, ← hstatus]; exact hf.status
  case answered =>
    rw [outcomes, hdiary, hanswers, hrequests]
    show ∃ done, _ = done ++ (_ ++ inbox.filter Message.isRequest) ∧ _
    rw [hqueue]
    exact hr.answered
  case finished => rw [outcomes, hdiary]; exact hr.finished
  case offered => rw [hdiary, hanswers, ← hstatus]; exact hserves.right
  case expects => rw [hdiary]; exact hserves.expects
  case goes_on =>
    rw [hdiary]
    show _ → _ → (Doing.begin step.worker step.next).isHandling = true ∨ _
    rw [Doing.isHandling_begin]
    exact hserves.goes_on
  case foreground => rw [hdiary]; exact hfollows

theorem length_outcomes (hr : Refines operators past s) :
    (outcomes operators past).length = (answers past).length := by
  obtain ⟨done, -, hlen, hanswers⟩ := hr.answered
  rw [hanswers, length_interpret, List.length_zip, hlen, Nat.min_self]

/-- The requests that have not been answered are beyond the outcomes. -/
theorem answers_eq (hr : Refines operators past s) :
    answers past = interpret operators 0 ((requests past).zip (outcomes operators past)) := by
  obtain ⟨done, hrequests, hlen, hanswers⟩ := hr.answered
  rw [hanswers, hrequests]
  congr 1
  conv_rhs => rw [← List.append_nil (outcomes operators past)]
  rw [List.zip_append hlen, List.zip_nil_right, List.append_nil]

/-- Nothing is written down about a request that waits in the queue. -/
theorem current_eq_none (hr : Refines operators past s)
    (hopen : (requests past).length = (answers past).length + s.reader.isWaiting.toNat)
    (h : 0 < s.queued) : (diary operators past).current = none := by
  obtain ⟨done, hreq, hlen, hans⟩ := hr.answered
  have hqueued : (s.inbox.filter Message.isRequest).length = s.queued :=
    List.countP_eq_length_filter.symm
  have hanslen : (answers past).length = done.length := by
    rw [hans, length_interpret, List.length_zip, ← hlen, Nat.min_self]
  have hle := Bool.toNat_le s.reader.isWaiting
  cases hc : (diary operators past).current with
  | none => rfl
  | some x =>
    rw [hreq, hc] at hopen
    simp only [Option.map_some, Option.toList_some, List.length_append, List.length_singleton,
      hqueued, hanslen] at hopen
    omega

/-! ### What a message asks for -/

/-- An answer after which the worker listens again. -/
theorem serves_answer {status : Int} {x : Record} {step : Step} {r : Reply}
    (hreplies : replies step.outputs = [r]) (hnext : step.next = .listening)
    (hr : r = answer operators status x.request (x.outcome operators))
    (hx : x.outcome operators ≠ .unfinished) : Serves operators status (some x) step where
  right r' h := by
    rw [hreplies, List.mem_singleton] at h
    exact ⟨x, rfl, h.trans hr, hx⟩
  expects := by
    rw [hnext]
    trivial
  goes_on _ h := by
    rw [hreplies] at h
    cases h

/-- Leaving is answered at once. -/
theorem serves_leave {w : Worker} {x : Record} {argument : Option String}
    (hi : x.request.intent w.operators = .exit argument)
    (hj : x.jobsLeft = decide (w.jobs.jobs ≠ [])) :
    Serves w.operators w.status (some x) (w.leave argument) := by
  have hleft : x.jobsLeft = !w.jobs.isEmpty := by
    rw [hj, Bool.eq_iff_iff, decide_eq_true_iff, Bool.not_eq_true', JobTable.isEmpty_eq_false_iff]
  have ho : x.outcome w.operators = .jobs (!w.jobs.isEmpty) := by rw [Record.outcome, hi, hleft]
  have hx : x.outcome w.operators ≠ .unfinished := by simp [ho]
  rw [Worker.leave.eq_def]
  split
  · next he =>
    refine serves_answer rfl rfl ?_ hx
    rw [answer.eq_def, hi, ho, he]
    cases argument <;> rfl
  next he =>
  rw [Bool.not_eq_true] at he
  split
  · refine serves_answer rfl rfl ?_ hx
    rw [answer.eq_def, hi, ho, he]
  rw [parseStatus?_eq]
  split
  · next hp =>
    refine serves_answer rfl rfl ?_ hx
    simp only [answer.eq_def, hi, ho, he, hp]
  · next hp =>
    refine serves_answer rfl rfl ?_ hx
    simp only [answer.eq_def, hi, ho, he, hp]

/-- What a line asks for is answered at once or begun. -/
theorem serves_lineRead {w : Worker} {text : String} {x : Record}
    (hx : x = { request := .line text, jobsLeft := w.jobs.jobs ≠ [] }) :
    Serves w.operators w.status (some x) (w.lineRead text) := by
  have hparse : x.request.intent w.operators = Message.intent w.operators (.line text) := by rw [hx]
  rw [Message.intent] at hparse
  rw [Worker.lineRead]
  cases hp : CommandLine.parse text w.operators with
  | error e =>
    rw [hp] at hparse
    have ho : x.outcome w.operators = .nothing := by rw [Record.outcome.eq_def, hparse]
    refine serves_answer rfl rfl ?_ (by simp [ho])
    rw [answer.eq_def, hparse]
  | ok line =>
    rw [hp] at hparse
    replace hparse := hparse.trans (CommandLine.intent_of_parse hp)
    cases hb : line.builtin? with
    | none =>
      simp only [hb] at hparse ⊢
      exact ⟨fun r h => (List.not_mem_nil h).elim, ⟨x, rfl, hparse, hx ▸ rfl, hx ▸ rfl⟩,
        fun _ _ => .inl rfl⟩
    | some builtin =>
      cases builtin with
      | changeDirectory directory =>
        simp only [hb] at hparse ⊢
        exact ⟨fun r h => (List.not_mem_nil h).elim, ⟨x, rfl, hparse⟩, fun _ _ => .inl rfl⟩
      | exit argument =>
        simp only [hb] at hparse ⊢
        exact serves_leave hparse (hx ▸ rfl)

/-! ### The steps -/

/-- Nothing is in the foreground, so nothing has to be written down about it. -/
theorem follows_of_none {current : Option Record} {w : Worker} {c : Children}
    (h : w.foreground = none) : Follows operators current w c :=
  fun _ hf => absurd (h.symm.trans hf) (by simp)

theorem receive {m : Message} {rest : List Message} (hr : Refines operators past s) (hs : s.Sound)
    (hopen : (requests past).length = (answers past).length + s.reader.isWaiting.toNat)
    (idle : s.doing = .listening) (houtbox : s.outbox = []) (h : s.inbox = m :: rest) :
    Refines operators ((s, .receive m) :: past)
      ({ s with inbox := rest }.take (s.worker.received m)) := by
  obtain ⟨status, hw⟩ := s.worker.received_worker m
  have hf := Worker.received_faithful (w := s.worker) m
  cases hm : m.isRequest with
  | false =>
    have hdiary : diary operators ((s, .receive m) :: past) = diary operators past :=
      if_neg (by simp [hm])
    have hquiet : replies (s.worker.received m).outputs = [] := by
      cases m <;> first | rfl | cases hm
    refine hr.act _ rest s.children houtbox hf hdiary rfl rfl ?_ ⟨?_, ?_, ?_⟩ ?_
    · rw [h, List.filter_cons_of_neg (by simp [hm])]
    · rw [hquiet]
      exact fun r h => (List.not_mem_nil h).elim
    · cases m with
      | line text => cases hm
      | endOfInput => cases hm
      | childChanged => trivial
      | signal => trivial
    · intro hcurrent _
      rw [hw]
      have hgo := hr.goes_on hcurrent (by rw [houtbox]; rfl)
      rw [idle] at hgo
      exact hgo.imp_left fun h => by cases h
    · show Follows operators _ (s.worker.received m).worker s.children
      rw [hw]
      exact hr.foreground
  | true =>
    have hqueued : 0 < s.queued := by
      rw [System.queued, h, List.countP_cons_of_pos hm]
      omega
    have hnone := hr.current_eq_none hopen hqueued
    refine hr.act (some { request := m, jobsLeft := s.worker.jobs.jobs ≠ [] }) rest s.children
      houtbox hf (if_pos hm) rfl rfl ?_ ?_ ?_
    · rw [h, hnone, List.filter_cons_of_pos hm]
      rfl
    · cases m with
      | line text => exact hr.same_operators ▸ serves_lineRead rfl
      | endOfInput =>
        exact ⟨fun r h => (List.not_mem_nil h).elim, ⟨_, rfl, rfl⟩, fun _ _ => .inl rfl⟩
      | childChanged => cases hm
      | signal => cases hm
    · refine follows_of_none ?_
      rw [hw]
      exact hs.foreground_eq_none (.inr hqueued)

theorem directory {name : String} {result : Except DirectoryError String}
    {calls : Program Task (Except DirectoryError String)} (hr : Refines operators past s)
    (hs : s.Sound) (houtbox : s.outbox = []) (h : s.doing = .changing name calls) :
    Refines operators ((s, .directory result) :: past)
      (s.take (s.worker.directoryChanged result)) := by
  have hexpects := hr.expects
  rw [h] at hexpects
  obtain ⟨x, hx, hi⟩ := hexpects
  obtain ⟨status, hw⟩ := s.worker.directoryChanged_worker result
  have hdiary : diary operators ((s, .directory result) :: past) =
      { diary operators past with current := some { x with changed := result.toBool } } := by
    show Diary.note _ _ _ _ = _
    rw [Diary.note, hx, Option.map_some]
  have ho : Record.outcome operators { x with changed := result.toBool } =
      .directory result.toBool := by
    rw [Record.outcome.eq_def, hi]
  refine hr.act _ s.inbox s.children houtbox (Worker.directoryChanged_faithful result) hdiary
    rfl rfl ?_ ?_ ?_
  · rw [hx]
    rfl
  · cases result with
    | ok directory =>
      refine serves_answer (r := .resume 0) rfl rfl ?_ (by simp [ho])
      rw [answer.eq_def, hi, ho]
      rfl
    | error e =>
      refine serves_answer (r := .resume 1) rfl rfl ?_ (by simp [ho])
      rw [answer.eq_def, hi, ho]
      rfl
  · refine follows_of_none ?_
    rw [hw]
    exact hs.foreground_eq_none (.inl (h ▸ rfl))

theorem launched {text : String} {line : CommandLine} {forked : List Pid}
    {result : Except LaunchError Spawned} (hr : Refines operators past s) (hs : s.Sound)
    (ho : s.Owned) (houtbox : s.outbox = [])
    (h : s.doing = .launching text line forked (.done result))
    (hwhole : Orderly (.launched result)) :
    Refines operators ((s, .launched result) :: past)
      (s.take (s.worker.launched text line result)) := by
  have hexpects := hr.expects
  rw [h] at hexpects
  obtain ⟨x, hx, hi, hstages, hreports⟩ := hexpects
  have hnone := hs.foreground_eq_none (.inl (h ▸ rfl))
  have hf := Worker.launched_faithful hs.coherent text line result
  rcases s.worker.launched_cases text line result with
    ⟨hrun, message, he⟩ | ⟨spawned, outputs, hrun, hquiet, he⟩
  · have hdiary : diary operators ((s, .launched result) :: past) = diary operators past := by
      cases result with
      | error e => rfl
      | ok spawned => cases hrun
    have hout : x.outcome operators = .notStarted := by
      rw [Record.outcome.eq_def, hi]
      cases line.modifier.background <;> simp [hstages, Record.ending]
    rw [he] at hf ⊢
    refine hr.act _ s.inbox s.children houtbox hf hdiary rfl rfl rfl ?_ (follows_of_none hnone)
    rw [hx]
    refine serves_answer rfl rfl ?_ (by simp [hout])
    rw [answer.eq_def, hi, hout]
    cases line.modifier.background <;> rfl
  -- Only a launch of all stages is left.
  have hresult : result = .ok spawned := by
    rcases result with (_ | _ | ⟨_ | ⟨first, rest⟩, cause⟩) | spawned'
    · cases hrun
    · cases hrun
    · cases hrun
    · exact absurd rfl (hwhole.whole first rest cause)
    · exact congrArg _ (Option.some.inj hrun)
  have hne : spawned.pids ≠ [] := by
    rw [hs.pids_of_running? h hrun]
    exact (ho.isSome_running?_iff hs h).1 (by rw [hrun]; rfl)
  have hdiary : diary operators ((s, .launched result) :: past) =
      { diary operators past with current := some { x with stages := spawned.pids } } := by
    show Diary.note _ _ _ _ = _
    rw [hresult, Diary.note, hx, Option.map_some]
  have hqueue : ((some { x with stages := spawned.pids }).map (·.request)).toList ++
      s.inbox.filter Message.isRequest =
        ((diary operators past).current.map (·.request)).toList ++
          s.inbox.filter Message.isRequest := by
    rw [hx]
    rfl
  rw [he] at hf ⊢
  rcases s.worker.started_cases text line spawned hquiet with
    ⟨hfull, -⟩ | ⟨id, jobs, hinsert, ⟨hb, message, he⟩ | ⟨hb, hw, hout, hn⟩⟩
  · obtain ⟨id, jobs, hinsert⟩ := ho.exists_insert? hs h hrun
      (String.ofList (Text.trim text.toList)) line.modifier.background
    cases hfull.symm.trans hinsert
  · rw [hb, if_pos rfl] at hi
    have hout : Record.outcome operators { x with stages := spawned.pids } = .started := by
      rw [Record.outcome.eq_def, hi]
      exact if_neg hne
    rw [he] at hf ⊢
    refine hr.act _ s.inbox s.children houtbox hf hdiary rfl rfl hqueue ?_ (follows_of_none hnone)
    refine serves_answer (r := .resume 0) (by simp [Worker.answer, hquiet]) rfl ?_ (by simp [hout])
    rw [answer.eq_def, hi, hout]
  · rw [hb, if_neg Bool.false_ne_true] at hi
    refine hr.act _ s.inbox s.children houtbox hf hdiary rfl rfl hqueue ⟨?_, ?_, ?_⟩ ?_
    · rw [hout]
      exact fun r h => (List.not_mem_nil h).elim
    · rw [hn]
      trivial
    · rw [hw]
      exact fun _ _ => .inr (Option.some_ne_none id)
    · rw [hw]
      intro id' hid'
      obtain rfl := Option.some.inj hid'
      obtain ⟨last, hl, -⟩ := JobTable.insert?_eq_some_iff.1 hinsert
      have hj := JobTable.get?_insert? hinsert hl id
      rw [if_pos rfl] at hj
      exact ⟨_, _, rfl, hi, hj, Tracks.start rfl hreports hl⟩

/-! ### Looking for children -/

section looking

variable {current : Option Record} {w : Worker} {c c' : Children} {ending : Bool} {p : Poll}

theorem expects_polled (h : Expects operators current (.collecting ending)) :
    Expects operators (current.map (·.add p))
      (.begin (w.polled ending p).worker (w.polled ending p).next) := by
  rcases w.polled_next ending p with hn | hn
  · rw [hn]
    trivial
  · rw [hn]
    cases ending with
    | false => trivial
    | true =>
      obtain ⟨x, hx, hm⟩ := h
      exact ⟨x.add p, by rw [hx]; rfl, by rw [Record.request_add, hm]⟩

/-- A stage that has stopped answers its line; any other process that stops changes nothing. -/
theorem serves_stopped {pid : Pid} {signal : Signal}
    (hp : p = .ok (some (pid, .stopped signal)))
    (he : Expects operators current (.collecting ending))
    (hgo : current ≠ none → ending = true ∨ w.foreground ≠ none)
    (hf : Follows operators current w c) (found : c.Answers p c') :
    Serves operators w.status (current.map (·.add p)) (w.polled ending p) ∧
      Follows operators (current.map (·.add p)) (w.polled ending p).worker c' := by
  have hexpects := expects_polled (p := p) (w := w) he
  subst hp
  obtain ⟨hchild, rfl⟩ := found.of_stopped
  rcases w.processStopped_cases pid with ⟨id, job, hfg, hj, hmem, hw, hreplies⟩ | ⟨hother, hsame⟩
  · obtain ⟨x, job', rfl, hi, hj', ht⟩ := hf id hfg
    obtain rfl := Option.some.inj (hj.symm.trans hj')
    have hout : (x.add (.ok (some (pid, .stopped signal)))).outcome operators = .stopped := by
      rw [Record.outcome.eq_def, Record.request_add, hi]
      exact ht.ending_of_stopped hmem signal
    refine ⟨⟨fun r hr => ⟨_, rfl, ?_, by simp [hout]⟩, hexpects, fun _ hr => ?_⟩, ?_⟩
    · rw [Record.request_add, answer.eq_def, hi, hout]
      exact List.mem_singleton.1 (hreplies ▸ hr)
    · exact absurd (hreplies.symm.trans hr) (by simp)
    · refine follows_of_none ?_
      show (w.processStopped pid).1.foreground = none
      rw [hw]
  -- No stage of the job in the foreground has stopped, and the table stays as it is.
  · have hsame' : w.polled ending (.ok (some (pid, .stopped signal))) =
        { worker := w, next := .collecting ending } := by
      rw [Worker.polled, hsame]
    rw [hsame'] at hexpects ⊢
    refine ⟨⟨fun r hr => (List.not_mem_nil hr).elim, hexpects, fun hne _ => ?_⟩, ?_⟩
    · exact hgo fun h => hne (by rw [h]; rfl)
    · intro id hfg
      obtain ⟨x, job, rfl, hi, hj, ht⟩ := hf id hfg
      obtain ⟨hadd, ht⟩ := ht.other (hother id job hfg hj) hchild (.stopped signal) _
      exact ⟨x, job, congrArg some hadd, hi, hj, ht⟩

/-- The last stage that ends answers its line; any other process that ends answers nothing. -/
theorem serves_ended (hc : w.jobs.Coherent) {pid : Pid} {status : WaitStatus}
    (hs : status.isStop = false) (hp : p = .ok (some (pid, status)))
    (he : Expects operators current (.collecting ending))
    (hgo : current ≠ none → ending = true ∨ w.foreground ≠ none)
    (hf : Follows operators current w c) (found : c.Answers p c') :
    Serves operators w.status (current.map (·.add p)) (w.polled ending p) ∧
      Follows operators (current.map (·.add p)) (w.polled ending p).worker c' := by
  have hexpects := expects_polled (p := p) (w := w) he
  subst hp
  obtain ⟨hchild, rfl⟩ := found.of_ended hs
  rw [Worker.polled_of_not_stopped w ending pid hs] at hexpects ⊢
  obtain ⟨hjobs, -, ⟨id, job, hfg, hj, hmem, hlast, hnone, -, hreplies⟩ |
    ⟨hother, hsame, -, hreplies⟩⟩ := Worker.processEnded_cases hc pid status.code
  -- It was the last process of the job in the foreground.
  · obtain ⟨x, job', rfl, hi, hj', ht⟩ := hf id hfg
    obtain rfl := Option.some.inj (hj.symm.trans hj')
    obtain ⟨n, hn, hending⟩ := (ht.collect hmem hs).ending_of_finished hlast
    have hout : (x.add (.ok (some (pid, status)))).outcome operators = .ended n := by
      rw [Record.outcome.eq_def, Record.request_add, hi]
      exact hending
    rw [hn, Option.getD_some] at hreplies
    refine ⟨⟨fun r hr => ⟨_, rfl, ?_, by simp [hout]⟩, hexpects, fun _ hr => ?_⟩,
      follows_of_none hnone⟩
    · rw [Record.request_add, answer.eq_def, hi, hout]
      exact List.mem_singleton.1 (hreplies ▸ hr)
    · exact absurd (hreplies.symm.trans hr) (by simp)
  · refine ⟨⟨fun r hr => ?_, hexpects, fun hne _ => ?_⟩, ?_⟩
    · rw [hreplies] at hr
      cases hr
    · rw [hsame]
      exact hgo fun h => hne (by rw [h]; rfl)
    · intro id hfg
      rw [hsame] at hfg
      obtain ⟨x, job, rfl, hi, hj, ht⟩ := hf id hfg
      show ∃ x' job', _ ∧ _ ∧ (w.processEnded pid status.code).1.jobs.get? id = some job' ∧ _
      rw [hjobs]
      -- The job in the foreground loses the process, or it has never been one of its stages.
      by_cases hmem : pid ∈ job.pids
      · refine ⟨_, _, rfl, ?_, ?_, ht.collect hmem hs⟩
        · rw [Record.request_add, hi]
        · rw [hc.get?_remove_of_mem _ hj hmem, if_neg (hother id job hfg hj hmem)]
      · obtain ⟨hadd, ht⟩ := ht.other hmem hchild status none
        exact ⟨x, job, congrArg some hadd, hi, hc.get?_remove_of_not_mem _ hj hmem, ht⟩

/-- With nothing left to collect, only the end of the input is answered. -/
theorem serves_quiet (hp : ∀ pid status, p ≠ .ok (some (pid, status)))
    (he : Expects operators current (.collecting ending))
    (hgo : current ≠ none → ending = true ∨ w.foreground ≠ none)
    (hf : Follows operators current w c) (found : c.Answers p c') :
    Serves operators w.status (current.map (·.add p)) (w.polled ending p) ∧
      Follows operators (current.map (·.add p)) (w.polled ending p).worker c' := by
  have hexpects := expects_polled (p := p) (w := w) he
  have hadd : ∀ x : Record, x.add p = x := by
    intro x
    rw [Record.add.eq_def]
    split
    · exact absurd rfl (hp _ _)
    · rfl
  have hcurrent : current.map (·.add p) = current := by
    cases current with
    | none => rfl
    | some x => exact congrArg some (hadd x)
  obtain ⟨hw, hreplies⟩ := w.polled_of_no_child ending hp
  -- Nothing is written down and no child has changed.
  rw [hcurrent] at hexpects ⊢
  rw [found.of_no_child hp]
  refine ⟨⟨fun r hr => ?_, hexpects, fun hne hr => ?_⟩, hw.symm ▸ hf⟩
  · rcases hreplies with ⟨hnil, -⟩ | ⟨rfl, hquit⟩
    · rw [hnil] at hr
      cases hr
    · obtain ⟨x, rfl, hm⟩ := he
      have hi : x.request.intent operators = .endOfInput := by rw [hm]; rfl
      have hout : x.outcome operators = .nothing := by rw [Record.outcome.eq_def, hi]
      refine ⟨x, rfl, ?_, by simp [hout]⟩
      rw [answer.eq_def, hi, hout]
      exact List.mem_singleton.1 (hquit ▸ hr)
  · rcases hreplies with ⟨-, hnext⟩ | ⟨-, hquit⟩
    · rcases hgo hne with hending | hfg
      · exact .inl (by rw [hnext hending]; rfl)
      · exact .inr (hw.symm ▸ hfg)
    · exact absurd (hquit.symm.trans hr) (by simp)

end looking

theorem poll {ending : Bool} {p : Poll} {children : Children} (hr : Refines operators past s)
    (hs : s.Sound) (houtbox : s.outbox = []) (h : s.doing = .collecting ending)
    (found : s.children.Answers p children) (hp : (Event.poll p).Collects) :
    Refines operators ((s, .poll p) :: past)
      ({ s with children }.take (s.worker.polled ending p.understood)) := by
  rw [hp.understood_eq]
  have hf := Worker.polled_faithful hs.coherent ending p
  have hexpects := hr.expects
  rw [h] at hexpects
  have hgo : (diary operators past).current ≠ none →
      ending = true ∨ s.worker.foreground ≠ none := by
    intro hne
    have hgo := hr.goes_on hne (by rw [houtbox]; rfl)
    rw [h] at hgo
    exact hgo
  have hqueue : (((diary operators past).current.map (·.add p)).map (·.request)).toList ++
      s.inbox.filter Message.isRequest =
        ((diary operators past).current.map (·.request)).toList ++
          s.inbox.filter Message.isRequest := by
    rw [Option.map_map]
    congr 3
    funext x
    exact x.request_add p
  have hserves : Serves operators s.worker.status ((diary operators past).current.map (·.add p))
      (s.worker.polled ending p) ∧ Follows operators ((diary operators past).current.map (·.add p))
        (s.worker.polled ending p).worker children := by
    rcases p.news_cases with ⟨pid, signal, hchild⟩ | ⟨pid, status, hend, hchild⟩ | hnone
    · exact serves_stopped hchild hexpects hgo hr.foreground found
    · exact serves_ended hs.coherent hend hchild hexpects hgo hr.foreground found
    · exact serves_quiet hnone hexpects hgo hr.foreground found
  exact hr.act _ s.inbox children houtbox hf rfl rfl rfl hqueue hserves.1 hserves.2

/-! ### An answer is taken -/

theorem reply {r : Reply} {rest : List Output} (hr : Refines operators past s) (hs : s.Sound)
    (h : s.outbox = .reply r :: rest) :
    Refines operators ((s, .reply r) :: past) { s with outbox := rest, reader := r.reader } := by
  -- It is the only answer, and nothing else is under way for the reader.
  obtain ⟨-, hone, -, hidle, hfg⟩ := hs.of_offered (by simp [h])
  have hrest : replies rest = [] := by
    rw [h, replies_cons_reply, List.length_cons] at hone
    exact List.length_eq_zero_iff.1 (by omega)
  obtain ⟨x, hx, hright, hfinished⟩ := hr.offered r (by simp [h])
  obtain ⟨done, hrequests, hlen, hanswers⟩ := hr.answered
  rw [hx] at hrequests
  have hdiary : diary operators ((s, .reply r) :: past) =
      { current := none
        outcomes := outcomes operators past ++ [x.outcome operators] } := by
    show Diary.note _ _ _ _ = _
    rw [Diary.note, hx]
    rfl
  constructor
  case same_operators => exact hr.same_operators
  case status =>
    show s.worker.status = statusAfter (statusAfter 0 (answers past ++ [r])) (replies rest)
    rw [hr.status, h, statusAfter, statusAfter, statusAfter, statusAfter, List.foldl_append]
    rfl
  case answered =>
    refine ⟨done ++ [x.request], ?_, ?_, ?_⟩
    · rw [hdiary]
      show requests past = _
      rw [hrequests]
      simp
    · rw [outcomes, hdiary, List.length_append, List.length_append, hlen]
      rfl
    · rw [outcomes, hdiary]
      show answers past ++ [r] = _
      rw [List.zip_append hlen]
      show _ = interpret operators 0 (_ ++ [(x.request, x.outcome operators)])
      rw [interpret_append, ← hanswers, ← hright]
  case finished =>
    rw [outcomes, hdiary, List.mem_append, List.mem_singleton]
    exact not_or.2 ⟨hr.finished, hfinished.symm⟩
  case offered =>
    intro r' h'
    replace h' : r' ∈ replies rest := h'
    rw [hrest] at h'
    cases h'
  case expects =>
    show Expects operators _ s.doing
    cases hd : s.doing with
    | collecting ending =>
      rw [hd] at hidle
      replace hidle : ending = false := hidle
      rw [hidle]
      trivial
    | listening => trivial
    | _ =>
      rw [hd] at hidle
      cases hidle
  case goes_on =>
    rw [hdiary]
    exact fun h => absurd rfl h
  case foreground => exact follows_of_none hfg

/-! ### A run -/

/-- A message that is sent waits in the queue, and it counts if it is a request. -/
theorem answered_enqueue (hr : Refines operators past s) (m : Message) : ∃ done : List Message,
    requests past ++ [m].filter Message.isRequest =
        done ++ (((diary operators past).current.map (·.request)).toList ++
          (s.inbox ++ [m]).filter Message.isRequest) ∧
      done.length = (outcomes operators past).length ∧
      answers past = interpret operators 0 (done.zip (outcomes operators past)) := by
  obtain ⟨done, hrequests, hlen, hanswers⟩ := hr.answered
  refine ⟨done, ?_, hlen, hanswers⟩
  rw [hrequests, List.filter_append, List.append_assoc, List.append_assoc]

theorem moves (hr : Refines operators past s) (hs : s.Sound) (ho : s.Owned)
    (hopen : (requests past).length = (answers past).length + s.reader.isWaiting.toNat)
    (he : Orderly e) (m : s.Moves e s') : Refines operators ((s, e) :: past) s' := by
  cases m with
  | @request m prompt hm =>
    have hanswered := hr.answered_enqueue m
    rw [List.filter_cons_of_pos hm, List.filter_nil] at hanswered
    exact { hr with answered := hanswered }
  | hangUp prompt => exact { hr with }
  | child h =>
    refine { hr with foreground := fun id hf => ?_ }
    obtain ⟨x, job, hx, hi, hj, ht⟩ := hr.foreground id hf
    exact ⟨x, job, hx, hi, hj, ht.congr fun pid _ => (h.eq_none_iff pid).2⟩
  | nudge => exact { hr with }
  | notify h =>
    have hanswered := hr.answered_enqueue .childChanged
    rw [List.filter_cons_of_neg Bool.false_ne_true, List.filter_nil, List.append_nil] at hanswered
    exact { hr with answered := hanswered }
  | signal =>
    have hanswered := hr.answered_enqueue .signal
    rw [List.filter_cons_of_neg Bool.false_ne_true, List.filter_nil, List.append_nil] at hanswered
    exact { hr with answered := hanswered }
  | receive idle done h => exact hr.receive hs hopen idle done h
  | callDirectory h answer =>
    have hexpects := hr.expects
    rw [h] at hexpects
    exact { hr with expects := hexpects, goes_on := fun _ _ => .inl rfl }
  | directory done h => exact hr.directory hs done h
  | callLaunch h answer new =>
    have hexpects := hr.expects
    rw [h] at hexpects
    exact { hr with
      expects := hexpects
      goes_on := fun _ _ => .inl rfl
      foreground := follows_of_none (hs.foreground_eq_none (.inl (h ▸ rfl))) }
  | launched done h => exact hr.launched hs ho done h he
  | poll done h found => exact hr.poll hs done h found he.collects
  | @put o rest silent h =>
    have hreplies : replies (o :: rest) = replies rest := replies_cons_of_silent silent
    rw [← h] at hreplies
    refine { hr with status := ?_, offered := ?_, goes_on := ?_ }
    · exact hreplies ▸ hr.status
    · exact hreplies ▸ hr.offered
    · exact hreplies ▸ hr.goes_on
  | reply waits h => exact hr.reply hs h

theorem run {terminalGroup : Option Pid} (h : Run (.initial terminalGroup operators) past s)
    (orderly : ∀ x ∈ past, Orderly x.2) : Refines operators past s := by
  induction h with
  | start => exact initial terminalGroup operators
  | @move past s s' e h m ih =>
    have hpast : ∀ x ∈ past, Orderly x.2 := fun x hx => orderly x (List.mem_cons_of_mem _ hx)
    have hs := (System.sound_initial terminalGroup operators).run h
    have ho := System.Owned.run h fun x hx => (hpast x hx).collects
    exact (ih hpast).moves hs ho (length_requests h) (orderly _ List.mem_cons_self) m

end Refines

/-- **The shell is a sequential interpreter.**  In an orderly run the answers are those of
`interpret` to the requests, by what has come of each of them; the status is that of the last
answer; a request that is not being handled any more and has no answer on its way is a pipeline
whose stages have neither all ended nor one of them stopped; and another orderly run with the same
requests and the same outcomes has the same answers. -/
theorem answers_eq_interpret {terminalGroup : Option Pid} {operators : OperatorSet}
    {past : Trace} {s : System} (h : Run (.initial terminalGroup operators) past s)
    (orderly : ∀ x ∈ past, Orderly x.2) :
    answers past =
      interpret operators 0 ((requests past).zip (outcomes operators past)) ∧
    (outcomes operators past).length = (answers past).length ∧
    .unfinished ∉ outcomes operators past ∧
    s.worker.status = statusAfter 0 (answers past ++ replies s.outbox) ∧
    (∀ x, (diary operators past).current = some x → replies s.outbox = [] →
      s.doing.isHandling = false →
        x.request.intent operators = .foreground ∧ x.outcome operators = .unfinished) ∧
    ∀ (terminalGroup' : Option Pid) (past' : Trace) (s' : System),
      Run (.initial terminalGroup' operators) past' s' → (∀ x ∈ past', Orderly x.2) →
      requests past = requests past' → outcomes operators past = outcomes operators past' →
      answers past = answers past' := by
  have hr := Refines.run h orderly
  refine ⟨hr.answers_eq, hr.length_outcomes, hr.finished, ?_, fun x hx hquiet hidle => ?_, ?_⟩
  · rw [statusAfter, List.foldl_append]
    exact hr.status
  · have hs := (System.sound_initial terminalGroup operators).run h
    rcases hr.goes_on (by rw [hx]; exact Option.some_ne_none x) hquiet with hd | hfg
    · exact absurd (hidle.symm.trans hd) Bool.false_ne_true
    obtain ⟨id, hid⟩ := Option.ne_none_iff_exists'.1 hfg
    obtain ⟨x', job, hx', hi, hj, ht⟩ := hr.foreground id hid
    obtain rfl := Option.some.inj (hx.symm.trans hx')
    refine ⟨hi, ?_⟩
    rw [Record.outcome.eq_def, hi]
    exact ht.ending_of_running (hs.coherent.inhabited hj)
  · intro terminalGroup' past' s' h' orderly' hrequests houtcomes
    rw [hr.answers_eq, (Refines.run h' orderly').answers_eq, hrequests, houtcomes]

theorem answered_line_interpreted : ∃ (past : Trace) (s : System),
    Run (.initial none .full) past s ∧ (∀ x ∈ past, Orderly x.2) ∧
      requests past = [.line "a"] ∧
      interpret .full 0 ((requests past).zip (outcomes .full past)) = [.resume 3] ∧
      ∀ (terminalGroup : Option Pid) (past' : Trace) (s' : System),
        Run (.initial terminalGroup .full) past' s' → (∀ x ∈ past', Orderly x.2) →
        requests past' = [.line "a"] → outcomes .full past' = outcomes .full past →
        answers past' = [.resume 3] := by
  obtain ⟨s₁, s₂, s₃, s₄, s₅, s₆, s₇, s, stage, h⟩ := Run.exists_answered
  have orderly : ∀ x ∈ [(s₇, Event.reply (.resume 3)), (s₆, .poll (.ok (some (7, .exited 3)))),
      (s₅, .child (.ended 7 (.exited 3))), (s₄, .launched (.ok ⟨7, [7]⟩)),
      (s₃, .call (.setGroup 7 0) (.ok ())), (s₂, .call (.fork stage) (.ok 7)),
      (s₁, .receive (.line "a")), (.initial none .full, .request (.line "a"))], Orderly x.2 := by
    simp only [List.forall_mem_cons]
    refine ⟨?_, ?_, ?_, ?_, ?_, ?_, ?_, ?_, fun x h => (List.not_mem_nil h).elim⟩
    case refine_2 => exact ⟨fun _ h => (by cases h), fun _ _ _ h => by cases h⟩
    all_goals exact ⟨trivial, fun _ _ _ h => by cases h⟩
  obtain ⟨heq, -, -, -, -, hsame⟩ := answers_eq_interpret h orderly
  refine ⟨_, s, h, orderly, rfl, heq.symm, ?_⟩
  intro terminalGroup past' s' h' orderly' hrequests hout
  exact (hsame terminalGroup past' s' h' orderly' hrequests.symm hout.symm).symm

end Sequential

end PipelineShell
