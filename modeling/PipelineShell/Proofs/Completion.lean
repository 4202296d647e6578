/-
When a job is over.

A job stays in the table until its last process has been collected, however
many other jobs come and go meanwhile, under whatever numbers and with whatever
processes.  What it looks like in between, and what it is when it goes, can be
read off the operations alone.

* `Job.after` — a new job that has been through some operations;
* `Coherent.get?_performAll?` — this is what the table has for it;
* `finished_at_last_process` — so a job is over exactly once, when its last
  process is collected, and its status is that of its last stage, whenever that
  one was collected.

Design notes: a process may be collected, started again for another job and
collected once more while the first job is still there.  Only the first time
counts (`firstStatus?`), as the job does not have the process afterwards.
-/
import Mathlib.Data.List.Induction
import PipelineShell.Proofs.Representation
import PipelineShell.Proofs.System

namespace PipelineShell

namespace JobTable

/-! ### What a history says about a job -/

/-- The status with which an operation collects a process, if that is what it does. -/
def Operation.status? (pid : Pid) : Operation → Option Int
  | .remove q status => if q = pid then some status else none
  | .insert _ _ _ _ => none
  | .setBackground _ => none

/-- The status with which a process was collected first. -/
def firstStatus? (pid : Pid) (ops : List Operation) : Option Int :=
  ops.findSome? (·.status? pid)

/-- The processes that have not been collected. -/
def remaining (pids : List Pid) (ops : List Operation) : List Pid :=
  pids.filter fun pid => (firstStatus? pid ops).isNone

variable {pid : Pid} {pids : List Pid} {ops : List Operation} {op : Operation}

theorem firstStatus?_append_singleton :
    firstStatus? pid (ops ++ [op]) = (firstStatus? pid ops).or (op.status? pid) := by
  rw [firstStatus?, List.findSome?_append, List.findSome?_singleton, firstStatus?]

theorem mem_remaining : pid ∈ remaining pids ops ↔ pid ∈ pids ∧ firstStatus? pid ops = none := by
  rw [remaining, List.mem_filter, Option.isNone_iff_eq_none]

/-- An operation that collects none of the processes leaves them as they are. -/
theorem remaining_append_of_status? (h : ∀ pid ∈ remaining pids ops, op.status? pid = none) :
    remaining pids (ops ++ [op]) = remaining pids ops := by
  refine List.filter_congr fun pid hp => ?_
  rw [firstStatus?_append_singleton]
  cases hs : firstStatus? pid ops with
  | some status => rfl
  | none => rw [Option.none_or, h pid (mem_remaining.2 ⟨hp, hs⟩)]

theorem remaining_append_remove (status : Int) :
    remaining pids (ops ++ [.remove pid status]) = (remaining pids ops).filter (· ≠ pid) := by
  rw [remaining, remaining, List.filter_filter]
  refine List.filter_congr fun q _ => ?_
  rw [firstStatus?_append_singleton]
  by_cases hq : q = pid
  · simp [hq, Operation.status?]
  · simp [hq, Ne.symm hq, Operation.status?]

/-- Fewer are left after more operations. -/
theorem remaining_ne_nil_of_append (h : remaining pids (ops ++ [op]) ≠ []) :
    remaining pids ops ≠ [] := by
  obtain ⟨pid, hp⟩ := List.exists_mem_of_ne_nil _ h
  obtain ⟨hmem, hs⟩ := mem_remaining.1 hp
  rw [firstStatus?_append_singleton, Option.or_eq_none_iff] at hs
  exact List.ne_nil_of_mem (mem_remaining.2 ⟨hmem, hs.1⟩)

end JobTable

open JobTable

/-- A new job with this number, after some operations. -/
def Job.after (job : Job) (id : Nat) (ops : List Operation) : Job :=
  { job with
    pids := remaining job.pids ops
    background := job.background || decide (.setBackground id ∈ ops)
    status := firstStatus? job.last ops }

namespace Job

variable {job : Job} {id : Nat} {ops : List Operation}

theorem after_nil (h : job.status = none) : job.after id [] = job := by
  have hpids : remaining job.pids [] = job.pids := List.filter_eq_self.2 fun _ _ => rfl
  rw [after, hpids]
  simp [firstStatus?, ← h]

/-- An operation that is about something else changes nothing. -/
theorem after_append_of_status? {op : Operation} (hlast : job.last ∈ job.pids)
    (h : ∀ pid ∈ remaining job.pids ops, op.status? pid = none) (hop : op ≠ .setBackground id) :
    job.after id (ops ++ [op]) = job.after id ops := by
  have hstatus : firstStatus? job.last (ops ++ [op]) = firstStatus? job.last ops := by
    rw [firstStatus?_append_singleton]
    cases hs : firstStatus? job.last ops with
    | some status => rfl
    | none => rw [Option.none_or, h job.last (mem_remaining.2 ⟨hlast, hs⟩)]
  rw [after, after, remaining_append_of_status? h, hstatus]
  simp [hop.symm]

theorem after_append_remove {pid : Pid} (status : Int) (h : pid ∈ remaining job.pids ops) :
    job.after id (ops ++ [.remove pid status]) = (job.after id ops).collect pid status := by
  have hnone := (mem_remaining.1 h).2
  have hstatus : firstStatus? job.last (ops ++ [.remove pid status]) =
      if pid = job.last then some status else firstStatus? job.last ops := by
    rw [firstStatus?_append_singleton, Operation.status?]
    split
    · next he => rw [← he, hnone, Option.none_or]
    · rw [Option.or_none]
  rw [after, remaining_append_remove, hstatus, collect, after]
  simp

theorem after_append_setBackground :
    job.after id (ops ++ [.setBackground id]) = { job.after id ops with background := true } := by
  rw [after, after, remaining_append_of_status? fun _ _ => rfl, firstStatus?_append_singleton]
  simp [Operation.status?]

end Job

namespace JobTable

/-! ### What the table has for a job -/

variable {t t' : JobTable} {id : Nat} {job : Job} {ops : List Operation}

/-- One operation more, as long as the job has a process left. -/
theorem Coherent.get?_perform?_after {op : Operation} (hc : t.Coherent)
    (hlast : job.last ∈ job.pids) (hj : t.get? id = some (job.after id ops))
    (h : t.perform? op = some t') (hleft : remaining job.pids (ops ++ [op]) ≠ []) :
    t'.get? id = some (job.after id (ops ++ [op])) := by
  cases op with
  | insert line group pids background =>
    obtain ⟨⟨k, next⟩, hi, rfl⟩ := Option.map_eq_some_iff.1 h
    obtain ⟨last, hl, -, -, rfl, -⟩ := insert?_eq_some_iff.1 hi
    -- The new job gets a number of its own.
    have hne : id ≠ t.freshId := by
      rintro rfl
      cases hj.symm.trans t.get?_freshId.2
    have hop : Operation.insert line group pids background ≠ .setBackground id :=
      fun he => by cases he
    rw [get?_insert? hi hl, if_neg hne, hj,
      Job.after_append_of_status? hlast (fun _ _ => rfl) hop]
  | remove pid status =>
    obtain rfl := Option.some.inj h
    -- A process that is not among those left may be collected for another job.
    by_cases hp : pid ∈ remaining job.pids ops
    · have hne : ((job.after id ops).collect pid status).pids ≠ [] := by
        rw [← Job.after_append_remove status hp]
        exact hleft
      rw [hc.get?_remove_of_mem status hj hp, if_neg hne, Job.after_append_remove status hp]
    · have hother : ∀ q ∈ remaining job.pids ops, (Operation.remove pid status).status? q = none :=
        fun q hq => if_neg fun (he : pid = q) => hp (he ▸ hq)
      have hop : Operation.remove pid status ≠ .setBackground id := fun he => by cases he
      rw [hc.get?_remove_of_not_mem status hj hp, Job.after_append_of_status? hlast hother hop]
  | setBackground k =>
    obtain rfl := Option.some.inj h
    rw [get?_setBackground]
    by_cases hk : id = k
    · subst hk
      rw [if_pos rfl, hj, Option.map_some, Job.after_append_setBackground]
    · have hop : Operation.setBackground k ≠ .setBackground id := fun he => by
        cases he
        exact hk rfl
      rw [if_neg hk, hj, Job.after_append_of_status? hlast (fun _ _ => rfl) hop]

theorem performAll?_append_eq_some_iff {ops' : List Operation} :
    t.performAll? (ops ++ ops') = some t' ↔
      ∃ next, t.performAll? ops = some next ∧ next.performAll? ops' = some t' := by
  rw [performAll?, List.foldlM_append, Option.bind_eq_bind, Option.bind_eq_some_iff]
  rfl

/-- **What a job looks like** after any history that leaves it a process. -/
theorem Coherent.get?_performAll? (hc : t.Coherent) (hlast : job.last ∈ job.pids)
    (hnew : job.status = none) (hj : t.get? id = some job) (h : t.performAll? ops = some t')
    (hleft : remaining job.pids ops ≠ []) : t'.get? id = some (job.after id ops) := by
  induction ops using List.reverseRecOn generalizing t' with
  | nil =>
    obtain rfl := Option.some.inj h
    rw [hj, Job.after_nil hnew]
  | append_singleton ops op ih =>
    obtain ⟨before, hops, hone⟩ := performAll?_append_eq_some_iff.1 h
    obtain ⟨_, hop, hnil⟩ := performAll?_cons_eq_some_iff.1 hone
    obtain rfl := Option.some.inj hnil
    have hbefore := ih hops (remaining_ne_nil_of_append hleft)
    exact (hc.performAll? hops).get?_perform?_after hlast hbefore hop hleft

/-! ### Collecting one more process -/

/-- Without one of its members a list is empty only if it has no other one. -/
theorem eq_singleton_of_filter_ne_eq_nil {pids : List Pid} {pid : Pid} (hnd : pids.Nodup)
    (hp : pid ∈ pids) (h : pids.filter (· ≠ pid) = []) : pids = [pid] := by
  have hall : ∀ q ∈ pids, q = pid := by simpa using h
  have hlen : pids.length ≤ 1 := by
    rw [List.eq_replicate_of_mem hall] at hnd
    exact List.nodup_replicate.1 hnd
  rw [List.eq_replicate_of_mem hall, Nat.le_antisymm hlen (List.length_pos_of_mem hp)]
  rfl

theorem Coherent.remove_fst_of_mem (hc : t.Coherent) {pid : Pid} (status : Int)
    (hj : t.get? id = some job) (hp : pid ∈ job.pids) :
    (t.remove pid status).1 =
      if (job.collect pid status).pids = [] then some (.finished id (job.collect pid status))
      else some (.running id) := by
  rw [remove_eq status (hc.owned.2 ⟨job, hj, hp⟩) hj]
  split
  · rfl
  · rfl

/-- A job is over only through one of its own processes. -/
theorem Coherent.mem_of_remove_eq_finished (hc : t.Coherent) {pid : Pid} {status : Int}
    {finished : Job} (h : (t.remove pid status).1 = some (.finished id finished)) :
    ∃ job, t.get? id = some job ∧ pid ∈ job.pids ∧ finished = job.collect pid status ∧
      finished.pids = [] := by
  rcases hc.owner?_cases pid with ho | ⟨id', job, -, hj, hp⟩
  · rw [remove_of_owner?_eq_none status ho] at h
    cases h
  · rw [hc.remove_fst_of_mem status hj hp] at h
    split at h
    · next hnil =>
      cases h
      exact ⟨job, hj, hp, rfl, hnil⟩
    · cases h

/-- The status of a job that is over is known. -/
theorem Coherent.status_of_finished (hc : t.Coherent) {pid : Pid} {status : Int} {finished : Job}
    (h : (t.remove pid status).1 = some (.finished id finished)) :
    ∃ final, finished.status = some final := by
  obtain ⟨job, hj, -, rfl, hnil⟩ := hc.mem_of_remove_eq_finished h
  exact hc.exists_status hj hnil

end JobTable

/-! ### The table of a worker -/

/-- **Every table that a worker has is one that a history leads to.** -/
theorem Run.exists_performAll? {terminalGroup : Option Pid} {operators : OperatorSet}
    {past : Trace} {s : System} (h : Run (.initial terminalGroup operators) past s) :
    ∃ ops, JobTable.empty.performAll? ops = some s.worker.jobs := by
  induction h with
  | start => exact ⟨[], rfl⟩
  | @move past s s' e hrun m ih =>
    obtain ⟨ops, hops⟩ := ih
    -- The operation of a move, if it makes one, comes behind those that there have been.
    have hmore : ∀ op, s.worker.jobs.perform? op = some s'.worker.jobs →
        ∃ ops, JobTable.empty.performAll? ops = some s'.worker.jobs := by
      intro op hop
      refine ⟨ops ++ [op], performAll?_append_eq_some_iff.2 ⟨_, hops, ?_⟩⟩
      exact performAll?_cons_eq_some_iff.2 ⟨_, hop, rfl⟩
    rcases ((System.sound_initial terminalGroup operators).run hrun).jobs_cases m with
      h | ⟨id, h⟩ | ⟨pid, status, h⟩ | ⟨text, line, _, _, spawned, id, -, -, -, hi⟩
    · exact ⟨ops, hops.trans (congrArg some h.symm)⟩
    · exact hmore (.setBackground id) (congrArg some h.symm)
    · exact hmore (.remove pid status) (congrArg some h.symm)
    · exact hmore (.insert _ _ _ _) (congrArg (Option.map Prod.snd) hi)

/-! ### The end of a job -/

namespace JobTable

/-- **A job is over once: with its last process, and with the status of its last stage.**  A job
that is added to a table of any history stays there, whatever is done to the table, until the last
of its processes is collected; that makes its number free.  It is reported as running for every
process before, and as finished for no other one.  Its status is the one with which the last stage
was collected, be it first, last or in between, so nobody who asks for it has to do without. -/
theorem finished_at_last_process {past ops : List Operation} {t t₁ t₂ : JobTable} {line : String}
    {group last : Pid} {pids : List Pid} {background : Bool} {id : Nat}
    (hpast : empty.performAll? past = some t)
    (hnew : t.insert? line group pids background = some (id, t₁))
    (hlast : pids.getLast? = some last) (hops : t₁.performAll? ops = some t₂)
    (hleft : remaining pids ops ≠ []) :
    t₂.get? id = some
      { group, line, pids := remaining pids ops, last
        background := background || decide (.setBackground id ∈ ops)
        status := firstStatus? last ops } ∧
    (∀ pid status, pid ∈ remaining pids ops → remaining pids ops ≠ [pid] →
      (t₂.remove pid status).1 = some (.running id)) ∧
    (∀ pid status, pid ∉ remaining pids ops →
      ∀ job, (t₂.remove pid status).1 ≠ some (.finished id job)) ∧
    (∀ pid status, remaining pids ops = [pid] →
      ∃ final, firstStatus? last (ops ++ [.remove pid status]) = some final ∧
        (t₂.remove pid status).1 = some (.finished id
          { group, line, pids := [], last
            background := background || decide (.setBackground id ∈ ops)
            status := some final }) ∧
        (t₂.remove pid status).2.get? id = none ∧
        ∀ w : Worker, w.jobs = t₂ → w.foreground = some id →
          (w.processEnded pid status).1.status = final ∧
          Output.replies (w.processEnded pid status).2 = [.resume final]) ∧
    ∀ (terminalGroup : Option Pid) (operators : OperatorSet) (trace : Trace) (s : System),
      Run (.initial terminalGroup operators) trace s →
        (∃ ops, empty.performAll? ops = some s.worker.jobs) ∧
        ∀ pid status id job, (s.worker.jobs.remove pid status).1 = some (.finished id job) →
          ∃ final, job.status = some final := by
  have hmem : last ∈ pids := List.mem_of_getLast? hlast
  obtain ⟨_, -, hnd, -⟩ := insert?_eq_some_iff.1 hnew
  have hc₁ := (coherent_of_performAll? hpast).insert? hnew
  have hc := hc₁.performAll? hops
  have hj₁ : t₁.get? id = some { group, line, pids, last, background, status := none } := by
    rw [get?_insert? hnew hlast, if_pos rfl]
  have hj := hc₁.get?_performAll? hmem rfl hj₁ hops hleft
  refine ⟨hj, fun pid status hp hne => ?_, fun pid status hp job hfinished => ?_,
    fun pid status he => ?_, fun terminalGroup operators trace s hrun => ?_⟩
  · rw [hc.remove_fst_of_mem status hj hp, if_neg]
    exact fun hnil => hne (eq_singleton_of_filter_ne_eq_nil (hnd.filter _) hp hnil)
  · obtain ⟨before, hbefore, hp', -⟩ := hc.mem_of_remove_eq_finished hfinished
    obtain rfl := Option.some.inj (hj.symm.trans hbefore)
    exact hp hp'
  · have hp : pid ∈ remaining pids ops := he ▸ List.mem_singleton_self pid
    have hnil : (remaining pids ops).filter (· ≠ pid) = [] := by simp [he]
    have hremove := (hc.remove_fst_of_mem status hj hp).trans (if_pos hnil)
    -- The job has a status when it goes, and by its history this is that of the last stage.
    obtain ⟨final, hfinal⟩ := hc.status_of_finished hremove
    have hcollect : (Job.mk group line pids last background none).after id
        (ops ++ [.remove pid status]) = _ := Job.after_append_remove status hp
    refine ⟨final, (congrArg Job.status hcollect).trans hfinal, ?_, ?_, fun w hw hf => ?_⟩
    · rw [hremove, ← hfinal, ← hnil]
      rfl
    · exact (hc.get?_remove_of_mem status hj hp).trans (if_pos hnil)
    · subst hw
      obtain ⟨-, -, ⟨id', job', hf', hj', -, -, -, hs, hr⟩ | ⟨hne, -⟩⟩ :=
        Worker.processEnded_cases hc pid status
      · obtain rfl := Option.some.inj (hf.symm.trans hf')
        obtain rfl := Option.some.inj (hj.symm.trans hj')
        rw [hs, hr, hfinal]
        exact ⟨rfl, rfl⟩
      · exact absurd hnil (hne id _ hf hj hp)
  · obtain ⟨ops, hops⟩ := hrun.exists_performAll?
    exact ⟨⟨ops, hops⟩, fun pid status id job h =>
      (coherent_of_performAll? hops).status_of_finished h⟩

/-- The last stage is collected first.  Its process is started again for another job and collected
a second time before the first job is over. -/
theorem finished_after_reuse : ∃ t t₁ t₂ : JobTable,
    empty.performAll? [.insert "z" 5 [5] true] = some t ∧
      t.insert? "a | b | c" 10 [10, 11, 12] false = some (2, t₁) ∧
      t₁.performAll? [.remove 12 3, .insert "d" 12 [12] true, .remove 12 7, .setBackground 2,
        .remove 5 0, .insert "e" 14 [14] true, .remove 10 0] = some t₂ ∧
      t₂.get? 2 = some ⟨10, "a | b | c", [11], 12, true, some 3⟩ ∧
      (t₂.remove 14 0).1 ≠ some (.finished 2 ⟨10, "a | b | c", [], 12, true, some 3⟩) ∧
      (t₂.remove 11 9).1 = some (.finished 2 ⟨10, "a | b | c", [], 12, true, some 3⟩) ∧
      (t₂.remove 11 9).2.get? 2 = none := by
  have hpast : empty.performAll? [.insert "z" 5 [5] true] =
      some ⟨[(1, ⟨5, "z", [5], 5, true, none⟩)], [(5, 1)]⟩ := rfl
  have hnew : insert? ⟨[(1, ⟨5, "z", [5], 5, true, none⟩)], [(5, 1)]⟩ "a | b | c" 10 [10, 11, 12]
      false = some (2, ⟨[(1, ⟨5, "z", [5], 5, true, none⟩),
        (2, ⟨10, "a | b | c", [10, 11, 12], 12, false, none⟩)],
          [(5, 1), (10, 2), (11, 2), (12, 2)]⟩) := rfl
  have hops : performAll? ⟨[(1, ⟨5, "z", [5], 5, true, none⟩),
      (2, ⟨10, "a | b | c", [10, 11, 12], 12, false, none⟩)], [(5, 1), (10, 2), (11, 2), (12, 2)]⟩
        [.remove 12 3, .insert "d" 12 [12] true, .remove 12 7, .setBackground 2, .remove 5 0,
          .insert "e" 14 [14] true, .remove 10 0] = some _ := rfl
  obtain ⟨hget, -, hother, hlast, -⟩ := finished_at_last_process hpast hnew rfl hops (by decide)
  obtain ⟨final, hfinal, hfinished, hfree, -⟩ := hlast 11 9 (by decide)
  obtain rfl : 3 = final := Option.some.inj hfinal
  exact ⟨_, _, _, hpast, hnew, hops, hget, hother 14 0 (by decide) _, hfinished, hfree⟩

end JobTable

end PipelineShell
