/-
Tables of jobs that a history of operations leads to.

A table is only ever changed by adding a job, by collecting a process and by
moving a job to the background, and it is empty at first.  So whatever every
operation keeps holds of every table that there is, however often numbers and
processes have been used again.

* `coherent_of_performAll?` — every such table is coherent;
* `Coherent.insert?_eq_none_iff`, `Coherent.remove_eq_none_iff` — when an
  operation is refused or finds nothing to do;
* `representation_of_performAll?` — what the index, the jobs and the two
  operations have to do with each other, for every such table;
* `search_freshId` — trying one number after the other, without an end, comes to
  the number of a new job;
* `insert?_least` — this is the least free one, and adding a job changes nothing
  else.

Design notes: a refused operation ends a history (`perform?`), as nobody goes on
with a table in which a job has been entered in part.
-/
import Mathlib.Order.Bounds.Basic
import PipelineShell.Proofs.JobTable

namespace PipelineShell

namespace JobTable

/-! ### Histories -/

/-- What is done to a table. -/
inductive Operation where
  | insert (line : String) (group : Pid) (pids : List Pid) (background : Bool)
  | remove (pid : Pid) (status : Int)
  | setBackground (id : Nat)
deriving DecidableEq, Repr

/-- The table after an operation, unless it is refused. -/
def perform? (t : JobTable) : Operation → Option JobTable
  | .insert line group pids background => (t.insert? line group pids background).map (·.2)
  | .remove pid status => some (t.remove pid status).2
  | .setBackground id => some (t.setBackground id)

/-- The table after some operations, unless one of them is refused. -/
def performAll? (t : JobTable) (ops : List Operation) : Option JobTable := ops.foldlM perform? t

theorem performAll?_cons_eq_some_iff {t t' : JobTable} {op : Operation} {ops : List Operation} :
    t.performAll? (op :: ops) = some t' ↔
      ∃ next, t.perform? op = some next ∧ next.performAll? ops = some t' := by
  rw [performAll?, List.foldlM_cons, Option.bind_eq_bind, Option.bind_eq_some_iff]
  rfl

variable {t t' : JobTable}

theorem Coherent.perform? {op : Operation} (hc : t.Coherent) (h : t.perform? op = some t') :
    t'.Coherent := by
  cases op with
  | insert line group pids background =>
    obtain ⟨⟨id, next⟩, hi, rfl⟩ := Option.map_eq_some_iff.1 h
    exact hc.insert? hi
  | remove pid status =>
    obtain rfl := Option.some.inj h
    exact hc.remove pid status
  | setBackground id =>
    obtain rfl := Option.some.inj h
    exact hc.setBackground id

theorem Coherent.performAll? : ∀ {ops : List Operation} {t : JobTable},
    t.Coherent → t.performAll? ops = some t' → t'.Coherent
  | [], _, hc, h => Option.some.inj h ▸ hc
  | _ :: _, _, hc, h => by
    obtain ⟨next, hop, hops⟩ := performAll?_cons_eq_some_iff.1 h
    exact (hc.perform? hop).performAll? hops

theorem coherent_of_performAll? {ops : List Operation} (h : empty.performAll? ops = some t) :
    t.Coherent :=
  coherent_empty.performAll? h

/-! ### What is refused and what is not found -/

/-- A process is in the index exactly if some job has it. -/
theorem Coherent.owner?_eq_none_iff (hc : t.Coherent) {pid : Pid} :
    t.owner? pid = none ↔ ∀ id job, t.get? id = some job → pid ∉ job.pids := by
  constructor
  · intro ho id job hj hp
    exact absurd (ho.symm.trans (hc.owned.2 ⟨job, hj, hp⟩)) (by simp)
  · intro h
    rcases hc.owner?_cases pid with ho | ⟨id, job, -, hj, hp⟩
    · exact ho
    · exact absurd hp (h id job hj)

/-- A job is refused exactly if it has no process, the same process twice, or a process that
another job has. -/
theorem Coherent.insert?_eq_none_iff (hc : t.Coherent) {line : String} {group : Pid}
    {pids : List Pid} {background : Bool} :
    t.insert? line group pids background = none ↔
      pids = [] ∨ ¬ pids.Nodup ∨
        ∃ pid ∈ pids, ∃ id job, t.get? id = some job ∧ pid ∈ job.pids := by
  constructor
  · intro h
    by_contra hno
    simp only [not_or, not_not, not_exists, not_and] at hno
    obtain ⟨hne, hnd, hnew⟩ := hno
    have hfree : ∀ pid ∈ pids, t.owner? pid = none :=
      fun pid hp => hc.owner?_eq_none_iff.2 (hnew pid hp)
    obtain ⟨id, next, hi⟩ := exists_insert? hne hnd hfree line group background
    exact absurd (h.symm.trans hi) (by simp)
  · intro h
    cases hi : t.insert? line group pids background with
    | none => rfl
    | some entry =>
      obtain ⟨id, next⟩ := entry
      obtain ⟨last, hl, hnd, hnew, -⟩ := insert?_eq_some_iff.1 hi
      rcases h with rfl | hdup | ⟨pid, hp, id, job, hj, hmem⟩
      · cases hl
      · exact absurd hnd hdup
      · exact absurd hmem (hc.owner?_eq_none_iff.1 (hnew pid hp) id job hj)

/-- Nothing is found exactly if nobody has the process. -/
theorem Coherent.remove_eq_none_iff (hc : t.Coherent) {pid : Pid} {status : Int} :
    (t.remove pid status).1 = none ↔ t.owner? pid = none := by
  rcases hc.owner?_cases pid with ho | ⟨id, job, ho, hj, -⟩
  · exact iff_of_true (by rw [remove_of_owner?_eq_none status ho]) ho
  · refine iff_of_false ?_ (by simp [ho])
    rw [remove_eq status ho hj]
    split <;> simp

/-- **The two views of a table agree after every history.**  The index gives a job for a process
exactly if this job has the process; every job has a positive number and a process, no two jobs
share one, and the status of a job is known exactly if its last stage has been collected; a job is
refused exactly if it has no process, one of them twice, or one that is taken; and collecting a
process finds nothing, and changes nothing, exactly if no job has it. -/
theorem representation_of_performAll? {ops : List Operation}
    (h : empty.performAll? ops = some t) :
    (∀ pid id, t.owner? pid = some id ↔ ∃ job, t.get? id = some job ∧ pid ∈ job.pids) ∧
    (∀ id job, t.get? id = some job →
      1 ≤ id ∧ job.pids ≠ [] ∧ (job.status.isSome ↔ job.last ∉ job.pids)) ∧
    (∀ id job id' job', t.get? id = some job → t.get? id' = some job' → id ≠ id' →
      job.pids.Disjoint job'.pids) ∧
    (∀ line group pids background, t.insert? line group pids background = none ↔
      pids = [] ∨ ¬ pids.Nodup ∨
        ∃ pid ∈ pids, ∃ id job, t.get? id = some job ∧ pid ∈ job.pids) ∧
    ∀ pid status,
      ((t.remove pid status).1 = none ↔ ∀ id job, t.get? id = some job → pid ∉ job.pids) ∧
      ((t.remove pid status).1 = none → (t.remove pid status).2 = t) := by
  have hc := coherent_of_performAll? h
  refine ⟨fun pid id => hc.owned, fun id job hj => ?_, ?_, ?_, fun pid status => ⟨?_, ?_⟩⟩
  · exact ⟨hc.positive hj, hc.inhabited hj, hc.status hj⟩
  · intro id job id' job' hj hj' hne pid hp hp'
    exact hne (hc.eq_of_mem hj hj' hp hp')
  · exact fun line group pids background => hc.insert?_eq_none_iff
  · rw [hc.remove_eq_none_iff, hc.owner?_eq_none_iff]
  · intro hnone
    rw [remove_of_owner?_eq_none status (hc.remove_eq_none_iff.1 hnone)]

/-- A process of a job that is still there is collected and started again for another one. -/
theorem representation_of_reused_process : ∃ t : JobTable,
    empty.performAll? [.insert "a | b" 10 [10, 11] false, .remove 11 3, .setBackground 1,
        .insert "c" 11 [11] true, .remove 99 0] = some t ∧
      t.owner? 11 = some 2 ∧
      (∃ job, t.get? 1 = some job ∧ job.pids = [10] ∧ job.status = some 3) ∧
      t.insert? "d" 11 [11] true = none ∧
      (t.remove 12 0).2 = t := by
  have h : empty.performAll? [.insert "a | b" 10 [10, 11] false, .remove 11 3, .setBackground 1,
      .insert "c" 11 [11] true, .remove 99 0] = some _ := rfl
  obtain ⟨hindex, -, -, hrefused, hcollected⟩ := representation_of_performAll? h
  refine ⟨_, h, ?_⟩
  refine ⟨(hindex 11 2).2 ⟨_, rfl, by decide⟩, ⟨_, rfl, rfl, rfl⟩, ?_, ?_⟩
  · exact (hrefused "d" 11 [11] true).2 (.inr (.inr ⟨11, by decide, 2, _, rfl, by decide⟩))
  · exact (hcollected 12 0).2 rfl

/-! ### The number of a new job -/

/-- Trying one number after the other, from the first one on, ends at one that is free. -/
inductive Search (t : JobTable) : Nat → Nat → Prop
  | free {id : Nat} (h : t.get? id = none) : Search t id id
  | taken {id found : Nat} (h : t.get? id ≠ none) (rest : Search t (id + 1) found) :
      Search t id found

theorem Search.isLeast {first found : Nat} (h : t.Search first found) :
    IsLeast {id | first ≤ id ∧ t.get? id = none} found := by
  induction h with
  | free h => exact ⟨⟨Nat.le_refl _, h⟩, fun _ hk => hk.1⟩
  | @taken id found h rest ih =>
    obtain ⟨⟨hle, hfree⟩, hleast⟩ := ih
    refine ⟨⟨Nat.le_of_succ_le hle, hfree⟩, fun k hk => hleast ⟨?_, hk.2⟩⟩
    have hne : id ≠ k := fun e => h (e ▸ hk.2)
    exact Nat.lt_of_le_of_ne hk.1 hne

/-- The search ends if some number is free at all. -/
theorem search_of_isLeast {first found : Nat}
    (h : IsLeast {id | first ≤ id ∧ t.get? id = none} found) : t.Search first found := by
  obtain ⟨⟨hle, hfree⟩, hleast⟩ := h
  by_cases hfirst : t.get? first = none
  · obtain rfl : first = found := Nat.le_antisymm hle (hleast ⟨Nat.le_refl _, hfirst⟩)
    exact .free hfirst
  · have hlt : first < found := Nat.lt_of_le_of_ne hle fun e => hfirst (e ▸ hfree)
    exact .taken hfirst (search_of_isLeast
      ⟨⟨hlt, hfree⟩, fun k hk => hleast ⟨Nat.le_of_succ_le hk.1, hk.2⟩⟩)
termination_by found - first

/-- The search needs no bound: it ends where the bounded one does. -/
theorem search_freshId (t : JobTable) : t.Search 1 t.freshId := by
  obtain ⟨hpos, hfree⟩ := t.get?_freshId
  obtain ⟨-, -, htaken⟩ := List.find?_range'_eq_some.1 t.find?_freshId
  refine search_of_isLeast ⟨⟨hpos, hfree⟩, fun k hk => ?_⟩
  by_contra hlt
  have hcontains : t.contains k = true := by simpa using htaken k hk.1 (Nat.not_le.1 hlt)
  rw [contains, hk.2] at hcontains
  cases hcontains

theorem freshId_le (t : JobTable) : t.freshId ≤ t.size + 1 := by
  obtain ⟨-, hmem, -⟩ := List.find?_range'_eq_some.1 t.find?_freshId
  have hlt := (List.mem_range'_1.1 hmem).2
  omega

theorem length_place {id : Nat} {job : Job} : ∀ {l : List (Nat × Job)},
    (place id job l).length = l.length + 1
  | [] => rfl
  | entry :: l => by
    rw [place]
    split
    · rfl
    · rw [List.length_cons, length_place, List.length_cons]

/-- **A new job gets the least free number.**  Trying one number after the other comes to an end,
and to no other number than this one.  It is positive, no job has it and every smaller one is taken;
so it is at most one more than there are jobs.  The job is there under its number afterwards, and
nothing else has changed, neither another job nor what the index has for another process. -/
theorem insert?_least {id : Nat} {line : String} {group : Pid} {pids : List Pid}
    {background : Bool} (h : t.insert? line group pids background = some (id, t')) :
    (∀ found, t.Search 1 found ↔ found = id) ∧
      IsLeast {k | 1 ≤ k ∧ t.get? k = none} id ∧ id ≤ t.size + 1 ∧ id ≠ 0 ∧
      t'.size = t.size + 1 ∧
      (∃ last, pids.getLast? = some last ∧
        t'.get? id = some { group, line, pids, last, background, status := none }) ∧
      (∀ k, k ≠ id → t'.get? k = t.get? k) ∧
      (∀ pid ∈ pids, t'.owner? pid = some id) ∧
      ∀ pid, pid ∉ pids → t'.owner? pid = t.owner? pid := by
  obtain ⟨last, hl, -, -, rfl, ht'⟩ := insert?_eq_some_iff.1 h
  have hget := get?_insert? h hl
  have howner := owner?_insert? h
  have hsearch := t.search_freshId
  refine ⟨fun found => ⟨fun hfound => hfound.isLeast.unique hsearch.isLeast, ?_⟩,
    hsearch.isLeast, t.freshId_le, Nat.ne_zero_of_lt t.get?_freshId.1, ?_,
    ⟨last, hl, (hget _).trans (if_pos rfl)⟩, fun k hk => (hget k).trans (if_neg hk),
    fun pid hp => (howner pid).trans (if_pos hp), fun pid hp => (howner pid).trans (if_neg hp)⟩
  · rintro rfl
    exact hsearch
  · rw [ht']
    exact length_place

/-- The second of three jobs is over, and its number is the first to be free. -/
theorem insert?_least_between : ∃ t t' : JobTable,
    empty.performAll? [.insert "a" 10 [10] true, .insert "b" 20 [20] true,
        .insert "c" 30 [30] true, .remove 20 0] = some t ∧
      t.insert? "d | e" 40 [40, 41] false = some (2, t') ∧
      t.Search 1 2 ∧ 2 ≤ t.size + 1 ∧ t'.size = 3 ∧ t'.get? 3 = t.get? 3 ∧
      t'.owner? 41 = some 2 ∧ t'.owner? 30 = t.owner? 30 := by
  have hpast : empty.performAll? [.insert "a" 10 [10] true, .insert "b" 20 [20] true,
      .insert "c" 30 [30] true, .remove 20 0] =
        some ⟨[(1, ⟨10, "a", [10], 10, true, none⟩), (3, ⟨30, "c", [30], 30, true, none⟩)],
          [(10, 1), (30, 3)]⟩ := rfl
  have h : insert? ⟨[(1, ⟨10, "a", [10], 10, true, none⟩), (3, ⟨30, "c", [30], 30, true, none⟩)],
      [(10, 1), (30, 3)]⟩ "d | e" 40 [40, 41] false = some (2, _) := rfl
  obtain ⟨hsearch, -, hle, -, hsize, -, hjobs, hnew, hold⟩ := insert?_least h
  exact ⟨_, _, hpast, h, (hsearch 2).2 rfl, hle, hsize, hjobs 3 (by decide),
    hnew 41 (by decide), hold 30 (by decide)⟩

end JobTable

end PipelineShell
