/-
What the table of jobs always knows about its processes.

The table holds the same facts twice, by job and by process, and an operation
changes both.  `Coherent` says how the two agree; it holds of the empty table
and every operation keeps it.  What an operation does is said through the two
views `get?` and `owner?`, so that nothing else has to look into the lists.

* `coherent_empty`, `Coherent.insert?`, `Coherent.remove`,
  `Coherent.setBackground` — the invariant;
* `insert?_eq_some_iff`, `get?_insert?`, `owner?_insert?` — a job is added if
  its processes are new, and it is the only thing that changes;
* `get?_remove`, `Coherent.owner?_remove` — a process is taken from its job, and
  the job goes with its last process.

Design notes: `freshId` looks only at the first `size + 1` numbers.  That one
of them is free is a count: the taken ones lie within the numbers of the table,
and those are too few (`find?_freshId`).
-/
import Mathlib.Data.List.Nodup
import Mathlib.Data.List.Perm.Subperm
import PipelineShell.JobTable

namespace PipelineShell

theorem Job.mem_pids_collect {job : Job} {pid q : Pid} {status : Int} :
    q ∈ (job.collect pid status).pids ↔ q ∈ job.pids ∧ q ≠ pid := by
  simp [Job.collect]

namespace JobTable

theorem isEmpty_iff {t : JobTable} : t.isEmpty = true ↔ t.jobs = [] := List.isEmpty_iff

theorem isEmpty_eq_false_iff {t : JobTable} : t.isEmpty = false ↔ t.jobs ≠ [] :=
  List.isEmpty_eq_false_iff

/-! ### Looking up in lists -/

theorem lookup_filter_ne {κ β : Type} [DecidableEq κ] (l : List (κ × β)) (a k : κ) :
    (l.filter fun entry => entry.1 ≠ a).lookup k = if k = a then none else l.lookup k := by
  induction l with
  | nil => simp
  | cons entry l ih =>
    obtain ⟨b, v⟩ := entry
    rcases Decidable.eq_or_ne b a with rfl | hb
    · rw [List.filter_cons_of_neg (by simp), ih]
      by_cases hk : k = b
      · rw [if_pos hk, if_pos hk]
      · rw [if_neg hk, if_neg hk, List.lookup_cons, beq_false_of_ne hk]
    · rw [List.filter_cons_of_pos (by simpa using hb), List.lookup_cons, List.lookup_cons, ih]
      by_cases hk : k = b
      · subst hk
        simp [hb]
      · simp [beq_false_of_ne hk]

theorem lookup_map_update {β : Type} (l : List (Nat × β)) (id k : Nat) (f : β → β) :
    (l.map fun entry => if entry.1 = id then (id, f entry.2) else entry).lookup k
      = if k = id then (l.lookup id).map f else l.lookup k := by
  induction l with
  | nil => simp
  | cons entry l ih =>
    obtain ⟨b, v⟩ := entry
    rw [List.map_cons, List.lookup_cons, List.lookup_cons, List.lookup_cons, ih]
    by_cases hb : b = id <;> by_cases hk : k = id
    · subst hb hk
      simp
    · subst hb
      simp [hk, beq_false_of_ne hk]
    · subst hk
      simp [hb, beq_false_of_ne (Ne.symm hb)]
    · simp [hb, hk]

theorem lookup_place {job : Job} {id : Nat} : ∀ {l : List (Nat × Job)} (k : Nat),
    l.lookup id = none → (place id job l).lookup k = if k = id then some job else l.lookup k
  | [], k, _ => by
    by_cases hk : k = id <;> simp [place, hk]
  | (b, v) :: l, k, h => by
    have hb : id ≠ b := by
      rintro rfl
      simp at h
    rw [List.lookup_cons, beq_false_of_ne hb] at h
    rw [place]
    split
    · by_cases hk : k = id
      · simp [hk]
      · rw [List.lookup_cons, beq_false_of_ne hk, if_neg hk]
    · rw [List.lookup_cons, List.lookup_cons, lookup_place k h]
      by_cases hk : k = id
      · subst hk
        simp [beq_false_of_ne hb]
      · simp [hk]

theorem lookup_map_const {β : Type} (pids : List Pid) (b : β) (pid : Pid) :
    (pids.map (·, b)).lookup pid = if pid ∈ pids then some b else none := by
  induction pids with
  | nil => simp
  | cons p pids ih =>
    rw [List.map_cons, List.lookup_cons, ih]
    by_cases hp : pid = p
    · simp [hp]
    · simp [hp, beq_false_of_ne hp]

/-! ### The views of the single operations -/

variable {t : JobTable} {pid : Pid} {id : Nat} {job : Job}

theorem get?_update (t : JobTable) (id k : Nat) (f : Job → Job) :
    (t.update id f).get? k = if k = id then (t.get? id).map f else t.get? k :=
  lookup_map_update t.jobs id k f

theorem get?_setBackground (t : JobTable) (id k : Nat) :
    (t.setBackground id).get? k =
      if k = id then (t.get? id).map fun job => { job with background := true } else t.get? k :=
  get?_update t id k _

@[simp] theorem owner?_setBackground (t : JobTable) (id : Nat) (pid : Pid) :
    (t.setBackground id).owner? pid = t.owner? pid := rfl

theorem get?_eraseJob (t : JobTable) (id k : Nat) :
    (t.eraseJob id).get? k = if k = id then none else t.get? k :=
  lookup_filter_ne t.jobs id k

/-- One of the numbers that are tried is free, so the number of a new job is found among them. -/
theorem find?_freshId (t : JobTable) :
    (List.range' 1 (t.size + 1)).find? (fun id => !t.contains id) = some t.freshId := by
  have hfree : ∃ id ∈ List.range' 1 (t.size + 1), t.contains id = false := by
    by_contra hno
    -- All of these numbers would be taken, and they are one more than there are jobs.
    have hsub : List.range' 1 (t.size + 1) ⊆ t.jobs.map Prod.fst := by
      intro id hid
      have hc : t.contains id = true := by
        by_contra hc
        exact hno ⟨id, hid, by simpa using hc⟩
      obtain ⟨entry, hmem, he⟩ := List.lookup_isSome_iff.1 hc
      exact List.mem_map.2 ⟨entry, hmem, (by simpa using he : id = entry.1).symm⟩
    have hle := (List.subperm_of_subset List.nodup_range' hsub).length_le
    rw [List.length_range', List.length_map] at hle
    exact absurd hle (by unfold size; omega)
  obtain ⟨id, hid, hc⟩ := hfree
  obtain ⟨found, hf⟩ : ∃ found,
      (List.range' 1 (t.size + 1)).find? (fun id => !t.contains id) = some found :=
    Option.isSome_iff_exists.1 (List.find?_isSome.2 ⟨id, hid, by simp [hc]⟩)
  rw [freshId, hf, Option.getD_some]

/-- The number for a new job is positive and no job has it. -/
theorem get?_freshId (t : JobTable) : 1 ≤ t.freshId ∧ t.get? t.freshId = none := by
  obtain ⟨hfree, hmem, -⟩ := List.find?_range'_eq_some.1 t.find?_freshId
  exact ⟨(List.mem_range'_1.1 hmem).1, by simpa [contains] using hfree⟩

theorem register_eq_some_iff {id : Nat} : ∀ {pids : List Pid} {owners owners' : List (Pid × Nat)},
    register id pids owners = some owners' ↔
      pids.Nodup ∧ (∀ pid ∈ pids, owners.lookup pid = none) ∧ owners' = owners ++ pids.map (·, id)
  | [], owners, owners' => by
    rw [register]
    constructor
    · rintro ⟨⟩
      simp
    · rintro ⟨-, -, rfl⟩
      simp
  | p :: pids, owners, owners' => by
    rw [register]
    by_cases hp : (owners.lookup p).isSome = true
    · rw [if_pos hp]
      refine ⟨fun h => by simp at h, fun ⟨_, h, _⟩ => ?_⟩
      rw [h p List.mem_cons_self] at hp
      simp at hp
    · rw [if_neg hp, register_eq_some_iff, List.nodup_cons]
      have hp : owners.lookup p = none := by rwa [Bool.not_eq_true, Option.isSome_eq_false_iff,
        Option.isNone_iff_eq_none] at hp
      -- Once `p` is in the index, the others may not be `p` either.
      have hlook : ∀ q, (owners ++ [(p, id)]).lookup q = none ↔ q ≠ p ∧ owners.lookup q = none := by
        intro q
        rw [List.lookup_append, List.lookup_cons, List.lookup_nil]
        by_cases hq : q = p
        · subst hq
          rw [hp]
          simp
        · rw [beq_false_of_ne hq, Option.or_none]
          exact (and_iff_right hq).symm
      simp only [hlook, List.mem_cons, List.map_cons, forall_eq_or_imp, List.append_assoc,
        List.singleton_append]
      constructor
      · rintro ⟨hnd, hall, rfl⟩
        exact ⟨⟨fun hmem => (hall p hmem).1 rfl, hnd⟩, ⟨hp, fun q hq => (hall q hq).2⟩, rfl⟩
      · rintro ⟨⟨hnot, hnd⟩, ⟨-, hall⟩, rfl⟩
        exact ⟨hnd, fun q hq => ⟨fun e => hnot (e ▸ hq), hall q hq⟩, rfl⟩

/-- A job is added exactly if it has processes, no two of them are the same, and none of them
belongs to a job. -/
theorem insert?_eq_some_iff {line : String} {group : Pid} {pids : List Pid} {background : Bool}
    {t' : JobTable} :
    t.insert? line group pids background = some (id, t') ↔
      ∃ last, pids.getLast? = some last ∧ pids.Nodup ∧ (∀ pid ∈ pids, t.owner? pid = none) ∧
        id = t.freshId ∧
        t' = ⟨place id { group, line, pids, last, background, status := none } t.jobs,
          t.owners ++ pids.map (·, id)⟩ := by
  rw [insert?]
  cases hl : pids.getLast? with
  | none => simp
  | some last =>
    simp only [Option.bind_eq_bind, Option.bind_some, Option.bind_eq_some_iff,
      register_eq_some_iff, Option.pure_def, Option.some.injEq, Prod.mk.injEq, owner?]
    constructor
    · rintro ⟨owners, ⟨hnd, hall, rfl⟩, rfl, rfl⟩
      exact ⟨last, rfl, hnd, hall, rfl, rfl⟩
    · rintro ⟨_, rfl, hnd, hall, rfl, rfl⟩
      exact ⟨_, ⟨hnd, hall, rfl⟩, rfl, rfl⟩

theorem exists_insert? {pids : List Pid} (hne : pids ≠ []) (hnd : pids.Nodup)
    (hnew : ∀ pid ∈ pids, t.owner? pid = none) (line : String) (group : Pid) (background : Bool) :
    ∃ id t', t.insert? line group pids background = some (id, t') :=
  ⟨_, _, insert?_eq_some_iff.2
    ⟨pids.getLast hne, List.getLast?_eq_some_getLast hne, hnd, hnew, rfl, rfl⟩⟩

section insertion

variable {line : String} {group last : Pid} {pids : List Pid} {background : Bool} {t' : JobTable}

theorem get?_insert? (h : t.insert? line group pids background = some (id, t'))
    (hl : pids.getLast? = some last) (k : Nat) :
    t'.get? k = if k = id then some { group, line, pids, last, background, status := none }
      else t.get? k := by
  obtain ⟨last', hl', -, -, rfl, rfl⟩ := insert?_eq_some_iff.1 h
  obtain rfl : last = last' := Option.some.inj (hl.symm.trans hl')
  exact lookup_place k t.get?_freshId.2

theorem owner?_insert? (h : t.insert? line group pids background = some (id, t')) (pid : Pid) :
    t'.owner? pid = if pid ∈ pids then some id else t.owner? pid := by
  obtain ⟨_, -, -, hall, rfl, rfl⟩ := insert?_eq_some_iff.1 h
  rw [owner?, List.lookup_append, lookup_map_const]
  by_cases hp : pid ∈ pids
  · have hnone : t.owners.lookup pid = none := hall pid hp
    rw [hnone, if_pos hp, if_pos hp, Option.none_or]
  · rw [if_neg hp, if_neg hp, Option.or_none, owner?]

end insertion

/-! ### The invariant -/

/-- The two views of a table agree, and its jobs are what they should be. -/
structure Coherent (t : JobTable) : Prop where
  ascending : (t.jobs.map Prod.fst).Pairwise (· < ·)
  positive : ∀ {id : Nat} {job : Job}, t.get? id = some job → 1 ≤ id
  /-- A process is in the index for a job exactly if the job has it. -/
  owned : ∀ {pid : Pid} {id : Nat},
    t.owner? pid = some id ↔ ∃ job, t.get? id = some job ∧ pid ∈ job.pids
  inhabited : ∀ {id : Nat} {job : Job}, t.get? id = some job → job.pids ≠ []
  /-- The status is known once the last stage has been collected. -/
  status : ∀ {id : Nat} {job : Job}, t.get? id = some job →
    (job.status.isSome ↔ job.last ∉ job.pids)

theorem coherent_empty : empty.Coherent where
  ascending := by simp [empty]
  positive h := by simp [empty, get?] at h
  owned := by simp [empty, owner?, get?]
  inhabited h := by simp [empty, get?] at h
  status h := by simp [empty, get?] at h

/-- With its last process the status of a job is known. -/
theorem Coherent.exists_status (h : t.Coherent) (hj : t.get? id = some job) {status : Int}
    (hnil : (job.collect pid status).pids = []) :
    ∃ final, (job.collect pid status).status = some final := by
  by_cases hlast : pid = job.last
  · exact ⟨status, if_pos hlast⟩
  -- Otherwise the last stage has been collected before.
  have hnot : job.last ∉ job.pids := fun hmem => by
    have hmem' : job.last ∈ (job.collect pid status).pids :=
      Job.mem_pids_collect.2 ⟨hmem, Ne.symm hlast⟩
    rw [hnil] at hmem'
    cases hmem'
  obtain ⟨final, hfinal⟩ := Option.isSome_iff_exists.1 ((h.status hj).2 hnot)
  exact ⟨final, (if_neg hlast).trans hfinal⟩

/-- No two jobs have a process in common. -/
theorem Coherent.eq_of_mem (h : t.Coherent) {id' : Nat} {job' : Job} (hj : t.get? id = some job)
    (hj' : t.get? id' = some job') (hp : pid ∈ job.pids) (hp' : pid ∈ job'.pids) : id = id' :=
  Option.some.inj ((h.owned.2 ⟨job, hj, hp⟩).symm.trans (h.owned.2 ⟨job', hj', hp'⟩))

theorem mem_keys_place {k : Nat} : ∀ {l : List (Nat × Job)},
    k ∈ (place id job l).map Prod.fst ↔ k = id ∨ k ∈ l.map Prod.fst
  | [] => by simp [place]
  | entry :: l => by
    rw [place]
    split
    · rw [List.map_cons, List.mem_cons]
    · rw [List.map_cons, List.mem_cons, mem_keys_place, List.map_cons, List.mem_cons]
      exact or_left_comm

theorem pairwise_place : ∀ {l : List (Nat × Job)}, l.lookup id = none →
    (l.map Prod.fst).Pairwise (· < ·) → ((place id job l).map Prod.fst).Pairwise (· < ·)
  | [], _, _ => by simp [place]
  | (b, v) :: l, h, hl => by
    have hb : id ≠ b := by
      rintro rfl
      simp at h
    rw [List.lookup_cons, beq_false_of_ne hb] at h
    rw [List.map_cons, List.pairwise_cons] at hl
    rw [place]
    split
    · next hlt =>
      rw [List.map_cons, List.pairwise_cons, List.map_cons, List.pairwise_cons]
      refine ⟨fun k hk => ?_, hl⟩
      rcases List.mem_cons.1 hk with rfl | hk
      · exact hlt
      · exact Nat.lt_trans hlt (hl.1 k hk)
    · next hnot =>
      rw [List.map_cons, List.pairwise_cons]
      refine ⟨fun k hk => ?_, pairwise_place h hl.2⟩
      rcases mem_keys_place.1 hk with rfl | hk
      · exact Nat.lt_of_le_of_ne (Nat.not_lt.1 hnot) (Ne.symm hb)
      · exact hl.1 k hk

theorem Coherent.insert? {line : String} {group : Pid} {pids : List Pid} {background : Bool}
    {t' : JobTable} (hc : t.Coherent)
    (h : t.insert? line group pids background = some (id, t')) : t'.Coherent := by
  obtain ⟨last, hl, -, hnew, hid, ht'⟩ := insert?_eq_some_iff.1 h
  have hget := get?_insert? h hl
  have howner := owner?_insert? h
  have hfresh := hid ▸ t.get?_freshId
  have hlast : last ∈ pids := List.mem_of_getLast? hl
  have hcases : ∀ {k : Nat} {job : Job}, t'.get? k = some job →
      (k = id ∧ job = { group, line, pids, last, background, status := none }) ∨
        t.get? k = some job := by
    intro k job hj
    rw [hget] at hj
    split at hj
    · next hk => exact .inl ⟨hk, (Option.some.inj hj).symm⟩
    · exact .inr hj
  constructor
  case ascending => exact ht' ▸ pairwise_place hfresh.2 hc.ascending
  case positive =>
    intro k job hj
    rcases hcases hj with ⟨rfl, -⟩ | hj
    · exact hfresh.1
    · exact hc.positive hj
  case owned =>
    intro pid k
    rw [howner, hget]
    by_cases hp : pid ∈ pids
    · rw [if_pos hp]
      constructor
      · rintro ⟨⟩
        exact ⟨_, if_pos rfl, hp⟩
      · rintro ⟨job, hj, hmem⟩
        by_cases hk : k = id
        · rw [hk]
        · rw [if_neg hk] at hj
          exact absurd ((hnew pid hp).symm.trans (hc.owned.2 ⟨job, hj, hmem⟩)) (by simp)
    · rw [if_neg hp]
      by_cases hk : k = id
      · subst hk
        rw [if_pos rfl, hc.owned, hfresh.2]
        constructor
        · rintro ⟨_, ⟨⟩, _⟩
        · rintro ⟨job, hj, hmem⟩
          obtain rfl := Option.some.inj hj
          exact absurd hmem hp
      · rw [if_neg hk]
        exact hc.owned
  case inhabited =>
    intro k job hj
    rcases hcases hj with ⟨-, rfl⟩ | hj
    · exact List.ne_nil_of_mem hlast
    · exact hc.inhabited hj
  case status =>
    intro k job hj
    rcases hcases hj with ⟨-, rfl⟩ | hj
    · simp [hlast]
    · exact hc.status hj

/-! ### Collecting a process -/

/-- What `remove` leaves behind if a job has the process. -/
theorem remove_eq (status : Int) (ho : t.owner? pid = some id) (hj : t.get? id = some job) :
    t.remove pid status =
      if (job.collect pid status).pids = [] then
        (some (.finished id (job.collect pid status)),
          { t with owners := t.owners.filter fun entry => entry.1 ≠ pid }.eraseJob id)
      else
        (some (.running id),
          { t with owners := t.owners.filter fun entry => entry.1 ≠ pid }.update id
            fun _ => job.collect pid status) := by
  have hj' : get? { t with owners := t.owners.filter fun entry => entry.1 ≠ pid } id = some job :=
    hj
  rw [remove, ho]
  simp only [hj', List.isEmpty_iff]

theorem remove_of_owner?_eq_none (status : Int) (h : t.owner? pid = none) :
    t.remove pid status = (none, t) := by
  rw [remove, h]

/-- Either nobody has the process and nothing happens, or exactly one job has it. -/
theorem Coherent.owner?_cases (hc : t.Coherent) (pid : Pid) :
    t.owner? pid = none ∨
      ∃ id job, t.owner? pid = some id ∧ t.get? id = some job ∧ pid ∈ job.pids := by
  cases ho : t.owner? pid with
  | none => exact .inl rfl
  | some id =>
    obtain ⟨job, hj, hp⟩ := hc.owned.1 ho
    exact .inr ⟨id, job, rfl, hj, hp⟩

theorem get?_remove (status : Int) (ho : t.owner? pid = some id) (hj : t.get? id = some job)
    (k : Nat) :
    (t.remove pid status).2.get? k =
      if k = id then
        if (job.collect pid status).pids = [] then none else some (job.collect pid status)
      else t.get? k := by
  rw [remove_eq status ho hj]
  split
  · next he =>
    rw [get?_eraseJob]
    rfl
  · next he =>
    rw [get?_update]
    change (if k = id then (t.get? id).map _ else t.get? k) = _
    rw [hj, Option.map_some]

/-- A process that a job does not have is not its business. -/
theorem Coherent.get?_remove_of_not_mem (hc : t.Coherent) (status : Int)
    (hj : t.get? id = some job) (hp : pid ∉ job.pids) :
    (t.remove pid status).2.get? id = some job := by
  rcases hc.owner?_cases pid with ho | ⟨id', job', ho, hj', hp'⟩
  · rw [remove_of_owner?_eq_none status ho]
    exact hj
  · have hne : id ≠ id' := by
      rintro rfl
      exact hp (Option.some.inj (hj'.symm.trans hj) ▸ hp')
    rw [get?_remove status ho hj', if_neg hne, hj]

/-- A process that a job has is taken from it, and the job goes with its last process. -/
theorem Coherent.get?_remove_of_mem (hc : t.Coherent) (status : Int)
    (hj : t.get? id = some job) (hp : pid ∈ job.pids) :
    (t.remove pid status).2.get? id =
      if (job.collect pid status).pids = [] then none else some (job.collect pid status) := by
  rw [get?_remove status (hc.owned.2 ⟨job, hj, hp⟩) hj, if_pos rfl]

/-- Every job that is left is one from before, perhaps without the process. -/
theorem Coherent.get?_remove_cases (hc : t.Coherent) {status : Int}
    (h : (t.remove pid status).2.get? id = some job) :
    (t.get? id = some job ∧ pid ∉ job.pids) ∨
      ∃ before, t.get? id = some before ∧ pid ∈ before.pids ∧ job = before.collect pid status ∧
        job.pids ≠ [] := by
  cases hb : t.get? id with
  | none =>
    -- There is no such job afterwards either.
    rcases hc.owner?_cases pid with ho | ⟨id', job', ho, hj, hp⟩
    · rw [remove_of_owner?_eq_none status ho, hb] at h
      cases h
    · have hne : id ≠ id' := by
        rintro rfl
        cases hb.symm.trans hj
      rw [get?_remove status ho hj, if_neg hne, hb] at h
      cases h
  | some before =>
    by_cases hp : pid ∈ before.pids
    · rw [hc.get?_remove_of_mem status hb hp] at h
      split at h
      · cases h
      · next hne =>
        obtain rfl := Option.some.inj h
        exact .inr ⟨before, rfl, hp, rfl, hne⟩
    · rw [hc.get?_remove_of_not_mem status hb hp] at h
      obtain rfl := Option.some.inj h
      exact .inl ⟨rfl, hp⟩

theorem Coherent.owner?_remove (hc : t.Coherent) (pid : Pid) (status : Int) (q : Pid) :
    (t.remove pid status).2.owner? q = if q = pid then none else t.owner? q := by
  rcases hc.owner?_cases pid with ho | ⟨id, job, ho, hj, -⟩
  · rw [remove_of_owner?_eq_none status ho]
    split
    · next hq => rw [hq, ho]
    · rfl
  · rw [remove_eq status ho hj]
    split
    · exact lookup_filter_ne t.owners pid q
    · exact lookup_filter_ne t.owners pid q

theorem keys_update (t : JobTable) (id : Nat) (f : Job → Job) :
    (t.update id f).jobs.map Prod.fst = t.jobs.map Prod.fst := by
  rw [update, List.map_map]
  refine List.map_congr_left fun entry _ => ?_
  simp only [Function.comp_apply]
  split
  · next h => exact h.symm
  · rfl

theorem Coherent.remove (hc : t.Coherent) (pid : Pid) (status : Int) :
    (t.remove pid status).2.Coherent := by
  constructor
  case ascending =>
    rcases hc.owner?_cases pid with ho | ⟨id, job, ho, hj, -⟩
    · rw [remove_of_owner?_eq_none status ho]
      exact hc.ascending
    rw [remove_eq status ho hj]
    split
    · exact hc.ascending.sublist (List.filter_sublist.map Prod.fst)
    · rw [keys_update]
      exact hc.ascending
  case positive =>
    intro k job hj
    rcases hc.get?_remove_cases hj with ⟨hj, -⟩ | ⟨before, hb, -⟩
    · exact hc.positive hj
    · exact hc.positive hb
  case owned =>
    intro q k
    rw [hc.owner?_remove]
    constructor
    · intro h
      split at h
      · cases h
      next hq =>
      obtain ⟨job, hj, hmem⟩ := hc.owned.1 h
      by_cases hp : pid ∈ job.pids
      · have hmem' : q ∈ (job.collect pid status).pids := Job.mem_pids_collect.2 ⟨hmem, hq⟩
        refine ⟨_, ?_, hmem'⟩
        rw [hc.get?_remove_of_mem status hj hp, if_neg (List.ne_nil_of_mem hmem')]
      · exact ⟨job, hc.get?_remove_of_not_mem status hj hp, hmem⟩
    · rintro ⟨job, hj, hmem⟩
      rcases hc.get?_remove_cases hj with ⟨hj, hp⟩ | ⟨before, hb, hp, rfl, -⟩
      · have hq : q ≠ pid := fun e => hp (e ▸ hmem)
        rw [if_neg hq]
        exact hc.owned.2 ⟨job, hj, hmem⟩
      · obtain ⟨hmem, hq⟩ := Job.mem_pids_collect.1 hmem
        rw [if_neg hq]
        exact hc.owned.2 ⟨before, hb, hmem⟩
  case inhabited =>
    intro k job hj
    rcases hc.get?_remove_cases hj with ⟨hj, -⟩ | ⟨-, -, -, -, hne⟩
    · exact hc.inhabited hj
    · exact hne
  case status =>
    intro k job hj
    rcases hc.get?_remove_cases hj with ⟨hj, -⟩ | ⟨before, hb, -, rfl, -⟩
    · exact hc.status hj
    · rw [Job.mem_pids_collect]
      have hs := hc.status hb
      by_cases hlast : pid = before.last
      · simp [Job.collect, hlast]
      · simp [Job.collect, hlast, hs, Ne.symm hlast]

theorem Coherent.setBackground (hc : t.Coherent) (id : Nat) : (t.setBackground id).Coherent := by
  have hget := get?_setBackground t id
  -- A job keeps its processes, its last stage and its status.
  have hcases : ∀ {k : Nat} {job' : Job}, (t.setBackground id).get? k = some job' →
      ∃ job, t.get? k = some job ∧ job'.pids = job.pids ∧ job'.last = job.last ∧
        job'.status = job.status := by
    intro k job' hj'
    rw [hget] at hj'
    split at hj'
    · next hk =>
      obtain ⟨job, hj, rfl⟩ := Option.map_eq_some_iff.1 hj'
      exact ⟨job, hk ▸ hj, rfl, rfl, rfl⟩
    · exact ⟨job', hj', rfl, rfl, rfl⟩
  constructor
  case ascending =>
    rw [JobTable.setBackground, keys_update]
    exact hc.ascending
  case positive =>
    intro k job' hj'
    obtain ⟨job, hj, -⟩ := hcases hj'
    exact hc.positive hj
  case owned =>
    intro q k
    rw [owner?_setBackground, hc.owned]
    constructor
    · rintro ⟨job, hj, hmem⟩
      by_cases hk : k = id
      · subst hk
        exact ⟨{ job with background := true }, by rw [hget, if_pos rfl, hj, Option.map_some], hmem⟩
      · exact ⟨job, by rw [hget, if_neg hk, hj], hmem⟩
    · rintro ⟨job', hj', hmem⟩
      obtain ⟨job, hj, hpids, -⟩ := hcases hj'
      exact ⟨job, hj, hpids ▸ hmem⟩
  case inhabited =>
    intro k job' hj'
    obtain ⟨job, hj, hpids, -⟩ := hcases hj'
    exact hpids ▸ hc.inhabited hj
  case status =>
    intro k job' hj'
    obtain ⟨job, hj, hpids, hlast, hstatus⟩ := hcases hj'
    rw [hpids, hlast, hstatus]
    exact hc.status hj

end JobTable

end PipelineShell
