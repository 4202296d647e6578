/-
The order in which processes are collected.

Children are collected as the kernel tells of them, and nobody knows in which
order it does.  It makes no difference: a table from which some processes are
taken is the same afterwards whichever was first, and the same jobs are over,
with the same status.  Only the process with which a job is over may be another
one.

* `removeAll` — collects processes, one after the other;
* `Coherent.remove_comm`, `Coherent.remove_pair_perm` — two processes in either
  order;
* `Coherent.removeAll_perm` — any number of them in any two orders;
* `collected_in_any_order` — this, and what each process comes to, for the
  tables of all histories.

Design notes: coherent tables are told apart by what they have under each number
and by their index (`Coherent.eq_of_get?_eq`), so it is enough to see what
becomes of a single job (`Job.collect?`).
-/
import Mathlib.Data.List.Sort
import PipelineShell.Proofs.Completion

namespace PipelineShell

/-! ### A job -/

/-- The job when a process of whatever job has been collected; `none` if it is over. -/
def Job.collect? (job : Job) (pid : Pid) (status : Int) : Option Job :=
  if pid ∈ job.pids then
    if (job.collect pid status).pids = [] then none else some (job.collect pid status)
  else some job

/-- The number of the job that a report is about. -/
def Reaped.number : Reaped → Nat
  | .running id => id
  | .finished id _ => id

namespace Job

variable {job : Job} {p q : Pid} {a b : Int}

theorem collect_comm (h : p ≠ q) :
    (job.collect p a).collect q b = (job.collect q b).collect p a := by
  have hstatus : (if q = job.last then some b else if p = job.last then some a else job.status) =
      if p = job.last then some a else if q = job.last then some b else job.status := by
    by_cases hp : p = job.last
    · subst hp
      rw [if_neg h.symm, if_pos rfl, if_pos rfl]
    · rw [if_neg hp, if_neg hp]
  simp only [collect, mk.injEq, true_and]
  exact ⟨List.filter_comm _ _ _, hstatus⟩

/-- A process that is not collected stays. -/
theorem pids_collect_ne_nil (h : p ≠ q) (hp : p ∈ job.pids) : (job.collect q b).pids ≠ [] :=
  List.ne_nil_of_mem (mem_pids_collect.2 ⟨hp, h⟩)

theorem collect?_comm (h : p ≠ q) :
    (job.collect? p a).bind (·.collect? q b) = (job.collect? q b).bind (·.collect? p a) := by
  by_cases hp : p ∈ job.pids
  · by_cases hq : q ∈ job.pids
    -- Neither of the two is the last one.
    · have hq' : q ∈ (job.collect p a).pids := mem_pids_collect.2 ⟨hq, h.symm⟩
      have hp' : p ∈ (job.collect q b).pids := mem_pids_collect.2 ⟨hp, h⟩
      simp only [collect?, if_pos hp, if_pos hq, if_neg (pids_collect_ne_nil h hp),
        if_neg (pids_collect_ne_nil h.symm hq), Option.bind_some, if_pos hp', if_pos hq',
        collect_comm h]
    · have hq' : q ∉ (job.collect p a).pids := fun hmem => hq (mem_pids_collect.1 hmem).1
      simp only [collect?, if_pos hp, if_neg hq, Option.bind_some]
      split
      · rfl
      · rw [Option.bind_some, if_neg hq']
  · by_cases hq : q ∈ job.pids
    · have hp' : p ∉ (job.collect q b).pids := fun hmem => hp (mem_pids_collect.1 hmem).1
      simp only [collect?, if_pos hq, if_neg hp, Option.bind_some]
      split
      · rfl
      · rw [Option.bind_some, if_neg hp']
    · simp only [collect?, if_neg hp, if_neg hq, Option.bind_some]

end Job

namespace JobTable

/-! ### Tables that are the same -/

variable {t t' : JobTable} {id : Nat} {job : Job}

theorem Coherent.mem_jobs_iff (hc : t.Coherent) : (id, job) ∈ t.jobs ↔ t.get? id = some job := by
  rw [get?, List.lookup_eq_some_iff]
  constructor
  · intro hmem
    obtain ⟨before, after, hjobs⟩ := List.append_of_mem hmem
    refine ⟨before, after, hjobs, fun entry hentry => ?_⟩
    have hasc := hc.ascending
    rw [hjobs, List.map_append, List.pairwise_append] at hasc
    have hlt : entry.1 < id :=
      hasc.2.2 entry.1 (List.mem_map_of_mem hentry) id (by simp)
    exact bne_iff_ne.2 (Nat.ne_of_gt hlt)
  · rintro ⟨before, after, hjobs, -⟩
    rw [hjobs]
    exact List.mem_append_right _ List.mem_cons_self

/-- A table is its jobs, by number, and its index. -/
theorem Coherent.eq_of_get?_eq (hc : t.Coherent) (hc' : t'.Coherent)
    (hget : ∀ id, t.get? id = t'.get? id) (howners : t.owners = t'.owners) : t = t' := by
  have hsorted : ∀ {u : JobTable}, u.Coherent → u.jobs.Pairwise fun a b => a.1 < b.1 :=
    fun hu => List.pairwise_map.1 hu.ascending
  have : Std.Antisymm fun a b : Nat × Job => a.1 < b.1 :=
    ⟨fun _ _ hab hba => absurd hab (Nat.lt_asymm hba)⟩
  have : Std.Irrefl fun a b : Nat × Job => a.1 < b.1 := ⟨fun _ => Nat.lt_irrefl _⟩
  have hjobs : t.jobs = t'.jobs :=
    (hsorted hc).eq_of_mem_iff (hsorted hc') fun ⟨id, job⟩ => by
      rw [hc.mem_jobs_iff, hc'.mem_jobs_iff, hget]
  cases t
  cases t'
  cases hjobs
  cases howners
  rfl

/-! ### Collecting one process -/

variable {p q : Pid} {a b : Int}

theorem Coherent.get?_remove_eq (hc : t.Coherent) (p : Pid) (a : Int) (id : Nat) :
    (t.remove p a).2.get? id = (t.get? id).bind (·.collect? p a) := by
  cases hj : t.get? id with
  | none =>
    cases hj' : (t.remove p a).2.get? id with
    | none => rfl
    | some job' =>
      rcases hc.get?_remove_cases hj' with ⟨hb, -⟩ | ⟨before, hb, -⟩
      · cases hj.symm.trans hb
      · cases hj.symm.trans hb
  | some job =>
    rw [Option.bind_some, Job.collect?]
    split
    · next hp => exact hc.get?_remove_of_mem a hj hp
    · next hp => exact hc.get?_remove_of_not_mem a hj hp

theorem Coherent.owners_remove (hc : t.Coherent) (p : Pid) (a : Int) :
    (t.remove p a).2.owners = t.owners.filter fun entry => entry.1 ≠ p := by
  rcases hc.owner?_cases p with ho | ⟨id, job, ho, hj, -⟩
  · rw [remove_of_owner?_eq_none a ho]
    refine (List.filter_eq_self.2 fun entry hmem => ?_).symm
    -- A process that is not in the index has no entry there.
    have hnot := List.lookup_eq_none_iff.1 ho entry hmem
    exact decide_eq_true fun he => by simp [he] at hnot
  · rw [remove_eq a ho hj]
    split
    · rfl
    · rfl

/-- **Two processes leave the same table in either order.** -/
theorem Coherent.remove_comm (hc : t.Coherent) (h : p ≠ q) :
    ((t.remove p a).2.remove q b).2 = ((t.remove q b).2.remove p a).2 := by
  refine ((hc.remove p a).remove q b).eq_of_get?_eq ((hc.remove q b).remove p a) ?_ ?_
  · intro id
    rw [(hc.remove p a).get?_remove_eq, (hc.remove q b).get?_remove_eq, hc.get?_remove_eq,
      hc.get?_remove_eq, Option.bind_assoc, Option.bind_assoc]
    exact Option.bind_congr fun job _ => Job.collect?_comm h
  · rw [(hc.remove p a).owners_remove, (hc.remove q b).owners_remove, hc.owners_remove,
      hc.owners_remove, List.filter_comm]

/-! ### What collecting a process is answered -/

theorem Coherent.map_number_remove (hc : t.Coherent) (p : Pid) (a : Int) :
    (t.remove p a).1.map Reaped.number = t.owner? p := by
  rcases hc.owner?_cases p with ho | ⟨id, job, ho, hj, hp⟩
  · rw [remove_of_owner?_eq_none a ho, ho, Option.map_none]
  · rw [hc.remove_fst_of_mem a hj hp, ho]
    split
    · rfl
    · rfl

/-- A process of another job, or of none, is not noticed. -/
theorem Coherent.remove_fst_of_apart (hc : t.Coherent) (h : p ≠ q)
    (apart : ∀ id job, t.get? id = some job → p ∈ job.pids → q ∉ job.pids) :
    ((t.remove q b).2.remove p a).1 = (t.remove p a).1 := by
  rcases hc.owner?_cases p with ho | ⟨id, job, -, hj, hp⟩
  · have ho' : (t.remove q b).2.owner? p = none := by rw [hc.owner?_remove, if_neg h, ho]
    rw [remove_of_owner?_eq_none a ho, remove_of_owner?_eq_none a ho']
  · have hj' := hc.get?_remove_of_not_mem b hj (apart id job hj hp)
    rw [hc.remove_fst_of_mem a hj hp, (hc.remove q b).remove_fst_of_mem a hj' hp]

/-- The first of two processes of one job does not end it. -/
theorem Coherent.remove_fst_of_shared (hc : t.Coherent) (h : p ≠ q) (hj : t.get? id = some job)
    (hp : p ∈ job.pids) (hq : q ∈ job.pids) :
    (t.remove p a).1 = some (.running id) ∧
      ((t.remove p a).2.remove q b).1 =
        if ((job.collect p a).collect q b).pids = [] then
          some (.finished id ((job.collect p a).collect q b))
        else some (.running id) := by
  have hne := Job.pids_collect_ne_nil (b := a) h.symm hq
  have hq' : q ∈ (job.collect p a).pids := Job.mem_pids_collect.2 ⟨hq, h.symm⟩
  have hj' : (t.remove p a).2.get? id = some (job.collect p a) := by
    rw [hc.get?_remove_of_mem a hj hp, if_neg hne]
  refine ⟨?_, (hc.remove p a).remove_fst_of_mem b hj' hq'⟩
  rw [hc.remove_fst_of_mem a hj hp, if_neg hne]

/-- **Two processes are answered with the same in either order**, though perhaps each with what the
other one is answered with. -/
theorem Coherent.remove_pair_perm (hc : t.Coherent) (h : p ≠ q) :
    [(t.remove p a).1, ((t.remove p a).2.remove q b).1].Perm
      [(t.remove q b).1, ((t.remove q b).2.remove p a).1] := by
  by_cases hshared : ∃ id job, t.get? id = some job ∧ p ∈ job.pids ∧ q ∈ job.pids
  · obtain ⟨id, job, hj, hp, hq⟩ := hshared
    obtain ⟨hfirst, hsecond⟩ := hc.remove_fst_of_shared (a := a) (b := b) h hj hp hq
    obtain ⟨hfirst', hsecond'⟩ := hc.remove_fst_of_shared (a := b) (b := a) h.symm hj hq hp
    rw [hfirst, hsecond, hfirst', hsecond', Job.collect_comm h]
  · have apart : ∀ id job, t.get? id = some job → p ∈ job.pids → q ∉ job.pids :=
      fun id job hj hp hq => hshared ⟨id, job, hj, hp, hq⟩
    have apart' : ∀ id job, t.get? id = some job → q ∈ job.pids → p ∉ job.pids :=
      fun id job hj hq hp => hshared ⟨id, job, hj, hp, hq⟩
    rw [hc.remove_fst_of_apart h apart, hc.remove_fst_of_apart h.symm apart']
    exact .swap _ _ _

/-! ### Collecting several processes -/

/-- Collects processes, each with its status, and tells what every one was answered with. -/
def removeAll (t : JobTable) : List (Pid × Int) → List (Pid × Option Reaped) × JobTable
  | [] => ([], t)
  | (pid, status) :: rest =>
    let (report, next) := t.remove pid status
    let (reports, last) := next.removeAll rest
    ((pid, report) :: reports, last)

variable {collected collected' : List (Pid × Int)}

/-- **Any number of processes, in any two orders.** -/
theorem Coherent.removeAll_perm (hp : collected.Perm collected')
    (hnd : (collected.map Prod.fst).Nodup) : ∀ {t : JobTable}, t.Coherent →
      (t.removeAll collected).2 = (t.removeAll collected').2 ∧
        ((t.removeAll collected).1.map Prod.snd).Perm
          ((t.removeAll collected').1.map Prod.snd) := by
  induction hp with
  | nil => exact fun _ => ⟨rfl, .rfl⟩
  | cons entry _ ih =>
    intro t hc
    obtain ⟨htable, hreports⟩ := ih (List.nodup_cons.1 hnd).2 (hc.remove entry.1 entry.2)
    exact ⟨htable, hreports.cons _⟩
  | swap first second rest =>
    intro t hc
    have hne : first.1 ≠ second.1 := fun he =>
      (List.nodup_cons.1 hnd).1 (he ▸ List.mem_cons_self)
    -- From then on the table is the same.
    have htable : ((t.remove second.1 second.2).2.remove first.1 first.2).2 =
        ((t.remove first.1 first.2).2.remove second.1 second.2).2 := hc.remove_comm hne.symm
    have hpair := hc.remove_pair_perm (a := second.2) (b := first.2) hne.symm
    refine ⟨congrArg (fun u => (removeAll u rest).2) htable, ?_⟩
    have hrest := congrArg (fun u => (removeAll u rest).1.map Prod.snd) htable
    have hall := hpair.append_right
      ((removeAll ((t.remove second.1 second.2).2.remove first.1 first.2).2 rest).1.map Prod.snd)
    exact hall.trans (.of_eq (congrArg (_ :: _ :: ·) hrest))
  | trans h _ ih ih' =>
    intro t hc
    obtain ⟨htable, hreports⟩ := ih hnd hc
    obtain ⟨htable', hreports'⟩ := ih' ((h.map Prod.fst).nodup_iff.1 hnd) hc
    exact ⟨htable.trans htable', hreports.trans hreports'⟩

theorem mem_removeAll_cons {rest : List (Pid × Int)} {pid : Pid} {report : Option Reaped} :
    (pid, report) ∈ (t.removeAll ((p, a) :: rest)).1 ↔
      (pid = p ∧ report = (t.remove p a).1) ∨
        (pid, report) ∈ ((t.remove p a).2.removeAll rest).1 := by
  show (pid, report) ∈ (p, (t.remove p a).1) :: ((t.remove p a).2.removeAll rest).1 ↔ _
  rw [List.mem_cons, Prod.mk.injEq]

theorem mem_of_mem_removeAll {pid : Pid} {report : Option Reaped} :
    ∀ {collected : List (Pid × Int)} {t : JobTable},
      (pid, report) ∈ (t.removeAll collected).1 → pid ∈ collected.map Prod.fst
  | [], _, h => by cases h
  | (p, _) :: _, _, h => by
    rcases mem_removeAll_cons.1 h with ⟨rfl, -⟩ | h
    · exact List.mem_cons_self
    · exact List.mem_cons_of_mem p (mem_of_mem_removeAll h)

/-- Every report is about the job that had the process at first. -/
theorem Coherent.number_of_mem_removeAll {pid : Pid} {report : Option Reaped} :
    ∀ {collected : List (Pid × Int)} {t : JobTable}, t.Coherent →
      (collected.map Prod.fst).Nodup → (pid, report) ∈ (t.removeAll collected).1 →
        report.map Reaped.number = t.owner? pid
  | [], t, _, _, h => by cases h
  | (p, a) :: rest, t, hc, hnd, h => by
    obtain ⟨hnot, hnd⟩ := List.nodup_cons.1 hnd
    rcases mem_removeAll_cons.1 h with ⟨rfl, rfl⟩ | h
    · exact hc.map_number_remove pid a
    -- It is not the process that has just been collected.
    · have hne : pid ≠ p := by
        rintro rfl
        exact hnot (mem_of_mem_removeAll h)
      rw [(hc.remove p a).number_of_mem_removeAll hnd h, hc.owner?_remove, if_neg hne]

/-- What is over does not come up again. -/
theorem Coherent.finished_not_mem_removeAll (hc : t.Coherent)
    (hnd : (collected.map Prod.fst).Nodup) {finished : Job}
    (h : (t.remove p a).1 = some (.finished id finished)) :
    (q, some (.finished id job)) ∉ ((t.remove p a).2.removeAll collected).1 := by
  intro hmem
  obtain ⟨before, hb, hp, rfl, hnil⟩ := hc.mem_of_remove_eq_finished h
  have howner : some id = (t.remove p a).2.owner? q :=
    (hc.remove p a).number_of_mem_removeAll hnd hmem
  obtain ⟨left, hleft, -⟩ := (hc.remove p a).owned.1 howner.symm
  rw [hc.get?_remove_of_mem a hb hp, if_pos hnil] at hleft
  cases hleft

/-- A job is over at most once. -/
theorem Coherent.eq_of_finished_removeAll {job' : Job} :
    ∀ {collected : List (Pid × Int)} {t : JobTable}, t.Coherent →
      (collected.map Prod.fst).Nodup → (p, some (.finished id job)) ∈ (t.removeAll collected).1 →
        (q, some (.finished id job')) ∈ (t.removeAll collected).1 → job = job'
  | [], t, _, _, h, _ => by cases h
  | (first, a) :: rest, t, hc, hnd, h, h' => by
    have hnd' := (List.nodup_cons.1 hnd).2
    rcases mem_removeAll_cons.1 h with ⟨-, hfirst⟩ | h
    · rcases mem_removeAll_cons.1 h' with ⟨-, hfirst'⟩ | h'
      · cases hfirst.trans hfirst'.symm
        rfl
      · exact absurd h' (hc.finished_not_mem_removeAll hnd' hfirst.symm)
    · rcases mem_removeAll_cons.1 h' with ⟨-, hfirst'⟩ | h'
      · exact absurd h (hc.finished_not_mem_removeAll hnd' hfirst'.symm)
      · exact (hc.remove first a).eq_of_finished_removeAll hnd' h h'

/-- **The order in which processes are collected makes no difference.**  If the same processes, with
the same statuses, are taken from a table of any history in two orders, then the tables afterwards
are equal, and the answers are the same, up to their order: so the same jobs are over, each as the
same job with the same status.  A single process is answered otherwise only if it ends its job in
one of the orders and not in the other. -/
theorem collected_in_any_order {ops : List Operation} {t : JobTable}
    {collected collected' : List (Pid × Int)} (h : empty.performAll? ops = some t)
    (hp : collected.Perm collected') (hnd : (collected.map Prod.fst).Nodup) :
    (t.removeAll collected).2 = (t.removeAll collected').2 ∧
    ((t.removeAll collected).1.map Prod.snd).Perm ((t.removeAll collected').1.map Prod.snd) ∧
    ∀ pid report report', (pid, report) ∈ (t.removeAll collected).1 →
      (pid, report') ∈ (t.removeAll collected').1 →
      report = report' ∨ ∃ id job,
        (report = some (.running id) ∧ report' = some (.finished id job)) ∨
          (report = some (.finished id job) ∧ report' = some (.running id)) := by
  have hc := coherent_of_performAll? h
  obtain ⟨htable, hreports⟩ := hc.removeAll_perm hp hnd
  refine ⟨htable, hreports, fun pid report report' hmem hmem' => ?_⟩
  have hnumber : report.map Reaped.number = report'.map Reaped.number :=
    (hc.number_of_mem_removeAll hnd hmem).trans
      (hc.number_of_mem_removeAll ((hp.map Prod.fst).nodup_iff.1 hnd) hmem').symm
  match report, report', hnumber with
  | none, none, _ => exact .inl rfl
  | some (.running id), some (.running id'), hnumber => exact .inl (by cases hnumber; rfl)
  | some (.running id), some (.finished id' job), hnumber =>
    cases hnumber
    exact .inr ⟨id, job, .inl ⟨rfl, rfl⟩⟩
  | some (.finished id job), some (.running id'), hnumber =>
    cases hnumber
    exact .inr ⟨id, job, .inr ⟨rfl, rfl⟩⟩
  | some (.finished id job), some (.finished id' job'), hnumber =>
    cases hnumber
    -- The job is over in the first order, too.
    obtain ⟨⟨q, _⟩, hq, he⟩ :=
      List.mem_map.1 (hreports.symm.subset (List.mem_map_of_mem (f := Prod.snd) hmem'))
    cases he
    rw [hc.eq_of_finished_removeAll hnd hmem hq]
    exact .inl rfl

/-- The last stage of a job is collected first or last, and another job is over in between. -/
theorem collected_in_any_order_mixed : ∃ t : JobTable,
    empty.performAll? [.insert "a | b" 10 [10, 11] false, .insert "c" 20 [20] true] = some t ∧
      (t.removeAll [(11, 3), (20, 0), (10, 5)]).2 =
        (t.removeAll [(10, 5), (20, 0), (11, 3)]).2 ∧
      (10, some (.finished 1 ⟨10, "a | b", [], 11, false, some 3⟩)) ∈
        (t.removeAll [(11, 3), (20, 0), (10, 5)]).1 ∧
      some (.finished 1 ⟨10, "a | b", [], 11, false, some 3⟩) ∈
        (t.removeAll [(10, 5), (20, 0), (11, 3)]).1.map Prod.snd := by
  have h : empty.performAll? [.insert "a | b" 10 [10, 11] false, .insert "c" 20 [20] true] =
      some _ := rfl
  have hp : ([(11, 3), (20, 0), (10, 5)] : List (Pid × Int)).Perm
      [(10, 5), (20, 0), (11, 3)] := by decide
  obtain ⟨htable, hreports, -⟩ := collected_in_any_order h hp (by decide)
  refine ⟨_, h, htable, by decide, ?_⟩
  exact hreports.subset (by decide)

end JobTable

end PipelineShell
