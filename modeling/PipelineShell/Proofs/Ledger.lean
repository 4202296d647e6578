/-
A ledger of the jobs that the shell has started.

An observer writes down every job when it is started, which of its processes
have not been collected, whether it has been stopped in the foreground, and what
the user is to be told about it.

* `Trace.ledger` — the ledger, read off the history alone;
* `Ledger.Exact` — every piece of news is in it once, and none that is not due;
* `Ledger.Mirrors` — the table of jobs has exactly the jobs that are open in the
  ledger, with the processes that are left and the right mark.

Design notes: jobs are numbered in the order in which they are started.  Unlike
the number that the shell gives them, this one is never used again, so news of
different jobs are different even if they read the same.
-/
import Mathlib.Data.List.DropRight
import Mathlib.Data.List.Nodup
import PipelineShell.Proofs.System

namespace PipelineShell

namespace Ledger

/-! ### What is written down -/

/-- What there may be to tell about a job. -/
inductive Mark where
  | started
  | stopped
  | ended
deriving DecidableEq

structure News where
  job : Nat
  mark : Mark
  text : String
deriving DecidableEq

structure JobEntry where
  /-- How many jobs had been started before. -/
  number : Nat
  /-- The number of the request that it was started for; the first one is 1. -/
  request : Nat
  /-- The line of this request. -/
  text : String
  id : Nat
  group : Pid
  /-- It was started in the background. -/
  detached : Bool
  /-- It was started in the foreground and has been stopped. -/
  demoted : Bool := false
  /-- The processes that have not been collected. -/
  left : List Pid

namespace JobEntry

/-- The line as the user is to see it, without the blanks around it. -/
def line (x : JobEntry) : String :=
  String.ofList ((x.text.toList.dropWhile Text.isBlank).rdropWhile Text.isBlank)

def background (x : JobEntry) : Bool := x.detached || x.demoted

/-- The line for the user. -/
def report (x : JobEntry) : Mark → String
  | .started => "[" ++ toString x.id ++ "]" ++ " " ++ toString x.group ++ "\n"
  | .stopped => "\n" ++ ("[" ++ toString x.id ++ "]") ++ " 停止\t" ++ x.line ++ "\n"
  | .ended => "[" ++ toString x.id ++ "]" ++ " 終了\t" ++ x.line ++ "\n"

def news (x : JobEntry) (mark : Mark) : News := ⟨x.number, mark, x.report mark⟩

/-- What the user is to have been told. -/
def told (x : JobEntry) : Mark → Bool
  | .started => x.detached
  | .stopped => x.demoted
  | .ended => x.left.isEmpty && x.background

/-- The job is in the foreground and has this process. -/
def stopsAt (x : JobEntry) (pid : Pid) : Bool := x.left.contains pid && !x.background

def stop (x : JobEntry) (pid : Pid) : JobEntry := { x with demoted := x.demoted || x.stopsAt pid }

def collect (x : JobEntry) (pid : Pid) : JobEntry := { x with left := x.left.filter (· ≠ pid) }

/-- The job has no other process than this. -/
def endsAt (x : JobEntry) (pid : Pid) : Bool := x.left.contains pid && (x.collect pid).left.isEmpty

variable {x : JobEntry} {pid : Pid}

theorem collect_of_not_mem (h : pid ∉ x.left) : x.collect pid = x := by
  have hleft : x.left.filter (· ≠ pid) = x.left :=
    List.filter_eq_self.2 fun q hq => by
      rw [decide_eq_true_eq]
      rintro rfl
      exact h hq
  rw [collect, hleft]

theorem stopsAt_iff : x.stopsAt pid = true ↔ pid ∈ x.left ∧ x.background = false := by
  simp [stopsAt]

theorem endsAt_iff : x.endsAt pid = true ↔ pid ∈ x.left ∧ (x.collect pid).left = [] := by
  simp [endsAt]

/-- Nothing but an open job can lose a process. -/
theorem left_ne_nil_of_collect (h : (x.collect pid).left ≠ []) : x.left ≠ [] := fun hnil =>
  h (List.filter_eq_nil_iff.2 fun q hq => by simp [hnil] at hq)

theorem stop_of_not (h : x.stopsAt pid = false) : x.stop pid = x := by
  rw [stop, h, Bool.or_false]

/-- A job has ended if it had ended before or ends with this process. -/
theorem isEmpty_collect (x : JobEntry) (pid : Pid) :
    (x.collect pid).left.isEmpty = (x.left.isEmpty || x.endsAt pid) := by
  by_cases hp : pid ∈ x.left
  · have hempty : x.left.isEmpty = false := List.isEmpty_eq_false_iff.2 (List.ne_nil_of_mem hp)
    simp [endsAt, hp, hempty]
  · simp [endsAt, collect_of_not_mem hp, hp]

end JobEntry

end Ledger

open Ledger

structure Ledger where
  /-- The requests that the worker has received. -/
  received : List Message := []
  /-- All jobs, in the order in which they were started. -/
  jobs : List JobEntry := []
  /-- All that there was to tell, in order. -/
  news : List News := []

namespace Ledger

def start (l : Ledger) (x : JobEntry) : Ledger :=
  { l with jobs := l.jobs ++ [x], news := l.news ++ if x.detached then [x.news .started] else [] }

/-- Every entry changes, and some of them are news. -/
def tell (l : Ledger) (f : JobEntry → JobEntry) (c : JobEntry → Bool) (mark : Mark) : Ledger :=
  { l with jobs := l.jobs.map f, news := l.news ++ (l.jobs.filter c).map (·.news mark) }

def stop (l : Ledger) (pid : Pid) : Ledger := l.tell (·.stop pid) (·.stopsAt pid) .stopped

def collect (l : Ledger) (pid : Pid) : Ledger :=
  l.tell (·.collect pid) (fun x => x.endsAt pid && x.background) .ended

/-- Writes down one event; `s` is the state in which it happens. -/
def note (l : Ledger) (s : System) : Event → Ledger
  | .receive m => { l with received := l.received ++ [m].filter Message.isRequest }
  | .launched result =>
    match s.doing, Worker.running? result with
    | .launching text line _ _, some spawned =>
      l.start
        { number := l.jobs.length
          request := l.received.length
          text
          id := s.worker.jobs.freshId
          group := spawned.group
          detached := line.modifier.background
          left := spawned.pids }
    | _, _ => l
  | .poll p =>
    match p.understood with
    | .ok (some (pid, status)) => if status.isStop then l.stop pid else l.collect pid
    | _ => l
  | _ => l

end Ledger

def Trace.ledger : Trace → Ledger
  | [] => {}
  | (s, e) :: past => (ledger past).note s e

namespace Ledger

/-- A job that has ended stays in the ledger as it is. -/
theorem mem_note {l : Ledger} {x : JobEntry} (hx : x ∈ l.jobs) (hleft : x.left = []) (s : System)
    (e : Event) : x ∈ (l.note s e).jobs := by
  have hstop : ∀ pid, x.stop pid = x := fun pid =>
    JobEntry.stop_of_not (by simp [JobEntry.stopsAt, hleft])
  have hcollect : ∀ pid, x.collect pid = x := fun pid =>
    JobEntry.collect_of_not_mem (by simp [hleft])
  cases e with
  | launched result =>
    rw [note]
    split
    · exact List.mem_append_left _ hx
    · exact hx
  | poll p =>
    rw [note]
    split
    · split
      · exact List.mem_map.2 ⟨x, hx, hstop _⟩
      · exact List.mem_map.2 ⟨x, hx, hcollect _⟩
    · exact hx
  | _ => exact hx

theorem mem_append {x : JobEntry} {after before : Trace} (hx : x ∈ before.ledger.jobs)
    (hleft : x.left = []) : x ∈ (Trace.ledger (after ++ before)).jobs := by
  induction after with
  | nil => exact hx
  | cons _ _ ih => exact mem_note ih hleft _ _

/-! ### Nothing is told twice -/

/-- All news that is due is in the ledger, once, and no other. -/
structure Exact (l : Ledger) : Prop where
  numbers : l.jobs.map JobEntry.number = List.range l.jobs.length
  nodup : l.news.Nodup
  mem_iff : ∀ {x : JobEntry}, x ∈ l.jobs → ∀ mark, x.news mark ∈ l.news ↔ x.told mark = true
  known : ∀ {n : News}, n ∈ l.news → ∃ x ∈ l.jobs, ∃ mark, n = x.news mark

namespace Exact

variable {l : Ledger} {x y : JobEntry}

theorem empty : Exact {} where
  numbers := rfl
  nodup := List.nodup_nil
  mem_iff h := by cases h
  known h := by cases h

theorem nodup_numbers (h : l.Exact) : (l.jobs.map JobEntry.number).Nodup :=
  h.numbers ▸ List.nodup_range

theorem nodup_jobs (h : l.Exact) : l.jobs.Nodup := .of_map _ h.nodup_numbers

theorem eq_of_number (h : l.Exact) (hx : x ∈ l.jobs) (hy : y ∈ l.jobs)
    (he : x.number = y.number) : x = y :=
  List.inj_on_of_nodup_map h.nodup_numbers hx hy he

theorem number_lt (h : l.Exact) (hx : x ∈ l.jobs) : x.number < l.jobs.length := by
  have hmem : x.number ∈ l.jobs.map JobEntry.number := List.mem_map_of_mem hx
  rwa [h.numbers, List.mem_range] at hmem

theorem start (h : l.Exact) (hnumber : x.number = l.jobs.length) (hdemoted : x.demoted = false)
    (hleft : x.left ≠ []) : (l.start x).Exact := by
  -- The number is new, so nothing has been told about the job.
  have hnew : ∀ {y}, y ∈ l.jobs → y.number ≠ x.number := fun hy =>
    hnumber ▸ Nat.ne_of_lt (h.number_lt hy)
  have hnot : ∀ {mark}, x.news mark ∉ l.news := by
    intro mark hmem
    obtain ⟨y, hy, mark', he⟩ := h.known hmem
    exact hnew hy (congrArg News.job he).symm
  constructor
  case numbers =>
    show (l.jobs ++ [x]).map JobEntry.number = List.range (l.jobs ++ [x]).length
    rw [List.map_append, h.numbers, List.length_append, List.length_singleton, List.range_succ,
      List.map_singleton, hnumber]
  case nodup =>
    refine h.nodup.append ?_ ?_
    · split <;> simp
    · intro n hn hn'
      split at hn'
      · exact hnot (List.mem_singleton.1 hn' ▸ hn)
      · cases hn'
  case mem_iff =>
    intro y hy mark
    show y.news mark ∈ l.news ++ (if x.detached then [x.news .started] else []) ↔ _
    rw [List.mem_append]
    rcases List.mem_append.1 hy with hy | hy
    · rw [← h.mem_iff hy mark]
      refine or_iff_left fun hmem => ?_
      split at hmem
      · exact hnew hy (congrArg News.job (List.mem_singleton.1 hmem))
      · cases hmem
    · obtain rfl := List.mem_singleton.1 hy
      rw [or_iff_right hnot]
      cases mark <;> cases hd : y.detached <;>
        simp [JobEntry.told, JobEntry.background, JobEntry.news, hd, hdemoted, hleft]
  case known =>
    intro n hn
    rcases List.mem_append.1 hn with hn | hn
    · obtain ⟨y, hy, mark, he⟩ := h.known hn
      exact ⟨y, List.mem_append_left _ hy, mark, he⟩
    · split at hn
      · exact ⟨x, List.mem_append_right _ (List.mem_singleton_self x), _, List.mem_singleton.1 hn⟩
      · cases hn

/-- News that were not due before, and are due now. -/
theorem tell (h : l.Exact) {f : JobEntry → JobEntry} {c : JobEntry → Bool} {mark : Mark}
    (hf : ∀ x m, (f x).news m = x.news m) (hnew : ∀ {x}, c x = true → x.told mark = false)
    (htold : ∀ x m, (f x).told m = (x.told m || (c x && decide (m = mark)))) :
    (l.tell f c mark).Exact := by
  have hnumber : ∀ x, (f x).number = x.number := fun x => congrArg News.job (hf x .started)
  have hmem : ∀ {x}, x ∈ l.jobs → ∀ m,
      x.news m ∈ (l.jobs.filter c).map (·.news mark) ↔ c x = true ∧ m = mark := by
    intro x hx m
    rw [List.mem_map]
    constructor
    · rintro ⟨y, hy, he⟩
      obtain ⟨hy, hc⟩ := List.mem_filter.1 hy
      obtain rfl := h.eq_of_number hy hx (congrArg News.job he)
      exact ⟨hc, (congrArg News.mark he).symm⟩
    · rintro ⟨hc, rfl⟩
      exact ⟨x, List.mem_filter.2 ⟨hx, hc⟩, rfl⟩
  constructor
  case numbers =>
    show (l.jobs.map f).map JobEntry.number = List.range (l.jobs.map f).length
    rw [List.map_map, List.length_map, ← h.numbers]
    exact List.map_congr_left fun x _ => hnumber x
  case nodup =>
    refine h.nodup.append ?_ ?_
    · refine .of_map News.job ?_
      rw [List.map_map]
      exact h.nodup_numbers.sublist (List.filter_sublist.map JobEntry.number)
    · intro n hn hn'
      obtain ⟨x, hx, rfl⟩ := List.mem_map.1 hn'
      obtain ⟨hx, hc⟩ := List.mem_filter.1 hx
      exact absurd ((h.mem_iff hx mark).1 hn) (by simp [hnew hc])
  case mem_iff =>
    intro y hy m
    obtain ⟨x, hx, rfl⟩ := List.mem_map.1 hy
    show (f x).news m ∈ l.news ++ (l.jobs.filter c).map (·.news mark) ↔ _
    rw [hf, List.mem_append, h.mem_iff hx, hmem hx, htold]
    simp
  case known =>
    intro n hn
    have hknown : ∃ x ∈ l.jobs, ∃ m, n = x.news m := by
      rcases List.mem_append.1 hn with hn | hn
      · exact h.known hn
      · obtain ⟨x, hx, rfl⟩ := List.mem_map.1 hn
        exact ⟨x, (List.mem_filter.1 hx).1, mark, rfl⟩
    obtain ⟨x, hx, m, rfl⟩ := hknown
    exact ⟨f x, List.mem_map_of_mem hx, m, (hf x m).symm⟩

theorem stop (h : l.Exact) (pid : Pid) : (l.stop pid).Exact := by
  refine h.tell (fun x m => by cases m <;> rfl) (fun {x} hc => ?_) fun x m => ?_
  · exact (Bool.or_eq_false_iff.1 (JobEntry.stopsAt_iff.1 hc).2).2
  cases m with
  | started => simp [JobEntry.told, JobEntry.stop]
  | stopped => simp [JobEntry.told, JobEntry.stop]
  | ended =>
    cases hs : x.stopsAt pid with
    | false => simp [JobEntry.told, JobEntry.stop, JobEntry.background, hs]
    | true =>
      -- A job that stops has a process left.
      have hleft : x.left.isEmpty = false :=
        List.isEmpty_eq_false_iff.2 (List.ne_nil_of_mem (JobEntry.stopsAt_iff.1 hs).1)
      simp [JobEntry.told, JobEntry.stop, hleft]

theorem collect (h : l.Exact) (pid : Pid) : (l.collect pid).Exact := by
  refine h.tell (fun x m => by cases m <;> rfl) (fun {x} hc => ?_) fun x m => ?_
  · have hleft : x.left.isEmpty = false :=
      List.isEmpty_eq_false_iff.2
        (List.ne_nil_of_mem (JobEntry.endsAt_iff.1 (Bool.and_eq_true_iff.1 hc).1).1)
    simp [JobEntry.told, hleft]
  cases m with
  | started => simp [JobEntry.told, JobEntry.collect]
  | stopped => simp [JobEntry.told, JobEntry.collect]
  | ended =>
    show ((x.collect pid).left.isEmpty && x.background) = _
    rw [JobEntry.isEmpty_collect, Bool.and_or_distrib_right]
    simp [JobEntry.told]

end Exact

/-! ### The table of jobs -/

/-- What the table should have for an entry. -/
structure JobEntry.Describes (x : JobEntry) (job : Job) : Prop where
  group : job.group = x.group
  line : job.line = x.line
  pids : job.pids = x.left
  background : job.background = x.background

theorem JobEntry.Describes.collect {x : JobEntry} {job : Job} (hd : x.Describes job) (pid : Pid)
    (status : Int) : (x.collect pid).Describes (job.collect pid status) where
  group := hd.group
  line := hd.line
  pids := congrArg (List.filter (· ≠ pid)) hd.pids
  background := hd.background

/-- The table has exactly the jobs that are open, and gives every one another number. -/
structure Mirrors (l : Ledger) (t : JobTable) : Prop where
  describes : ∀ {x : JobEntry}, x ∈ l.jobs → x.left ≠ [] →
    ∃ job, t.get? x.id = some job ∧ x.Describes job
  exists_entry : ∀ {id : Nat} {job : Job}, t.get? id = some job →
    ∃ x ∈ l.jobs, x.left ≠ [] ∧ x.id = id
  eq_of_id : ∀ {x y : JobEntry}, x ∈ l.jobs → y ∈ l.jobs → x.left ≠ [] → y.left ≠ [] →
    x.id = y.id → x = y

namespace Mirrors

variable {l : Ledger} {t : JobTable} {x : JobEntry} {pid : Pid} {id : Nat} {job : Job}

theorem empty : Mirrors {} .empty where
  describes h := by cases h
  exists_entry h := by simp [JobTable.empty, JobTable.get?] at h
  eq_of_id h := by cases h

/-- The entry of a job. -/
theorem exists_describes (h : l.Mirrors t) (hj : t.get? id = some job) :
    ∃ x ∈ l.jobs, x.id = id ∧ x.left ≠ [] ∧ x.Describes job := by
  obtain ⟨x, hx, hleft, rfl⟩ := h.exists_entry hj
  obtain ⟨job', hj', hd⟩ := h.describes hx hleft
  obtain rfl := Option.some.inj (hj.symm.trans hj')
  exact ⟨x, hx, rfl, hleft, hd⟩

/-- No two entries have a process in common. -/
theorem eq_of_mem (h : l.Mirrors t) (hc : t.Coherent) {y : JobEntry} (hx : x ∈ l.jobs)
    (hy : y ∈ l.jobs) (hpx : pid ∈ x.left) (hpy : pid ∈ y.left) : x = y := by
  obtain ⟨job, hj, hd⟩ := h.describes hx (List.ne_nil_of_mem hpx)
  obtain ⟨job', hj', hd'⟩ := h.describes hy (List.ne_nil_of_mem hpy)
  refine h.eq_of_id hx hy (List.ne_nil_of_mem hpx) (List.ne_nil_of_mem hpy) ?_
  exact hc.eq_of_mem hj hj' (hd.pids ▸ hpx) (hd'.pids ▸ hpy)

theorem start {t' : JobTable} (h : l.Mirrors t) (hdemoted : x.demoted = false)
    (hi : t.insert? x.line x.group x.left x.detached = some (x.id, t')) :
    (l.start x).Mirrors t' := by
  obtain ⟨last, hlast, -, -, hid, -⟩ := JobTable.insert?_eq_some_iff.1 hi
  have hget := JobTable.get?_insert? hi hlast
  have hfresh : t.get? x.id = none := hid ▸ t.get?_freshId.2
  -- The number is not that of a job that is open.
  have hnew : ∀ {y}, y ∈ l.jobs → y.left ≠ [] → y.id ≠ x.id := by
    intro y hy hleft he
    obtain ⟨job, hj, -⟩ := h.describes hy hleft
    rw [he, hfresh] at hj
    cases hj
  constructor
  case describes =>
    intro y hy hleft
    rcases List.mem_append.1 hy with hy | hy
    · rw [hget, if_neg (hnew hy hleft)]
      exact h.describes hy hleft
    · obtain rfl := List.mem_singleton.1 hy
      refine ⟨_, (hget _).trans (if_pos rfl), rfl, rfl, rfl, ?_⟩
      simp [JobEntry.background, hdemoted]
  case exists_entry =>
    intro id job hj
    rw [hget] at hj
    split at hj
    · next he =>
      refine ⟨x, List.mem_append_right _ (List.mem_singleton_self x), ?_, he.symm⟩
      exact List.ne_nil_of_mem (List.mem_of_getLast? hlast)
    · obtain ⟨y, hy, hleft, he⟩ := h.exists_entry hj
      exact ⟨y, List.mem_append_left _ hy, hleft, he⟩
  case eq_of_id =>
    intro y z hy hz hly hlz he
    rcases List.mem_append.1 hy with hy' | hy' <;> rcases List.mem_append.1 hz with hz' | hz'
    · exact h.eq_of_id hy' hz' hly hlz he
    · obtain rfl := List.mem_singleton.1 hz'
      exact absurd he (hnew hy' hly)
    · obtain rfl := List.mem_singleton.1 hy'
      exact absurd he.symm (hnew hz' hlz)
    · rw [List.mem_singleton.1 hy', List.mem_singleton.1 hz']

/-- A stop of the job in the foreground sends it to the background. -/
theorem stop (h : l.Mirrors t) (hc : t.Coherent) (hx : x ∈ l.jobs) (hs : x.stopsAt pid = true) :
    (l.stop pid).Mirrors (t.setBackground x.id) := by
  have hpx := (JobEntry.stopsAt_iff.1 hs).1
  have hget := JobTable.get?_setBackground t x.id
  -- All other entries stay as they are.
  have hother : ∀ {y}, y ∈ l.jobs → y ≠ x → y.stop pid = y := by
    intro y hy hne
    refine JobEntry.stop_of_not (Bool.eq_false_iff.2 fun hs' => hne ?_)
    exact h.eq_of_mem hc hy hx (JobEntry.stopsAt_iff.1 hs').1 hpx
  constructor
  case describes =>
    intro y' hy' hleft
    obtain ⟨y, hy, rfl⟩ := List.mem_map.1 hy'
    obtain ⟨job, hj, hd⟩ := h.describes hy hleft
    by_cases hyx : y = x
    · subst hyx
      refine ⟨{ job with background := true }, ?_, hd.group, hd.line, hd.pids, ?_⟩
      · exact (hget _).trans ((if_pos rfl).trans (by rw [hj]; rfl))
      · simp [JobEntry.background, JobEntry.stop, hs]
    · rw [hother hy hyx, hget, if_neg fun he => hyx (h.eq_of_id hy hx hleft ?_ he)]
      · exact ⟨job, hj, hd⟩
      · exact List.ne_nil_of_mem hpx
  case exists_entry =>
    intro id job hj
    have hbefore : t.get? id ≠ none := by
      intro hnone
      rw [hget] at hj
      split at hj
      · next he =>
        rw [← he, hnone] at hj
        cases hj
      · cases hnone.symm.trans hj
    obtain ⟨job', hj'⟩ := Option.ne_none_iff_exists'.1 hbefore
    obtain ⟨y, hy, hleft, he⟩ := h.exists_entry hj'
    exact ⟨y.stop pid, List.mem_map_of_mem hy, hleft, he⟩
  case eq_of_id =>
    intro y' z' hy' hz' hly hlz he
    obtain ⟨y, hy, rfl⟩ := List.mem_map.1 hy'
    obtain ⟨z, hz, rfl⟩ := List.mem_map.1 hz'
    rw [h.eq_of_id hy hz hly hlz he]

/-- A process that is collected is taken from its job, and a job without processes is closed. -/
theorem collect (h : l.Mirrors t) (hc : t.Coherent) (pid : Pid) (status : Int) :
    (l.collect pid).Mirrors (t.remove pid status).2 := by
  constructor
  case describes =>
    intro y hy hleft
    obtain ⟨x, hx, rfl⟩ := List.mem_map.1 hy
    obtain ⟨job, hj, hd⟩ := h.describes hx (JobEntry.left_ne_nil_of_collect hleft)
    by_cases hp : pid ∈ x.left
    · have hd' := hd.collect pid status
      refine ⟨job.collect pid status, ?_, hd'⟩
      exact (hc.get?_remove_of_mem status hj (hd.pids ▸ hp)).trans (if_neg (hd'.pids ▸ hleft))
    · rw [JobEntry.collect_of_not_mem hp]
      exact ⟨job, hc.get?_remove_of_not_mem status hj (hd.pids ▸ hp), hd⟩
  case exists_entry =>
    intro id job hj
    rcases hc.get?_remove_cases hj with ⟨hb, hp⟩ | ⟨before, hb, -, rfl, hleft⟩
    · obtain ⟨x, hx, hid, hleft, hd⟩ := h.exists_describes hb
      refine ⟨x.collect pid, List.mem_map_of_mem hx, ?_, hid⟩
      rwa [JobEntry.collect_of_not_mem (hd.pids ▸ hp)]
    · obtain ⟨x, hx, hid, -, hd⟩ := h.exists_describes hb
      exact ⟨x.collect pid, List.mem_map_of_mem hx, (hd.collect pid status).pids ▸ hleft, hid⟩
  case eq_of_id =>
    intro y' z' hy' hz' hly hlz he
    obtain ⟨y, hy, rfl⟩ := List.mem_map.1 hy'
    obtain ⟨z, hz, rfl⟩ := List.mem_map.1 hz'
    rw [h.eq_of_id hy hz (JobEntry.left_ne_nil_of_collect hly)
      (JobEntry.left_ne_nil_of_collect hlz) he]

end Mirrors

end Ledger

end PipelineShell
