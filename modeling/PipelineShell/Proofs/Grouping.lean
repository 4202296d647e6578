/-
One process group for a pipeline.

A stage is put into the group of its pipeline twice: by the shell, right after
the fork, and by itself, before it executes its command.  Nobody knows which of
the two comes first, and neither looks at the answer.  The shell is refused once
the stage has executed its command, and a stage may end before it has done
anything; but the two of them together never miss.

* `Roll.meets_launch` — what the shell forks and where it puts it, whatever it is
  answered;
* `Gathering` — the shell that launches a line, its stages, each one on its way,
  and the groups of all other processes;
* `Gathering.Joins` — what may be answered to somebody who puts a process into a
  group;
* `Gathering.Gathered`, `Gathering.Gathered.moves` — every stage is in the group
  of the first one, or somebody has still to put it there;
* `grouped_of_launched` — so it is there when it executes its command, and all
  of them are when the launch is done.

Design notes: what keeps the group of the first stage alive while others join
it is the first stage itself, even when it has ended, because nothing is
collected while the shell launches a line.  After that every stage is in the
group already and keeps it alive on its own.
-/
import Mathlib.Data.List.Nodup
import Mathlib.Data.Set.Defs
import Mathlib.Logic.Relation
import PipelineShell.Proofs.Wiring

namespace PipelineShell

open Program

/-! ### What the shell does -/

/-- The request starts a process or puts one into a group. -/
def Request.gathers {τ : Type} : Request τ → Bool
  | .fork _ => true
  | .setGroup _ _ => true
  | _ => false

theorem Request.gathers_of_isPrivate {τ : Type} {r : Request τ} (h : r.isPrivate = true) :
    r.gathers = false := by
  cases r <;> first | rfl | cases h

/-- The processes that the shell has forked for a line. -/
structure Roll where
  /-- In the order of their stages. -/
  forked : List Pid := []
  /-- The last of them, if the shell has not put it into its group yet. -/
  pending : Option Pid := none

namespace Roll

/-- The process of the first stage, or 0 if there is none yet. -/
def leader (forked : List Pid) : Pid := forked.head?.getD 0

theorem leader_append_of_ne_nil {forked : List Pid} (h : forked ≠ []) (pids : List Pid) :
    leader (forked ++ pids) = leader forked := by
  cases forked with
  | nil => exact absurd rfl h
  | cons first rest => rfl

/-- How an answered call of the shell is written down. -/
inductive Notes (s : Roll) : (r : Request Task) → r.Answer → Roll → Prop
  | fork {child : Task} (pid : Pid) :
      Notes s (.fork child) (.ok pid) ⟨s.forked ++ [pid], some pid⟩
  | forkFailed {child : Task} (e : Errno) : Notes s (.fork child) (.error e) s
  | setGroup {child group : Pid} (answer : Except Errno Unit) :
      Notes s (.setGroup child group) answer { s with pending := none }
  | other {r : Request Task} (h : r.gathers = false) (answer : r.Answer) : Notes s r answer s

/-- What is expected of the shell: it forks a stage that will join the group of the first one, and
then it puts the process into that group before it does anything else. -/
def Expects (s : Roll) : Request Task → Prop
  | .fork child => s.pending = none ∧ ∃ stage : Stage, child = .stage stage ∧
      stage.group = leader s.forked
  | .setGroup child group => s.pending = some child ∧ ∃ earlier, s.forked = earlier ++ [child] ∧
      group = leader earlier
  | _ => s.pending = none

theorem expects_iff_of_gathers {s : Roll} {r : Request Task} (h : r.gathers = false) :
    s.Expects r ↔ s.pending = none := by
  cases r <;> first | rfl | cases h

/-- What is expected of the result. -/
structure Returns (s : Roll) (result : Except LaunchError Spawned) : Prop where
  pending : s.pending = none
  ok : ∀ {spawned : Spawned}, result = .ok spawned → spawned = ⟨leader s.forked, s.forked⟩
  fork : ∀ {pids : List Pid} {e : Errno}, result = .error (.fork pids e) → pids = s.forked

/-- Calls that have nothing to do with processes leave everything as it is. -/
theorem meets_of_makes {α : Type} {p : Program Task α} {s : Roll} {Q : Roll → α → Prop}
    (h : p.Makes fun r => r.gathers = false) (hs : s.pending = none) (hQ : ∀ a, Q s a) :
    p.Meets Notes Expects Q s := by
  induction p with
  | done a => exact hQ a
  | call r next ih =>
    have hr : r.gathers = false := h.1
    refine ⟨(expects_iff_of_gathers hr).2 hs, fun answer s' hnotes => ?_⟩
    have hsame : s' = s := by
      cases hnotes with
      | other _ _ => rfl
      | _ => cases hr
    rw [hsame]
    exact ih answer (h.next answer)

theorem meets_forkStages {plan : Plan} {terminal : Option Descriptor} {pipes : List Pipe}
    {Q : Roll → Except LaunchError (List Pid) → Prop}
    (hok : ∀ pids, Q ⟨pids, none⟩ (.ok pids))
    (herr : ∀ pids e, Q ⟨pids, none⟩ (.error (.fork pids e))) :
    ∀ (stages : List (List String)) (spawned : List Pid),
      (plan.forkStages Task.stage terminal pipes stages spawned).Meets Notes Expects Q
        ⟨spawned, none⟩
  | [], spawned => hok spawned
  | arguments :: rest, spawned => by
    rw [Plan.forkStages, meets_bind, meets_ask]
    refine ⟨⟨rfl, _, rfl, rfl⟩, fun answer s hnotes => ?_⟩
    cases hnotes with
    | forkFailed e => exact herr spawned e
    | other h _ => cases h
    | fork pid =>
      refine (meets_bind _ _).2 (meets_ask.2 ⟨⟨rfl, spawned, rfl, rfl⟩, fun answer s hnotes => ?_⟩)
      cases hnotes with
      | other h _ => cases h
      | setGroup _ => exact meets_forkStages hok herr rest (spawned ++ [pid])

/-- **What the shell does when it launches a line.** -/
theorem meets_launch (line : CommandLine) (terminal : Option Descriptor) :
    (line.launch Task.stage terminal).Meets Notes Expects Returns {} := by
  rw [CommandLine.launch]
  cases hplan : Plan.ofCommandLine line with
  | error e =>
    obtain ⟨position, rfl⟩ := Plan.ofCommandLine_eq_error hplan
    exact ⟨rfl, fun h => (by cases h), fun h => (by cases h)⟩
  | ok plan =>
    refine (meets_bind _ _).2 (meets_of_makes ?_ rfl fun made => ?_)
    · exact makes_createPipes (R := fun r => r.gathers = false) (fun _ => rfl) rfl _ _
    cases made with
    | error e => exact ⟨rfl, fun h => (by cases h), fun h => (by cases h)⟩
    | ok pipes =>
      have hclose : ∀ {s : Roll} {result : Except LaunchError (List Pid)}, s.pending = none →
          Returns s (result.map fun pids => { group := pids.head?.getD 0, pids }) →
          (closePipes pipes >>= fun _ => .done (result.map fun pids =>
            { group := pids.head?.getD 0, pids }) : Program Task _).Meets Notes Expects Returns s :=
        fun hs hreturns => (meets_bind _ _).2
          (meets_of_makes (makes_closePipes (fun _ => rfl) pipes) hs fun _ => hreturns)
      refine (meets_bind _ _).2 (meets_forkStages (fun pids => ?_) (fun pids e => ?_) _ _)
      · exact hclose rfl ⟨rfl, fun h => (by cases h; rfl), fun h => (by cases h)⟩
      · exact hclose rfl ⟨rfl, fun h => (by cases h), fun h => (by cases h; rfl)⟩

end Roll

/-! ### The shell and its stages -/

/-- How far a stage has got. -/
inductive Progress where
  /-- It has still to make these calls. -/
  | preparing (rest : Program Task Task)
  /-- It has executed its command. -/
  | executing
  /-- It has ended, after it has executed its command or before, and has not been collected. -/
  | ended (executed : Bool)
  | collected

namespace Progress

/-- The process has executed a file. -/
def hasExecuted : Progress → Bool
  | .executing => true
  | .ended executed => executed
  | _ => false

def isAlive : Progress → Bool
  | .preparing _ => true
  | .executing => true
  | _ => false

/-- The next call of the process executes its command, if it can be executed. -/
def Executes (p : Progress) : Prop :=
  ∃ name arguments next, p = .preparing (.call (.executeCommand name arguments) next)

end Progress

structure Member where
  pid : Pid
  group : Pid
  progress : Progress

/-- The shell that launches a line, with the calls that it has still to make, and the stages that it
has forked. -/
structure Gathering where
  /-- The group of the shell, in which a stage begins. -/
  home : Pid
  rest : Program Task (Except LaunchError Spawned)
  stages : List Member := []
  /-- The groups of all other processes. -/
  elsewhere : Set Pid := {}

namespace Gathering

/-- The beginning: no call has been made. -/
def launch (line : CommandLine) (terminal : Option Descriptor) (home : Pid) (elsewhere : Set Pid) :
    Gathering where
  home := home
  rest := line.launch .stage terminal
  elsewhere := elsewhere

def pids (a : Gathering) : List Pid := a.stages.map Member.pid

/-- The group of the pipeline: the process of the first stage. -/
def leader (a : Gathering) : Pid := Roll.leader a.pids

/-- A group is there as long as it has a process that has not been collected. -/
def HasGroup (a : Gathering) (group : Pid) : Prop :=
  group ∈ a.elsewhere ∨ ∃ m ∈ a.stages, m.progress ≠ .collected ∧ m.group = group

/-- What is answered when a process is put into a group, and the process afterwards; 0 stands for
its own number.  It may have a group of its own at any time, and join one that is there. -/
inductive Joins (a : Gathering) (m : Member) (group : Pid) : Except Errno Unit → Member → Prop
  | own (h : group = 0 ∨ group = m.pid) : Joins a m group (.ok ()) { m with group := m.pid }
  | join (hzero : group ≠ 0) (h : a.HasGroup group) : Joins a m group (.ok ()) { m with group }
  | refused (hzero : group ≠ 0) (hother : group ≠ m.pid) (h : ¬ a.HasGroup group) :
      Joins a m group (.error .eperm) m

/-- One thing that may happen next.  A stage may end at any time, and also the processes elsewhere
do what they like; but no stage is collected while the shell launches the line. -/
inductive Moves (a : Gathering) : Gathering → Prop
  | fork {child : Task} {next : Except Errno Pid → Program Task (Except LaunchError Spawned)}
      {pid : Pid} (h : a.rest = .call (.fork child) next) (pos : 0 < pid) (new : pid ∉ a.pids) :
      Moves a
        { a with
          rest := next (.ok pid)
          stages := a.stages ++
            [{ pid, group := a.home, progress := .preparing child.round }] }
  | forkFailed {child : Task} {next : Except Errno Pid → Program Task (Except LaunchError Spawned)}
      (h : a.rest = .call (.fork child) next) (e : Errno) :
      Moves a { a with rest := next (.error e) }
  /-- The shell puts a stage into a group, also one that has ended. -/
  | place {i : Nat} {m m' : Member} {group : Pid} {answer : Except Errno Unit}
      {next : Except Errno Unit → Program Task (Except LaunchError Spawned)}
      (h : a.rest = .call (.setGroup m.pid group) next) (hi : a.stages[i]? = some m)
      (fresh : m.progress.hasExecuted = false) (joins : a.Joins m group answer m') :
      Moves a { a with rest := next answer, stages := a.stages.set i m' }
  /-- The stage has executed its command already. -/
  | placeFailed {m : Member} {group : Pid}
      {next : Except Errno Unit → Program Task (Except LaunchError Spawned)}
      (h : a.rest = .call (.setGroup m.pid group) next) (hm : m ∈ a.stages)
      (executed : m.progress.hasExecuted = true) :
      Moves a { a with rest := next (.error .eacces) }
  | call {r : Request Task} {next : r.Answer → Program Task (Except LaunchError Spawned)}
      (h : a.rest = .call r next) (hr : r.gathers = false) (answer : r.Answer) :
      Moves a { a with rest := next answer }
  /-- A stage puts itself into a group. -/
  | join {i : Nat} {m m' : Member} {target group : Pid} {answer : Except Errno Unit}
      {next : Except Errno Unit → Program Task Task} (hi : a.stages[i]? = some m)
      (hp : m.progress = .preparing (.call (.setGroup target group) next))
      (self : target = 0 ∨ target = m.pid) (joins : a.Joins m group answer m') :
      Moves a { a with stages := a.stages.set i { m' with progress := .preparing (next answer) } }
  | prepare {i : Nat} {m : Member} {r : Request Task} {next : r.Answer → Program Task Task}
      (hi : a.stages[i]? = some m) (hp : m.progress = .preparing (.call r next))
      (hr : r.gathers = false) (answer : r.Answer) :
      Moves a { a with stages := a.stages.set i { m with progress := .preparing (next answer) } }
  | execute {i : Nat} {m : Member} (hi : a.stages[i]? = some m) (hp : m.progress.Executes) :
      Moves a { a with stages := a.stages.set i { m with progress := .executing } }
  | finish {i : Nat} {m : Member} (hi : a.stages[i]? = some m) (alive : m.progress.isAlive = true) :
      Moves a
        { a with
          stages := a.stages.set i { m with progress := .ended m.progress.hasExecuted } }
  | collect {i : Nat} {m : Member} {executed : Bool} {result : Except LaunchError Spawned}
      (hi : a.stages[i]? = some m) (hp : m.progress = .ended executed)
      (launched : a.rest = .done result) :
      Moves a { a with stages := a.stages.set i { m with progress := .collected } }
  | others (groups : Set Pid) : Moves a { a with elsewhere := groups }

/-! ### Every stage is put there -/

/-- A stage is in the group of the first one, or somebody has still to put it there: the shell as
long as the stage has not executed its command, and the stage itself before it does. -/
structure Fits (leader : Pid) (pending : Option Pid) (m : Member) : Prop where
  placed : pending ≠ some m.pid → m.group = leader
  executed : m.progress.hasExecuted = true → m.group = leader
  preparing : ∀ {rest : Program Task Task}, m.progress = .preparing rest →
    (∃ stage : Stage, rest = stage.program ∧
        stage.group = if m.pid = leader then 0 else leader) ∨
      m.group = leader ∧ rest.Makes fun r => r.gathers = false

/-- All stages are like that, and the shell does what is expected of it; `pending` is the stage that
it has just forked. -/
structure Gathered (a : Gathering) (pending : Option Pid) : Prop where
  shell : a.rest.Meets Roll.Notes Roll.Expects Roll.Returns ⟨a.pids, pending⟩
  distinct : a.pids.Nodup
  positive : ∀ m ∈ a.stages, 0 < m.pid
  fits : ∀ m ∈ a.stages, Fits a.leader pending m
  uncollected : ∀ m ∈ a.stages, m.progress = .collected → ∃ result, a.rest = .done result

variable {a a' : Gathering} {pending : Option Pid} {i : Nat} {m m' : Member}

/-! #### Changing one stage -/

theorem pids_set (hi : a.stages[i]? = some m) (hpid : m'.pid = m.pid) :
    (a.stages.set i m').map Member.pid = a.pids := by
  obtain ⟨hlt, rfl⟩ := List.getElem?_eq_some_iff.1 hi
  rw [List.map_set, hpid, pids]
  refine List.ext_getElem? fun j => ?_
  rw [List.getElem?_set]
  split
  · next hij =>
    subst hij
    simp [hlt]
  · rfl

/-- The other stages have other numbers. -/
theorem mem_set_cases (hd : a.pids.Nodup) (hi : a.stages[i]? = some m) {x : Member}
    (hx : x ∈ a.stages.set i m') : x = m' ∨ x ∈ a.stages ∧ x.pid ≠ m.pid := by
  obtain ⟨j, hj⟩ := List.mem_iff_getElem?.1 hx
  rw [List.getElem?_set] at hj
  split at hj
  · split at hj
    · exact .inl (Option.some.inj hj).symm
    · cases hj
  · next hij =>
    refine .inr ⟨List.mem_of_getElem? hj, fun hpid => hij ?_⟩
    have hlt : i < a.pids.length := by
      rw [pids, List.length_map]
      exact (List.getElem?_eq_some_iff.1 hi).1
    refine (List.getElem?_inj hlt hd).1 ?_
    rw [pids, List.getElem?_map, List.getElem?_map, hi, hj, Option.map_some, Option.map_some, hpid]

/-- One stage has gone on, and perhaps the shell. -/
theorem Gathered.update (h : a.Gathered pending) (hi : a.stages[i]? = some m)
    {rest : Program Task (Except LaunchError Spawned)} {pending' : Option Pid}
    (shell : rest.Meets Roll.Notes Roll.Expects Roll.Returns ⟨a.pids, pending'⟩)
    (fits : Fits a.leader pending' m') (hpid : m'.pid = m.pid)
    (others : ∀ x ∈ a.stages, x.pid ≠ m.pid → Fits a.leader pending' x)
    (uncollected : ∀ x, x = m' ∨ x ∈ a.stages → x.progress = .collected →
      ∃ result, rest = .done result) :
    Gathered { a with rest, stages := a.stages.set i m' } pending' := by
  have hpids : pids { a with rest, stages := a.stages.set i m' } = a.pids := pids_set hi hpid
  constructor
  case shell => rw [hpids]; exact shell
  case distinct => rw [hpids]; exact h.distinct
  case positive =>
    intro x hx
    rcases mem_set_cases h.distinct hi hx with rfl | ⟨hx, -⟩
    · exact hpid ▸ h.positive m (List.mem_of_getElem? hi)
    · exact h.positive x hx
  case fits =>
    intro x hx
    rw [leader, hpids]
    rcases mem_set_cases h.distinct hi hx with rfl | ⟨hx, hne⟩
    · exact fits
    · exact others x hx hne
  case uncollected =>
    intro x hx
    exact uncollected x ((mem_set_cases h.distinct hi hx).imp_right And.left)

/-- One stage has gone on by itself. -/
theorem Gathered.set (h : a.Gathered pending) (hi : a.stages[i]? = some m)
    (hpid : m'.pid = m.pid) (fits : Fits a.leader pending m')
    (uncollected : m'.progress = .collected → ∃ result, a.rest = .done result) :
    Gathered { a with stages := a.stages.set i m' } pending := by
  refine h.update hi h.shell fits hpid (fun x hx _ => h.fits x hx) ?_
  rintro x (rfl | hx)
  · exact uncollected
  · exact h.uncollected x hx

/-! #### Joining -/

theorem exists_first (hm : m ∈ a.stages) : ∃ first ∈ a.stages, first.pid = a.leader := by
  cases hs : a.stages with
  | nil =>
    rw [hs] at hm
    cases hm
  | cons first rest =>
    refine ⟨first, List.mem_cons_self, ?_⟩
    rw [leader, pids, hs]
    rfl

theorem Gathered.leader_pos (h : a.Gathered pending) (hm : m ∈ a.stages) : 0 < a.leader := by
  obtain ⟨first, hfirst, hpid⟩ := exists_first hm
  exact hpid ▸ h.positive first hfirst

/-- Nothing has been collected as long as the shell has something to do. -/
theorem Gathered.not_collected (h : a.Gathered pending) (hm : m ∈ a.stages)
    {r : Request Task} {next : r.Answer → Program Task (Except LaunchError Spawned)}
    (hrest : a.rest = .call r next) : m.progress ≠ .collected := by
  intro hp
  obtain ⟨result, hdone⟩ := h.uncollected m hm hp
  cases hrest.symm.trans hdone

/-- **While a stage may join the group of the first one, that group is there.** -/
theorem Gathered.hasGroup_leader (h : a.Gathered pending) (hm : m ∈ a.stages)
    (hp : m.progress ≠ .collected) (hne : m.pid ≠ a.leader) : a.HasGroup a.leader := by
  by_cases hpending : pending = some m.pid
  · -- The first stage has been put there before, and has not been collected.
    obtain ⟨first, hfirst, hpid⟩ := exists_first hm
    have hplaced : pending ≠ some first.pid := by
      rw [hpending, hpid]
      exact fun heq => hne (Option.some.inj heq)
    refine .inr ⟨first, hfirst, fun hcollected => ?_, (h.fits first hfirst).placed hplaced⟩
    obtain ⟨result, hdone⟩ := h.uncollected first hfirst hcollected
    have hshell := h.shell
    rw [hdone] at hshell
    cases hpending.symm.trans hshell.pending
  -- Otherwise the stage itself is in it.
  · exact .inr ⟨m, hm, hp, (h.fits m hm).placed hpending⟩

/-- Who puts a stage into its group succeeds. -/
theorem Gathered.eq_of_joins (h : a.Gathered pending) (hm : m ∈ a.stages)
    (hp : m.progress ≠ .collected) {group : Pid} {answer : Except Errno Unit}
    (hgroup : group = if m.pid = a.leader then 0 else a.leader)
    (joins : a.Joins m group answer m') : m' = { m with group := a.leader } := by
  have hpos := h.leader_pos hm
  by_cases hfirst : m.pid = a.leader
  · rw [if_pos hfirst] at hgroup
    cases joins with
    | own _ => rw [hfirst]
    | join hzero _ => exact absurd hgroup hzero
    | refused hzero _ _ => exact absurd hgroup hzero
  · rw [if_neg hfirst] at hgroup
    cases joins with
    | own hown =>
      rcases hown with hzero | hown
      · exact absurd (hgroup.symm.trans hzero) (Int.ne_of_gt hpos)
      · exact absurd (hown.symm.trans hgroup) hfirst
    | join _ _ => rw [hgroup]
    | refused _ _ hnone => exact absurd (hgroup ▸ h.hasGroup_leader hm hp hfirst) hnone

/-! #### The steps -/

theorem Gathered.fork (h : a.Gathered pending) {child : Task} {pid : Pid}
    {next : Except Errno Pid → Program Task (Except LaunchError Spawned)}
    (hrest : a.rest = .call (.fork child) next) (pos : 0 < pid) (new : pid ∉ a.pids) :
    Gathered
      { a with
        rest := next (.ok pid)
        stages := a.stages ++ [{ pid, group := a.home, progress := .preparing child.round }] }
      (some pid) := by
  have hshell := h.shell
  rw [hrest] at hshell
  obtain ⟨⟨hpending, stage, rfl, hgroup⟩, hnext⟩ := hshell
  replace hpending : pending = none := hpending
  have hpids : pids
      { a with
        rest := next (.ok pid)
        stages := a.stages ++
          [{ pid, group := a.home, progress := .preparing (Task.stage stage).round }] } =
        a.pids ++ [pid] := List.map_append
  constructor
  case shell =>
    rw [hpids]
    exact hnext (.ok pid) _ (.fork pid)
  case distinct =>
    rw [hpids]
    refine List.nodup_append.2 ⟨h.distinct, List.nodup_singleton pid, fun q hq r hr => ?_⟩
    rw [List.mem_singleton.1 hr]
    exact fun heq => new (heq ▸ hq)
  case positive =>
    intro x hx
    rcases List.mem_append.1 hx with hx | hx
    · exact h.positive x hx
    · rw [List.mem_singleton.1 hx]
      exact pos
  case fits =>
    intro x hx
    rw [leader, hpids]
    rcases List.mem_append.1 hx with hx | hx
    · -- A stage from before has been put there, and the first one is still the same.
      have hne : a.pids ≠ [] := List.ne_nil_of_mem (List.mem_map_of_mem hx)
      rw [Roll.leader_append_of_ne_nil hne]
      have hfits := h.fits x hx
      exact ⟨fun _ => hfits.placed (by simp [hpending]), hfits.executed, hfits.preparing⟩
    · rw [List.mem_singleton.1 hx]
      refine ⟨fun hne => absurd rfl hne, fun hex => (by cases hex), fun hp => ?_⟩
      cases hp
      refine .inl ⟨stage, rfl, hgroup.trans ?_⟩
      show Roll.leader a.pids = if pid = Roll.leader (a.pids ++ [pid]) then 0 else _
      by_cases hnil : a.pids = []
      · rw [hnil]
        exact (if_pos rfl).symm
      · rw [Roll.leader_append_of_ne_nil hnil, if_neg]
        rintro rfl
        refine new ?_
        obtain ⟨first, rest, hcons⟩ := List.exists_cons_of_ne_nil hnil
        rw [hcons]
        exact List.mem_cons_self
  case uncollected =>
    intro x hx hp
    rcases List.mem_append.1 hx with hx | hx
    · exact absurd hp (h.not_collected hx hrest)
    · rw [List.mem_singleton.1 hx] at hp
      cases hp

/-- The shell puts a stage into its group, or finds that the stage has done so itself. -/
theorem Gathered.of_setGroup (h : a.Gathered pending) {group : Pid}
    {next : Except Errno Unit → Program Task (Except LaunchError Spawned)}
    (hrest : a.rest = .call (.setGroup m.pid group) next) :
    pending = some m.pid ∧ group = (if m.pid = a.leader then 0 else a.leader) ∧
      ∀ answer, (next answer).Meets Roll.Notes Roll.Expects Roll.Returns ⟨a.pids, none⟩ := by
  have hshell := h.shell
  rw [hrest] at hshell
  obtain ⟨⟨hpending, earlier, hforked, hgroup⟩, hnext⟩ := hshell
  replace hforked : a.pids = earlier ++ [m.pid] := hforked
  refine ⟨hpending, hgroup.trans ?_, fun answer => hnext answer _ (.setGroup answer)⟩
  have hleader : a.leader = Roll.leader (earlier ++ [m.pid]) := congrArg _ hforked
  by_cases hnil : earlier = []
  · rw [hleader, hnil]
    exact (if_pos rfl).symm
  · rw [hleader, Roll.leader_append_of_ne_nil hnil, if_neg]
    intro heq
    have hd := h.distinct
    rw [hforked] at hd
    obtain ⟨first, rest, rfl⟩ := List.exists_cons_of_ne_nil hnil
    exact (List.nodup_append.1 hd).2.2 first List.mem_cons_self m.pid (List.mem_singleton_self _)
      heq.symm

/-- A stage has joined its group before it executes its command. -/
theorem Fits.eq_of_executes {leader : Pid} (h : Fits leader pending m)
    (hexec : m.progress.Executes) : m.group = leader := by
  obtain ⟨name, arguments, next, hp⟩ := hexec
  rcases h.preparing hp with ⟨stage, hprogram, -⟩ | ⟨hgroup, -⟩
  · rw [Stage.program_eq, Stage.settle_eq] at hprogram
    cases hprogram
  · exact hgroup

/-- When the shell is done with a stage, the others are where they were. -/
theorem Fits.of_placed {leader : Pid} {x : Member} (h : Fits leader pending x)
    (hne : pending ≠ some x.pid) : Fits leader none x :=
  ⟨fun _ => h.placed hne, h.executed, h.preparing⟩

theorem Gathered.place (h : a.Gathered pending) {group : Pid} {answer : Except Errno Unit}
    {next : Except Errno Unit → Program Task (Except LaunchError Spawned)}
    (hrest : a.rest = .call (.setGroup m.pid group) next) (hi : a.stages[i]? = some m)
    (joins : a.Joins m group answer m') :
    Gathered { a with rest := next answer, stages := a.stages.set i m' } none := by
  have hm := List.mem_of_getElem? hi
  have hleft := h.not_collected hm hrest
  obtain ⟨hpending, hgroup, hshell⟩ := h.of_setGroup hrest
  obtain rfl := h.eq_of_joins hm hleft hgroup joins
  have hfits : Fits a.leader none { m with group := a.leader } :=
    ⟨fun _ => rfl, fun _ => rfl, fun hp =>
      ((h.fits m hm).preparing hp).imp_right fun hmakes => ⟨rfl, hmakes.2⟩⟩
  refine h.update hi (hshell answer) hfits rfl (fun x hx hne => (h.fits x hx).of_placed ?_) ?_
  · rw [hpending]
    exact fun heq => hne (Option.some.inj heq).symm
  · rintro x (rfl | hx) hp
    · exact absurd hp hleft
    · exact absurd hp (h.not_collected hx hrest)

/-- The shell comes too late, because the stage has joined its group and executed its command. -/
theorem Gathered.placeFailed (h : a.Gathered pending) {group : Pid}
    {next : Except Errno Unit → Program Task (Except LaunchError Spawned)}
    (hrest : a.rest = .call (.setGroup m.pid group) next) (hm : m ∈ a.stages)
    (executed : m.progress.hasExecuted = true) (answer : Except Errno Unit) :
    Gathered { a with rest := next answer } none := by
  obtain ⟨hpending, -, hshell⟩ := h.of_setGroup hrest
  refine ⟨hshell answer, h.distinct, h.positive, fun x hx => ?_, fun x hx hp => ?_⟩
  · have hfits := h.fits x hx
    by_cases hx' : pending = some x.pid
    · obtain rfl : x = m :=
        List.inj_on_of_nodup_map h.distinct hx hm (Option.some.inj (hx'.symm.trans hpending))
      exact ⟨fun _ => hfits.executed executed, hfits.executed, hfits.preparing⟩
    · exact hfits.of_placed hx'
  · exact absurd hp (h.not_collected hx hrest)

theorem Gathered.join (h : a.Gathered pending) {target group : Pid} {answer : Except Errno Unit}
    {next : Except Errno Unit → Program Task Task} (hi : a.stages[i]? = some m)
    (hp : m.progress = .preparing (.call (.setGroup target group) next))
    (joins : a.Joins m group answer m') :
    Gathered { a with stages := a.stages.set i { m' with progress := .preparing (next answer) } }
      pending := by
  have hm := List.mem_of_getElem? hi
  rcases (h.fits m hm).preparing hp with ⟨stage, hprogram, hgroup⟩ | ⟨-, hmakes⟩
  · rw [Stage.program_eq, Stage.settle_eq] at hprogram
    cases hprogram
    obtain rfl := h.eq_of_joins hm (by simp [hp]) hgroup joins
    -- From here on the stage leaves its group alone.
    have hrest : (stage.takeTerminal >>= fun _ => stage.work : Program Task Task).Makes
        fun r => r.gathers = false :=
      (Stage.makes_takeTerminal (R := fun r => r.gathers = false) rfl (fun _ _ => rfl)
        (fun _ _ => rfl) stage).bind
        fun _ => stage.makes_work fun r hr => Request.gathers_of_isPrivate hr
    exact h.set hi rfl ⟨fun _ => rfl, fun _ => rfl,
      fun heq => .inr ⟨rfl, Progress.preparing.inj heq ▸ hrest⟩⟩ fun hc => by cases hc
  · cases hmakes.1

theorem Gathered.prepare (h : a.Gathered pending) {r : Request Task}
    {next : r.Answer → Program Task Task} (hi : a.stages[i]? = some m)
    (hp : m.progress = .preparing (.call r next)) (hr : r.gathers = false) (answer : r.Answer) :
    Gathered { a with stages := a.stages.set i { m with progress := .preparing (next answer) } }
      pending := by
  have hfits := h.fits m (List.mem_of_getElem? hi)
  refine h.set hi rfl ⟨hfits.placed, fun he => (by cases he), fun hrest => ?_⟩
    fun hc => (by cases hc)
  cases hrest
  rcases hfits.preparing hp with ⟨stage, hprogram, -⟩ | ⟨hgroup, hmakes⟩
  -- A stage that has not settled yet would put itself into its group.
  · rw [Stage.program_eq, Stage.settle_eq] at hprogram
    cases hprogram
    cases hr
  · exact .inr ⟨hgroup, hmakes.next answer⟩

theorem Gathered.moves (h : a.Gathered pending) (m : a.Moves a') :
    ∃ pending', a'.Gathered pending' := by
  cases m with
  | fork hrest pos new => exact ⟨_, h.fork hrest pos new⟩
  | forkFailed hrest e =>
    have hshell := h.shell
    rw [hrest] at hshell
    refine ⟨pending, hshell.2 _ _ (.forkFailed e), h.distinct, h.positive, h.fits, ?_⟩
    exact fun x hx hp => absurd hp (h.not_collected hx hrest)
  | place hrest hi fresh joins => exact ⟨_, h.place hrest hi joins⟩
  | placeFailed hrest hm executed => exact ⟨_, h.placeFailed hrest hm executed _⟩
  | call hrest hr answer =>
    have hshell := h.shell
    rw [hrest] at hshell
    refine ⟨pending, hshell.2 _ _ (.other hr answer), h.distinct, h.positive, h.fits, ?_⟩
    exact fun x hx hp => absurd hp (h.not_collected hx hrest)
  | join hi hp self joins => exact ⟨_, h.join hi hp joins⟩
  | prepare hi hp hr answer => exact ⟨_, h.prepare hi hp hr answer⟩
  | execute hi hp =>
    have hfits := h.fits _ (List.mem_of_getElem? hi)
    have hgroup := hfits.eq_of_executes hp
    exact ⟨pending, h.set hi rfl ⟨hfits.placed, fun _ => hgroup, fun hrest => (by cases hrest)⟩
      fun hc => (by cases hc)⟩
  | finish hi alive =>
    have hfits := h.fits _ (List.mem_of_getElem? hi)
    exact ⟨pending, h.set hi rfl ⟨hfits.placed, hfits.executed, fun hrest => (by cases hrest)⟩
      fun hc => (by cases hc)⟩
  | @collect i m executed result hi hp launched =>
    have hfits := h.fits m (List.mem_of_getElem? hi)
    exact ⟨pending, h.set hi rfl ⟨hfits.placed, fun he => (by cases he),
      fun hrest => (by cases hrest)⟩ fun _ => ⟨result, launched⟩⟩
  | others groups => exact ⟨pending, h.shell, h.distinct, h.positive, h.fits, h.uncollected⟩

theorem gathered_of_reaches {line : CommandLine} {terminal : Option Descriptor} {home : Pid}
    {elsewhere : Set Pid}
    (h : Relation.ReflTransGen Moves (launch line terminal home elsewhere) a) :
    ∃ pending, a.Gathered pending := by
  induction h with
  | refl =>
    exact ⟨none, Roll.meets_launch line terminal, List.nodup_nil, nofun, nofun, nofun⟩
  | tail _ m ih =>
    obtain ⟨pending, hgathered⟩ := ih
    exact hgathered.moves m

/-- The two calls may come in any order, and one of them may fail: here the first stage of `/a | /b`
ends at once and is put into its group afterwards, and the second one executes its command before
the shell can do anything for it. -/
theorem exists_overtaken : ∃ (a : Gathering) (first second : Member),
    Relation.ReflTransGen Moves
      (.launch ⟨.ofWords [.literal "/a", .operator .pipe, .literal "/b"], {}⟩ none 5 {5}) a ∧
      a.rest = .done (.ok ⟨7, [7, 8]⟩) ∧ a.stages = [first, second] ∧ first.pid = 7 ∧
      second.pid = 8 ∧ second.progress.hasExecuted = true := by
  have piped : Relation.ReflTransGen Moves
      (.launch ⟨.ofWords [.literal "/a", .operator .pipe, .literal "/b"], {}⟩ none 5 {5}) _ :=
    .tail .refl (.call (r := .pipe) rfl rfl (.ok (3, 4)))
  have forked := piped.tail (.fork rfl (by decide : (0 : Pid) < 7) (by decide))
  have ended := forked.tail (.finish (i := 0) rfl rfl)
  have placed := ended.tail (.place (i := 0) rfl rfl rfl (.own (.inl rfl)))
  have forked := placed.tail (.fork rfl (by decide : (0 : Pid) < 8) (by decide))
  -- The second stage joins the group of the first one, which has ended.
  have joined := forked.tail (.join (i := 1) rfl rfl (.inl rfl)
    (.join (by decide) (.inr ⟨_, List.mem_cons_self, nofun, rfl⟩)))
  have reset := joined.tail (.prepare (i := 1) (r := .setDisposition _ _) rfl rfl rfl (.ok ()))
  have settled := reset.tail (.prepare (i := 1) (r := .setDisposition _ _) rfl rfl rfl (.ok ()))
  have attached := settled.tail (.prepare (i := 1) (r := .duplicate 3 0) rfl rfl rfl (.ok ()))
  have closed := attached.tail (.prepare (i := 1) (r := .close 3) rfl rfl rfl (.ok ()))
  have connected := closed.tail (.prepare (i := 1) (r := .close 4) rfl rfl rfl (.ok ()))
  have executed := connected.tail (.execute (i := 1) rfl ⟨_, _, _, rfl⟩)
  -- The shell is refused, and closes its pipe.
  have refused := executed.tail
    (.placeFailed (m := { pid := 8, group := 7, progress := .executing }) rfl
      (List.mem_cons_of_mem _ List.mem_cons_self) rfl)
  have closed := refused.tail (.call (r := .close 3) rfl rfl (.ok ()))
  have launched := closed.tail (.call (r := .close 4) rfl rfl (.ok ()))
  exact ⟨_, _, _, launched, rfl, rfl, rfl, rfl, rfl⟩

end Gathering

/-- **A pipeline has one process group.**  Whatever the shell and the stages are answered, in
whatever order they go on and whenever a stage ends: a stage that is about to execute its command,
or has done so, is in the group of the first stage; and when the launch is done, all stages that
have been started are, those that have ended too.  They are the ones that the result tells of, if
the launch has succeeded or a fork has failed. -/
theorem grouped_of_launched {line : CommandLine} {terminal : Option Descriptor} {home : Pid}
    {elsewhere : Set Pid} {a : Gathering}
    (h : Relation.ReflTransGen Gathering.Moves (.launch line terminal home elsewhere) a) :
    (∀ m ∈ a.stages, m.progress.Executes ∨ m.progress.hasExecuted = true →
      a.stages.head?.map Member.pid = some m.group) ∧
    ∀ result, a.rest = .done result →
      (∀ m ∈ a.stages, a.stages.head?.map Member.pid = some m.group) ∧
      (∀ spawned, result = .ok spawned →
        spawned.pids = a.stages.map Member.pid ∧ ∀ m ∈ a.stages, m.group = spawned.group) ∧
      ∀ pids e, result = .error (.fork pids e) → pids = a.stages.map Member.pid := by
  obtain ⟨pending, hg⟩ := Gathering.gathered_of_reaches h
  have hleader : ∀ m ∈ a.stages, m.group = a.leader →
      a.stages.head?.map Member.pid = some m.group := by
    intro m hm hgroup
    rw [hgroup, Gathering.leader, Roll.leader, Gathering.pids, ← List.head?_map]
    obtain ⟨first, rest, hcons⟩ := List.exists_cons_of_ne_nil (List.ne_nil_of_mem hm)
    rw [hcons]
    rfl
  refine ⟨fun m hm hexec => hleader m hm ?_, fun result hdone => ?_⟩
  · have hfits := hg.fits m hm
    rcases hexec with hexec | hexec
    · exact hfits.eq_of_executes hexec
    · exact hfits.executed hexec
  · have hshell := hg.shell
    rw [hdone] at hshell
    have hpending : pending = none := hshell.pending
    have hplaced : ∀ m ∈ a.stages, m.group = a.leader :=
      fun m hm => (hg.fits m hm).placed (by simp [hpending])
    refine ⟨fun m hm => hleader m hm (hplaced m hm), fun spawned hok => ?_,
      fun pids e hfork => hshell.fork hfork⟩
    obtain rfl := hshell.ok hok
    exact ⟨rfl, hplaced⟩

theorem grouped_of_overtaken : ∃ (a : Gathering) (first second : Member),
    Relation.ReflTransGen Gathering.Moves
      (.launch ⟨.ofWords [.literal "/a", .operator .pipe, .literal "/b"], {}⟩ none 5 {5}) a ∧
      a.stages = [first, second] ∧ first.group = 7 ∧ second.group = 7 ∧ second.pid = 8 ∧
      second.progress.hasExecuted = true := by
  obtain ⟨a, first, second, h, hdone, hstages, hfirst, hsecond, hexec⟩ := Gathering.exists_overtaken
  obtain ⟨hmember, hall⟩ := grouped_of_launched h
  obtain ⟨-, hok, -⟩ := hall _ hdone
  obtain ⟨-, hgroup⟩ := hok _ rfl
  have hmem : first ∈ a.stages ∧ second ∈ a.stages := by simp [hstages]
  exact ⟨a, first, second, h, hstages, hgroup first hmem.1, hgroup second hmem.2, hsecond, hexec⟩

end PipelineShell
