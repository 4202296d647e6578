/-
What a change of directory that fails leaves behind.

Changing the directory takes two calls, and the second one, which only asks for
the new name, can fail after the first one has moved the process.  Then the
change counts as failed and the shell is in another directory all the same.

* `runs_changeDirectory_cases` — the calls and the result, for each way a change
  can go;
* `Machine.failed_and_moved_iff` — on the machine a change fails and moves the
  process whenever the path leads to another directory, and that is in the tree
  no more;
* `Machine.changeDirectory_moves` — so it does happen, in a directory that has
  been removed together with the one above it;
* `changeDirectory_unmoved` — in all other cases a change that fails leaves the
  process where it was.

Design notes: of a system it is only asked that a refused change and a question
for the name move nothing (`Locates`).  Whether such a call succeeds is left
open, and so is where a successful change leads to.
-/
import PipelineShell.Machine.Schedule
import PipelineShell.Proofs.Transcript
import PipelineShell.Proofs.Worker

namespace PipelineShell

open Program

/-! ### The calls of a change -/

section calls

variable {τ σ : Type} {step : σ → (r : Request τ) → r.Answer → σ → Prop} {s s' : σ}
  {log : Transcript τ} {directory : String} {result : Except DirectoryError String}

/-- A state tells where a process is, and only a change that succeeds moves it. -/
structure Locates {D : Type} (step : σ → (r : Request τ) → r.Answer → σ → Prop) (here : σ → D) :
    Prop where
  refused : ∀ {s s' path e}, step s (.changeDirectory path) (.error e) s' → here s' = here s
  named : ∀ {s s' answer}, step s .workingDirectory answer s' → here s' = here s

theorem changeDirectory_eq (hnul : nulPosition? directory = none) :
    (changeDirectory directory : Program τ _) =
      .call (.changeDirectory directory) fun changed : Except Errno Unit =>
        match changed with
        | .error e => .done (.error (.refused directory e))
        | .ok () => .call .workingDirectory fun answer : Except Errno String =>
            .done (answer.mapError .nameless) := by
  rw [changeDirectory, hnul, if_neg (by simp)]
  refine congrArg (call _) (funext fun changed : Except Errno Unit => ?_)
  cases changed <;> rfl

/-- The ways in which a change can go. -/
theorem runs_changeDirectory_cases
    (h : (changeDirectory directory).Runs step s log result s') :
    (result = .error (.containsNul directory) ∧ log = [] ∧ s' = s) ∨
      (∃ e, result = .error (.refused directory e) ∧
        log = [⟨.changeDirectory directory, .error e⟩] ∧
        step s (.changeDirectory directory) (.error e) s') ∨
      ∃ s₁, ∃ answer : Except Errno String, result = answer.mapError .nameless ∧
        log = [⟨.changeDirectory directory, .ok ()⟩, ⟨.workingDirectory, answer⟩] ∧
        step s (.changeDirectory directory) (.ok ()) s₁ ∧ step s₁ .workingDirectory answer s' := by
  rw [changeDirectory] at h
  split at h
  · obtain ⟨rfl, rfl, rfl⟩ := runs_done_iff.1 h
    exact .inl ⟨rfl, rfl, rfl⟩
  refine .inr ?_
  -- Neither of the two calls is made again.
  obtain ⟨changed, first, s₁, rest, hchange, hrest, rfl⟩ := runs_bind_iff.1 h
  obtain ⟨hmove, rfl⟩ := hchange.ask_once fun _ hr => by cases hr
  cases changed with
  | error e =>
    obtain ⟨rfl, rfl, rfl⟩ := runs_done_iff.1 hrest
    exact .inl ⟨e, rfl, rfl, hmove⟩
  | ok u =>
    obtain ⟨answer, second, s₂, last, hname, hlast, rfl⟩ := runs_bind_iff.1 hrest
    obtain ⟨hask, rfl⟩ := hname.ask_once fun _ hr => by cases hr
    obtain ⟨rfl, rfl, rfl⟩ := runs_done_iff.1 hlast
    exact .inr ⟨s₁, answer, rfl, rfl, hmove, hask⟩

/-- The worker answers 1 to every change that failed, and to no other. -/
theorem Worker.resume_one_iff (w : Worker) :
    .resume 1 ∈ Output.replies (w.directoryChanged result).outputs ↔ ∃ e, result = .error e := by
  rw [Output.mem_replies]
  cases result with
  | ok name => simp [Worker.directoryChanged, Worker.answer]
  | error e => simp [Worker.directoryChanged, Worker.refuse, Worker.answer]

end calls

/-! ### A change on the machine -/

namespace Machine

variable {τ : Type} {m m' : Machine τ} {pid : Pid} {p : Process τ}

/-- The machine answers a request of a process at once. -/
def Performs (pid : Pid) (m : Machine τ) (r : Request τ) (answer : r.Answer) (m' : Machine τ) :
    Prop := m.perform pid r = .answered answer m'

/-- Where a process is. -/
def directory? (m : Machine τ) (pid : Pid) : Option NodeId := (m.process? pid).map (·.directory)

theorem process?_modify {f : Process τ → Process τ} (hf : ∀ p, (f p).pid = p.pid) :
    (m.modify pid f).process? pid = (m.process? pid).map f := by
  have hpid : ∀ p : Process τ, (if p.pid = pid then f p else p).pid = p.pid := by
    intro p
    split
    · exact hf p
    · rfl
  rw [process?, modify, List.find?_map, process?]
  simp only [Function.comp_def, hpid]
  cases h : m.processes.find? (·.pid = pid) with
  | none => rfl
  | some p =>
    have hp : p.pid = pid := by simpa using List.find?_some h
    rw [Option.map_some, Option.map_some, if_pos hp]

/-- A process gets to this directory by this path. -/
def Leads (m : Machine τ) (p : Process τ) (path : String) (there : NodeId) : Prop :=
  m.tree.walk p.directory path true = .ok (.found there) ∧ m.tree.isDirectory there = true

/-- The machine with the process in another directory. -/
def moved (m : Machine τ) (pid : Pid) (there : NodeId) : Machine τ :=
  m.modify pid fun p => { p with directory := there }

theorem process?_moved (hp : m.process? pid = some p) (there : NodeId) :
    (m.moved pid there).process? pid = some { p with directory := there } := by
  have hf : ∀ p : Process τ, ({ p with directory := there } : Process τ).pid = p.pid := fun _ => rfl
  rw [moved, process?_modify hf, hp, Option.map_some]

theorem directory?_moved (hp : m.process? pid = some p) (there : NodeId) :
    (m.moved pid there).directory? pid = some there := by
  rw [directory?, process?_moved hp]
  rfl

theorem perform_changeDirectory_cases (hp : m.process? pid = some p) (path : String) :
    (∃ there, m.Leads p path there ∧
        m.perform pid (.changeDirectory path) = .answered (.ok ()) (m.moved pid there)) ∨
      (∀ there, ¬ m.Leads p path there) ∧
        ∃ e, m.perform pid (.changeDirectory path) = .answered (.error e) m := by
  have hpid : p.pid = pid := by simpa using List.find?_some hp
  have hperform : m.perform pid (.changeDirectory path) = m.changeDirectory p path := by
    rw [perform, hp]
    rfl
  rw [hperform, changeDirectory]
  split
  · next e hwalk =>
    refine .inr ⟨?_, e, rfl⟩
    rintro there ⟨hfound, -⟩
    cases hwalk.symm.trans hfound
  · next there hwalk =>
    split
    · next hdir =>
      refine .inl ⟨there, ⟨hwalk, hdir⟩, ?_⟩
      rw [hpid]
      rfl
    · next hdir =>
      refine .inr ⟨?_, _, rfl⟩
      rintro there' ⟨hfound, hdir'⟩
      cases hwalk.symm.trans hfound
      exact hdir hdir'
  · next place hne hother =>
    refine .inr ⟨?_, _, rfl⟩
    rintro there ⟨hfound, -⟩
    exact hne there (Except.ok.inj (hother.symm.trans hfound))

theorem perform_workingDirectory (hp : m.process? pid = some p) :
    m.perform pid .workingDirectory = .answered (m.workingDirectory p) m := by
  rw [perform, hp]
  rfl

/-- Nothing is answered to a process that there is not. -/
theorem not_performs {r : Request τ} {answer : r.Answer} (hp : m.process? pid = none) :
    ¬ Performs pid m r answer m' := by
  show m.perform pid r ≠ _
  rw [perform, hp]
  exact nofun

theorem locates_performs : Locates (Performs (τ := τ) pid) (directory? · pid) where
  refused {m m' path e} h := by
    cases hp : m.process? pid with
    | none => exact absurd h (not_performs hp)
    | some p =>
      rcases perform_changeDirectory_cases hp path with ⟨there, -, hok⟩ | ⟨-, e', herr⟩
      · cases hok.symm.trans h
      · cases herr.symm.trans h
        rfl
  named {m m' answer} h := by
    cases hp : m.process? pid with
    | none => exact absurd h (not_performs hp)
    | some p =>
      cases (perform_workingDirectory hp).symm.trans h
      rfl

theorem runProgram_call {α : Type} {r : Request τ} {next : r.Answer → Program τ α}
    {answer : r.Answer} (h : m.perform pid r = .answered answer m') (fuel : Nat) :
    m.runProgram (fuel + 1) pid (.call r next) = m'.runProgram fuel pid (next answer) := by
  rw [runProgram, h]

/-- A change of directory comes to its end, and it has moved the process exactly if the path leads
to a directory. -/
theorem runProgram_changeDirectory (hp : m.process? pid = some p) (fuel : Nat)
    {directory : String} (hnul : nulPosition? directory = none) :
    (∃ there, m.Leads p directory there ∧
        m.runProgram (fuel + 3) pid (PipelineShell.changeDirectory directory) =
          some ((m.tree.pathOf? there).elim (.error (.nameless .enoent)) .ok, m.moved pid there)) ∨
      (∀ there, ¬ m.Leads p directory there) ∧
        ∃ e, m.runProgram (fuel + 3) pid (PipelineShell.changeDirectory directory) =
          some (.error (.refused directory e), m) := by
  rw [changeDirectory_eq hnul]
  rcases perform_changeDirectory_cases hp directory with ⟨there, hleads, hok⟩ | ⟨hno, e, herr⟩
  · refine .inl ⟨there, hleads, ?_⟩
    have hname := perform_workingDirectory (process?_moved hp there)
    refine (runProgram_call hok (fuel + 2)).trans ((runProgram_call hname (fuel + 1)).trans ?_)
    show some (Except.mapError _ ((m.tree.pathOf? there).elim _ _), _) = _
    cases m.tree.pathOf? there <;> rfl
  · exact .inr ⟨hno, e, runProgram_call herr (fuel + 2)⟩

/-- **When a change of directory fails and has moved the process.**  The path leads to another
directory, and that is in the tree no more. -/
theorem failed_and_moved_iff (hp : m.process? pid = some p) (fuel : Nat) (directory : String) :
    ∃ result m', m.runProgram (fuel + 3) pid (PipelineShell.changeDirectory directory) =
        some (result, m') ∧
      ((∃ e, result = .error e) ∧ m'.directory? pid ≠ m.directory? pid ↔
        nulPosition? directory = none ∧ ∃ there, m.Leads p directory there ∧
          m.tree.pathOf? there = none ∧ there ≠ p.directory) := by
  have hhere : m.directory? pid = some p.directory := by rw [directory?, hp, Option.map_some]
  cases hnul : nulPosition? directory with
  | some position =>
    refine ⟨.error (.containsNul directory), m, ?_, by simp⟩
    rw [PipelineShell.changeDirectory, hnul]
    rfl
  | none =>
    rcases runProgram_changeDirectory hp fuel hnul with ⟨there, hleads, hrun⟩ | ⟨hno, e, hrun⟩
    · refine ⟨_, _, hrun, ?_⟩
      have hunique : ∀ {there'}, m.Leads p directory there' → there' = there := by
        intro there' h
        cases hleads.1.symm.trans h.1
        rfl
      rw [directory?_moved hp, hhere]
      constructor
      · rintro ⟨⟨e, he⟩, hne⟩
        refine ⟨rfl, there, hleads, ?_, fun h => hne (congrArg some h)⟩
        cases hpath : m.tree.pathOf? there with
        | none => rfl
        | some name =>
          rw [hpath] at he
          cases he
      · rintro ⟨-, there', hleads', hpath, hne⟩
        obtain rfl := hunique hleads'
        exact ⟨⟨_, by rw [hpath]; rfl⟩, fun h => hne (Option.some.inj h)⟩
    · refine ⟨_, _, hrun, ?_⟩
      constructor
      · exact fun h => absurd rfl h.2
      · rintro ⟨-, there, hleads, -⟩
        exact absurd hleads (hno there)

/-- Two processes of a machine: the first one in directory 2, the second one at the root. -/
def visiting (tree : FileTree) : Machine Unit where
  software := ⟨fun _ _ _ => (), fun _ => .done ()⟩
  tree
  processes :=
    [{ pid := 1, parent := 0, group := 1, session := 1, name := "", task := none, directory := 2 },
      { pid := 2, parent := 0, group := 2, session := 2, name := "", task := none, directory := 0 }]
  nextPid := 3

/-- Both directories on the way are removed behind the back of the first process.  Then it goes up,
is told that this has failed, and is in another directory. -/
theorem changeDirectory_moves : ∃ m m₁ m₂ m' : Machine Unit,
    m = visiting ⟨#[.directory 0 [("a", 1)], .directory 0 [("b", 2)], .directory 1 []]⟩ ∧
    m.perform 2 (.removeDirectory "a/b") = .answered (.ok ()) m₁ ∧
    m₁.perform 2 (.removeDirectory "a") = .answered (.ok ()) m₂ ∧
    m₂.runProgram 3 1 (PipelineShell.changeDirectory "..") =
      some (.error (.nameless .enoent), m') ∧
    m₂.directory? 1 = some 2 ∧ m'.directory? 1 = some 1 := by
  refine ⟨_, visiting ⟨#[.directory 0 [("a", 1)], .directory 0 [], .directory 1 []]⟩,
    visiting ⟨#[.directory 0 [], .directory 0 [], .directory 1 []]⟩,
    moved (visiting ⟨#[.directory 0 [], .directory 0 [], .directory 1 []]⟩) 1 1, rfl, ?_, ?_, ?_,
    rfl, rfl⟩
  · rfl
  · rfl
  · rfl

end Machine

/-! ### What a change that fails leaves behind -/

/-- **A change of directory that fails leaves the process where it was, unless only the name of its
new directory could not be found out.**  Then the change itself has succeeded.  The worker answers
with 1 in either case. -/
theorem changeDirectory_unmoved {τ σ D : Type}
    {step : σ → (r : Request τ) → r.Answer → σ → Prop} {here : σ → D} {s s' : σ}
    {log : Transcript τ} {directory : String} {result : Except DirectoryError String}
    (hl : Locates step here) (h : (changeDirectory directory).Runs step s log result s') :
    (∀ w : Worker, .resume 1 ∈ Output.replies (w.directoryChanged result).outputs ↔
      ∃ e, result = .error e) ∧
    ∀ e, result = .error e → here s' = here s ∨
      ∃ cause s₁, e = .nameless cause ∧
        log = [⟨.changeDirectory directory, .ok ()⟩, ⟨.workingDirectory, .error cause⟩] ∧
        step s (.changeDirectory directory) (.ok ()) s₁ ∧ here s' = here s₁ := by
  refine ⟨fun w => w.resume_one_iff, fun e he => ?_⟩
  rcases runs_changeDirectory_cases h with ⟨-, -, rfl⟩ | ⟨cause, -, -, hs⟩ |
    ⟨s₁, answer, rfl, rfl, hmove, hname⟩
  · exact .inl rfl
  · exact .inl (hl.refused hs)
  · cases answer with
    | ok name => cases he
    | error cause =>
      cases he
      exact .inr ⟨cause, s₁, rfl, rfl, hmove, hl.named hname⟩

/-- There is no directory of this name, and the process stays where it is. -/
theorem changeDirectory_unmoved_missing : ∃ (m m' : Machine Unit) (log : Transcript Unit),
    m = .visiting ⟨#[.directory 0 [("a", 1)], .directory 0 [("b", 2)], .directory 1 []]⟩ ∧
    (changeDirectory "c").Runs (Machine.Performs 1) m log (.error (.refused "c" .enoent)) m' ∧
    m'.directory? 1 = some 2 := by
  have hruns : ∀ {m : Machine Unit},
      m.perform 1 (.changeDirectory "c") = .answered (.error .enoent) m →
      (changeDirectory "c").Runs (Machine.Performs 1) m [⟨.changeDirectory "c", .error .enoent⟩]
        (.error (.refused "c" .enoent)) m := by
    intro m hm
    rw [changeDirectory_eq rfl]
    exact .call (r := .changeDirectory "c") (.error .enoent) hm rfl (.done _ _)
  have hmissing := hruns (m := .visiting
    ⟨#[.directory 0 [("a", 1)], .directory 0 [("b", 2)], .directory 1 []]⟩) rfl
  refine ⟨_, _, _, rfl, hmissing, ?_⟩
  obtain ⟨-, hunmoved⟩ := changeDirectory_unmoved Machine.locates_performs hmissing
  rcases hunmoved _ rfl with h | ⟨cause, _, h, -⟩
  · exact h
  · cases h

end PipelineShell
