/-
A line that is turned down changes nothing but the status.

There are many reasons to turn a line down: it cannot be read, the shell may not
be left, the argument for leaving is no status, or the line cannot be launched
because of an argument, a pipe or the first process.  In all of them the shell
says so, answers with 1 and is as it was before.

* `Machine.Resembles` — two states of the machine that differ at most in
  descriptors and open files: the files, the terminal and the processes are the
  same, and the processes are where they were;
* `System.TurnsDown` — the reasons, each with what the shell says;
* `System.only_status_changed` — what there is after the line differs from what
  there was before in the status alone, and the line is answered once, with 1.

Design notes: other processes and the reader go on meanwhile, so of the files
nothing is said about two moments but about each call that the shell makes
(`OnlyStatusChanged.calls`).
-/
import PipelineShell.Proofs.Builtins
import PipelineShell.Proofs.Handling
import PipelineShell.Proofs.Status
import PipelineShell.Proofs.Terminal
import PipelineShell.Proofs.WorkingDirectory

namespace PipelineShell

open Output Program

/-! ### Calls that change nothing but descriptors -/

/-- The process without its descriptors. -/
def Process.bare {τ : Type} (p : Process τ) : Process τ := { p with descriptors := [] }

namespace Machine

variable {τ : Type} {m m' n : Machine τ} {pid : Pid} {p : Process τ}

/-- The files, the terminal and the processes are the same, except for descriptors. -/
structure Resembles (m' m : Machine τ) : Prop where
  tree : m'.tree = m.tree
  terminal : m'.terminal = m.terminal
  processes : m'.processes.map Process.bare = m.processes.map Process.bare

theorem Resembles.rfl : m.Resembles m := ⟨Eq.refl _, Eq.refl _, Eq.refl _⟩

theorem Resembles.trans (h : n.Resembles m') (h' : m'.Resembles m) : n.Resembles m :=
  ⟨h.tree.trans h'.tree, h.terminal.trans h'.terminal, h.processes.trans h'.processes⟩

theorem resembles_modify {f : Process τ → Process τ} (hf : ∀ p, (f p).bare = p.bare) :
    (m.modify pid f).Resembles m := by
  refine ⟨rfl, rfl, ?_⟩
  rw [modify, List.map_map]
  refine List.map_congr_left fun p _ => ?_
  show Process.bare (if p.pid = pid then f p else p) = p.bare
  split
  · exact hf p
  · rfl

theorem resembles_assign {least fd : Descriptor} {slot : Slot}
    (h : m.assign p least slot = .ok (fd, m')) : m'.Resembles m := by
  rw [assign] at h
  split at h
  · cases h
    exact resembles_modify fun _ => rfl
  · cases h

theorem Resembles.directory? (h : m'.Resembles m) (pid : Pid) :
    m'.directory? pid = m.directory? pid := by
  have hfind : ∀ m : Machine τ,
      m.directory? pid =
        ((m.processes.map Process.bare).find? (·.pid = pid)).map (·.directory) := by
    intro m
    rw [List.find?_map, Option.map_map]
    rfl
  rw [hfind, hfind, h.processes]

theorem performs_iff {r : Request τ} {answer : r.Answer} :
    Performs pid m r answer m' ↔
      ∃ p, m.process? pid = some p ∧ m.answer p r = .answered answer m' := by
  rw [Performs, perform]
  cases hp : m.process? pid with
  | none => simp
  | some p => simp

theorem resembles_of_close {fd : Descriptor} {answer : Except Errno Unit}
    (h : Performs pid m (.close fd) answer m') : m'.Resembles m := by
  obtain ⟨p, -, h⟩ := performs_iff.1 h
  replace h : m.closeDescriptor p fd = .answered answer m' := h
  rw [closeDescriptor] at h
  split at h
  · cases h
    exact resembles_modify fun _ => rfl
  · cases h
    exact .rfl

theorem resembles_of_fork_error {child : τ} {e : Errno}
    (h : Performs pid m (.fork child) (.error e) m') : m'.Resembles m := by
  obtain ⟨p, -, h⟩ := performs_iff.1 h
  replace h : m.forkProcess p child = .answered (.error e) m' := h
  cases hl : m.childLimit with
  | none =>
    rw [forkProcess, hl] at h
    cases h
  | some limit =>
    rw [forkProcess, hl] at h
    dsimp only at h
    split at h
    · cases h
      exact .rfl
    · cases h

theorem resembles_of_pipe {answer : Except Errno (Descriptor × Descriptor)}
    (h : Performs pid m .pipe answer m') : m'.Resembles m := by
  obtain ⟨p, -, h⟩ := performs_iff.1 h
  replace h : m.makePipe p = .answered answer m' := h
  rw [makePipe] at h
  dsimp only at h
  split at h
  · next ends n hn =>
    cases h
    obtain ⟨⟨readFd, n₁⟩, hread, h⟩ := bind_eq_ok_iff.1 hn
    dsimp only at h
    split at h
    · obtain ⟨⟨writeFd, n₂⟩, hwrite, h⟩ := bind_eq_ok_iff.1 h
      cases h
      have h := (resembles_assign hwrite).trans (resembles_assign hread)
      exact ⟨h.tree, h.terminal, h.processes⟩
    · cases h
  · cases h
    exact .rfl

/-- **Until something has been forked, no call of a launch changes the files, the terminal or the
processes.** -/
theorem resembles_of_launchesWith {r : Request τ} {answer : r.Answer} (hr : r.LaunchesWith [])
    (hf : r.forked answer = []) (h : Performs pid m r answer m') : m'.Resembles m := by
  obtain ⟨hr, hgroup⟩ := hr
  cases r with
  | pipe => exact resembles_of_pipe h
  | close fd => exact resembles_of_close h
  | fork child =>
    cases answer with
    | error e => exact resembles_of_fork_error h
    | ok child => cases hf
  | setGroup child group => exact absurd (hgroup child group rfl) List.not_mem_nil
  | _ => cases hr

end Machine

/-! ### Which lines are turned down -/

namespace Worker

variable {w : Worker} {text : String} {line : CommandLine}

theorem launched_of_running?_eq_none {e : LaunchError} (h : running? (.error e) = none)
    (text : String) (line : CommandLine) :
    w.launched text line (.error e) = w.refuse e.message := by
  rcases e with _ | _ | ⟨_ | ⟨first, rest⟩, cause⟩
  · rfl
  · rfl
  · rfl
  · cases h

end Worker

namespace System

/-- The line is turned down, with this message.  Whether it can be launched is known from what has
happened since it was taken. -/
inductive TurnsDown (s : System) (text : String) (later : Trace) : String → Prop
  | unreadable {e : ParseError} (h : CommandLine.parse text s.worker.operators = .error e) :
      TurnsDown s text later e.message
  | jobsLeft {line : CommandLine} (h : CommandLine.parse text s.worker.operators = .ok line)
      (leaving : line.IsCalled "exit") (left : s.worker.jobs.jobs ≠ []) :
      TurnsDown s text later "ジョブが実行中なので終了できません"
  | noStatus {line : CommandLine} {name second : Word} {rest : List Word} {argument : String}
      (h : CommandLine.parse text s.worker.operators = .ok line)
      (hs : line.pipeline.stages = [name :: second :: rest]) (leaving : name.unquoted = some "exit")
      (hargument : second.unquoted = some argument) (left : s.worker.jobs.jobs = [])
      (bad : askedStatus? argument = none) :
      TurnsDown s text later (argument ++ "は不正な引数です")
  | unlaunched {t : System} {e : LaunchError} (h : (t, .launched (.error e)) ∈ later)
      (nothing : ∀ first rest cause, e ≠ .fork (first :: rest) cause) :
      TurnsDown s text later e.message

/-- Since the line was taken, nothing but the status has changed, and the shell has put out, or is
about to put out, this message and one answer. -/
structure OnlyStatusChanged (s : System) (message : String) (later : Trace) (s' : System) :
    Prop where
  worker : s'.worker = { s.worker with status := 1 }
  children : ∀ pid, s'.children pid = none ↔ s.children pid = none
  terminal : ∀ x ∈ later, ∀ owner, x.2.owner owner = owner
  calls : ∀ {t : System} {r : Request Task} {answer : r.Answer}, (t, .call r answer) ∈ later →
    ∀ pid (m m' : Machine Task), Machine.Performs pid m r answer m' →
      m'.Resembles m ∧ m'.directory? pid = m.directory? pid
  outputs : later.outputs ++ s'.outbox =
    [.report ("PipeSh: " ++ message ++ "\n"), .reply (.resume 1)]
  doing : s'.doing = .listening

variable {s s₁ s' t : System} {text message : String} {past later : Trace}

/-- The reasons that are seen when the line is read, and the one that is seen when it has been
launched. -/
theorem TurnsDown.cases (h : s.TurnsDown text later message) :
    s.worker.lineRead text = s.worker.refuse message ∨
      ∃ t e, (t, .launched (.error e)) ∈ later ∧ Worker.running? (.error e) = none ∧
        message = e.message := by
  cases h with
  | unreadable h => exact .inl (by rw [Worker.lineRead, h])
  | jobsLeft h leaving left =>
    refine .inl ?_
    obtain ⟨argument, leaving⟩ := (CommandLine.classified_of_parse h).exit_iff.2 leaving
    rw [← JobTable.isEmpty_eq_false_iff] at left
    simp only [Worker.lineRead, h, leaving, Worker.leave, left, Bool.not_false, if_true]
  | @noStatus line _ _ _ argument h hs leaving hargument left bad =>
    refine .inl ?_
    replace leaving : line.builtin? = some (.exit (some argument)) := by
      simp [CommandLine.builtin?, hs, leaving, hargument]
    rw [← JobTable.isEmpty_iff] at left
    rw [← parseStatus?_eq] at bad
    simp only [Worker.lineRead, h, leaving, Worker.leave, left, bad, Bool.not_true,
      Bool.false_eq_true, if_false]
  | @unlaunched t e h nothing =>
    refine .inr ⟨t, e, h, ?_, rfl⟩
    rcases e with _ | _ | ⟨_ | ⟨first, rest⟩, cause⟩
    · rfl
    · rfl
    · rfl
    · exact absurd rfl (nothing first rest cause)

theorem TurnsDown.mono {longer : Trace} (h : s.TurnsDown text later message)
    (hsub : ∀ x ∈ later, x ∈ longer) : s.TurnsDown text longer message := by
  cases h with
  | unreadable h => exact .unreadable h
  | jobsLeft h leaving left => exact .jobsLeft h leaving left
  | noStatus h hs leaving hargument left bad => exact .noStatus h hs leaving hargument left bad
  | unlaunched h nothing => exact .unlaunched (hsub _ h) nothing

/-! ### What a refusal leaves behind -/

/-- If no terminal is put out, whoever has it keeps it. -/
theorem owner_eq_of_outputs (h : ∀ group, .terminal group ∉ later.outputs) :
    ∀ x ∈ later, ∀ owner, x.2.owner owner = owner := by
  rintro ⟨t, e⟩ hx owner
  cases e with
  | put o =>
    cases o with
    | terminal group => exact absurd (Trace.mem_outputs hx List.mem_cons_self) (h group)
    | _ => rfl
  | _ => rfl

theorem terminal_not_mem {outputs rest : List Output}
    (h : outputs ++ rest = [.report message, .reply (.resume 1)]) (group : Pid) :
    .terminal group ∉ outputs := by
  intro hmem
  have hmem := h ▸ List.mem_append_left rest hmem
  simp at hmem

/-- A line that is turned down when it is read. -/
theorem onlyStatusChanged_of_lineRead (m : s.Moves (.receive (.line text)) s₁)
    (h : Run s₁ later s') (hm : later.TakesNone)
    (href : s.worker.lineRead text = s.worker.refuse message) :
    s.OnlyStatusChanged message later s' := by
  cases m with
  | @receive _ rest idle done hin =>
    have hstep : s.worker.step .listening (.line text) = s.worker.refuse message := href
    rw [hstep] at h
    have hidles := h.of_listening rfl hm
    refine ⟨hidles.worker, hidles.children, ?_, ?_, hidles.outputs, hidles.doing⟩
    · exact owner_eq_of_outputs (terminal_not_mem hidles.outputs)
    · exact fun hmem => absurd rfl (hidles.no_call _ hmem _ _)

/-- A line that is being launched has been read, and nothing else has been done by then. -/
theorem Moves.receive_of_launching (m : s.Moves (.receive (.line text)) s₁) (h : Run s₁ later t)
    (hm : later.TakesNone) {text' : String} {line' : CommandLine} {forked : List Pid}
    {calls : Program Task (Except LaunchError Spawned)}
    (hd : t.doing = .launching text' line' forked calls) :
    ∃ line rest,
      s₁ = { s with inbox := rest }.take { worker := s.worker, next := .launching text line } := by
  cases m with
  | @receive _ rest idle done hin =>
    cases hn : (s.worker.lineRead text).next with
    | launching text₁ line =>
      refine ⟨line, rest, ?_⟩
      obtain ⟨hline, -, -, hstep⟩ := Worker.received_of_launching (m := .line text) hn
      cases hline
      exact congrArg (System.take { s with inbox := rest }) hstep
    | _ =>
      refine absurd hd (h.not_launching ?_ hm _ _ _ _)
      intro text₁ line₁ forked₁ calls₁ hd₁
      cases hn.symm.trans (Doing.begin_eq_launching hd₁).1

/-- A line that is turned down when it has been launched. -/
theorem onlyStatusChanged_of_launched (hs : s.Sound) (m : s.Moves (.receive (.line text)) s₁)
    (h : Run s₁ later s') (hm : later.TakesNone) {e : LaunchError}
    (hmem : (t, .launched (.error e)) ∈ later) (hr : Worker.running? (.error e) = none) :
    s.OnlyStatusChanged e.message later s' := by
  obtain ⟨after, before, rfl⟩ := List.append_of_mem hmem
  obtain ⟨hmafter, hmbefore⟩ := Trace.takesNone_append.1 hm
  replace hmbefore := (Trace.takesNone_cons.1 hmbefore).2
  have hfirst := h.not_launched_before hmbefore
  obtain ⟨hbefore, t', mlaunched, hafter⟩ := h.split
  have hsound : t.Sound := (hs.moves m).run hbefore
  cases mlaunched with
  | @launched text' line' forked _ done hd =>
    obtain ⟨line, rest, hs₁⟩ := m.receive_of_launching hbefore hmbefore hd
    have hlaunch := hbefore.of_launching (by rw [hs₁]; rfl) (by rw [hs₁]; rfl) hmbefore hfirst
    -- Nothing has been forked, so nothing has been changed until here.
    have hnone : Trace.forked before = [] := by
      obtain ⟨calls, hdoing, -⟩ := hlaunch.doing
      cases hdoing.symm.trans hd
      exact hsound.forked_eq_nil hd hr
    have hworker : t.worker = s.worker := by rw [hlaunch.worker, hs₁]; rfl
    have hchildren : ∀ pid, t.children pid = none ↔ s.children pid = none := by
      intro pid
      rw [hlaunch.children pid, hnone, hs₁]
      exact and_iff_left List.not_mem_nil
    -- From here on there is only the message and the answer to be put out.
    have hrefuse : t.worker.step (.launching text' line') (.error e) =
        t.worker.refuse e.message := Worker.launched_of_running?_eq_none hr text' line'
    rw [hrefuse] at hafter
    have hidles := hafter.of_listening rfl hmafter
    have houtputs : Trace.outputs (after ++ (t, .launched (.error e)) :: before) ++ s'.outbox =
        [.report ("PipeSh: " ++ e.message ++ "\n"), .reply (.resume 1)] := by
      rw [Trace.outputs_append, Trace.outputs_cons, hlaunch.outputs]
      exact hidles.outputs
    refine ⟨?_, ?_, owner_eq_of_outputs (terminal_not_mem houtputs), ?_, houtputs, hidles.doing⟩
    · rw [hidles.worker, ← hworker]
      rfl
    · exact fun pid => (hidles.children pid).trans (hchildren pid)
    · intro t₁ r answer hcall pid m m' hperforms
      rcases List.mem_append.1 hcall with hcall | hcall
      · exact absurd rfl (hidles.no_call _ hcall _ _)
      rcases List.mem_cons.1 hcall with heq | hcall
      · cases heq
      obtain ⟨hr, hforked⟩ := hlaunch.calls hcall
      rw [hnone] at hr hforked
      have hlike := Machine.resembles_of_launchesWith hr (List.eq_nil_iff_forall_not_mem.2
        fun pid hp => List.not_mem_nil (hforked pid hp)) hperforms
      exact ⟨hlike, hlike.directory? pid⟩

theorem onlyStatusChanged (hs : s.Sound) (m : s.Moves (.receive (.line text)) s₁)
    (h : Run s₁ later s') (hm : later.TakesNone) (href : s.TurnsDown text later message) :
    s.OnlyStatusChanged message later s' := by
  rcases href.cases with href | ⟨t, e, hmem, hr, rfl⟩
  · exact onlyStatusChanged_of_lineRead m h hm href
  · exact onlyStatusChanged_of_launched hs m h hm hmem hr

/-- **A line that is turned down changes nothing but the status.**  Until the next message is taken
the worker, apart from its status, the terminal and the set of children are as they were, and no
call has changed the files, the processes or where they are.  The line is answered with 1, and with
nothing else. -/
theorem only_status_changed {terminalGroup : Option Pid} {operators : OperatorSet}
    (hrun : Run (.initial terminalGroup operators) past s)
    (m : s.Moves (.receive (.line text)) s₁) (h : Run s₁ later s') (hm : later.TakesNone)
    (href : s.TurnsDown text later message) :
    s.OnlyStatusChanged message later s' ∧
      ∃ more s'', Run s' more s'' ∧ more.TakesNone ∧
        (more ++ later).answers = [.resume 1] ∧ s''.outbox = [] := by
  have hs := (sound_initial terminalGroup operators).run hrun
  refine ⟨onlyStatusChanged hs m h hm href, ?_⟩
  obtain ⟨more, s'', hmore, hnone, hout⟩ := ((hs.moves m).run h).exists_put_out
  have hall : Run s₁ (more ++ later) s'' := Run.append_iff.2 ⟨s', h, hmore⟩
  have hchanged := onlyStatusChanged hs m hall (Trace.takesNone_append.2 ⟨hnone, hm⟩)
    (href.mono fun _ => List.mem_append_right more)
  have houtputs := hchanged.outputs
  rw [hout, List.append_nil] at houtputs
  refine ⟨more, s'', hmore, hnone, ?_, hout⟩
  rw [← Trace.replies_outputs hall, houtputs]
  rfl

/-- Of `a | b` the pipe cannot be made. -/
theorem only_status_changed_unpiped : ∃ (past later : Trace) (s s₁ s' : System),
    Run (.initial (some 5) .full) past s ∧ s.Moves (.receive (.line "a | b")) s₁ ∧
      Run s₁ later s' ∧ later.TakesNone ∧
      s.OnlyStatusChanged "パイプの生成に失敗: EMFILE: Too many open files" later s' := by
  have hparse : CommandLine.parse "a | b" .full =
      .ok ⟨Pipeline.ofWords [.literal "a", .operator .pipe, .literal "b"], {}⟩ := by
    decide +kernel
  have asked : Run (.initial (some 5) .full) [(_, .request (.line "a | b"))] _ :=
    Run.start.move (.request rfl rfl)
  have received := asked.move (.receive_line rfl rfl rfl hparse rfl)
  have refused := received.move
    (.callLaunch (r := .pipe) rfl (.error .emfile) fun _ h => by cases h)
  have launched := refused.move (.launched rfl rfl)
  obtain ⟨hpast, s₁, m, hlater⟩ := @Run.split _ _ _ _ [_, _] _ launched
  refine ⟨_, _, _, _, _, hpast, m, hlater, ?_, (only_status_changed hpast m hlater ?_
    (.unlaunched (e := .pipe .emfile) List.mem_cons_self fun _ _ _ h => by cases h)).1⟩
  all_goals
    refine Trace.takesNone_cons.2 ⟨?_, Trace.takesNone_cons.2 ⟨?_, ?_⟩⟩
    all_goals exact fun _ h => by cases h

end System

end PipelineShell
