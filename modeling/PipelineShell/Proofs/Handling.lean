/-
What happens between two messages.

A worker that has taken a message makes its calls and puts out what it has to
say before it looks at the next message.  Meanwhile the reader, the children and
the kernel may do what they like.

* `Run.append_iff` — what has happened can be cut at any place;
* `Trace.outputs` — what has been put out;
* `System.Promises` — an answer that has been decided is the next one that the
  reader gets;
* `Run.of_listening` — a worker that is done with a message only puts out what
  has been decided;
* `Run.of_launching` — as long as a launch goes on the worker stays as it is,
  and the processes that there are more are those that have been forked for the
  line;
* `System.Sound.exists_put_out` — all that has been decided can be put out.
-/
import PipelineShell.Proofs.Atomicity
import PipelineShell.Proofs.Uncollected

namespace PipelineShell

open Output Program

/-! ### Parts of what has happened -/

theorem Run.append_iff {s₀ s' : System} {after before : Trace} :
    Run s₀ (after ++ before) s' ↔ ∃ s, Run s₀ before s ∧ Run s after s' := by
  constructor
  · intro h
    induction after generalizing s' with
    | nil => exact ⟨s', h, .start⟩
    | cons x after ih =>
      cases h with
      | move h m =>
        obtain ⟨s, hbefore, hafter⟩ := ih h
        exact ⟨s, hbefore, hafter.move m⟩
  · rintro ⟨s, hbefore, hafter⟩
    induction hafter with
    | start => exact hbefore
    | move _ m ih => exact ih.move m

/-- What has happened up to an event, and what has happened since. -/
theorem Run.split {s₀ s s' : System} {e : Event} {after before : Trace}
    (h : Run s₀ (after ++ (s, e) :: before) s') :
    Run s₀ before s ∧ ∃ t, s.Moves e t ∧ Run t after s' := by
  obtain ⟨t, hbefore, hafter⟩ := Run.append_iff.1 h
  cases hbefore with
  | move hbefore m => exact ⟨hbefore, t, m, hafter⟩

def Event.outputs : Event → List Output
  | .put o => [o]
  | .reply r => [.reply r]
  | _ => []

/-- The processes that this has started. -/
def Event.forked : Event → List Pid
  | .call r answer => r.forked answer
  | _ => []

namespace Trace

/-- What has been put out, in order. -/
def outputs (past : Trace) : List Output := past.reverse.flatMap fun x => x.2.outputs

/-- The processes that have been started, in order. -/
def forked (past : Trace) : List Pid := past.reverse.flatMap fun x => x.2.forked

/-- The worker has taken no message. -/
def TakesNone (past : Trace) : Prop := ∀ x ∈ past, ∀ m, x.2 ≠ .receive m

variable {past after before : Trace} {s : System} {e : Event}

@[simp] theorem outputs_nil : outputs [] = [] := rfl

@[simp] theorem forked_nil : forked [] = [] := rfl

@[simp] theorem outputs_cons : outputs ((s, e) :: past) = outputs past ++ e.outputs := by
  simp [outputs]

@[simp] theorem forked_cons : forked ((s, e) :: past) = forked past ++ e.forked := by
  simp [forked]

theorem outputs_append : outputs (after ++ before) = outputs before ++ outputs after := by
  simp [outputs]

theorem answers_append : answers (after ++ before) = answers before ++ answers after := by
  induction after with
  | nil => exact (List.append_nil _).symm
  | cons x after ih =>
    obtain ⟨s, e⟩ := x
    cases e with
    | reply r => exact (congrArg (· ++ [r]) ih).trans (List.append_assoc ..)
    | _ => exact ih

theorem requests_append : requests (after ++ before) = requests before ++ requests after := by
  induction after with
  | nil => exact (List.append_nil _).symm
  | cons x after ih =>
    obtain ⟨s, e⟩ := x
    cases e with
    | request m => exact (congrArg (· ++ [m]) ih).trans (List.append_assoc ..)
    | _ => exact ih

theorem mem_outputs {x : System × Event} {o : Output} (hx : x ∈ past) (ho : o ∈ x.2.outputs) :
    o ∈ past.outputs :=
  List.mem_flatMap.2 ⟨x, List.mem_reverse.2 hx, ho⟩

theorem takesNone_cons : TakesNone ((s, e) :: past) ↔ (∀ m, e ≠ .receive m) ∧ TakesNone past :=
  List.forall_mem_cons

theorem takesNone_append : TakesNone (after ++ before) ↔ TakesNone after ∧ TakesNone before :=
  List.forall_mem_append

/-- Only the reader takes answers. -/
theorem replies_outputs {s₀ : System} (h : Run s₀ past s) :
    replies past.outputs = past.answers := by
  induction h with
  | start => rfl
  | move _ m ih =>
    rw [outputs_cons, replies_append, ih]
    cases m with
    | put silent h => exact (congrArg _ (replies_cons_of_silent silent)).trans (List.append_nil _)
    | reply waits h => rfl
    | _ => exact List.append_nil _

end Trace

/-! ### An answer that has been decided -/

namespace System

variable {s s' s₁ : System} {e : Event} {later : Trace}

/-- The answer is on its way, or the first that the reader has been given since. -/
inductive Promises (r : Reply) (later : Trace) (s : System) : Prop
  | offered (none_yet : later.answers = []) (offer : replies s.outbox = [r])
  | given (first : later.answers.head? = some r)

namespace Promises

variable {r : Reply}

theorem moves (h : Promises r later s) (m : s.Moves e s') :
    Promises r ((s, e) :: later) s' := by
  cases h with
  | given first =>
    refine .given ?_
    rw [← List.singleton_append, Trace.answers_append, List.head?_append, first]
    rfl
  | offered none_yet offer =>
    have hne : s.outbox ≠ [] := by
      rintro hnil
      cases (congrArg replies hnil).symm.trans offer
    -- The worker has to put out what it has decided, and the reader waits.
    cases m with
    | receive idle done _ => exact absurd done hne
    | directory done _ => exact absurd done hne
    | launched done _ => exact absurd done hne
    | poll done _ _ => exact absurd done hne
    | put silent hout =>
      rw [hout, replies_cons_of_silent silent] at offer
      exact .offered none_yet offer
    | @reply r' rest waits hout =>
      rw [hout, replies_cons_reply] at offer
      obtain ⟨rfl, -⟩ := List.cons.inj offer
      refine .given ?_
      show (later.answers ++ [r']).head? = some r'
      rw [none_yet]
      rfl
    | _ => exact .offered none_yet offer

theorem run (h : Promises r [] s₁) (hlater : Run s₁ later s') : Promises r later s' := by
  induction hlater with
  | start => exact h
  | move _ m ih => exact ih.moves m

end Promises

end System

/-! ### When a message has been handled -/

/-- Only what has been decided is put out. -/
structure System.Idles (s : System) (later : Trace) (s' : System) : Prop where
  worker : s'.worker = s.worker
  doing : s'.doing = .listening
  children : ∀ pid, s'.children pid = none ↔ s.children pid = none
  outputs : later.outputs ++ s'.outbox = s.outbox
  no_call : ∀ x ∈ later, ∀ r answer, x.2 ≠ .call r answer

theorem Run.of_listening {s s' : System} {later : Trace} (h : Run s later s')
    (hd : s.doing = .listening) (hm : later.TakesNone) : s.Idles later s' := by
  induction h with
  | start => exact ⟨rfl, hd, fun _ => Iff.rfl, rfl, fun _ h => (List.not_mem_nil h).elim⟩
  | @move later t t' e _ m ih =>
    obtain ⟨he, hm⟩ := Trace.takesNone_cons.1 hm
    obtain ⟨hworker, hdoing, hchildren, houtputs, hcall⟩ := ih hm
    -- Everything but a call leaves the calls as they are.
    have hcalls : (∀ r answer, e ≠ .call r answer) →
        ∀ x ∈ (t, e) :: later, ∀ r answer, x.2 ≠ .call r answer :=
      fun he => List.forall_mem_cons.2 ⟨he, hcall⟩
    cases m with
    | child h =>
      refine ⟨hworker, hdoing, fun pid => (h.eq_none_iff pid).trans (hchildren pid), ?_,
        hcalls fun _ _ h => by cases h⟩
      simpa [Event.outputs] using houtputs
    | receive idle done h => exact absurd rfl (he _)
    | callDirectory h answer => cases hdoing.symm.trans h
    | directory done h => cases hdoing.symm.trans h
    | callLaunch h answer new => cases hdoing.symm.trans h
    | launched done h => cases hdoing.symm.trans h
    | poll done h answer => cases hdoing.symm.trans h
    | put silent h =>
      refine ⟨hworker, hdoing, hchildren, ?_, hcalls fun _ _ h => by cases h⟩
      simpa [Event.outputs, h] using houtputs
    | reply waits h =>
      refine ⟨hworker, hdoing, hchildren, ?_, hcalls fun _ _ h => by cases h⟩
      simpa [Event.outputs, h] using houtputs
    | _ =>
      refine ⟨hworker, hdoing, hchildren, ?_, hcalls fun _ _ h => by cases h⟩
      simpa [Event.outputs] using houtputs

/-! ### The calls of a launch -/

/-- The processes that have been started grow by those of each call. -/
def Request.Starts {τ : Type} (started : List Pid) (r : Request τ) (answer : r.Answer)
    (started' : List Pid) : Prop :=
  started' = started ++ r.forked answer

/-- A call of a launch that has started these processes: it only puts those into a group. -/
def Request.LaunchesWith {τ : Type} (started : List Pid) (r : Request τ) : Prop :=
  r.launches = true ∧ ∀ child group, r = .setGroup child group → child ∈ started

namespace Program

variable {τ α σ : Type} {step : σ → (r : Request τ) → r.Answer → σ → Prop}
  {P : σ → Request τ → Prop} {R : Request τ → Prop}

/-- Calls that are right in any state. -/
theorem Makes.meets {p : Program τ α} (h : p.Makes R) (hP : ∀ s r, R r → P s r) (s : σ) :
    p.Meets step P (fun _ _ => True) s := by
  induction p generalizing s with
  | done a => trivial
  | call r next ih => exact ⟨hP s r h.1, fun answer s' _ => ih answer (h.next answer) s'⟩

end Program

section launch

variable {τ : Type} {enter : Stage → τ} {terminal : Option Descriptor} {started : List Pid}

theorem Request.pipe_launchesWith : (Request.pipe : Request τ).LaunchesWith started :=
  ⟨rfl, fun _ _ h => by cases h⟩

theorem Request.close_launchesWith (fd : Descriptor) :
    (Request.close fd : Request τ).LaunchesWith started :=
  ⟨rfl, fun _ _ h => by cases h⟩

theorem Request.fork_launchesWith (child : τ) : (Request.fork child).LaunchesWith started :=
  ⟨rfl, fun _ _ h => by cases h⟩

theorem closePipes_launchesWith (pipes : List Pipe) :
    (closePipes pipes : Program τ Unit).Meets Request.Starts Request.LaunchesWith
      (fun _ _ => True) started :=
  (makes_closePipes (R := fun r => ∃ fd, r = .close fd) (fun fd => ⟨fd, rfl⟩) pipes).meets
    (by rintro started _ ⟨fd, rfl⟩; exact Request.close_launchesWith fd) started

theorem Plan.forkStages_launchesWith {plan : Plan} {pipes : List Pipe} :
    ∀ (stages : List (List String)) (spawned started : List Pid),
      (plan.forkStages enter terminal pipes stages spawned).Meets Request.Starts
        Request.LaunchesWith (fun _ _ => True) started
  | [], spawned, started => trivial
  | arguments :: rest, spawned, started => by
    rw [forkStages, meets_bind, meets_ask]
    refine ⟨Request.fork_launchesWith _, fun answer started₁ hs => ?_⟩
    cases answer with
    | error e => trivial
    | ok child =>
      obtain rfl : started₁ = started ++ [child] := hs
      refine (meets_bind _ _).2 (meets_ask.2 ⟨⟨rfl, ?_⟩, fun _ _ _ => ?_⟩)
      · rintro _ _ ⟨⟩
        exact List.mem_append_right _ (List.mem_singleton_self child)
      · exact forkStages_launchesWith rest _ _

theorem CommandLine.launch_launchesWith (line : CommandLine) :
    (line.launch enter terminal).Meets Request.Starts Request.LaunchesWith (fun _ _ => True)
      started := by
  rw [launch]
  cases hplan : Plan.ofCommandLine line with
  | error e => trivial
  | ok plan =>
    have hpipes : (createPipes (plan.size - 1) [] : Program τ _).Meets Request.Starts
        Request.LaunchesWith (fun _ _ => True) started :=
      (makes_createPipes (R := fun r => r = .pipe ∨ ∃ fd, r = .close fd)
        (fun fd => .inr ⟨fd, rfl⟩) (.inl rfl) _ _).meets
        (by
          rintro started _ (rfl | ⟨fd, rfl⟩)
          · exact Request.pipe_launchesWith
          · exact Request.close_launchesWith fd) started
    refine (meets_bind _ _).2 (hpipes.mono (fun _ _ h => h) fun started₁ made _ => ?_)
    cases made with
    | error e => trivial
    | ok pipes =>
      refine (meets_bind _ _).2 ((Plan.forkStages_launchesWith _ _ _).mono (fun _ _ h => h) ?_)
      intro started₂ result _
      refine (meets_bind _ _).2 ((closePipes_launchesWith pipes).mono (fun _ _ h => h) ?_)
      exact fun _ _ _ => trivial

end launch

/-! ### While a launch goes on -/

/-- The launch of a line has gone this far, and nothing else has been done. -/
structure System.Launching (s : System) (text : String) (line : CommandLine) (later : Trace)
    (s' : System) : Prop where
  worker : s'.worker = s.worker
  outbox : s'.outbox = []
  outputs : later.outputs = []
  doing : ∃ calls, s'.doing = .launching text line later.forked calls ∧
    calls.Meets Request.Starts Request.LaunchesWith (fun _ _ => True) later.forked
  children : ∀ pid, s'.children pid = none ↔ s.children pid = none ∧ pid ∉ later.forked
  calls : ∀ {t : System} {r : Request Task} {answer : r.Answer}, (t, .call r answer) ∈ later →
    r.LaunchesWith later.forked ∧ ∀ pid ∈ r.forked answer, pid ∈ later.forked

/-- An event in which the worker has no part. -/
theorem System.Launching.carry {s t t' : System} {e : Event} {later : Trace} {text : String}
    {line : CommandLine} (hl : s.Launching text line later t) (hworker : t'.worker = t.worker)
    (houtbox : t'.outbox = t.outbox) (hdoing : t'.doing = t.doing)
    (hchildren : ∀ pid, t'.children pid = none ↔ t.children pid = none)
    (houtputs : e.outputs = []) (hcall : ∀ r answer, e ≠ .call r answer) :
    s.Launching text line ((t, e) :: later) t' := by
  have hforked : Trace.forked ((t, e) :: later) = later.forked := by
    cases e with
    | call r answer => exact absurd rfl (hcall r answer)
    | _ => exact Trace.forked_cons.trans (List.append_nil _)
  obtain ⟨calls, hd, hmeets⟩ := hl.doing
  constructor
  case worker => exact hworker.trans hl.worker
  case outbox => exact houtbox.trans hl.outbox
  case outputs => rw [Trace.outputs_cons, hl.outputs, houtputs, List.nil_append]
  case doing =>
    rw [hforked]
    exact ⟨calls, hdoing.trans hd, hmeets⟩
  case children =>
    rw [hforked]
    exact fun pid => (hchildren pid).trans (hl.children pid)
  case calls =>
    rw [hforked]
    intro t₁ r answer hmem
    rcases List.mem_cons.1 hmem with heq | hmem
    · cases heq
      exact absurd rfl (hcall r answer)
    · exact hl.calls hmem

/-- A call of the launch. -/
theorem System.Launching.call {s t : System} {later : Trace} {text : String} {line : CommandLine}
    {forked : List Pid} {r : Request Task}
    {next : r.Answer → Program Task (Except LaunchError Spawned)}
    (hl : s.Launching text line later t) (hd : t.doing = .launching text line forked (.call r next))
    (answer : r.Answer) :
    s.Launching text line ((t, .call r answer) :: later)
      { t with
        doing := .launching text line (forked ++ r.forked answer) (next answer)
        children := t.children.start (r.forked answer) } := by
  obtain ⟨calls, hdoing, hmeets⟩ := hl.doing
  cases hdoing.symm.trans hd
  have hforked : Trace.forked ((t, .call r answer) :: later) = later.forked ++ r.forked answer :=
    Trace.forked_cons
  constructor
  case worker => exact hl.worker
  case outbox => exact hl.outbox
  case outputs => exact Trace.outputs_cons.trans ((List.append_nil _).trans hl.outputs)
  case doing =>
    rw [hforked]
    exact ⟨next answer, rfl, hmeets.2 answer _ rfl⟩
  case children =>
    intro pid
    show t.children.start (r.forked answer) pid = none ↔ _
    rw [hforked, Children.start, List.mem_append]
    by_cases hp : pid ∈ r.forked answer
    · simp [hp]
    · simp [hp, hl.children pid]
  case calls =>
    rw [hforked]
    intro t' r' answer' hmem
    rcases List.mem_cons.1 hmem with heq | hmem
    · cases heq
      refine ⟨⟨hmeets.1.1, fun child group hr => ?_⟩, fun pid => List.mem_append_right _⟩
      exact List.mem_append_left _ (hmeets.1.2 child group hr)
    · obtain ⟨hlaunch, hforked⟩ := hl.calls hmem
      refine ⟨⟨hlaunch.1, fun child group hr => ?_⟩, fun pid hp => ?_⟩
      · exact List.mem_append_left _ (hlaunch.2 child group hr)
      · exact List.mem_append_left _ (hforked pid hp)

/-- **While a launch goes on, nothing is put out and only the calls of the launch are made.** -/
theorem Run.of_launching {s s' : System} {later : Trace} {text : String} {line : CommandLine}
    {terminal : Option Descriptor} (h : Run s later s')
    (hd : s.doing = .launching text line [] (line.launch .stage terminal)) (ho : s.outbox = [])
    (hm : later.TakesNone) (hl : ∀ x ∈ later, ∀ result, x.2 ≠ .launched result) :
    s.Launching text line later s' := by
  induction h with
  | start =>
    refine ⟨rfl, ho, rfl, ⟨_, hd, line.launch_launchesWith⟩, fun pid => ?_,
      fun h => (List.not_mem_nil h).elim⟩
    exact (and_iff_left List.not_mem_nil).symm
  | @move later t t' e _ m ih =>
    obtain ⟨he, hm⟩ := Trace.takesNone_cons.1 hm
    obtain ⟨hel, hl⟩ := List.forall_mem_cons.1 hl
    replace ih := ih hm hl
    obtain ⟨calls, hdoing, -⟩ := ih.doing
    cases m with
    | child h => exact ih.carry rfl rfl rfl h.eq_none_iff rfl fun _ _ h => by cases h
    | receive idle done h => exact absurd rfl (he _)
    | callDirectory h answer => cases hdoing.symm.trans h
    | directory done h => cases hdoing.symm.trans h
    | launched done h => exact absurd rfl (hel _)
    | poll done h answer => cases hdoing.symm.trans h
    | put silent h => cases ih.outbox.symm.trans h
    | reply waits h => cases ih.outbox.symm.trans h
    | callLaunch h answer new =>
      cases hdoing.symm.trans h
      exact ih.call h answer
    | _ => exact ih.carry rfl rfl rfl (fun _ => Iff.rfl) rfl fun _ _ h => by cases h

/-- Who listens or looks for children next launches nothing. -/
theorem System.take_doing_ne_launching {s : System} {step : Step}
    (h : step.next = .listening ∨ ∃ ending, step.next = .collecting ending) (text : String)
    (line : CommandLine) (forked : List Pid)
    (calls : Program Task (Except LaunchError Spawned)) :
    (s.take step).doing ≠ .launching text line forked calls := by
  intro hd
  obtain ⟨hn, -, -⟩ := Doing.begin_eq_launching hd
  rcases h with h | ⟨ending, h⟩ <;> cases h.symm.trans hn

theorem Worker.launched_next_cases (w : Worker) (text : String) (line : CommandLine)
    (result : Except LaunchError Spawned) : (w.launched text line result).next = .listening ∨
      ∃ ending, (w.launched text line result).next = .collecting ending :=
  (w.launched_next text line result).imp_right fun h => ⟨false, h⟩

/-- A launch goes on, or begins with a line that has just been received. -/
theorem System.Moves.launching_cases {s s' : System} {e : Event} (m : s.Moves e s') {text : String}
    {line : CommandLine} {forked : List Pid} {calls : Program Task (Except LaunchError Spawned)}
    (hd : s'.doing = .launching text line forked calls) :
    (∃ forked calls, s.doing = .launching text line forked calls) ∨
      (e = .receive (.line text) ∧ CommandLine.parse text s.worker.operators = .ok line ∧
        line.builtin? = none) := by
  cases m with
  | @receive m rest idle done h =>
    obtain ⟨hn, -, -⟩ := Doing.begin_eq_launching hd
    obtain ⟨rfl, hparse, hb, -⟩ := Worker.received_of_launching hn
    exact .inr ⟨rfl, hparse, hb⟩
  | callDirectory h answer => cases hd
  | @directory directory result done h =>
    refine absurd hd (take_doing_ne_launching (.inl ?_) _ _ _ _)
    cases result <;> rfl
  | callLaunch h answer new =>
    cases hd
    exact .inl ⟨_, _, h⟩
  | launched done h =>
    exact absurd hd (take_doing_ne_launching (s.worker.launched_next_cases _ _ _) _ _ _ _)
  | @poll ending p children done h answer =>
    refine absurd hd (take_doing_ne_launching ?_ _ _ _ _)
    exact (s.worker.polled_next ending p.understood).imp_right fun h => ⟨ending, h⟩
  | _ => exact .inl ⟨_, _, hd⟩

/-- Without a message nothing is launched. -/
theorem Run.not_launching {s s' : System} {later : Trace} (h : Run s later s')
    (hd : ∀ text line forked calls, s.doing ≠ .launching text line forked calls)
    (hm : later.TakesNone) :
    ∀ text line forked calls, s'.doing ≠ .launching text line forked calls := by
  induction h with
  | start => exact hd
  | @move later t t' e _ m ih =>
    obtain ⟨he, hm⟩ := Trace.takesNone_cons.1 hm
    intro text line forked calls h
    rcases m.launching_cases h with ⟨forked, calls, h⟩ | ⟨rfl, -⟩
    · exact ih hm text line forked calls h
    · exact he _ rfl

/-- A line is launched once. -/
theorem Run.not_launched_before {s s' t : System} {after before : Trace}
    {result : Except LaunchError Spawned}
    (h : Run s (after ++ (t, .launched result) :: before) s') (hm : before.TakesNone) :
    ∀ x ∈ before, ∀ result, x.2 ≠ .launched result := by
  rintro ⟨t₁, e⟩ hmem result' rfl
  obtain ⟨between, first, rfl⟩ := List.append_of_mem hmem
  obtain ⟨hbefore, t', m, -⟩ := h.split
  obtain ⟨-, t₂, m₁, hbetween⟩ := hbefore.split
  have hd : ∀ text line forked calls, t₂.doing ≠ .launching text line forked calls := by
    cases m₁ with
    | launched done h =>
      exact System.take_doing_ne_launching (t₁.worker.launched_next_cases _ _ _)
  have hlast := hbetween.not_launching hd (Trace.takesNone_append.1 hm).1
  cases m with
  | launched done h => exact hlast _ _ _ _ h

/-- What a launch has come to if nothing is running after it. -/
theorem System.Sound.forked_eq_nil {s : System} (hs : s.Sound) {text : String}
    {line : CommandLine} {forked : List Pid} {e : LaunchError}
    (h : s.doing = .launching text line forked (.done (.error e)))
    (hr : Worker.running? (Except.error e) = none) : forked = [] := by
  obtain ⟨terminal, hy⟩ := hs.yields h
  have hl := CommandLine.yields_launch (hy (.done (Except.error e)))
  rw [List.append_nil] at hl
  rcases hl with ⟨he, -⟩ | ⟨cause, he, -⟩ | ⟨hnil, -⟩
  · cases he
  · cases he
    cases forked with
    | nil => rfl
    | cons first rest => cases hr
  · exact hnil

/-! ### Putting out -/

/-- **All that has been decided can be put out**, and no message is taken until then. -/
theorem System.Sound.exists_put_out {s : System} (hs : s.Sound) :
    ∃ more s', Run s more s' ∧ more.TakesNone ∧ s'.outbox = [] := by
  obtain ⟨n, hn⟩ : ∃ n, s.outbox.length = n := ⟨_, rfl⟩
  induction n generalizing s with
  | zero =>
    exact ⟨[], s, .start, fun _ h => (List.not_mem_nil h).elim, List.length_eq_zero_iff.1 hn⟩
  | succ n ih =>
    -- An answer is only offered to a reader that waits for it.
    have hmove : ∃ e t, s.Moves e t ∧ t.outbox.length = n ∧ ∀ m, e ≠ .receive m := by
      cases ho : s.outbox with
      | nil => simp [ho] at hn
      | cons o rest =>
        have hrest : rest.length = n := by simpa [ho] using hn
        cases o with
        | report text => exact ⟨_, _, .put (fun _ h => by cases h) ho, hrest, fun _ h => by cases h⟩
        | terminal group =>
          exact ⟨_, _, .put (fun _ h => by cases h) ho, hrest, fun _ h => by cases h⟩
        | reply r =>
          have hwaits := (hs.of_offered (by rw [ho]; exact List.cons_ne_nil _ _)).1
          exact ⟨_, _, .reply hwaits ho, hrest, fun _ h => by cases h⟩
    obtain ⟨e, t, m, hlen, he⟩ := hmove
    obtain ⟨more, s', hmore, hnone, hout⟩ := ih (hs.moves m) hlen
    refine ⟨more ++ [(s, e)], s', Run.append_iff.2 ⟨t, Run.start.move m, hmore⟩, ?_, hout⟩
    exact Trace.takesNone_append.2 ⟨hnone, Trace.takesNone_cons.2 ⟨he, fun _ h => by cases h⟩⟩

end PipelineShell
