/-
Who has the terminal.

The terminal belongs to one group of processes at a time.  The shell gives it
to a foreground job when it has launched it, and takes it back when the job has
ended or stopped.  Each stage of the job also gives it to its own group, some
time between the fork and its command; nobody knows when.

* `Program.Keeps` — a program that never takes the terminal; the stages of a
  line in the background are such programs;
* `Console` — the parties of `System`, together with the stages that have not
  executed their commands yet and the group that has the terminal;
* `Console.Run.system` — the parties do what they do without the terminal, so
  all that is known of them stays true;
* `Console.exists_lost` — the shell can be at its prompt without the terminal.

Design notes: what a command does with the terminal once it has been executed is
not part of this.  That a process ends or stops is left to `System`, which lets
it happen at any time.
-/
import PipelineShell.Proofs.Foreground
import PipelineShell.Proofs.Wiring

namespace PipelineShell

open Program

/-! ### Programs that leave the terminal where it is -/

def Request.takesTerminal {τ : Type} : Request τ → Bool
  | .setForeground _ _ => true
  | _ => false

/-- The program never gives the terminal to a group. -/
def Program.Keeps {τ α : Type} (p : Program τ α) : Prop := p.Makes fun r => r.takesTerminal = false

/-- A process that is started by this call, if any, leaves the terminal where it is. -/
def Request.StartsKeeping (r : Request Task) : Prop := ∀ child, r = .fork child → child.round.Keeps

theorem Request.startsKeeping_of_isPlain {r : Request Task} (h : r.isPlain = true) :
    r.StartsKeeping := by
  rintro child rfl
  cases h

namespace Program

variable {τ α : Type}

theorem keeps_ask {r : Request τ} (h : r.takesTerminal = false) : (ask r).Keeps := makes_ask h

theorem Keeps.bind {β : Type} {p : Program τ α} {f : α → Program τ β} (h : p.Keeps)
    (hf : ∀ a, (f a).Keeps) : (p >>= f).Keeps := Makes.bind h hf

end Program

namespace Stage

variable {τ α : Type} {stage : Stage}

theorem keeps_settle (h : stage.terminal = none) : (stage.settle : Program τ Unit).Keeps := by
  rw [settle]
  refine (keeps_ask rfl).bind fun _ => ?_
  rw [h]
  exact (keeps_ask rfl).bind fun _ => (keeps_ask rfl).bind fun _ => makes_done ()

/-- **A stage that is given no terminal never takes it.** -/
theorem keeps_program (h : stage.terminal = none) : (stage.program : Program τ α).Keeps := by
  rw [program_eq]
  refine (keeps_settle h).bind fun _ => makes_work (fun r hr => ?_) stage
  cases r <;> first | rfl | cases hr

end Stage

/-- **No stage of a line in the background ever takes the terminal.** -/
theorem CommandLine.startsKeeping_launch {line : CommandLine}
    (h : line.modifier.background = true) (terminal : Option Descriptor) :
    (line.launch Task.stage terminal).Makes Request.StartsKeeping := by
  refine makes_launch (fun _ _ => Request.startsKeeping_of_isPlain rfl)
    (Request.startsKeeping_of_isPlain rfl) (fun _ => Request.startsKeeping_of_isPlain rfl) ?_
  rintro plan hplan pipes group i arguments child ⟨⟩
  exact Stage.keeps_program (if_pos (by rw [Plan.modifier_ofCommandLine hplan, h]))

/-! ### The group that has the terminal -/

/-- Who has the terminal after a call, if it was this group before. -/
def Request.owner {τ : Type} (before : Pid) : (r : Request τ) → r.Answer → Pid
  | .setForeground _ group, .ok () => group
  | _, _ => before

/-- A process is told its own number when it asks for it. -/
def Request.AnsweredTo {τ : Type} (pid : Pid) : (r : Request τ) → r.Answer → Prop
  | .processId, answer => answer = pid
  | _, _ => True

def Output.owner (before : Pid) : Output → Pid
  | .terminal group => group
  | _ => before

/-- Who has the terminal when all this has been put out. -/
def ownerAfter (before : Pid) (outputs : List Output) : Pid := outputs.foldl Output.owner before

def Event.owner (before : Pid) : Event → Pid
  | .put o => o.owner before
  | _ => before

/-- The processes on their way to their commands, each with the calls that it has still to make. -/
abbrev Stages := Pid → Option (Program Task Task)

/-- A process that has been forked has all its calls to make. -/
def Event.stages (before : Stages) : Event → Stages
  | .call (.fork task) (.ok pid) => Function.update before pid (some task.round)
  | _ => before

structure Console where
  system : System
  /-- The group that has the terminal. -/
  owner : Pid
  stages : Stages := fun _ => none

inductive Act where
  | system (e : Event)
  /-- A process makes its next call. -/
  | stage (pid : Pid) (r : Request Task) (answer : r.Answer)
  /-- A process executes its command. -/
  | execute (pid : Pid)

namespace Console

/-- The beginning: the shell has the terminal. -/
def initial (group : Pid) (operators : OperatorSet) : Console where
  system := .initial (some group) operators
  owner := group

/-- One thing that may happen next.  The stages go on one call at a time, as long as they run. -/
inductive Moves (c : Console) : Act → Console → Prop
  | system {e : Event} {s' : System} (h : c.system.Moves e s') :
      Moves c (.system e)
        { system := s', owner := e.owner c.owner, stages := e.stages c.stages }
  | stage (pid : Pid) {r : Request Task} {next : r.Answer → Program Task Task}
      (runs : c.system.children pid = some .running) (h : c.stages pid = some (.call r next))
      (answer : r.Answer) (own : r.AnsweredTo pid answer) :
      Moves c (.stage pid r answer)
        { c with
          owner := r.owner c.owner answer
          stages := Function.update c.stages pid (some (next answer)) }
  | execute (pid : Pid) {name : String} {arguments : List String}
      {next : Errno → Program Task Task} (runs : c.system.children pid = some .running)
      (h : c.stages pid = some (.call (.executeCommand name arguments) next)) :
      Moves c (.execute pid) { c with stages := Function.update c.stages pid none }

/-- What has happened, the last first, each time with the state before. -/
abbrev Trace := List (Console × Act)

inductive Run (c₀ : Console) : Trace → Console → Prop
  | start : Run c₀ [] c₀
  | move {past : Trace} {c c' : Console} {a : Act} (h : Run c₀ past c) (m : c.Moves a c') :
      Run c₀ ((c, a) :: past) c'

/-- What the parties of the system have done. -/
def Trace.system : Trace → PipelineShell.Trace
  | [] => []
  | (c, .system e) :: past => (c.system, e) :: system past
  | _ :: past => system past

variable {c₀ c c' : Console} {past : Trace}

theorem Trace.mem_system {s : System} {e : Event} (h : (s, e) ∈ past.system) :
    ∃ c : Console, c.system = s ∧ (c, Act.system e) ∈ past := by
  induction past with
  | nil => cases h
  | cons x past ih =>
    obtain ⟨c, a⟩ := x
    have hlater : (s, e) ∈ system past →
        ∃ c' : Console, c'.system = s ∧ (c', Act.system e) ∈ (c, a) :: past := by
      intro h
      obtain ⟨c', hc, hmem⟩ := ih h
      exact ⟨c', hc, List.mem_cons_of_mem _ hmem⟩
    cases a with
    | system e' =>
      rcases List.mem_cons.1 h with he | h
      · cases he
        exact ⟨c, rfl, List.mem_cons_self⟩
      · exact hlater h
    | _ => exact hlater h

/-- **The parties do what they do without the terminal.** -/
theorem Run.system (h : Run c₀ past c) : PipelineShell.Run c₀.system past.system c.system := by
  induction h with
  | start => exact .start
  | move _ m ih =>
    cases m with
    | system m => exact ih.move m
    | stage pid runs h answer own => exact ih
    | execute pid runs h => exact ih

end Console

/-! ### What is asked of a run -/

def Act.Collects : Act → Prop
  | .system e => e.Collects
  | _ => True

/-- A process ends or stops only when it has executed its command. -/
def Act.Executed (c : Console) : Act → Prop
  | .system (.child (.ended pid _)) => c.stages pid = none
  | .system (.child (.stopped pid _)) => c.stages pid = none
  | _ => True

namespace Console

variable {c₀ c c' : Console} {past : Trace}

theorem Trace.collects_system (h : ∀ x ∈ past, x.2.Collects) :
    ∀ x ∈ past.system, x.2.Collects := by
  rintro ⟨s, e⟩ hmem
  obtain ⟨c, -, hc⟩ := Trace.mem_system hmem
  exact h _ hc

/-- A run in which everything that has happened is like this. -/
structure RunOf (P : Console × Act → Prop) (c₀ : Console) (past : Trace) (c : Console) :
    Prop where
  run : Run c₀ past c
  all : ∀ x ∈ past, P x

namespace RunOf

variable {P : Console × Act → Prop}

theorem start : RunOf P c₀ [] c₀ := ⟨.start, fun _ h => (List.not_mem_nil h).elim⟩

theorem move {a : Act} (h : RunOf P c₀ past c) (m : c.Moves a c') (ha : P (c, a)) :
    RunOf P c₀ ((c, a) :: past) c' :=
  ⟨h.run.move m, List.forall_mem_cons.2 ⟨ha, h.all⟩⟩

end RunOf

/-- **The shell can be at its prompt without the terminal**: here the first stage of `/a | /b` stops
before the second one has given the terminal to the group of the job. -/
theorem exists_lost : ∃ (past : Trace) (c : Console),
    Run (.initial 5 .full) past c ∧ (∀ x ∈ past, x.2.Collects ∧ x.2.Executed x.1) ∧
      c.system.reader = .atPrompt ∧ c.owner ≠ 5 := by
  have hparse : CommandLine.parse "/a | /b" .full =
      .ok ⟨Pipeline.ofWords [.literal "/a", .operator .pipe, .literal "/b"], {}⟩ := by
    decide +kernel
  have begun : RunOf (fun x => x.2.Collects ∧ x.2.Executed x.1) (.initial 5 .full) []
      (.initial 5 .full) := .start
  have asked := begun.move (.system (.request (m := .line "/a | /b") rfl rfl)) ⟨⟨⟩, ⟨⟩⟩
  have received := asked.move (.system (.receive_line rfl rfl rfl hparse rfl)) ⟨⟨⟩, ⟨⟩⟩
  have piped := received.move
    (.system (.callLaunch (r := .pipe) rfl (.ok (3, 4)) fun _ h => by cases h)) ⟨⟨⟩, ⟨⟩⟩
  have forked := piped.move
    (.system (.callLaunch (r := .fork _) rfl (.ok 7) fun _ _ => rfl)) ⟨⟨⟩, ⟨⟩⟩
  have grouped := forked.move
    (.system (.callLaunch (r := .setGroup 7 0) rfl (.ok ()) fun _ h => by cases h)) ⟨⟨⟩, ⟨⟩⟩
  have forked := grouped.move (.system (.callLaunch (r := .fork _) rfl (.ok 8) fun pid h => by
    rw [List.mem_singleton.1 h]; rfl)) ⟨⟨⟩, ⟨⟩⟩
  have grouped := forked.move
    (.system (.callLaunch (r := .setGroup 8 7) rfl (.ok ()) fun _ h => by cases h)) ⟨⟨⟩, ⟨⟩⟩
  have closed := grouped.move
    (.system (.callLaunch (r := .close 3) rfl (.ok ()) fun _ h => by cases h)) ⟨⟨⟩, ⟨⟩⟩
  have closed := closed.move
    (.system (.callLaunch (r := .close 4) rfl (.ok ()) fun _ h => by cases h)) ⟨⟨⟩, ⟨⟩⟩
  have launched := closed.move (.system (.launched rfl rfl)) ⟨⟨⟩, ⟨⟩⟩
  have given := launched.move (.system (.put (fun _ h => by cases h) rfl)) ⟨⟨⟩, ⟨⟩⟩
  -- The first stage gets as far as its command.
  have joined := given.move (.stage 7 (r := .setGroup 0 0) rfl rfl (.ok ()) ⟨⟩) ⟨⟨⟩, ⟨⟩⟩
  have named := joined.move (.stage 7 (r := .processId) rfl rfl (7 : Pid) rfl) ⟨⟨⟩, ⟨⟩⟩
  have taken := named.move
    (.stage 7 (r := .setForeground 0 7) rfl rfl (.ok ()) ⟨⟩) ⟨⟨⟩, ⟨⟩⟩
  have reset := taken.move
    (.stage 7 (r := .setDisposition _ _) rfl rfl (.ok ()) ⟨⟩) ⟨⟨⟩, ⟨⟩⟩
  have settled := reset.move
    (.stage 7 (r := .setDisposition _ _) rfl rfl (.ok ()) ⟨⟩) ⟨⟨⟩, ⟨⟩⟩
  have attached := settled.move
    (.stage 7 (r := .duplicate 4 1) rfl rfl (.ok ()) ⟨⟩) ⟨⟨⟩, ⟨⟩⟩
  have freed := attached.move (.stage 7 (r := .close 3) rfl rfl (.ok ()) ⟨⟩) ⟨⟨⟩, ⟨⟩⟩
  have connected := freed.move (.stage 7 (r := .close 4) rfl rfl (.ok ()) ⟨⟩) ⟨⟨⟩, ⟨⟩⟩
  have executed := connected.move (.execute 7 rfl rfl) ⟨⟨⟩, ⟨⟩⟩
  have stopped := executed.move (.system (.child (e := .stopped 7 .stop) (.stopped rfl))) ⟨⟨⟩, rfl⟩
  -- The shell learns of the stop, takes the terminal back and answers.
  have collected := stopped.move
    (.system (.poll (p := .ok (some (7, .stopped .stop))) rfl rfl (.stopped rfl))) ⟨nofun, ⟨⟩⟩
  have reported := collected.move (.system (.put (fun _ h => by cases h) rfl)) ⟨⟨⟩, ⟨⟩⟩
  have returned := reported.move (.system (.put (fun _ h => by cases h) rfl)) ⟨⟨⟩, ⟨⟩⟩
  have answered := returned.move (.system (.reply rfl rfl)) ⟨⟨⟩, ⟨⟩⟩
  -- The second stage comes too late.
  have joined := answered.move (.stage 8 (r := .setGroup 0 7) rfl rfl (.ok ()) ⟨⟩) ⟨⟨⟩, ⟨⟩⟩
  have taken := joined.move
    (.stage 8 (r := .setForeground 0 7) rfl rfl (.ok ()) ⟨⟩) ⟨⟨⟩, ⟨⟩⟩
  exact ⟨_, _, taken.run, taken.all, rfl, by decide⟩

end Console

end PipelineShell
