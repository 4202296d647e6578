/-
The shell as several parties that run at the same time.

A reader hands over one request after the other and waits for the answer.  A
worker takes messages from a queue and handles them, one call of the system at
a time.  The kernel keeps the children, which end, stop and go on when they
like, and gives notice of that; notices that have not been passed on yet are
one notice.  `System` is the state of all of them, `Moves` is what may happen
next, and a `Run` is anything that may have happened so far.

The worker is the one that runs: `Worker.step` says what it does, and
`CommandLine.launch` and `changeDirectory` which calls it makes meanwhile.
Only what is answered to it is open.

* `System.Sound` — the table of jobs is coherent, the launch of a line goes on
  as it has begun, and every answer is owed to a request: those that wait in
  the queue, are being handled, have a job in the foreground or have their
  answer on its way are never more than the one that the reader waits for;
* `System.Sound.moves`, `System.Sound.run` — it stays so in every run;
* `System.Sound.jobs_cases` — what a move does to the table of jobs;
* `Run.exists_answered` — there are runs with answers.

Design notes: an answer is handed over when the reader waits for it and the
worker has put out all before it, so a worker with outputs left does nothing
else.  The events carry what was open, and observers are functions of the
history; nothing in a system depends on them.
-/
import Mathlib.Logic.Function.Basic
import PipelineShell.Proofs.Launching
import PipelineShell.Proofs.Worker
import PipelineShell.Task

namespace PipelineShell

open Output

/-! ### Children -/

/-- The children that have not been collected, with their conditions. -/
abbrev Children := Pid → Option Condition

/-- What a child does by itself. -/
inductive ChildEvent where
  | ended (pid : Pid) (status : WaitStatus)
  | stopped (pid : Pid) (signal : Signal)
  | continued (pid : Pid)

namespace Children

/-- The child has ended, or has stopped and its parent has not been told. -/
def HasNews (c : Children) (pid : Pid) : Prop :=
  (∃ status, c pid = some (.ended status)) ∨ ∃ signal, c pid = some (.stopped signal false)

/-- What a child may do by itself, and the children afterwards. -/
inductive Changes (c : Children) : ChildEvent → Children → Prop
  | ended {pid : Pid} {status : WaitStatus}
      (alive : c pid = some .running ∨ ∃ signal told, c pid = some (.stopped signal told))
      (final : status.isStop = false) :
      Changes c (.ended pid status) (Function.update c pid (some (.ended status)))
  | stopped {pid : Pid} {signal : Signal} (alive : c pid = some .running) :
      Changes c (.stopped pid signal) (Function.update c pid (some (.stopped signal false)))
  | continued {pid : Pid} {signal : Signal} {told : Bool}
      (halted : c pid = some (.stopped signal told)) :
      Changes c (.continued pid) (Function.update c pid (some .running))

/-- What looking for a changed child may be answered, and the children afterwards.  A child that
has ended is gone once it has been told of; a stop is told of once. -/
inductive Answers (c : Children) : Poll → Children → Prop
  | ended {pid : Pid} {status : WaitStatus} (news : c pid = some (.ended status))
      (final : status.isStop = false) :
      Answers c (.ok (some (pid, status))) (Function.update c pid none)
  | stopped {pid : Pid} {signal : Signal} (news : c pid = some (.stopped signal false)) :
      Answers c (.ok (some (pid, .stopped signal)))
        (Function.update c pid (some (.stopped signal true)))
  | quiet (some_child : ∃ pid, c pid ≠ none) (no_news : ∀ pid, ¬ c.HasNews pid) :
      Answers c (.ok none) c
  | childless (no_child : ∀ pid, c pid = none) : Answers c (.error .echild) c
  | failed {e : Errno} (h : e ≠ .echild) : Answers c (.error e) c

/-- The children with some more, which run. -/
def start (c : Children) (pids : List Pid) : Children :=
  fun pid => if pid ∈ pids then some .running else c pid

/-- Nothing that a child does brings one that has been collected back. -/
theorem Changes.eq_none_iff {c c' : Children} {e : ChildEvent} (h : Changes c e c') (pid : Pid) :
    c' pid = none ↔ c pid = none := by
  cases h with
  | @ended q status alive _ =>
    by_cases hp : pid = q
    · subst hp
      rcases alive with h | ⟨_, _, h⟩ <;> simp [h]
    · rw [Function.update_of_ne hp]
  | @stopped q signal alive =>
    by_cases hp : pid = q
    · subst hp
      simp [alive]
    · rw [Function.update_of_ne hp]
  | @continued q signal told halted =>
    by_cases hp : pid = q
    · subst hp
      simp [halted]
    · rw [Function.update_of_ne hp]

theorem Answers.of_ended {c c' : Children} {pid : Pid} {status : WaitStatus}
    (h : c.Answers (.ok (some (pid, status))) c') (hs : status.isStop = false) :
    c pid ≠ none ∧ c' = Function.update c pid none := by
  cases h with
  | ended news _ => exact ⟨by simp [news], rfl⟩
  | stopped _ => cases hs

theorem Answers.of_stopped {c c' : Children} {pid : Pid} {signal : Signal}
    (h : c.Answers (.ok (some (pid, .stopped signal))) c') :
    c pid ≠ none ∧ c' = Function.update c pid (some (.stopped signal true)) := by
  cases h with
  | ended _ final => cases final
  | stopped news => exact ⟨by simp [news], rfl⟩

theorem Answers.of_no_child {c c' : Children} {p : Poll} (h : c.Answers p c')
    (hp : ∀ pid status, p ≠ .ok (some (pid, status))) : c' = c := by
  cases h with
  | ended _ _ => exact absurd rfl (hp _ _)
  | stopped _ => exact absurd rfl (hp _ _)
  | quiet _ _ => rfl
  | childless _ => rfl
  | failed _ => rfl

end Children

/-! ### The state of all parties -/

inductive Reader where
  /-- It may hand over a request. -/
  | atPrompt
  /-- It waits for the answer to one. -/
  | waiting
  | left
deriving DecidableEq

/-- Where an answer leaves the reader. -/
def Reply.reader : Reply → Reader
  | .resume _ => .atPrompt
  | .quit _ => .left

/-- What the worker is doing, with the calls that it has still to make. -/
inductive Doing where
  | listening
  | collecting (ending : Bool)
  | changing (directory : String) (calls : Program Task (Except DirectoryError String))
  /-- `forked` are the processes that have been started for the line so far. -/
  | launching (text : String) (line : CommandLine) (forked : List Pid)
      (calls : Program Task (Except LaunchError Spawned))

namespace Doing

/-- The stages of a line take the terminal if the shell has one. -/
def terminal (w : Worker) : Option Descriptor := w.terminalGroup.map fun _ => Descriptor.input

def begin (w : Worker) : Activity → Doing
  | .listening => .listening
  | .collecting ending => .collecting ending
  | .changing directory => .changing directory (changeDirectory directory)
  | .launching text line => .launching text line [] (line.launch .stage (terminal w))

/-- An answer will be given at the end of this. -/
def isHandling : Doing → Bool
  | .listening => false
  | .collecting ending => ending
  | .changing _ _ => true
  | .launching _ _ _ _ => true

@[simp] theorem isHandling_begin (w : Worker) (a : Activity) :
    (begin w a).isHandling = a.isHandling := by
  cases a <;> rfl

/-- A launch begins with all its calls ahead and nothing forked. -/
theorem begin_eq_launching {w : Worker} {a : Activity} {text : String} {line : CommandLine}
    {forked : List Pid} {calls : Program Task (Except LaunchError Spawned)}
    (h : begin w a = .launching text line forked calls) :
    a = .launching text line ∧ forked = [] ∧ calls = line.launch .stage (terminal w) := by
  cases a with
  | launching text' line' =>
    cases h
    exact ⟨rfl, rfl, rfl⟩
  | _ => cases h

end Doing

structure System where
  worker : Worker
  doing : Doing := .listening
  /-- What the worker has still to put out. -/
  outbox : List Output := []
  /-- What the worker has not been told yet. -/
  inbox : List Message := []
  reader : Reader := .atPrompt
  children : Children := fun _ => none
  /-- Some child has changed and the worker has not been sent a message about it. -/
  notice : Bool := false

inductive Event where
  | request (m : Message)
  /-- The reader leaves without being told to. -/
  | hangUp
  | child (e : ChildEvent)
  /-- A notice without a reason. -/
  | nudge
  /-- The notice is passed on. -/
  | notify
  | signal
  | receive (m : Message)
  | call (r : Request Task) (answer : r.Answer)
  | directory (result : Except DirectoryError String)
  | launched (result : Except LaunchError Spawned)
  | poll (p : Poll)
  | put (o : Output)
  /-- The reader takes an answer. -/
  | reply (r : Reply)

namespace System

/-- The beginning: nothing has been asked and nothing is running. -/
def initial (terminalGroup : Option Pid) (operators : OperatorSet) : System where
  worker := { terminalGroup, operators }

/-- Goes on with what a step of the worker comes to. -/
def take (s : System) (step : Step) : System :=
  { s with
    worker := step.worker, outbox := step.outputs, doing := .begin step.worker step.next }

/-- One thing that may happen next, and the state afterwards. -/
inductive Moves (s : System) : Event → System → Prop
  | request {m : Message} (prompt : s.reader = .atPrompt) (h : m.isRequest = true) :
      Moves s (.request m) { s with inbox := s.inbox ++ [m], reader := .waiting }
  | hangUp (prompt : s.reader = .atPrompt) : Moves s .hangUp { s with reader := .left }
  | child {e : ChildEvent} {children : Children} (h : s.children.Changes e children) :
      Moves s (.child e) { s with children, notice := true }
  | nudge : Moves s .nudge { s with notice := true }
  | notify (h : s.notice = true) :
      Moves s .notify { s with inbox := s.inbox ++ [.childChanged], notice := false }
  | signal : Moves s .signal { s with inbox := s.inbox ++ [.signal] }
  | receive {m : Message} {rest : List Message} (idle : s.doing = .listening)
      (done : s.outbox = []) (h : s.inbox = m :: rest) :
      Moves s (.receive m) ({ s with inbox := rest }.take (s.worker.step .listening m))
  | callDirectory {directory : String} {r : Request Task}
      {next : r.Answer → Program Task (Except DirectoryError String)}
      (h : s.doing = .changing directory (.call r next)) (answer : r.Answer) :
      Moves s (.call r answer) { s with doing := .changing directory (next answer) }
  | directory {directory : String} {result : Except DirectoryError String} (done : s.outbox = [])
      (h : s.doing = .changing directory (.done result)) :
      Moves s (.directory result) (s.take (s.worker.step (.changing directory) result))
  | callLaunch {text : String} {line : CommandLine} {forked : List Pid} {r : Request Task}
      {next : r.Answer → Program Task (Except LaunchError Spawned)}
      (h : s.doing = .launching text line forked (.call r next)) (answer : r.Answer)
      (new : ∀ pid ∈ r.forked answer, s.children pid = none) :
      Moves s (.call r answer)
        { s with
          doing := .launching text line (forked ++ r.forked answer) (next answer)
          children := s.children.start (r.forked answer) }
  | launched {text : String} {line : CommandLine} {forked : List Pid}
      {result : Except LaunchError Spawned} (done : s.outbox = [])
      (h : s.doing = .launching text line forked (.done result)) :
      Moves s (.launched result) (s.take (s.worker.step (.launching text line) result))
  | poll {ending : Bool} {p : Poll} {children : Children} (done : s.outbox = [])
      (h : s.doing = .collecting ending) (answer : s.children.Answers p children) :
      Moves s (.poll p) ({ s with children }.take (s.worker.step (.collecting ending) p))
  | put {o : Output} {rest : List Output} (silent : ∀ r, o ≠ .reply r)
      (h : s.outbox = o :: rest) : Moves s (.put o) { s with outbox := rest }
  | reply {r : Reply} {rest : List Output} (waits : s.reader = .waiting)
      (h : s.outbox = .reply r :: rest) :
      Moves s (.reply r) { s with outbox := rest, reader := r.reader }

/-- A line that is no command of the shell itself is launched. -/
theorem Moves.receive_line {s : System} {text : String} {line : CommandLine}
    {rest : List Message} (idle : s.doing = .listening) (done : s.outbox = [])
    (h : s.inbox = .line text :: rest)
    (hparse : CommandLine.parse text s.worker.operators = .ok line) (hb : line.builtin? = none) :
    s.Moves (.receive (.line text))
      ({ s with inbox := rest }.take { worker := s.worker, next := .launching text line }) := by
  have hstep : s.worker.step .listening (.line text) =
      { worker := s.worker, next := .launching text line } :=
    Worker.lineRead_of_builtin?_eq_none hparse hb
  rw [← hstep]
  exact .receive idle done h

end System

/-- What has happened, the last first, each event with the state in which it happened. -/
abbrev Trace := List (System × Event)

/-- Anything that may happen from a state on. -/
inductive Run (s₀ : System) : Trace → System → Prop
  | start : Run s₀ [] s₀
  | move {past : Trace} {s s' : System} {e : Event} (h : Run s₀ past s) (m : s.Moves e s') :
      Run s₀ ((s, e) :: past) s'

/-- There are runs with answers: here a line is asked, its only stage ends with 3, and this is the
answer. -/
theorem Run.exists_answered : ∃ (s₁ s₂ s₃ s₄ s₅ s₆ s₇ s₈ : System) (stage : Task),
    Run (.initial none .full)
      [(s₇, .reply (.resume 3)), (s₆, .poll (.ok (some (7, .exited 3)))),
        (s₅, .child (.ended 7 (.exited 3))), (s₄, .launched (.ok ⟨7, [7]⟩)),
        (s₃, .call (.setGroup 7 0) (.ok ())), (s₂, .call (.fork stage) (.ok 7)),
        (s₁, .receive (.line "a")), (.initial none .full, .request (.line "a"))] s₈ := by
  have hparse : CommandLine.parse "a" .full = .ok ⟨Pipeline.ofWords [.literal "a"], {}⟩ := by
    decide +kernel
  have asked : Run (.initial none .full) [(_, .request (.line "a"))] _ :=
    start.move (.request rfl rfl)
  have received := asked.move (.receive_line rfl rfl rfl hparse rfl)
  have forked := received.move (.callLaunch (r := .fork _) rfl (.ok 7) fun _ _ => rfl)
  have grouped := forked.move (.callLaunch (r := .setGroup 7 0) rfl (.ok ()) fun _ h => by cases h)
  have launched := grouped.move (.launched rfl rfl)
  have ended : Run _ ((_, .child (.ended 7 (.exited 3))) :: _) _ :=
    launched.move (.child (.ended (.inl rfl) rfl))
  have collected : Run _ ((_, .poll (.ok (some (7, .exited 3)))) :: _) _ :=
    ended.move (.poll rfl rfl (.ended rfl rfl))
  have answered := collected.move (.reply rfl rfl)
  exact ⟨_, _, _, _, _, _, _, _, _, answered⟩

/-! ### What holds in every run -/

namespace Reader

def isWaiting : Reader → Bool
  | .waiting => true
  | _ => false

@[simp] theorem isWaiting_eq_true {r : Reader} : r.isWaiting = true ↔ r = .waiting := by
  cases r <;> simp [isWaiting]

end Reader

@[simp] theorem Reply.isWaiting_reader (r : Reply) : r.reader.isWaiting = false := by
  cases r <;> rfl

namespace System

/-- How many requests have been handed over, but not received by the worker. -/
def queued (s : System) : Nat := s.inbox.countP Message.isRequest

/-- How many answers are owed, each for a request in the queue, for one that is being handled, for
the job in the foreground, or as an answer on its way. -/
def owed (s : System) : Nat :=
  s.queued + (replies s.outbox).length + s.doing.isHandling.toNat +
    s.worker.foreground.isSome.toNat

structure Sound (s : System) : Prop where
  coherent : s.worker.jobs.Coherent
  owed_le : s.owed ≤ s.reader.isWaiting.toNat
  /-- The launch of a line goes on as it has begun. -/
  yields : ∀ {text : String} {line : CommandLine} {forked : List Pid}
    {calls : Program Task (Except LaunchError Spawned)},
    s.doing = .launching text line forked calls →
      ∃ terminal, ∀ {pids : List Pid} {result : Except LaunchError Spawned},
        calls.Yields pids result →
          (line.launch Task.stage terminal).Yields (forked ++ pids) result

variable {s s' : System} {e : Event}

theorem sound_initial (terminalGroup : Option Pid) (operators : OperatorSet) :
    (initial terminalGroup operators).Sound where
  coherent := JobTable.coherent_empty
  owed_le := Nat.le_refl _
  yields h := by cases h

/-- A faithful step that answers no more than has been received. -/
theorem Sound.take {step : Step} {n : Nat} (hc : s.worker.jobs.Coherent)
    (hf : step.Faithful s.worker n)
    (hn : s.queued + s.worker.foreground.isSome.toNat + n ≤ s.reader.isWaiting.toNat) :
    (s.take step).Sound where
  coherent := hf.coherent hc
  owed_le := by
    have ha := hf.answers
    show s.queued + (replies step.outputs).length +
      (Doing.begin step.worker step.next).isHandling.toNat + step.worker.foreground.isSome.toNat
        ≤ s.reader.isWaiting.toNat
    rw [Doing.isHandling_begin]
    omega
  yields := by
    intro text line forked calls h
    obtain ⟨-, rfl, rfl⟩ := Doing.begin_eq_launching h
    exact ⟨Doing.terminal step.worker, fun h => h⟩

theorem Sound.moves (hs : s.Sound) (m : s.Moves e s') : s'.Sound := by
  have howed := hs.owed_le
  unfold owed at howed
  cases m with
  | request prompt h =>
    refine ⟨hs.coherent, ?_, hs.yields⟩
    rw [prompt] at howed
    simp only [owed, queued, List.countP_append, List.countP_singleton, h, if_true,
      Reader.isWaiting, Bool.toNat_true, Bool.toNat_false] at howed ⊢
    omega
  | hangUp prompt =>
    refine ⟨hs.coherent, ?_, hs.yields⟩
    rw [prompt] at howed
    exact howed
  | child h => exact ⟨hs.coherent, hs.owed_le, hs.yields⟩
  | nudge => exact ⟨hs.coherent, hs.owed_le, hs.yields⟩
  | notify h =>
    refine ⟨hs.coherent, ?_, hs.yields⟩
    simpa [owed, queued, Message.isRequest] using howed
  | signal =>
    refine ⟨hs.coherent, ?_, hs.yields⟩
    simpa [owed, queued, Message.isRequest] using howed
  | @receive m rest idle done h =>
    refine Sound.take hs.coherent (Worker.received_faithful m) ?_
    have hm : (if m.isRequest = true then 1 else 0) = m.isRequest.toNat := by
      cases m.isRequest <;> rfl
    -- A request leaves the queue and is handled from now on.
    rw [queued, h, List.countP_cons, hm] at howed
    show rest.countP Message.isRequest + s.worker.foreground.isSome.toNat + m.isRequest.toNat
      ≤ s.reader.isWaiting.toNat
    omega
  | callDirectory h answer =>
    refine ⟨hs.coherent, ?_, fun h => by cases h⟩
    rw [h] at howed
    exact howed
  | @directory directory result done h =>
    refine Sound.take hs.coherent (Worker.directoryChanged_faithful result) ?_
    rw [h, Doing.isHandling, Bool.toNat_true] at howed
    omega
  | @callLaunch text line forked r next h answer new =>
    refine ⟨hs.coherent, ?_, ?_⟩
    · rw [h] at howed
      exact howed
    -- What the launch may still come to, it may come to after this call.
    · obtain ⟨terminal, hy⟩ := hs.yields h
      intro _ _ _ _ h'
      cases h'
      refine ⟨terminal, fun {pids result} hp => ?_⟩
      rw [List.append_assoc]
      exact hy (.call answer hp)
  | @launched text line forked result done h =>
    refine Sound.take hs.coherent (Worker.launched_faithful hs.coherent text line result) ?_
    rw [h, Doing.isHandling, Bool.toNat_true] at howed
    omega
  | @poll ending p children done h answer =>
    refine Sound.take hs.coherent (Worker.polled_faithful hs.coherent ending p.understood) ?_
    rw [h, Doing.isHandling] at howed
    show s.queued + s.worker.foreground.isSome.toNat + ending.toNat ≤ s.reader.isWaiting.toNat
    omega
  | @put o rest silent h =>
    refine ⟨hs.coherent, ?_, hs.yields⟩
    rw [h, replies_cons_of_silent silent] at howed
    exact howed
  | @reply r rest waits h =>
    refine ⟨hs.coherent, ?_, hs.yields⟩
    -- The answer that is taken was all that was owed.
    rw [h, waits, replies_cons_reply, List.length_cons] at howed
    simp only [Reader.isWaiting, Bool.toNat_true] at howed
    show s.queued + (replies rest).length + s.doing.isHandling.toNat +
      s.worker.foreground.isSome.toNat ≤ r.reader.isWaiting.toNat
    rw [Reply.isWaiting_reader, Bool.toNat_false]
    omega

/-- The operators stay as they have been configured. -/
theorem Sound.operators (hs : s.Sound) (m : s.Moves e s') :
    s'.worker.operators = s.worker.operators := by
  cases m with
  | @receive m rest idle done h => exact (Worker.received_faithful m).operators
  | @directory directory result done h => exact (Worker.directoryChanged_faithful result).operators
  | @launched text line forked result done h =>
    exact (Worker.launched_faithful hs.coherent text line result).operators
  | @poll ending p children done h answer =>
    exact (Worker.polled_faithful hs.coherent ending p.understood).operators
  | _ => rfl

/-- What a move does to the table of jobs: mostly nothing; a poll moves a job to the background or
takes a process from its job, and the end of a launch adds a job for what runs. -/
theorem Sound.jobs_cases (hs : s.Sound) (m : s.Moves e s') :
    s'.worker.jobs = s.worker.jobs ∨
      (∃ id, s'.worker.jobs = s.worker.jobs.setBackground id) ∨
      (∃ pid status, s'.worker.jobs = (s.worker.jobs.remove pid status).2) ∨
      ∃ text line forked result spawned id, e = .launched result ∧
        s.doing = .launching text line forked (.done result) ∧
        Worker.running? result = some spawned ∧
        s.worker.jobs.insert? (String.ofList (Text.trim text.toList)) spawned.group spawned.pids
          line.modifier.background = some (id, s'.worker.jobs) := by
  cases m with
  | @receive m rest idle done _ =>
    obtain ⟨status, hw⟩ := s.worker.received_worker m
    have hjobs : (s.worker.received m).worker.jobs = s.worker.jobs := by rw [hw]
    exact .inl hjobs
  | @directory directory result done _ =>
    obtain ⟨status, hw⟩ := s.worker.directoryChanged_worker result
    have hjobs : (s.worker.directoryChanged result).worker.jobs = s.worker.jobs := by rw [hw]
    exact .inl hjobs
  | @launched text line forked result done hd =>
    rcases s.worker.jobs_launched_cases text line result with h | ⟨spawned, id, hr, hi⟩
    · exact .inl h
    · exact .inr (.inr (.inr ⟨text, line, forked, result, spawned, id, rfl, hd, hr, hi⟩))
  | @poll ending p children done _ answer =>
    rcases Worker.jobs_polled_cases hs.coherent ending p.understood with
      h | ⟨id, h⟩ | ⟨pid, status, -, h⟩
    · exact .inl h
    · exact .inr (.inl ⟨id, h⟩)
    · exact .inr (.inr (.inl ⟨pid, status.code, h⟩))
  | _ => exact .inl rfl

/-- While a request is being handled or waits in the queue, no job is in the foreground. -/
theorem Sound.foreground_eq_none (hs : s.Sound)
    (h : s.doing.isHandling = true ∨ 0 < s.queued) : s.worker.foreground = none := by
  have howed := hs.owed_le
  have hle := Bool.toNat_le s.reader.isWaiting
  cases hf : s.worker.foreground with
  | none => rfl
  | some id =>
    rw [owed, hf, Option.isSome_some, Bool.toNat_true] at howed
    rcases h with h | h
    · rw [h, Bool.toNat_true] at howed
      omega
    · omega

/-- An answer that is offered is the only thing owed. -/
theorem Sound.of_offered (hs : s.Sound) (h : replies s.outbox ≠ []) :
    s.reader = .waiting ∧ (replies s.outbox).length = 1 ∧ s.queued = 0 ∧
      s.doing.isHandling = false ∧ s.worker.foreground = none := by
  have howed := hs.owed_le
  rw [System.owed] at howed
  have hpos := List.length_pos_of_ne_nil h
  have hle := Bool.toNat_le s.reader.isWaiting
  have hwaits : s.reader.isWaiting = true := by
    by_contra hw
    rw [Bool.not_eq_true] at hw
    rw [hw, Bool.toNat_false] at howed
    omega
  refine ⟨Reader.isWaiting_eq_true.1 hwaits, by omega, by omega, ?_, ?_⟩
  · by_contra hd
    rw [Bool.not_eq_false] at hd
    rw [hd, Bool.toNat_true] at howed
    omega
  · by_contra hf
    rw [← ne_eq, ← Option.isSome_iff_ne_none] at hf
    rw [hf, Bool.toNat_true] at howed
    omega

/-- What runs after a launch is what has been forked for the line. -/
theorem Sound.pids_of_running? (hs : s.Sound) {text : String} {line : CommandLine}
    {forked : List Pid} {result : Except LaunchError Spawned} {spawned : Spawned}
    (h : s.doing = .launching text line forked (.done result))
    (hr : Worker.running? result = some spawned) : spawned.pids = forked := by
  obtain ⟨terminal, hy⟩ := hs.yields h
  have hl := CommandLine.yields_launch (hy (.done result))
  rw [List.append_nil] at hl
  rcases hl with ⟨rfl, -⟩ | ⟨e, rfl, -⟩ | ⟨-, e, rfl, he⟩
  · cases hr
    rfl
  · cases forked with
    | nil => cases hr
    | cons first rest =>
      cases hr
      rfl
  · rcases e with _ | _ | ⟨spawned, cause⟩
    · cases hr
    · cases hr
    · exact absurd rfl (he spawned cause)

theorem Sound.run {s₀ : System} {past : Trace} (hs : s₀.Sound) (h : Run s₀ past s) : s.Sound := by
  induction h with
  | start => exact hs
  | move _ m ih => exact ih.moves m

theorem operators_of_run {terminalGroup : Option Pid} {operators : OperatorSet} {past : Trace}
    (h : Run (.initial terminalGroup operators) past s) : s.worker.operators = operators := by
  induction h with
  | start => rfl
  | move h m ih => exact (((sound_initial terminalGroup operators).run h).operators m).trans ih

end System

namespace Trace

/-- The requests that the reader has handed over, in order. -/
def requests : Trace → List Message
  | [] => []
  | (_, .request m) :: past => requests past ++ [m]
  | _ :: past => requests past

/-- The answers that the reader has been given, in order. -/
def answers : Trace → List Reply
  | [] => []
  | (_, .reply r) :: past => answers past ++ [r]
  | _ :: past => answers past

/-- The reader waits exactly if one request is open, and otherwise none is. -/
theorem length_requests {terminalGroup : Option Pid} {operators : OperatorSet} {past : Trace}
    {s : System} (h : Run (.initial terminalGroup operators) past s) :
    (requests past).length = (answers past).length + s.reader.isWaiting.toNat := by
  induction h with
  | start => rfl
  | move _ m ih =>
    cases m with
    | @request m prompt _ =>
      rw [prompt] at ih
      simp only [requests, answers, List.length_append, List.length_singleton, ih]
      rfl
    | hangUp prompt =>
      rw [prompt] at ih
      exact ih
    | @reply r rest waits _ =>
      rw [waits] at ih
      simp only [requests, answers, List.length_append, List.length_singleton, ih,
        Reply.isWaiting_reader]
      rfl
    | _ => exact ih

end Trace

end PipelineShell
