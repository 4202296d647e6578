/-
The shell and the stages of a pipeline, all at the same time.

While the shell still launches a line, the first stages are on their way to
their commands, each one call after the other and in any order.

* `Assembly` — the shell and the stages that have been forked, with the calls
  that they have still to make;
* `Assembly.wired_of_reaches` — each of them meets what is expected of it;
* `wired_of_launched` — so every stage is wired as its line says, and every end
  of a pipe is held by one process alone.

Design notes: no two processes share a descriptor table, so what holds of each
program by itself, whatever it is answered, holds of all of them together.
-/
import Mathlib.Data.Set.Insert
import Mathlib.Logic.Relation
import PipelineShell.Proofs.Wiring

namespace PipelineShell

open Program

/-! ### Which ends a stage should have -/

namespace CommandLine

variable {line : CommandLine} {isOpen : Descriptor → Bool} {i k : Nat}

theorem exists_wired_iff {source : Source} (hsource : ∀ fd, source ≠ .inherited fd) :
    (∃ fd, line.wired (.inherited isOpen) i fd = some source) ↔
      line.inputOf i = source ∨ line.outputOf i = source := by
  have hne : Descriptor.input ≠ .output := by decide
  constructor
  · rintro ⟨fd, h⟩
    rw [wired, Function.update_apply, Function.update_apply] at h
    split at h
    · exact .inr (Option.some.inj h)
    split at h
    · exact .inl (Option.some.inj h)
    -- Every other descriptor leads to what the shell had there.
    · rw [Holdings.inherited] at h
      split at h
      · exact absurd (Option.some.inj h).symm (hsource fd)
      · cases h
  · rintro (rfl | rfl)
    · exact ⟨.input, by rw [wired, Function.update_of_ne hne, Function.update_self]⟩
    · exact ⟨.output, by rw [wired, Function.update_self]⟩

theorem inputOf_eq_readEnd_iff : line.inputOf i = .readEnd k ↔ i = k + 1 := by
  cases i with
  | zero => cases h : line.modifier.input <;> simp [inputOf, h]
  | succ i => simp [inputOf]

theorem inputOf_ne_writeEnd : line.inputOf i ≠ .writeEnd k := by
  cases i with
  | zero => cases h : line.modifier.input <;> simp [inputOf, h]
  | succ i => simp [inputOf]

theorem outputOf_eq_writeEnd_iff (hk : k + 1 < line.pipeline.size) :
    line.outputOf i = .writeEnd k ↔ i = k := by
  by_cases hi : i + 1 < line.pipeline.size
  · rw [outputOf, if_pos hi]
    exact ⟨fun h => Source.writeEnd.inj h, congrArg _⟩
  · rw [outputOf, if_neg hi]
    refine iff_of_false ?_ (by omega)
    cases line.modifier.output <;> exact fun h => by cases h

theorem outputOf_ne_readEnd : line.outputOf i ≠ .readEnd k := by
  rw [outputOf]
  split
  · simp
  · cases h : line.modifier.output <;> simp

theorem exists_wired_eq_writeEnd_iff (hk : k + 1 < line.pipeline.size) :
    (∃ fd, line.wired (.inherited isOpen) i fd = some (.writeEnd k)) ↔ i = k := by
  rw [exists_wired_iff (fun _ h => by cases h), or_iff_right inputOf_ne_writeEnd,
    outputOf_eq_writeEnd_iff hk]

theorem exists_wired_eq_readEnd_iff :
    (∃ fd, line.wired (.inherited isOpen) i fd = some (.readEnd k)) ↔ i = k + 1 := by
  rw [exists_wired_iff (fun _ h => by cases h), or_iff_left outputOf_ne_readEnd,
    inputOf_eq_readEnd_iff]

end CommandLine

/-! ### All processes -/

/-- The shell that launches a line and the stages that it has forked, each with the calls that it
has still to make. -/
structure Assembly where
  shell : Holder
  rest : Program Task (Except LaunchError Spawned)
  stages : List (Holder × Program Task Task) := []

/-- What an answered call of the shell has started. -/
def Holder.started (s : Holder) : (r : Request Task) → r.Answer → List (Holder × Program Task Task)
  | .fork child, .ok _ => [(s.child, child.round)]
  | _, _ => []

/-- Only a fork that succeeds starts something. -/
theorem Holder.started_cases (s : Holder) (r : Request Task) (answer : r.Answer) :
    s.started r answer = [] ∨
      ∃ child, r = .fork child ∧ s.started r answer = [(s.child, child.round)] := by
  rw [started.eq_def]
  split
  · next child _ => exact .inr ⟨child, rfl, rfl⟩
  · exact .inl rfl

theorem Holder.Answers.forks_eq {s s' : Holder} {r : Request Task} {answer : r.Answer}
    (h : s.Answers r answer s') : s'.forks = s.forks + (s.started r answer).length := by
  cases h with
  | quiet h _ =>
    rw [started.eq_def]
    split
    · cases h
    · rfl
  | _ => rfl

namespace Assembly

/-- The beginning: no call has been made. -/
def launch (line : CommandLine) (terminal : Option Descriptor) (isOpen : Descriptor → Bool) :
    Assembly where
  shell := { holds := .inherited isOpen }
  rest := line.launch .stage terminal

/-- One of them makes its next call. -/
inductive Moves (a : Assembly) : Assembly → Prop
  | shell {r : Request Task} {next : r.Answer → Program Task (Except LaunchError Spawned)}
      {shell : Holder} (h : a.rest = .call r next) (answer : r.Answer)
      (answers : a.shell.Answers r answer shell) :
      Moves a { shell, rest := next answer, stages := a.stages ++ a.shell.started r answer }
  | stage {i : Nat} {s s' : Holder} {r : Request Task} {next : r.Answer → Program Task Task}
      (h : a.stages[i]? = some (s, .call r next)) (answer : r.Answer)
      (answers : s.Answers r answer s') :
      Moves a { a with stages := a.stages.set i (s', next answer) }

/-- All of them meet what is expected. -/
structure Wired (line : CommandLine) (before : Holdings) (a : Assembly) : Prop where
  shell : a.rest.Meets Holder.Answers (Holder.Launches line before) (Holder.Launched line before)
    a.shell
  forks : a.shell.forks = a.stages.length
  stage : ∀ {i : Nat} {s : Holder} {rest : Program Task Task}, a.stages[i]? = some (s, rest) →
    line.Expects before i rest s

theorem Wired.moves {line : CommandLine} {before : Holdings} {a a' : Assembly}
    (h : a.Wired line before) (m : a.Moves a') : a'.Wired line before := by
  cases m with
  | @shell r next shell hrest answer answers =>
    have hshell := h.shell
    rw [hrest] at hshell
    refine ⟨hshell.2 answer shell answers, ?_, fun {i s rest} hi => ?_⟩
    · rw [answers.forks_eq, h.forks, List.length_append]
    rw [List.getElem?_append] at hi
    split at hi
    · exact h.stage hi
    -- A stage that has just been forked.
    rcases a.shell.started_cases r answer with hnone | ⟨child, rfl, hone⟩
    · rw [hnone] at hi
      cases hi
    · rw [hone, List.getElem?_singleton] at hi
      split at hi
      · cases hi
        have hlen : i = a.shell.forks := by
          have := h.forks
          omega
        exact hlen ▸ hshell.1 child rfl
      · cases hi
  | @stage i s s' r next hi answer answers =>
    refine ⟨h.shell, ?_, fun {j s'' rest} hj => ?_⟩
    · rw [List.length_set]
      exact h.forks
    · rw [List.getElem?_set] at hj
      split at hj
      · next hij =>
        split at hj
        · cases hj
          exact hij ▸ (h.stage hi).2 answer s' answers
        · cases hj
      · exact h.stage hj

theorem wired_of_reaches {line : CommandLine} {terminal : Option Descriptor}
    {isOpen : Descriptor → Bool} {a : Assembly} (hin : isOpen .input = true)
    (hout : isOpen .output = true)
    (h : Relation.ReflTransGen Moves (launch line terminal isOpen) a) :
    a.Wired line (.inherited isOpen) := by
  induction h with
  | refl =>
    refine ⟨CommandLine.meets_launch ?_ ?_, rfl, fun h => by cases h⟩
    · exact if_pos hin
    · exact if_pos hout
  | tail _ m ih => exact ih.moves m

/-- A stage has got as far as its command. -/
def IsReady (stage : Holder × Program Task Task) : Prop :=
  stage.1.ready = true ∨
    ∃ name arguments next, stage.2 = .call (.executeCommand name arguments) next

theorem Wired.holds_eq {line : CommandLine} {before : Holdings} {a : Assembly} {i : Nat}
    {stage : Holder × Program Task Task} (h : a.Wired line before) (hi : a.stages[i]? = some stage)
    (hr : IsReady stage) : stage.1.holds = line.wired before i := by
  obtain ⟨s, rest⟩ := stage
  have hstage := h.stage hi
  cases rest with
  | done task => exact hstage.elim
  | call r next =>
    refine hstage.1.holds_eq (hr.imp_right ?_)
    rintro ⟨name, arguments, next', hnext⟩
    cases hnext
    exact ⟨name, arguments, rfl⟩

/-- The shell (`none`) or a stage. -/
def process? (a : Assembly) : Option Nat → Option Holder
  | none => some a.shell
  | some i => a.stages[i]?.map Prod.fst

/-- Who has it on some descriptor. -/
def holders (a : Assembly) (source : Source) : Set (Option Nat) :=
  {p | ∃ s fd, a.process? p = some s ∧ s.holds fd = some source}

/-- If the shell is done and all stages have got as far as their commands, only stages hold ends of
pipes. -/
theorem Wired.mem_holders_iff {line : CommandLine} {isOpen : Descriptor → Bool} {a : Assembly}
    (h : a.Wired line (.inherited isOpen)) (hshell : a.shell.holds = .inherited isOpen)
    (ready : ∀ stage ∈ a.stages, IsReady stage) {source : Source}
    (hsource : ∀ fd, source ≠ .inherited fd) (p : Option Nat) :
    p ∈ a.holders source ↔ ∃ i, p = some i ∧ i < a.stages.length ∧
      ∃ fd, line.wired (.inherited isOpen) i fd = some source := by
  constructor
  · rintro ⟨s, fd, hs, hfd⟩
    cases p with
    | none =>
      cases hs
      rw [hshell, Holdings.inherited] at hfd
      split at hfd
      · exact absurd (Option.some.inj hfd).symm (hsource fd)
      · cases hfd
    | some i =>
      obtain ⟨stage, hi, rfl⟩ := Option.map_eq_some_iff.1 hs
      obtain ⟨hlt, -⟩ := List.getElem?_eq_some_iff.1 hi
      rw [h.holds_eq hi (ready stage (List.mem_of_getElem? hi))] at hfd
      exact ⟨i, rfl, hlt, fd, hfd⟩
  · rintro ⟨i, rfl, hlt, fd, hfd⟩
    have hi := List.getElem?_eq_getElem hlt
    rw [← h.holds_eq hi (ready _ (List.getElem_mem hlt))] at hfd
    exact ⟨a.stages[i].1, fd, congrArg (Option.map Prod.fst) hi, hfd⟩

/-- What only one stage should have, only this stage has. -/
theorem Wired.holders_eq {line : CommandLine} {isOpen : Descriptor → Bool} {a : Assembly}
    (h : a.Wired line (.inherited isOpen)) (hshell : a.shell.holds = .inherited isOpen)
    (ready : ∀ stage ∈ a.stages, IsReady stage) {source : Source}
    (hsource : ∀ fd, source ≠ .inherited fd) {k : Nat} (hk : k < a.stages.length)
    (hwired : ∀ i, (∃ fd, line.wired (.inherited isOpen) i fd = some source) ↔ i = k) :
    a.holders source = {some k} := by
  ext p
  rw [h.mem_holders_iff hshell ready hsource, Set.mem_singleton_iff]
  constructor
  · rintro ⟨i, rfl, -, hi⟩
    rw [(hwired i).1 hi]
  · rintro rfl
    exact ⟨k, rfl, hk, (hwired k).2 rfl⟩

end Assembly

/-- There are launches after which all stages get as far as their commands: here `a < x | b > y` is
launched, and then the stages run one after the other. -/
theorem Assembly.exists_ready : ∃ (a : Assembly),
    Relation.ReflTransGen Moves
      (.launch ⟨.ofWords [.literal "a", .operator .pipe, .literal "b"],
        { input := some "x", output := some "y" }⟩ none fun fd => fd < 3) a ∧
      a.rest = .done (.ok ⟨7, [7, 8]⟩) ∧ (∀ stage ∈ a.stages, IsReady stage) := by
  have piped : Relation.ReflTransGen Moves
      (.launch ⟨.ofWords [.literal "a", .operator .pipe, .literal "b"],
        { input := some "x", output := some "y" }⟩ none fun fd => fd < 3) _ :=
    .tail .refl (.shell (r := .pipe) rfl (.ok (3, 4)) (.pipe rfl rfl (by decide)))
  have forked := piped.tail (.shell (r := .fork _) rfl (.ok 7) .fork)
  have grouped := forked.tail (.shell (r := .setGroup 7 0) rfl (.ok ()) (.quiet rfl _))
  have forked := grouped.tail (.shell (r := .fork _) rfl (.ok 8) .fork)
  have grouped := forked.tail (.shell (r := .setGroup 8 7) rfl (.ok ()) (.quiet rfl _))
  have closed := grouped.tail (.shell (r := .close 3) rfl (.ok ()) (.close _))
  have launched := closed.tail (.shell (r := .close 4) rfl (.ok ()) (.close _))
  -- The first stage writes to the pipe and reads the file.
  have joined := launched.tail (.stage (i := 0) (r := .setGroup 0 0) rfl (.ok ()) (.quiet rfl _))
  have reset := joined.tail
    (.stage (i := 0) (r := .setDisposition _ _) rfl (.ok ()) (.quiet rfl _))
  have settled := reset.tail
    (.stage (i := 0) (r := .setDisposition _ _) rfl (.ok ()) (.quiet rfl _))
  have attached := settled.tail
    (.stage (i := 0) (r := .duplicate 4 1) rfl (.ok ()) (.duplicate nofun))
  have closed := attached.tail (.stage (i := 0) (r := .close 3) rfl (.ok ()) (.close _))
  have connected := closed.tail (.stage (i := 0) (r := .close 4) rfl (.ok ()) (.close _))
  have opened := connected.tail (.stage (i := 0) (r := .open "x" _) rfl (.ok 3) (.open rfl))
  have placed := opened.tail
    (.stage (i := 0) (r := .duplicate 3 0) rfl (.ok ()) (.duplicate nofun))
  have first := placed.tail (.stage (i := 0) (r := .close 3) rfl (.ok ()) (.close _))
  -- The second one reads from the pipe and writes the file.
  have joined := first.tail (.stage (i := 1) (r := .setGroup 0 7) rfl (.ok ()) (.quiet rfl _))
  have reset := joined.tail
    (.stage (i := 1) (r := .setDisposition _ _) rfl (.ok ()) (.quiet rfl _))
  have settled := reset.tail
    (.stage (i := 1) (r := .setDisposition _ _) rfl (.ok ()) (.quiet rfl _))
  have attached := settled.tail
    (.stage (i := 1) (r := .duplicate 3 0) rfl (.ok ()) (.duplicate nofun))
  have closed := attached.tail (.stage (i := 1) (r := .close 3) rfl (.ok ()) (.close _))
  have connected := closed.tail (.stage (i := 1) (r := .close 4) rfl (.ok ()) (.close _))
  have opened := connected.tail (.stage (i := 1) (r := .open "y" _) rfl (.ok 3) (.open rfl))
  have placed := opened.tail
    (.stage (i := 1) (r := .duplicate 3 1) rfl (.ok ()) (.duplicate nofun))
  have second := placed.tail (.stage (i := 1) (r := .close 3) rfl (.ok ()) (.close _))
  refine ⟨_, second, rfl, fun stage hmem => ?_⟩
  replace hmem : stage ∈ [_, _] := hmem
  rcases List.mem_pair.1 hmem with rfl | rfl
  · exact .inr ⟨"a", ["a"], _, rfl⟩
  · exact .inr ⟨"b", ["b"], _, rfl⟩

/-- **A pipeline is wired as its line says.**  If the shell has its standard descriptors, then a
stage that gets as far as its command reads from and writes to what it should and has nothing else
but what the shell had.  It gets that far unless it is refused a descriptor, and starts no process
on its way.  When the launch is done, the shell has what it had; if all stages have been started and
have got as far as their commands, every pipe has one process that writes to it and one that reads
from it. -/
theorem wired_of_launched {line : CommandLine} {terminal : Option Descriptor}
    {isOpen : Descriptor → Bool} {a : Assembly} (hin : isOpen .input = true)
    (hout : isOpen .output = true) (herr : isOpen .error = true)
    (h : Relation.ReflTransGen Assembly.Moves (.launch line terminal isOpen) a) :
    (∀ i stage, a.stages[i]? = some stage → Assembly.IsReady stage →
      stage.1.holds .input = some (line.inputOf i) ∧
      stage.1.holds .output = some (line.outputOf i) ∧
      stage.1.holds .error = some (.inherited .error) ∧
      ∀ fd, fd ≠ .input → fd ≠ .output → stage.1.holds fd = Holdings.inherited isOpen fd) ∧
    (∀ (i : Nat) (s : Holder) (r : Request Task) next, a.stages[i]? = some (s, .call r next) →
      (∀ child, r ≠ .fork child) ∧
      ∀ code, r = .exit code →
        s.ready = true ∨ s.refused = true ∨ [] ∈ line.pipeline.stages) ∧
    (∀ result, a.rest = .done result → a.shell.holds = .inherited isOpen ∧
      ∀ e, result = .error e → a.shell.refused = true ∨ ∃ position, e = .invalidArgument position) ∧
    ∀ spawned, a.rest = .done (.ok spawned) → a.stages.length = line.pipeline.size ∧
      ((∀ stage ∈ a.stages, Assembly.IsReady stage) → ∀ k, k + 1 < line.pipeline.size →
        a.holders (.writeEnd k) = {some k} ∧ a.holders (.readEnd k) = {some (k + 1)}) := by
  have hw := Assembly.wired_of_reaches hin hout h
  have hshell : ∀ {result}, a.rest = .done result →
      a.shell.Launched line (.inherited isOpen) result := by
    intro result hdone
    have hmeets := hw.shell
    rw [hdone] at hmeets
    exact hmeets
  refine ⟨fun i stage hi hr => ?_, fun i s r next hi => ?_, fun result hdone => ?_,
    fun spawned hdone => ?_⟩
  · have hothers : ∀ fd, fd ≠ .input → fd ≠ .output →
        stage.1.holds fd = Holdings.inherited isOpen fd := by
      intro fd hin hout
      rw [hw.holds_eq hi hr, CommandLine.wired, Function.update_of_ne hout,
        Function.update_of_ne hin]
    refine ⟨?_, ?_, ?_, hothers⟩
    · rw [hw.holds_eq hi hr, CommandLine.wired, Function.update_of_ne (by decide),
        Function.update_self]
    · rw [hw.holds_eq hi hr, CommandLine.wired, Function.update_self]
    · rw [hothers _ (by decide) (by decide)]
      exact if_pos herr
  · obtain ⟨hwires, -⟩ := hw.stage hi
    exact ⟨hwires.not_fork, hwires.not_exit⟩
  · exact ⟨(hshell hdone).holds_eq, fun e he => (hshell hdone).refused he⟩
  · have hlen : a.stages.length = line.pipeline.size :=
      hw.forks.symm.trans ((hshell hdone).forks_eq rfl)
    have holds_eq := (hshell hdone).holds_eq
    refine ⟨hlen, fun ready k hk => ⟨?_, ?_⟩⟩
    · refine hw.holders_eq holds_eq ready (fun _ h => by cases h) (by omega) fun i => ?_
      exact CommandLine.exists_wired_eq_writeEnd_iff hk
    · refine hw.holders_eq holds_eq ready (fun _ h => by cases h) (by omega) fun i => ?_
      exact CommandLine.exists_wired_eq_readEnd_iff

theorem wired_of_launched_pair : ∃ (a : Assembly),
    Relation.ReflTransGen Assembly.Moves
      (.launch ⟨.ofWords [.literal "a", .operator .pipe, .literal "b"],
        { input := some "x", output := some "y" }⟩ none fun fd => fd < 3) a ∧
      a.rest = .done (.ok ⟨7, [7, 8]⟩) ∧ (∀ stage ∈ a.stages, Assembly.IsReady stage) ∧
      a.stages.length = 2 ∧ a.holders (.writeEnd 0) = {some 0} ∧
      a.holders (.readEnd 0) = {some 1} ∧
      (∀ stage, a.stages[0]? = some stage → stage.1.holds 0 = some (.named "x" { reads := true })) ∧
      ∀ stage, a.stages[1]? = some stage →
        stage.1.holds 1 =
          some (.named "y" { writes := true, create := true, truncate := true }) := by
  obtain ⟨a, h, hdone, ready⟩ := Assembly.exists_ready
  obtain ⟨hstages, -, -, hpipes⟩ := wired_of_launched rfl rfl rfl h
  obtain ⟨hlen, hpipes⟩ := hpipes _ hdone
  obtain ⟨hwrite, hread⟩ := hpipes ready 0 (by decide)
  refine ⟨a, h, hdone, ready, hlen, hwrite, hread, fun stage hi => ?_, fun stage hi => ?_⟩
  · exact (hstages 0 stage hi (ready stage (List.mem_of_getElem? hi))).1
  · exact (hstages 1 stage hi (ready stage (List.mem_of_getElem? hi))).2.1

end PipelineShell
