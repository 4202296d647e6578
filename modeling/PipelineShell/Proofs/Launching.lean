/-
What starting a command line can come to.

A program asks for calls and anything may be answered.  `Program.Yields` says
with which results a program may end, and which processes it has started until
then, whatever the answers are.

* `Plan.failure?_ofCommandLine` — a plan fails for the first text that holds a
  NUL, in the order of the line.
* `CommandLine.yields_launch` — either all stages have been started, or the
  first ones up to a fork that failed, or none because an argument or a pipe
  was refused.  The result names exactly the processes that were started, in
  the order of the stages.

Design notes: only answers to `fork` count, so `Yields` follows the tree of
calls and collects `Request.forked`; a sequence of programs collects what its
parts collect (`yields_bind_iff`), and that is all the proofs below use.
-/
import PipelineShell.Launch
import PipelineShell.Proofs.Grammar

namespace PipelineShell

theorem length_of_mapM_eq_ok {α β ε : Type} {f : α → Except ε β} :
    ∀ {xs : List α} {ys : List β}, xs.mapM f = .ok ys → ys.length = xs.length
  | [], ys, h => by
    rw [List.mapM_nil] at h
    cases h
    rfl
  | x :: xs, ys, h => by
    rw [List.mapM_cons] at h
    obtain ⟨y, -, h⟩ := bind_eq_ok_iff.1 h
    obtain ⟨rest, hrest, h⟩ := bind_eq_ok_iff.1 h
    cases h
    rw [List.length_cons, List.length_cons, length_of_mapM_eq_ok hrest]

/-- The error of what has failed. -/
def failure? {ε α : Type} : Except ε α → Option ε
  | .error e => some e
  | .ok _ => none

section failure

variable {α β ε : Type}

theorem failure?_eq_some_iff {x : Except ε α} {e : ε} : failure? x = some e ↔ x = .error e := by
  cases x <;> simp [failure?]

theorem failure?_bind {x : Except ε α} {f : α → Except ε β} {later : Option ε}
    (h : ∀ a, failure? (f a) = later) : failure? (x >>= f) = (failure? x).or later := by
  cases x with
  | error e => rfl
  | ok a => exact h a

/-- What cannot fail does not count. -/
theorem failure?_bind_of_none {x : Except ε α} {f : α → Except ε β}
    (h : ∀ a, failure? (f a) = none) : failure? (x >>= f) = failure? x :=
  (failure?_bind h).trans Option.or_none

theorem failure?_mapM (f : α → Except ε β) :
    ∀ xs : List α, failure? (xs.mapM f) = xs.findSome? fun x => failure? (f x)
  | [] => by
    rw [List.mapM_nil]
    rfl
  | x :: xs => by
    have hrest : ∀ y, failure? (xs.mapM f >>= fun ys => pure (y :: ys)) = failure? (xs.mapM f) :=
      fun y => failure?_bind_of_none fun _ => rfl
    rw [List.mapM_cons, failure?_bind hrest, failure?_mapM f xs, List.findSome?_cons]
    cases failure? (f x) <;> rfl

theorem failure?_mapM_option (f : α → Except ε β) (o : Option α) :
    failure? (o.mapM f) = o.toList.findSome? fun x => failure? (f x) := by
  cases o with
  | none => rfl
  | some x =>
    rw [Option.toList_some, List.findSome?_singleton]
    exact failure?_bind_of_none fun _ => rfl

theorem findSome?_flatten (f : α → Option β) :
    ∀ xss : List (List α), xss.flatten.findSome? f = xss.findSome? fun xs => xs.findSome? f
  | [] => rfl
  | xs :: xss => by
    rw [List.flatten_cons, List.findSome?_append, findSome?_flatten f xss, List.findSome?_cons]
    cases xs.findSome? f <;> rfl

end failure

/-- The processes that an answered call has started. -/
def Request.forked {τ : Type} : (r : Request τ) → r.Answer → List Pid
  | .fork _, .ok pid => [pid]
  | _, _ => []

theorem Request.nodup_forked {τ : Type} (r : Request τ) (answer : r.Answer) :
    (r.forked answer).Nodup := by
  rw [Request.forked.eq_def]
  split
  · exact List.pairwise_singleton _ _
  · exact List.nodup_nil

namespace Program

variable {τ α β : Type}

/-- The program may end with this value, having started these processes. -/
inductive Yields : Program τ α → List Pid → α → Prop
  | done (a : α) : Yields (.done a) [] a
  | call {r : Request τ} {next : r.Answer → Program τ α} {pids : List Pid} {a : α}
      (answer : r.Answer) (h : Yields (next answer) pids a) :
      Yields (.call r next) (r.forked answer ++ pids) a

theorem yields_done_iff {a b : α} {pids : List Pid} :
    (done a : Program τ α).Yields pids b ↔ pids = [] ∧ b = a := by
  constructor
  · rintro ⟨⟩
    exact ⟨rfl, rfl⟩
  · rintro ⟨rfl, rfl⟩
    exact .done b

theorem yields_call_iff {r : Request τ} {next : r.Answer → Program τ α} {pids : List Pid} {a : α} :
    (call r next).Yields pids a ↔
      ∃ answer rest, (next answer).Yields rest a ∧ pids = r.forked answer ++ rest := by
  constructor
  · intro h
    cases h with
    | call answer h => exact ⟨answer, _, h, rfl⟩
  · rintro ⟨answer, rest, h, rfl⟩
    exact .call answer h

theorem yields_ask_iff {r : Request τ} {pids : List Pid} {answer : r.Answer} :
    (ask r).Yields pids answer ↔ pids = r.forked answer := by
  rw [ask, yields_call_iff]
  constructor
  · rintro ⟨answer', rest, h, rfl⟩
    obtain ⟨rfl, rfl⟩ := yields_done_iff.1 h
    exact List.append_nil _
  · rintro rfl
    exact ⟨answer, [], .done answer, (List.append_nil _).symm⟩

/-- What one program starts and then the other. -/
theorem yields_bind_iff {p : Program τ α} {f : α → Program τ β} {pids : List Pid} {b : β} :
    (p >>= f).Yields pids b ↔
      ∃ a first rest, p.Yields first a ∧ (f a).Yields rest b ∧ pids = first ++ rest := by
  induction p generalizing pids with
  | done a =>
    simp only [done_bind, yields_done_iff]
    constructor
    · exact fun h => ⟨a, [], pids, ⟨rfl, rfl⟩, h, rfl⟩
    · rintro ⟨a, first, rest, ⟨rfl, rfl⟩, h, rfl⟩
      exact h
  | call r next ih =>
    simp only [call_bind, yields_call_iff, ih]
    constructor
    · rintro ⟨answer, _, ⟨a, first, rest, hp, hf, rfl⟩, rfl⟩
      exact ⟨a, _, rest, ⟨answer, first, hp, rfl⟩, hf, (List.append_assoc ..).symm⟩
    · rintro ⟨a, _, rest, ⟨answer, first, hp, rfl⟩, hf, rfl⟩
      exact ⟨answer, _, ⟨a, first, rest, hp, hf, rfl⟩, List.append_assoc ..⟩

/-! ### Pipes -/

theorem yields_closePipes {pids : List Pid} : ∀ {pipes : List Pipe},
    (closePipes pipes : Program τ Unit).Yields pids () → pids = []
  | [], h => (yields_done_iff.1 h).1
  | (readEnd, writeEnd) :: pipes, h => by
    rw [closePipes] at h
    obtain ⟨_, first, _, hread, hrest, rfl⟩ := yields_bind_iff.1 h
    obtain ⟨_, second, last, hwrite, hlast, rfl⟩ := yields_bind_iff.1 hrest
    rw [yields_ask_iff.1 hread, yields_ask_iff.1 hwrite, yields_closePipes hlast]
    rfl

theorem yields_createPipes {result : Except Errno (List Pipe)} :
    ∀ {count : Nat} {made : List Pipe} {pids : List Pid},
      (createPipes count made : Program τ _).Yields pids result → pids = []
  | 0, made, pids, h => (yields_done_iff.1 h).1
  | count + 1, made, pids, h => by
    rw [createPipes] at h
    obtain ⟨answer, first, rest, hpipe, hrest, rfl⟩ := yields_bind_iff.1 h
    have hfirst : first = [] := yields_ask_iff.1 hpipe
    rw [hfirst, List.nil_append]
    cases answer with
    | ok pipe => exact yields_createPipes hrest
    | error e =>
      obtain ⟨_, second, last, hclose, hlast, rfl⟩ := yields_bind_iff.1 hrest
      rw [yields_closePipes hclose, (yields_done_iff.1 hlast).1]
      rfl

end Program

/-! ### Forking -/

open Program

variable {τ : Type}

namespace Plan

/-- The stages are forked in order, and the first fork that fails ends it. -/
theorem yields_forkStages {plan : Plan} {enter : Stage → τ} {terminal : Option Descriptor}
    {pipes : List Pipe} {result : Except LaunchError (List Pid)} :
    ∀ {stages : List (List String)} {spawned pids : List Pid},
      (plan.forkStages enter terminal pipes stages spawned).Yields pids result →
        (result = .ok (spawned ++ pids) ∧ pids.length = stages.length) ∨
          ∃ e, result = .error (.fork (spawned ++ pids) e) ∧ pids.length < stages.length
  | [], spawned, pids, h => by
    obtain ⟨rfl, rfl⟩ := yields_done_iff.1 h
    exact .inl ⟨by rw [List.append_nil], rfl⟩
  | arguments :: stages, spawned, pids, h => by
    rw [forkStages] at h
    obtain ⟨answer, first, rest, hfork, hrest, rfl⟩ := yields_bind_iff.1 h
    have hfirst := yields_ask_iff.1 hfork
    cases answer with
    | error e =>
      obtain ⟨rfl, rfl⟩ := yields_done_iff.1 hrest
      obtain rfl : first = [] := hfirst
      exact .inr ⟨e, by simp, by simp⟩
    | ok child =>
      obtain rfl : first = [child] := hfirst
      obtain ⟨_, second, others, hgroup, hothers, rfl⟩ := yields_bind_iff.1 hrest
      obtain rfl : second = [] := yields_ask_iff.1 hgroup
      have he : spawned ++ ([child] ++ ([] ++ others)) = spawned ++ [child] ++ others := by simp
      rw [he, List.nil_append, List.singleton_append, List.length_cons, List.length_cons]
      rcases yields_forkStages hothers with ⟨hr, hl⟩ | ⟨e, hr, hl⟩
      · exact .inl ⟨hr, by omega⟩
      · exact .inr ⟨e, hr, by omega⟩

theorem size_ofCommandLine {line : CommandLine} {plan : Plan} (h : ofCommandLine line = .ok plan) :
    plan.size = line.pipeline.size := by
  rw [ofCommandLine] at h
  obtain ⟨stages, hs, h⟩ := bind_eq_ok_iff.1 h
  obtain ⟨input, -, h⟩ := bind_eq_ok_iff.1 h
  obtain ⟨output, -, h⟩ := bind_eq_ok_iff.1 h
  cases h
  show stages.length = line.pipeline.size
  rw [length_of_mapM_eq_ok hs, Pipeline.length_stages]

theorem failure?_checkedText (text : String) :
    failure? (checkedText text) = (nulPosition? text).map .invalidArgument := by
  rw [checkedText]
  cases nulPosition? text <;> rfl

end Plan

/-- Every word of an accepted line has a value, and that is its argument. -/
theorem CommandLine.exists_unquoted_of_parse {text : String} {ops : OperatorSet}
    {line : CommandLine} (h : parse text ops = .ok line) {stage : List Word}
    (hs : stage ∈ line.pipeline.stages) {w : Word} (hw : w ∈ stage) :
    w.unquoted = some w.argument := by
  obtain ⟨raw, rfl⟩ := exists_literal_of_parse h hs hw
  rfl

/-- What a command line passes on, in the order in which it is looked at: the arguments of all
stages, then the files. -/
def CommandLine.texts (line : CommandLine) : List String :=
  line.pipeline.stages.flatten.map Word.argument ++
    (line.modifier.input.toList ++ line.modifier.output.toList)

namespace Plan

/-- The first text with a NUL is what a plan fails for. -/
theorem failure?_ofCommandLine (line : CommandLine) :
    failure? (ofCommandLine line)
      = line.texts.findSome? fun text => (nulPosition? text).map .invalidArgument := by
  have hstages : failure? (line.pipeline.stages.mapM fun stage =>
        stage.mapM fun w => checkedText w.argument)
      = line.pipeline.stages.findSome? fun stage =>
          stage.findSome? fun w => (nulPosition? w.argument).map .invalidArgument := by
    rw [failure?_mapM]
    simp only [failure?_mapM, failure?_checkedText]
  have hfile : ∀ file : Option String, failure? (file.mapM checkedText)
      = file.toList.findSome? fun text => (nulPosition? text).map .invalidArgument := by
    intro file
    rw [failure?_mapM_option]
    simp only [failure?_checkedText]
  rw [ofCommandLine, CommandLine.texts, List.findSome?_append, List.findSome?_append,
    List.findSome?_map, findSome?_flatten, ← hfile, ← hfile]
  refine (failure?_bind fun _ => ?_).trans (congrArg (Option.or · _) hstages)
  exact failure?_bind fun _ => failure?_bind_of_none fun _ => rfl

/-- The only error that a plan can have. -/
theorem ofCommandLine_eq_error {line : CommandLine} {e : LaunchError}
    (h : ofCommandLine line = .error e) : ∃ position, e = .invalidArgument position := by
  rw [← failure?_eq_some_iff, failure?_ofCommandLine] at h
  obtain ⟨text, -, h⟩ := List.exists_of_findSome?_eq_some h
  obtain ⟨position, -, rfl⟩ := Option.map_eq_some_iff.1 h
  exact ⟨position, rfl⟩

/-- What starting a plan may come to. -/
theorem yields_launch {plan : Plan} {enter : Stage → τ} {terminal : Option Descriptor}
    {pids : List Pid} {result : Except LaunchError Spawned}
    (h : (plan.launch enter terminal).Yields pids result) :
    (result = .ok { group := pids.head?.getD 0, pids } ∧ pids.length = plan.size) ∨
      (∃ e, result = .error (.fork pids e) ∧ pids.length < plan.size) ∨
      (pids = [] ∧ ∃ e, result = .error (.pipe e)) := by
  rw [launch] at h
  obtain ⟨made, first, rest, hpipes, hrest, rfl⟩ := yields_bind_iff.1 h
  rw [yields_createPipes hpipes, List.nil_append]
  cases made with
  | error e =>
    obtain ⟨rfl, rfl⟩ := yields_done_iff.1 hrest
    exact .inr (.inr ⟨rfl, e, rfl⟩)
  | ok pipes =>
    obtain ⟨outcome, pids, _, hforks, hclosing, rfl⟩ := yields_bind_iff.1 hrest
    obtain ⟨_, second, _, hclose, hlast, rfl⟩ := yields_bind_iff.1 hclosing
    obtain ⟨rfl, rfl⟩ := yields_done_iff.1 hlast
    rw [yields_closePipes hclose, List.append_nil, List.append_nil]
    rcases yields_forkStages hforks with ⟨rfl, hl⟩ | ⟨e, rfl, hl⟩
    · exact .inl ⟨rfl, hl⟩
    · exact .inr (.inl ⟨e, rfl, hl⟩)

end Plan

/-- **What a launch may come to.**  In any case the result tells which processes are running
now. -/
theorem CommandLine.yields_launch {line : CommandLine} {enter : Stage → τ}
    {terminal : Option Descriptor} {pids : List Pid} {result : Except LaunchError Spawned}
    (h : (line.launch enter terminal).Yields pids result) :
    (result = .ok { group := pids.head?.getD 0, pids } ∧ pids.length = line.pipeline.size) ∨
      (∃ e, result = .error (.fork pids e) ∧ pids.length < line.pipeline.size) ∨
      (pids = [] ∧ ∃ e, result = .error e ∧ ∀ spawned cause, e ≠ .fork spawned cause) := by
  rw [CommandLine.launch] at h
  cases hp : Plan.ofCommandLine line with
  | error e =>
    rw [hp] at h
    obtain ⟨rfl, rfl⟩ := yields_done_iff.1 h
    obtain ⟨position, rfl⟩ := Plan.ofCommandLine_eq_error hp
    exact .inr (.inr ⟨rfl, _, rfl, by simp⟩)
  | ok plan =>
    rw [hp] at h
    rw [← Plan.size_ofCommandLine hp]
    refine (Plan.yields_launch h).imp_right (Or.imp_right ?_)
    rintro ⟨rfl, e, rfl⟩
    exact ⟨rfl, _, rfl, by simp⟩

end PipelineShell
