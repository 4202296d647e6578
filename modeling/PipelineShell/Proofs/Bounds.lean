/-
Every step on the way from a line to its processes can be made.

Cutting a text at an offset, subtracting, removing a word at an index, taking a
range of an arena, asking for a pipe: each of these is impossible for some
arguments.  The functions below are the ones of a command line once more, with
all of these steps made visible: what cannot be done is `none`, and so is
everything that depends on it.

* `ArgumentVector.checkLine?_eq` — the checks of a line subtract what is there;
* `Modifier.ofVector?_eq` — modifiers are taken out of any words at all, and
  only words that are there are removed;
* `Pipeline.stages?_eq` — the range of every stage lies in the arena;
* `CommandLine.launch?_eq` — a launch finds the two pipes of each of its stages;
* `within_bounds` — all of this together, for every line and every set of
  operators.

Design notes: nothing is asked of the words of a line before they have been
checked.  A launch is different: that there is a pipe between any two stages
follows from the number of pipes made (`createPipes_bind_congr`), and that there
is a stage and that no stage is empty from the checks of its line.
-/
import Mathlib.Data.Nat.PSub
import PipelineShell.Proofs.Grammar
import PipelineShell.Proofs.Scanning
import PipelineShell.Proofs.Wiring

namespace PipelineShell

/-! ### The checks of a line -/

namespace ArgumentVector

variable {v : ArgumentVector}

/-- Where the operator stands first, as a number. -/
def index? (v : ArgumentVector) (op : Operator) : Option Nat :=
  v.words.findIdx? (·.isOperator op)

theorem index?_eq (v : ArgumentVector) (op : Operator) :
    v.index? op = (v.position? op).map (·.val) :=
  List.findIdx?_eq_map_findFinIdx?_val

def checkBackground? (v : ArgumentVector) : Option (Except SyntaxError Bool) :=
  match v.index? .background with
  | none => some (.ok false)
  | some p => do
    let last ← v.size.psub 1
    return if p ≠ last ∨ v.size = 1 then .error .backgroundPosition else .ok true

def checkLine? (v : ArgumentVector) : Option (Except SyntaxError Unit) := do
  match ← v.checkBackground? with
  | .error e => return .error e
  | .ok background =>
    if v.has .output && v.has .append then return .error .mixedRedirect
    let stop ← v.size.psub background.toNat
    return do
      v.checkRedirect stop .output
      v.checkRedirect stop .input
      v.checkRedirect stop .append

/-- An operator that has a position is one of the words. -/
theorem checkBackground?_eq (v : ArgumentVector) :
    v.checkBackground? = some v.checkBackground := by
  rw [checkBackground?, checkBackground, index?_eq]
  cases v.position? .background with
  | none => rfl
  | some p =>
    have hp : p.val < v.size := p.isLt
    have hlast : p.val ≠ v.size - 1 ↔ p.val + 1 ≠ v.size := by omega
    simp only [Option.map_some, Nat.psub_eq_sub (Nat.one_le_of_lt hp), Option.bind_eq_bind,
      Option.bind_some, hlast]
    rfl

/-- A line that ends in `&` has a word. -/
theorem background_le_size {b : Bool} (h : v.checkBackground = .ok b) : b.toNat ≤ v.size := by
  rcases checkBackground_eq_ok_iff.1 h with ⟨rfl, -⟩ | ⟨rfl, before, hwords, -, -⟩
  · exact Nat.zero_le _
  · rw [size, hwords, List.length_append]
    exact Nat.le_add_left _ _

theorem checkLine?_eq (v : ArgumentVector) : v.checkLine? = some v.checkLine := by
  rw [checkLine?, checkLine, checkBackground?_eq]
  cases hb : v.checkBackground with
  | error e => rfl
  | ok b =>
    -- What is subtracted is 1 exactly if the line ends in `&`.
    have hstop : v.size - b.toNat = if b then v.size - 1 else v.size := by cases b <;> rfl
    simp only [Option.bind_eq_bind, Option.bind_some, Nat.psub_eq_sub (background_le_size hb),
      hstop]
    cases v.has .output && v.has .append <;> rfl

/-! ### Taking the modifiers out -/

/-- Takes out the word at an index, if there is one. -/
def remove? (v : ArgumentVector) (i : Nat) : Option (Word × ArgumentVector) :=
  (v.get? i).map fun w => (w, ⟨v.words.eraseIdx i⟩)

def takeBackground? (v : ArgumentVector) : Option (Bool × ArgumentVector) :=
  match v.index? .background with
  | none => some (false, v)
  | some p => do
    let (_, rest) ← v.remove? p
    return (true, rest)

def takeRedirect? (v : ArgumentVector) (op : Operator) : Option (Option String × ArgumentVector) :=
  match v.index? op with
  | none => some (none, v)
  | some p => do
    let (_, rest) ← v.remove? p
    if p < rest.size then
      let (file, rest) ← rest.remove? p
      return (file.unquoted, rest)
    else return (none, rest)

theorem remove?_eq (v : ArgumentVector) (i : Fin v.size) : v.remove? i = some (v.remove i) := by
  have hi : v.get? i = some (v.words.get i) := List.getElem?_eq_getElem i.isLt
  rw [remove?, hi]
  rfl

theorem takeBackground?_eq (v : ArgumentVector) :
    v.takeBackground? = some v.takeBackground := by
  rw [takeBackground?, takeBackground, index?_eq]
  cases v.position? .background with
  | none => rfl
  | some p =>
    simp only [Option.map_some, remove?_eq]
    rfl

/-- Behind the operator there may be nothing, and then nothing more is taken out. -/
theorem takeRedirect?_eq (v : ArgumentVector) (op : Operator) :
    v.takeRedirect? op = some (v.takeRedirect op) := by
  rw [takeRedirect?, takeRedirect, index?_eq]
  cases v.position? op with
  | none => rfl
  | some p =>
    simp only [Option.map_some, remove?_eq, Option.bind_eq_bind, Option.bind_some]
    split
    · next hp => simp only [remove?_eq _ ⟨p.val, hp⟩, Option.bind_some]; rfl
    · rfl

end ArgumentVector

def Modifier.ofVector? (v : ArgumentVector) : Option (Modifier × ArgumentVector) := do
  let (background, v) ← v.takeBackground?
  let (input, v) ← v.takeRedirect? .input
  let (output, v) ← v.takeRedirect? .output
  if output.isSome then return ({ background, input, output }, v)
  else
    let (output, v) ← v.takeRedirect? .append
    return ({ background, input, output, append := output.isSome }, v)

theorem Modifier.ofVector?_eq (v : ArgumentVector) : ofVector? v = some (ofVector v) := by
  simp only [ofVector?, ofVector, ArgumentVector.takeBackground?_eq,
    ArgumentVector.takeRedirect?_eq, Option.bind_eq_bind, Option.bind_some]
  split <;> rfl

/-! ### The stages -/

/-- The part of a list that a span covers, if the list is long enough. -/
def Span.slice? (s : Span) (words : List Word) : Option (List Word) :=
  if s.Within words.length then some (s.slice words) else none

theorem Span.mapM_slice? {words : List Word} : ∀ {spans : List Span},
    (∀ s ∈ spans, s.Within words.length) →
      spans.mapM (·.slice? words) = some (spans.map (·.slice words))
  | [], _ => rfl
  | s :: spans, h => by
    obtain ⟨hs, hspans⟩ := List.forall_mem_cons.1 h
    rw [List.mapM_cons, mapM_slice? hspans, slice?, if_pos hs]
    rfl

def Pipeline.stages? (p : Pipeline) : Option (List (List Word)) := p.spans.mapM (·.slice? p.arena)

theorem Pipeline.stages?_eq (p : Pipeline) : p.stages? = some p.stages := Span.mapM_slice? p.within

namespace CommandLine

def ofWordsChecked? (words : List Word) : Option (Except SyntaxError CommandLine) := do
  match ← ArgumentVector.checkLine? ⟨words⟩ with
  | .error e => return .error e
  | .ok () =>
    let (modifier, rest) ← Modifier.ofVector? ⟨words⟩
    let pipeline := Pipeline.ofWords rest.words
    let stages ← pipeline.stages?
    return do
      stages.forM checkStage
      return ⟨pipeline, modifier⟩

def parse? (line : String) (ops : OperatorSet) : Option (Except ParseError CommandLine) := do
  match ← scan? line ops with
  | .error e => return .error (.lex e)
  | .ok words => return (← ofWordsChecked? words).mapError .syntactic

theorem ofWordsChecked?_eq (words : List Word) :
    ofWordsChecked? words = some (ofWordsChecked words) := by
  simp only [ofWordsChecked?, ofWordsChecked, ArgumentVector.checkLine?_eq, Modifier.ofVector?_eq,
    Pipeline.stages?_eq, Option.bind_eq_bind, Option.bind_some]
  cases ArgumentVector.checkLine ⟨words⟩ <;> rfl

theorem parse?_eq (line : String) (ops : OperatorSet) :
    parse? line ops = some (parse line ops) := by
  rw [parse?, parse, scan?_eq]
  cases tokenize line ops with
  | error e => rfl
  | ok words =>
    simp only [Option.bind_eq_bind, Option.bind_some, ofWordsChecked?_eq]
    rfl

end CommandLine

/-! ### The launch -/

namespace Plan

open Program

variable {τ α : Type} {plan : Plan} {enter : Stage → τ} {terminal : Option Descriptor}
  {pipes : List Pipe}

/-- The end of a pipe that the stage at a position reads from; the first one has none. -/
def inputEnd? (pipes : List Pipe) (i : Nat) : Option (Option Descriptor) :=
  if i = 0 then some none
  else do
    let (readEnd, _) ← pipes[← i.psub 1]?
    return some readEnd

/-- The end of a pipe that the stage at a position writes to; the last one has none. -/
def outputEnd? (plan : Plan) (pipes : List Pipe) (i : Nat) : Option (Option Descriptor) :=
  if i + 1 < plan.size then do
    let (_, writeEnd) ← pipes[i]?
    return some writeEnd
  else some none

/-- The stage at a position, if its pipes are there. -/
def stage? (plan : Plan) (terminal : Option Descriptor) (pipes : List Pipe) (group : Pid) (i : Nat)
    (arguments : List String) : Option Stage := do
  let input ← inputEnd? pipes i
  let output ← plan.outputEnd? pipes i
  return { plan.stage terminal pipes group i arguments with input, output }

def forkStages? (plan : Plan) (enter : Stage → τ) (terminal : Option Descriptor)
    (pipes : List Pipe) :
    List (List String) → List Pid → Program τ (Option (Except LaunchError (List Pid)))
  | [], spawned => return some (.ok spawned)
  | arguments :: rest, spawned => do
    let group := spawned.head?.getD 0
    match plan.stage? terminal pipes group spawned.length arguments with
    | none => return none
    | some stage =>
      match ← ask (.fork (enter stage)) with
      | .error e => return some (.error (.fork spawned e))
      | .ok child =>
        let _ ← ask (.setGroup child group)
        forkStages? plan enter terminal pipes rest (spawned ++ [child])

def launch? (plan : Plan) (enter : Stage → τ) (terminal : Option Descriptor) :
    Program τ (Option (Except LaunchError Spawned)) := do
  match plan.size.psub 1 with
  | none => return none
  | some count =>
    match ← createPipes count [] with
    | .error e => return some (.error (.pipe e))
    | .ok pipes =>
      match ← forkStages? plan enter terminal pipes plan.stages [] with
      | none => return none
      | some result =>
        closePipes pipes
        return some (result.map fun pids => { group := pids.head?.getD 0, pids })

/-- There is a pipe before every stage but the first, and one behind every stage but the last. -/
theorem stage?_eq {group : Pid} {i : Nat} {arguments : List String}
    (hpipes : pipes.length + 1 = plan.size) (hi : i < plan.size) :
    plan.stage? terminal pipes group i arguments =
      some (plan.stage terminal pipes group i arguments) := by
  have hbefore : inputEnd? pipes i =
      some (plan.stage terminal pipes group i arguments).input := by
    cases i with
    | zero => rfl
    | succ k =>
      have hk : pipes[k]? = some pipes[k] := List.getElem?_eq_getElem (by omega)
      simp [inputEnd?, stage, hk]
  have hbehind : plan.outputEnd? pipes i =
      some (plan.stage terminal pipes group i arguments).output := by
    rw [outputEnd?]
    split
    · have hget : pipes[i]? = some pipes[i] := List.getElem?_eq_getElem (by omega)
      simp [stage, hget]
    · have hget : pipes[i]? = none := List.getElem?_eq_none (by omega)
      simp [stage, hget]
  rw [stage?, hbefore, hbehind]
  rfl

theorem forkStages?_eq (hpipes : pipes.length + 1 = plan.size) :
    ∀ (stages : List (List String)) (spawned : List Pid),
      spawned.length + stages.length = plan.size →
      plan.forkStages? enter terminal pipes stages spawned =
        (plan.forkStages enter terminal pipes stages spawned >>= fun result => .done (some result))
  | [], spawned, _ => rfl
  | arguments :: rest, spawned, hlen => by
    -- There is a process for every stage before this one, so they tell its position.
    rw [List.length_cons] at hlen
    rw [forkStages?, forkStages, stage?_eq hpipes (by omega)]
    refine congrArg (call _) (funext fun answer => ?_)
    cases answer with
    | error e => rfl
    | ok child =>
      refine congrArg (call _) (funext fun _ => ?_)
      refine forkStages?_eq hpipes rest (spawned ++ [child]) ?_
      rw [List.length_append, List.length_singleton]
      omega

/-- What comes after making pipes may count on the number of pipes. -/
theorem createPipes_bind_congr {f g : Except Errno (List Pipe) → Program τ α} {count : Nat}
    {made : List Pipe} (herror : ∀ e, f (.error e) = g (.error e))
    (hok : ∀ pipes : List Pipe, pipes.length = made.length + count →
      f (.ok pipes) = g (.ok pipes)) :
    (createPipes count made >>= f) = (createPipes count made >>= g) := by
  induction count generalizing made with
  | zero => exact hok made rfl
  | succ count ih =>
    refine congrArg (call _) (funext fun answer => ?_)
    cases answer with
    | error e =>
      -- Nothing is counted on: the pipes are closed and the error is passed on.
      show (closePipes made >>= fun _ => .done (.error e)) >>= f =
        ((closePipes made >>= fun _ => .done (.error e)) >>= g)
      rw [bind_bind, bind_bind]
      exact congrArg (closePipes made >>= ·) (funext fun _ => herror e)
    | ok pipe =>
      refine ih fun pipes hlen => hok pipes ?_
      rw [hlen, List.length_append, List.length_singleton]
      omega

theorem launch?_eq (h : 0 < plan.size) : plan.launch? enter terminal =
    (plan.launch enter terminal >>= fun result => .done (some result)) := by
  rw [launch?, launch, Nat.psub_eq_sub h, bind_bind]
  -- One pipe fewer than there are stages has been made when the first one is forked.
  refine createPipes_bind_congr (fun e => rfl) fun pipes hlen => ?_
  have hpipes : pipes.length + 1 = plan.size := by
    rw [List.length_nil] at hlen
    omega
  show (plan.forkStages? enter terminal pipes plan.stages [] >>= _) = _
  rw [forkStages?_eq hpipes plan.stages [] (Nat.zero_add _), bind_bind, bind_bind]
  refine congrArg (plan.forkStages enter terminal pipes plan.stages [] >>= ·) ?_
  funext result
  show (closePipes pipes >>= fun _ => .done _) = ((closePipes pipes >>= fun _ => .done _) >>= _)
  rw [bind_bind]
  rfl

end Plan

namespace CommandLine

variable {τ : Type}

/-- A command line without stages cannot be launched. -/
def launch? (line : CommandLine) (enter : Stage → τ) (terminal : Option Descriptor) :
    Program τ (Option (Except LaunchError Spawned)) :=
  if line.pipeline.isEmpty then return none
  else
    match Plan.ofCommandLine line with
    | .error e => return some (.error e)
    | .ok plan => plan.launch? enter terminal

theorem isEmpty_eq_false {line : CommandLine} (h : 0 < line.pipeline.size) :
    line.pipeline.isEmpty = false := by
  rw [Pipeline.isEmpty, List.isEmpty_eq_false_iff]
  exact List.ne_nil_of_length_pos h

theorem launch?_eq {line : CommandLine} (h : 0 < line.pipeline.size) (enter : Stage → τ)
    (terminal : Option Descriptor) : line.launch? enter terminal =
      (line.launch enter terminal >>= fun result => .done (some result)) := by
  rw [launch?, launch, isEmpty_eq_false h, if_neg Bool.false_ne_true]
  cases hplan : Plan.ofCommandLine line with
  | error e => rfl
  | ok plan => exact Plan.launch?_eq (Plan.size_ofCommandLine hplan ▸ h)

end CommandLine

/-! ### The whole way -/

/-- **Every step from a line to its processes can be made.**  A line is cut between characters only,
and behind an operator reading goes on as many bytes later as the operator has.  The checks of any
words at all subtract what is there, the modifiers are taken from words that are there, and the
stages lie in their arena.  And a command line that has been parsed has a stage, pipes for all of
its stages, and a name to execute in each of them. -/
theorem within_bounds {τ : Type} (enter : Stage → τ) (terminal : Option Descriptor)
    (ops : OperatorSet) :
    (∀ line : String,
      scan? line ops = some (tokenize line ops) ∧
        CommandLine.parse? line ops = some (CommandLine.parse line ops) ∧
        ∀ s : Scanner, s.Reached line ops →
          slice? line s.offset = some (String.ofList s.rest) ∧
            (∃ s', s.step? line ops = some s') ∧
            ∀ op, s.quoted = false → ops.matchAt s.rest = some op →
              ∃ s', s.step? line ops = some s' ∧ s'.offset = s.offset + op.text.utf8ByteSize ∧
                s'.rest = s.rest.drop op.length ∧ s'.words.getLast? = some (.operator op)) ∧
    (∀ words : List Word,
      ArgumentVector.checkLine? ⟨words⟩ = some (ArgumentVector.checkLine ⟨words⟩) ∧
        Modifier.ofVector? ⟨words⟩ = some (Modifier.ofVector ⟨words⟩) ∧
        (∀ s ∈ (Pipeline.ofWords words).spans,
          s.start ≤ s.stop ∧ s.stop ≤ (Pipeline.ofWords words).arena.length) ∧
        (Pipeline.ofWords words).stages? = some (Pipeline.ofWords words).stages) ∧
    ∀ (line : String) (command : CommandLine), CommandLine.parse line ops = .ok command →
      command.pipeline.isEmpty = false ∧
        command.launch? enter terminal =
          (command.launch enter terminal >>= fun result => .done (some result)) ∧
        ∀ plan, Plan.ofCommandLine command = .ok plan → ∀ arguments ∈ plan.stages,
          ∃ name, arguments[0]? = some name := by
  refine ⟨fun line => ⟨scan?_eq line ops, CommandLine.parse?_eq line ops, fun s hs => ?_⟩,
    fun words => ?_, fun line command h => ?_⟩
  · refine ⟨hs.standsAt, hs.exists_step?, fun op hq hop => ?_⟩
    refine ⟨_, Scanner.step?_of_matchAt hs.standsAt hq hop, rfl, rfl, ?_⟩
    exact List.getLast?_concat
  · exact ⟨ArgumentVector.checkLine?_eq _, Modifier.ofVector?_eq _, (Pipeline.ofWords words).within,
      Pipeline.stages?_eq _⟩
  · have hsize := CommandLine.size_pos_of_parse h
    refine ⟨CommandLine.isEmpty_eq_false hsize, CommandLine.launch?_eq hsize enter terminal,
      fun plan hplan arguments hmem => ?_⟩
    cases arguments with
    | nil => exact absurd rfl (CommandLine.stage_ne_nil_of_parse h (Plan.nil_mem_stages hplan hmem))
    | cons name rest => exact ⟨name, rfl⟩

/-- The operator in a line of two stages stands behind a character of two bytes. -/
theorem within_bounds_piped :
    (∃ s : Scanner, s.Reached "é|a" .full ∧ s.offset = 3 ∧ slice? "é|a" s.offset = some "a") ∧
      ∃ command, CommandLine.parse "é|a" .full = .ok command ∧
        ⟨1, 2⟩ ∈ command.pipeline.spans ∧ 2 ≤ command.pipeline.arena.length ∧
        command.launch? id none = (command.launch id none >>= fun result => .done (some result)) ∧
        ∃ plan, Plan.ofCommandLine command = .ok plan ∧ ["a"] ∈ plan.stages ∧
          ∃ name, ["a"][0]? = some name := by
  obtain ⟨hlines, hvectors, hcommands⟩ := within_bounds (id : Stage → Stage) none .full
  obtain ⟨-, -, hreached⟩ := hlines "é|a"
  constructor
  · have hstart : Scanner.Reached "é|a" .full { rest := "é|a".toList } := .refl
    have hread : Scanner.step? "é|a" .full { rest := "é|a".toList } =
        some { offset := 2, rest := ['|', 'a'], current := ['é'] } := by
      rw [hstart.standsAt.step?_eq (c := 'é') rfl rfl (by decide)]
      rfl
    have hbehind : Scanner.Reached "é|a" .full
        { offset := 2, rest := ['|', 'a'], current := ['é'] } := hstart.tail hread
    obtain ⟨-, -, hoperator⟩ := hreached _ hbehind
    obtain ⟨s, hs, hoffset, hrest, -⟩ := hoperator .pipe rfl (by decide)
    refine ⟨s, hbehind.tail hs, hoffset, ?_⟩
    exact (hreached s (hbehind.tail hs)).1.trans (congrArg (some ∘ String.ofList) hrest)
  · have hparse : CommandLine.parse "é|a" .full =
        .ok ⟨Pipeline.ofWords [.literal "é", .operator .pipe, .literal "a"], {}⟩ := by
      decide +kernel
    have hspan : ⟨1, 2⟩ ∈
        (Pipeline.ofWords [.literal "é", .operator .pipe, .literal "a"]).spans := by
      decide +kernel
    have hplan : Plan.ofCommandLine
        ⟨Pipeline.ofWords [.literal "é", .operator .pipe, .literal "a"], {}⟩ =
          .ok ⟨[["é"], ["a"]], {}⟩ := by
      decide +kernel
    have hmem : ["a"] ∈ [["é"], ["a"]] := by decide
    obtain ⟨-, -, hspans, -⟩ := hvectors [.literal "é", .operator .pipe, .literal "a"]
    obtain ⟨-, hlaunch, harguments⟩ := hcommands "é|a" _ hparse
    exact ⟨_, hparse, hspan, (hspans _ hspan).2, hlaunch, _, hplan, hmem,
      harguments _ hplan _ hmem⟩

end PipelineShell
