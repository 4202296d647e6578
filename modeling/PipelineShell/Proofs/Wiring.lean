/-
How the stages of a pipeline are wired.

The shell makes all pipes, forks the stages and closes the pipes; a stage has
all ends of all pipes at first, copies its own two, closes the rest, and opens
its files.

* `CommandLine.wired` — what a stage should have on its descriptors;
* `Stage.meets_program` — a stage that gets as far as its command has what it
  was told to have;
* `Plan.wired_stage` — it was told to have what its line asks for;
* `CommandLine.meets_launch` — every process that is forked is the next stage,
  on its way to be wired, and the shell is left with what it had.

Design notes: calls may fail.  Then a stage does not get as far as its command,
or the launch ends with an error; `Holder.refused` tells these cases from one
in which a stage just gives up.
-/
import PipelineShell.Proofs.Descriptors
import PipelineShell.Proofs.Launching
import PipelineShell.Task

namespace PipelineShell

open Program

/-! ### What is expected -/

/-- What the shell has at the beginning. -/
def Holdings.inherited (isOpen : Descriptor → Bool) : Holdings :=
  fun fd => if isOpen fd then some (.inherited fd) else none

namespace CommandLine

/-- Where a stage reads from. -/
def inputOf (line : CommandLine) : Nat → Source
  | 0 =>
    match line.modifier.input with
    | some path => .named path { reads := true }
    | none => .inherited .input
  | i + 1 => .readEnd i

/-- How the file for the output should be opened: it is made if it is not there, and otherwise it
is appended to or emptied. -/
def outputMode (line : CommandLine) : OpenMode where
  writes := true
  create := true
  append := line.modifier.append
  truncate := !line.modifier.append

/-- Where a stage writes to. -/
def outputOf (line : CommandLine) (i : Nat) : Source :=
  if i + 1 < line.pipeline.size then .writeEnd i
  else
    match line.modifier.output with
    | some path => .named path line.outputMode
    | none => .inherited .output

/-- What a stage has when it executes its command. -/
def wired (line : CommandLine) (before : Holdings) (i : Nat) : Holdings :=
  Function.update (Function.update before .input (some (line.inputOf i)))
    .output (some (line.outputOf i))

end CommandLine

/-- The process starts no other one, has this on its descriptors when it executes its command, and
ends before that only if it has been refused something or has no command. -/
structure Holder.Wires {τ : Type} (wired : Holdings) (idle : Prop) (s : Holder) (r : Request τ) :
    Prop where
  not_fork : ∀ child, r ≠ .fork child
  holds_eq : (s.ready = true ∨ ∃ name arguments, r = .executeCommand name arguments) →
    s.holds = wired
  not_exit : ∀ code, r = .exit code → s.ready = true ∨ s.refused = true ∨ idle

/-! ### A stage -/

/-- The request neither starts a process, nor puts one into a group, nor gives the terminal to a
group. -/
def Request.isPrivate {τ : Type} : Request τ → Bool
  | .fork _ => false
  | .setGroup _ _ => false
  | .setForeground _ _ => false
  | _ => true

namespace Stage

variable {τ α : Type} {stage : Stage} {s : Holder} {before : Holdings}
  {P : Holder → Request τ → Prop} {Q : Holder → Unit → Prop}

/-- An end of a pipe is put in its place, if there is one. -/
def attach (source? : Option Descriptor) (target : Descriptor) (name : String) : Program τ Unit :=
  match source? with
  | none => .done ()
  | some fd => ask (.duplicate fd target) >>= orExit name redirectFailure

/-- A file is put in its place, if there is one. -/
def place (file? : Option (String × OpenMode)) (target : Descriptor) : Program τ Unit :=
  match file? with
  | none => .done ()
  | some (path, mode) => openOn path target mode >>= orExit path redirectFailure

theorem attach_bind {source? : Option Descriptor} {target : Descriptor} {name : String}
    (next : Unit → Program τ α) : (attach source? target name >>= next) =
      match source? with
      | none => next ()
      | some fd => ask (.duplicate fd target) >>= fun result =>
        orExit name redirectFailure result >>= next := by
  cases source? with
  | none => rfl
  | some fd => exact bind_bind _ _ _

theorem place_bind {file? : Option (String × OpenMode)} {target : Descriptor}
    (next : Unit → Program τ α) : (place file? target >>= next) =
      match file? with
      | none => next ()
      | some (path, mode) => openOn path target mode >>= fun result =>
        orExit path redirectFailure result >>= next := by
  cases file? with
  | none => rfl
  | some file => exact bind_bind _ _ _

theorem connect_eq (stage : Stage) : (stage.connect : Program τ Unit) =
    (attach stage.input .input "stdin" >>= fun _ =>
      attach stage.output .output "stdout" >>= fun _ => closePipes stage.pipes) := by
  simp only [attach_bind]
  rfl

/-- The file for the input. -/
def inputFile (stage : Stage) : Option (String × OpenMode) :=
  stage.redirectInput.map (·, { reads := true })

/-- The file for the output. -/
def outputFile (stage : Stage) : Option (String × OpenMode) :=
  stage.redirectOutput.map fun file => (file.1, outputMode file.2)

theorem redirect_eq (stage : Stage) : (stage.redirect : Program τ Unit) =
    (place stage.inputFile .input >>= fun _ => place stage.outputFile .output) := by
  rw [redirect, place_bind, inputFile, outputFile]
  cases stage.redirectInput <;> cases stage.redirectOutput <;> rfl

theorem meets_attach {source? : Option Descriptor} {target : Descriptor} {name : String}
    (hP : ∀ {s' r}, s'.ready = s.ready → s'.Prepares r → P s' r)
    (hQ : Q (s.having (Function.update s.holds target (s.holds (source?.getD target)))) ()) :
    (attach source? target name).Meets Holder.Answers P Q s := by
  cases source? with
  | none =>
    rw [Option.getD_none, Function.update_eq_self] at hQ
    exact hQ
  | some fd => exact meets_duplicate_orExit hP hQ

theorem meets_place {file? : Option (String × OpenMode)} {target : Descriptor}
    (hP : ∀ {s' r}, s'.ready = s.ready → s'.Prepares r → P s' r) (held : s.holds target ≠ none)
    (hQ : Q (s.having (Function.update s.holds target
      (file?.elim (s.holds target) fun file => some (.named file.1 file.2)))) ()) :
    (place file? target).Meets Holder.Answers P Q s := by
  cases file? with
  | none =>
    rw [Option.elim_none, Function.update_eq_self] at hQ
    exact hQ
  | some file => exact meets_openOn_orExit hP held hQ

/-! #### The calls of a stage -/

/-- What a stage does to settle once it has joined its group. -/
def takeTerminal (stage : Stage) : Program τ Unit := do
  match stage.terminal with
  | none => pure ()
  | some fd =>
    let group ← if stage.group = 0 then ask .processId else pure stage.group
    let _ ← ask (.setForeground fd group)
  let _ ← ask (.setDisposition .terminalOutput .standard)
  let _ ← ask (.setDisposition .brokenPipe .standard)

/-- What a stage does once it has settled. -/
def work (stage : Stage) : Program τ α := do
  stage.connect
  stage.redirect
  match stage.arguments with
  | [] =>
    let pid ← ask .processId
    let _ ← ask (.kill pid (some .abort))
    exit executeFailure
  | name :: _ =>
    let e ← ask (.executeCommand name stage.arguments)
    report name e
    exit executeFailure

theorem settle_eq (stage : Stage) : (stage.settle : Program τ Unit) =
    (ask (.setGroup 0 stage.group) >>= fun _ => stage.takeTerminal) := rfl

theorem program_eq (stage : Stage) :
    (stage.program : Program τ α) = (stage.settle >>= fun _ => stage.work) := rfl

section calls

variable {R : Request τ → Prop}

theorem makes_takeTerminal (hpid : R .processId)
    (hforeground : ∀ fd group, R (.setForeground fd group))
    (hdisposition : ∀ signal disposition, R (.setDisposition signal disposition)) (stage : Stage) :
    (stage.takeTerminal : Program τ Unit).Makes R := by
  -- The dispositions come last in any case.
  have hlast : (ask (.setDisposition .terminalOutput .standard) >>= fun _ =>
      ask (.setDisposition .brokenPipe .standard) >>= fun _ => .done () : Program τ Unit).Makes R :=
    (makes_ask (hdisposition _ _)).bind fun _ => (makes_ask (hdisposition _ _)).bind fun _ =>
      makes_done ()
  have htake : ∀ fd group, (ask (.setForeground fd group) >>= fun _ =>
      ask (.setDisposition .terminalOutput .standard) >>= fun _ =>
        ask (.setDisposition .brokenPipe .standard) >>= fun _ => .done () :
          Program τ Unit).Makes R :=
    fun fd group => (makes_ask (hforeground fd group)).bind fun _ => hlast
  rw [takeTerminal]
  cases stage.terminal with
  | none => exact hlast
  | some fd =>
    dsimp only
    split
    · exact (makes_ask hpid).bind fun group => htake fd group
    · exact htake fd stage.group

theorem makes_settle (hgroup : ∀ pid group, R (.setGroup pid group)) (hpid : R .processId)
    (hforeground : ∀ fd group, R (.setForeground fd group))
    (hdisposition : ∀ signal disposition, R (.setDisposition signal disposition)) (stage : Stage) :
    (stage.settle : Program τ Unit).Makes R := by
  rw [settle_eq]
  exact (makes_ask (hgroup _ _)).bind fun _ =>
    stage.makes_takeTerminal hpid hforeground hdisposition

variable (hR : ∀ r : Request τ, r.isPrivate = true → R r)
include hR

theorem makes_orExit (name : String) (code : Nat) (result : Except Errno α) :
    (orExit name code result : Program τ α).Makes R := by
  cases result with
  | ok a => exact makes_done a
  | error e =>
    exact (makes_report (fun _ => hR _ rfl) name e).bind fun _ => makes_exit (hR _ rfl)

theorem makes_openOn (path : String) (target : Descriptor) (mode : OpenMode) :
    (openOn path target mode : Program τ _).Makes R := by
  refine (makes_ask (hR _ rfl)).bind fun answer => ?_
  cases answer with
  | error e => exact makes_done _
  | ok fd =>
    show Makes R (if fd = target then .done (.ok ()) else
      ask (.duplicate fd target) >>= fun (result : Except Errno Unit) =>
        ask (.close fd) >>= fun _ => .done result)
    split
    · exact makes_done _
    · refine (makes_ask (hR _ rfl)).bind fun _ => ?_
      exact (makes_ask (hR _ rfl)).bind fun _ => makes_done _

theorem makes_attach (source? : Option Descriptor) (target : Descriptor) (name : String) :
    (attach source? target name : Program τ Unit).Makes R := by
  cases source? with
  | none => exact makes_done ()
  | some fd => exact (makes_ask (hR _ rfl)).bind fun _ => makes_orExit hR _ _ _

theorem makes_place (file? : Option (String × OpenMode)) (target : Descriptor) :
    (place file? target : Program τ Unit).Makes R := by
  cases file? with
  | none => exact makes_done ()
  | some file => exact (makes_openOn hR _ _ _).bind fun result => makes_orExit hR _ _ result

/-- **Once a stage has settled, what it does concerns nobody but itself.** -/
theorem makes_work (stage : Stage) : (stage.work : Program τ α).Makes R := by
  rw [work]
  have hconnect : (stage.connect : Program τ Unit).Makes R := by
    rw [connect_eq]
    refine (makes_attach hR _ _ _).bind fun _ => (makes_attach hR _ _ _).bind fun _ => ?_
    exact makes_closePipes (fun _ => hR _ rfl) stage.pipes
  refine hconnect.bind fun _ => ?_
  have hredirect : (stage.redirect : Program τ Unit).Makes R := by
    rw [redirect_eq]
    exact (makes_place hR _ _).bind fun _ => makes_place hR _ _
  refine hredirect.bind fun _ => ?_
  split
  · refine (makes_ask (hR _ rfl)).bind fun _ => ?_
    exact (makes_ask (hR _ rfl)).bind fun _ => makes_exit (hR _ rfl)
  · refine (makes_ask (hR _ rfl)).bind fun e => ?_
    exact (makes_report (fun _ => hR _ rfl) _ e).bind fun _ => makes_exit (hR _ rfl)

end calls

theorem quiet_settle (stage : Stage) : (stage.settle : Program τ Unit).Quiet :=
  makes_settle (R := fun r => r.isQuiet = true) (fun _ _ => rfl) rfl (fun _ _ => rfl)
    (fun _ _ => rfl) stage

/-- What a stage has when its ends of the pipes are in their places. -/
def connected (stage : Stage) (before holds : Holdings) : Holdings :=
  Function.update (Function.update before .input (holds (stage.input.getD .input)))
    .output (holds (stage.output.getD .output))

theorem meets_connect (hP : ∀ {s' r}, s'.ready = s.ready → s'.Prepares r → P s' r)
    (hp : Piped before stage.pipes s.holds) (hin : before .input ≠ none)
    (hout : before .output ≠ none) (hne : stage.output.getD .output ≠ .input)
    (hQ : Q (s.having (stage.connected before s.holds)) ()) :
    stage.connect.Meets Holder.Answers P Q s := by
  rw [connect_eq]
  refine (meets_bind _ _).2 (meets_attach hP ?_)
  refine (meets_bind _ _).2 (meets_attach hP ?_)
  refine meets_closePipes (fun _ _ => hP rfl (Holder.prepares_of_isPlain rfl)) ?_
  -- The end to write is still where it was, and the two copies are left.
  simp only [Holder.holds_having, Holder.having_having]
  rw [Function.update_of_ne hne, Holdings.without_update _ (hp.not_mem hout),
    Holdings.without_update _ (hp.not_mem hin), hp.without]
  exact hQ

/-- What a stage has when its files are in their places. -/
def redirected (stage : Stage) (holds : Holdings) : Holdings :=
  Function.update
    (Function.update holds .input
      (stage.inputFile.elim (holds .input) fun file => some (.named file.1 file.2)))
    .output (stage.outputFile.elim (holds .output) fun file => some (.named file.1 file.2))

theorem meets_redirect (hP : ∀ {s' r}, s'.ready = s.ready → s'.Prepares r → P s' r)
    (hin : s.holds .input ≠ none) (hout : s.holds .output ≠ none)
    (hQ : Q (s.having (stage.redirected s.holds)) ()) :
    stage.redirect.Meets Holder.Answers P Q s := by
  have hne : Descriptor.output ≠ .input := by decide
  rw [redirect_eq]
  refine (meets_bind _ _).2 (meets_place hP hin (meets_place hP ?_ ?_))
  · rw [Holder.holds_having, Function.update_of_ne hne]
    exact hout
  · rw [Holder.holds_having, Function.update_of_ne hne]
    exact hQ

/-- What a stage has when it executes its command. -/
def wired (stage : Stage) (before holds : Holdings) : Holdings :=
  stage.redirected (stage.connected before holds)

/-- **A stage that gets as far as its command is wired.** -/
theorem meets_program (hs : s.ready = false) (hp : Piped before stage.pipes s.holds)
    (hin : before .input ≠ none) (hout : before .output ≠ none)
    (hne : stage.output.getD .output ≠ .input)
    (hin' : stage.connected before s.holds .input ≠ none)
    (hout' : stage.connected before s.holds .output ≠ none) :
    (stage.program : Program τ α).Meets Holder.Answers
      (Holder.Wires (stage.wired before s.holds) (stage.arguments = [])) (fun _ _ => False) s := by
  have hP : ∀ {s' : Holder} {r : Request τ}, s'.ready = s.ready → s'.Prepares r →
      s'.Wires (stage.wired before s.holds) (stage.arguments = []) r := by
    intro s' r hs' hr
    refine ⟨hr.1, ?_, fun code h => .inr (.inl (hr.2.2 code h))⟩
    rintro (hready | ⟨name, arguments, h⟩)
    · simp [hs', hs] at hready
    · exact absurd h (hr.2.1 name arguments)
  have hquiet : ∀ {s' : Holder} {r : Request τ}, s'.ready = s.ready → r.isQuiet = true →
      s'.Wires (stage.wired before s.holds) (stage.arguments = []) r :=
    fun hs' hr => hP hs' (Holder.prepares_of_isQuiet hr)
  rw [program]
  refine (meets_bind _ _).2 (stage.quiet_settle.meets (hquiet rfl) fun _ => ?_)
  refine (meets_bind _ _).2 (meets_connect hP hp hin hout hne ?_)
  refine (meets_bind _ _).2 (meets_redirect hP hin' hout' ?_)
  split
  · next hidle =>
    refine (meets_bind _ _).2 ((quiet_ask rfl).meets (hquiet rfl) fun _ => ?_)
    refine (meets_bind _ _).2 ((quiet_ask rfl).meets (hquiet rfl) fun _ => ?_)
    exact meets_exit.2 ⟨fun _ h => (by cases h), fun _ => rfl, fun _ _ => .inr (.inr hidle)⟩
  -- From here on the descriptors are left alone.
  have hafter : ∀ {r : Request τ}, (∀ child, r ≠ .fork child) →
      Holder.Wires (stage.wired before s.holds) (stage.arguments = [])
        { s.having (stage.wired before s.holds) with ready := true } r :=
    fun hr => ⟨hr, fun _ => rfl, fun _ _ => .inl rfl⟩
  have hquiet' : ∀ {r : Request τ}, r.isQuiet = true →
      Holder.Wires (stage.wired before s.holds) (stage.arguments = [])
        { s.having (stage.wired before s.holds) with ready := true } r :=
    fun hr => hafter (Holder.prepares_of_isQuiet (s := s) hr).1
  refine (meets_bind _ _).2 (meets_executeCommand ?_ fun e => ?_)
  · exact ⟨fun _ h => (by cases h), fun _ => rfl, fun _ h => (by cases h)⟩
  · refine (meets_bind _ _).2 ((quiet_report _ e).meets hquiet' fun _ => meets_exit.2 ?_)
    exact hafter fun _ h => by cases h

end Stage

namespace Plan

variable {plan : Plan} {terminal : Option Descriptor} {pipes : List Pipe} {group : Pid} {i : Nat}
  {arguments : List String} {before holds : Holdings}

theorem holds_input (hp : Piped before pipes holds) (hlen : pipes.length = plan.size - 1)
    (hi : i < plan.size) (hin : before .input = some (.inherited .input)) :
    holds ((plan.stage terminal pipes group i arguments).input.getD .input) =
      some (if i = 0 then .inherited .input else .readEnd (i - 1)) := by
  cases i with
  | zero => exact (hp.others .input (hp.not_mem (by simp [hin]))).trans hin
  | succ k =>
    have hk : pipes[k]? = some pipes[k] := List.getElem?_eq_getElem (by omega)
    show holds ((pipes[k]?.map (·.1)).getD .input) = some (.readEnd k)
    rw [hk]
    exact (hp.ends hk).1

theorem holds_output (hp : Piped before pipes holds) (hlen : pipes.length = plan.size - 1)
    (hout : before .output = some (.inherited .output)) :
    holds ((plan.stage terminal pipes group i arguments).output.getD .output) =
      some (if i + 1 < plan.size then .writeEnd i else .inherited .output) := by
  show holds ((pipes[i]?.map (·.2)).getD .output) = _
  by_cases h : i + 1 < plan.size
  · have hi : pipes[i]? = some pipes[i] := List.getElem?_eq_getElem (by omega)
    rw [if_pos h, hi]
    exact (hp.ends hi).2
  · rw [if_neg h, List.getElem?_eq_none (by omega)]
    exact (hp.others .output (hp.not_mem (by simp [hout]))).trans hout

theorem eq_of_mapM_checkedText {file file' : Option String}
    (h : file.mapM checkedText = .ok file') : file' = file := by
  cases file with
  | none =>
    cases h
    rfl
  | some text =>
    obtain ⟨text', ht, h⟩ := bind_eq_ok_iff.1 h
    rw [checkedText] at ht
    split at ht
    · cases ht
    · cases ht
      cases h
      rfl

theorem modifier_ofCommandLine {line : CommandLine} (h : ofCommandLine line = .ok plan) :
    plan.modifier = line.modifier := by
  rw [ofCommandLine] at h
  obtain ⟨stages, -, h⟩ := bind_eq_ok_iff.1 h
  obtain ⟨input, hin, h⟩ := bind_eq_ok_iff.1 h
  obtain ⟨output, hout, h⟩ := bind_eq_ok_iff.1 h
  cases h
  rw [eq_of_mapM_checkedText hin, eq_of_mapM_checkedText hout]

theorem exists_of_mem_of_mapM_eq_ok {α β ε : Type} {f : α → Except ε β} {y : β} :
    ∀ {xs : List α} {ys : List β}, xs.mapM f = .ok ys → y ∈ ys → ∃ x ∈ xs, f x = .ok y
  | [], ys, h, hy => by
    rw [List.mapM_nil] at h
    cases h
    cases hy
  | x :: xs, ys, h, hy => by
    rw [List.mapM_cons] at h
    obtain ⟨y', hx, h⟩ := bind_eq_ok_iff.1 h
    obtain ⟨rest, hrest, h⟩ := bind_eq_ok_iff.1 h
    cases h
    rcases List.mem_cons.1 hy with rfl | hy
    · exact ⟨x, List.mem_cons_self, hx⟩
    · obtain ⟨x', hmem, hx'⟩ := exists_of_mem_of_mapM_eq_ok hrest hy
      exact ⟨x', List.mem_cons_of_mem x hmem, hx'⟩

/-- Only a stage without words has no arguments. -/
theorem nil_mem_stages {line : CommandLine} (h : ofCommandLine line = .ok plan)
    (hmem : [] ∈ plan.stages) : [] ∈ line.pipeline.stages := by
  rw [ofCommandLine] at h
  obtain ⟨stages, hstages, h⟩ := bind_eq_ok_iff.1 h
  obtain ⟨input, -, h⟩ := bind_eq_ok_iff.1 h
  obtain ⟨output, -, h⟩ := bind_eq_ok_iff.1 h
  cases h
  obtain ⟨words, hwords, hnil⟩ := exists_of_mem_of_mapM_eq_ok hstages hmem
  rwa [List.eq_nil_of_length_eq_zero (length_of_mapM_eq_ok hnil).symm] at hwords

/-- A stage opens the file for its output as its line asks for. -/
theorem outputMode_append (line : CommandLine) :
    Stage.outputMode line.modifier.append = line.outputMode := rfl

/-- A stage of a plan has what its line asks for. -/
theorem wired_stage {line : CommandLine} (hplan : ofCommandLine line = .ok plan)
    (hp : Piped before pipes holds) (hlen : pipes.length = plan.size - 1) (hi : i < plan.size)
    (hin : before .input = some (.inherited .input))
    (hout : before .output = some (.inherited .output)) :
    (plan.stage terminal pipes group i arguments).wired before holds = line.wired before i := by
  have hne : Descriptor.input ≠ .output := by decide
  have hinput : ((plan.stage terminal pipes group i arguments).inputFile.elim
      (some (if i = 0 then Source.inherited .input else .readEnd (i - 1)))
        fun file => some (.named file.1 file.2)) = some (line.inputOf i) := by
    rw [Stage.inputFile, stage, modifier_ofCommandLine hplan]
    cases i with
    | zero =>
      cases h : line.modifier.input <;> simp [CommandLine.inputOf, h]
    | succ k => rfl
  have houtput : ((plan.stage terminal pipes group i arguments).outputFile.elim
      (some (if i + 1 < plan.size then Source.writeEnd i else .inherited .output))
        fun file => some (.named file.1 file.2)) = some (line.outputOf i) := by
    rw [Stage.outputFile, stage, modifier_ofCommandLine hplan, CommandLine.outputOf,
      ← size_ofCommandLine hplan]
    by_cases h : i + 1 < plan.size
    · simp [h, Nat.ne_of_lt h]
    · have hlast : i + 1 = plan.size := by omega
      cases ho : line.modifier.output <;> simp [hlast, outputMode_append]
  rw [Stage.wired, Stage.redirected, Stage.connected, holds_input hp hlen hi hin,
    holds_output hp hlen hout, Function.update_self, Function.update_of_ne hne,
    Function.update_self, hinput, houtput, CommandLine.wired, Function.update_comm hne,
    Function.update_idem, Function.update_comm hne.symm, Function.update_idem]

end Plan

/-! ### The launch -/

/-- What is expected of a stage on its way to its command. -/
def CommandLine.Expects (line : CommandLine) (before : Holdings) (i : Nat) (p : Program Task Task)
    (s : Holder) : Prop :=
  p.Meets Holder.Answers (Holder.Wires (line.wired before i) ([] ∈ line.pipeline.stages))
    (fun _ _ => False) s

/-- What a new process has: a copy of the descriptors. -/
def Holder.child (s : Holder) : Holder := { holds := s.holds, pipes := s.pipes }

/-- Every process that is forked is the next stage. -/
def Holder.Launches (line : CommandLine) (before : Holdings) (s : Holder) (r : Request Task) :
    Prop :=
  ∀ child, r = .fork child → line.Expects before s.forks child.round s.child

/-- What is expected of the shell at the end. -/
structure Holder.Launched (line : CommandLine) (before : Holdings) (s : Holder)
    (result : Except LaunchError Spawned) : Prop where
  holds_eq : s.holds = before
  forks_eq : ∀ {spawned : Spawned}, result = .ok spawned → s.forks = line.pipeline.size
  refused : ∀ {e : LaunchError}, result = .error e →
    s.refused = true ∨ ∃ position, e = .invalidArgument position

theorem Holder.launches_of_isPlain {line : CommandLine} {before : Holdings} {s : Holder}
    {r : Request Task} (h : r.isPlain = true) : s.Launches line before r := by
  rintro child rfl
  cases h

namespace Plan

variable {plan : Plan} {line : CommandLine} {terminal : Option Descriptor} {before : Holdings}
  {s : Holder} {pipes : List Pipe}

/-- A stage that is forked with all pipes is wired when it gets as far as its command. -/
theorem expects_stage {group : Pid} {i : Nat} {arguments : List String} (hs : s.ready = false)
    (hplan : ofCommandLine line = .ok plan) (hmem : arguments ∈ plan.stages)
    (hin : before .input = some (.inherited .input))
    (hout : before .output = some (.inherited .output)) (hp : Piped before pipes s.holds)
    (hlen : pipes.length = plan.size - 1) (hi : i < plan.size) :
    line.Expects before i (Task.stage (plan.stage terminal pipes group i arguments)).round s := by
  have hinput : s.holds ((plan.stage terminal pipes group i arguments).input.getD .input) = _ :=
    holds_input hp hlen hi hin
  have houtput : s.holds ((plan.stage terminal pipes group i arguments).output.getD .output) = _ :=
    holds_output hp hlen hout
  have hne : Descriptor.input ≠ .output := by decide
  have hprogram : (Task.stage (plan.stage terminal pipes group i arguments)).round.Meets
      Holder.Answers (Holder.Wires ((plan.stage terminal pipes group i arguments).wired before
        s.holds) ((plan.stage terminal pipes group i arguments).arguments = []))
          (fun _ _ => False) s := by
    refine Stage.meets_program hs hp (by simp [hin]) (by simp [hout]) (fun h => ?_) ?_ ?_
    -- The standard input is what it was, and that is nothing to write to.
    · rw [h, hp.others .input (hp.not_mem (by simp [hin])), hin] at houtput
      split at houtput <;> cases houtput
    · rw [Stage.connected, Function.update_of_ne hne, Function.update_self]
      exact ne_of_eq_of_ne hinput (Option.some_ne_none _)
    · rw [Stage.connected, Function.update_self]
      exact ne_of_eq_of_ne houtput (Option.some_ne_none _)
  rw [wired_stage hplan hp hlen hi hin hout] at hprogram
  refine hprogram.mono (fun s r h => ⟨h.not_fork, h.holds_eq, fun code hr => ?_⟩) fun _ _ h => h
  refine (h.not_exit code hr).imp_right (Or.imp_right fun hnil => ?_)
  replace hnil : arguments = [] := hnil
  exact nil_mem_stages hplan (hnil ▸ hmem)

theorem meets_forkStages {Q : Holder → Except LaunchError (List Pid) → Prop}
    (hplan : ofCommandLine line = .ok plan) (hin : before .input = some (.inherited .input))
    (hout : before .output = some (.inherited .output)) (hlen : pipes.length = plan.size - 1)
    (hok : ∀ {s pids}, Piped before pipes s.holds → s.forks = plan.size → Q s (.ok pids))
    (herr : ∀ {s e}, Piped before pipes s.holds → s.refused = true → Q s (.error e))
    {stages : List (List String)} {spawned : List Pid} (hp : Piped before pipes s.holds)
    (hforks : s.forks = spawned.length) (hsize : spawned.length + stages.length = plan.size)
    (hmem : ∀ arguments ∈ stages, arguments ∈ plan.stages) :
    (plan.forkStages Task.stage terminal pipes stages spawned).Meets Holder.Answers
      (Holder.Launches line before) Q s := by
  induction stages generalizing s spawned with
  | nil => exact hok hp (hforks.trans hsize)
  | cons arguments stages ih =>
    obtain ⟨hfirst, hmem⟩ := List.forall_mem_cons.1 hmem
    rw [List.length_cons] at hsize
    rw [forkStages]
    refine (meets_bind _ _).2 (meets_fork ?_ (fun e => herr hp rfl) fun pid => ?_)
    · intro child hr
      cases hr
      rw [hforks]
      exact expects_stage rfl hplan hfirst hin hout hp hlen (by omega)
    · refine (meets_bind _ _).2
        (meets_ask_of_isQuiet rfl (Holder.launches_of_isPlain rfl) fun _ => ?_)
      refine ih hp ?_ ?_ hmem
      · rw [List.length_append, List.length_singleton, ← hforks]
      · rw [List.length_append, List.length_singleton]
        omega

theorem meets_launch (hplan : ofCommandLine line = .ok plan)
    (hin : before .input = some (.inherited .input))
    (hout : before .output = some (.inherited .output)) :
    (plan.launch Task.stage terminal).Meets Holder.Answers (Holder.Launches line before)
      (Holder.Launched line before) { holds := before } := by
  rw [launch]
  refine (meets_bind _ _).2 (meets_createPipes Holder.launches_of_isPlain ?_ (.nil before) rfl ?_)
  · exact fun hs hr => ⟨hs, fun h => (by cases h), fun _ => .inl hr⟩
  intro s' pipes hp hlen hforks
  rw [List.length_nil, Nat.zero_add] at hlen
  have hclose : ∀ {s : Holder} (result : Except LaunchError (List Pid)),
      Piped before pipes s.holds → (∀ {pids}, result = .ok pids → s.forks = plan.size) →
      (∀ {e}, result = .error e → s.refused = true) →
      (closePipes pipes >>= fun _ => .done (result.map fun pids =>
        ({ group := pids.head?.getD 0, pids } : Spawned))).Meets Holder.Answers
          (Holder.Launches line before) (Holder.Launched line before) s := by
    intro s result hp hok herr
    refine (meets_bind _ _).2
      (meets_closePipes (fun _ _ => Holder.launches_of_isPlain rfl) ⟨hp.without, ?_, ?_⟩)
    · intro spawned h
      cases result with
      | error e => cases h
      | ok pids => exact (hok rfl).trans (size_ofCommandLine hplan)
    · intro e h
      cases result with
      | error e => exact .inl (herr rfl)
      | ok pids => cases h
  refine (meets_bind _ _).2 (meets_forkStages hplan hin hout hlen ?_ ?_ hp hforks ?_ fun _ h => h)
  · exact fun hp hsize => hclose (.ok _) hp (fun _ => hsize) fun h => by cases h
  · exact fun hp hr => hclose (.error _) hp (fun h => by cases h) fun _ => hr
  · exact Nat.zero_add _

end Plan

/-- What a launch does with descriptors, whatever is answered. -/
theorem CommandLine.meets_launch {line : CommandLine} {terminal : Option Descriptor}
    {before : Holdings} (hin : before .input = some (.inherited .input))
    (hout : before .output = some (.inherited .output)) :
    (line.launch Task.stage terminal).Meets Holder.Answers (Holder.Launches line before)
      (Holder.Launched line before) { holds := before } := by
  rw [launch]
  cases hplan : Plan.ofCommandLine line with
  | error e =>
    refine ⟨rfl, fun h => (by cases h), fun {e'} h => ?_⟩
    cases h
    exact .inr (Plan.ofCommandLine_eq_error hplan)
  | ok plan => exact Plan.meets_launch hplan hin hout

end PipelineShell
