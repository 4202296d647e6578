/-
Lines that the shell runs itself.

Whether the shell changes its directory or leaves is told by the name of a
command that stands alone, once its quotes are off.  Parsing has counted the
words behind `cd` by then, so a command of this name is never taken for a
program.

* `CommandLine.classified_of_parse` — what an accepted line is, told by its
  stages alone: redirections and `&` have no say;
* `System.program_of_launching` — what is being launched has been read with the
  configured operators and is for programs;
* `launched_iff_program` — in every run the worker launches exactly the accepted
  lines that are for programs, and forks for nothing else.

Design notes: a command line may be built without being parsed, and then `cd`
with a wrong number of words is no builtin.  So everything here is about lines
that have been parsed.
-/
import PipelineShell.Proofs.Grammar
import PipelineShell.Proofs.Handling

namespace PipelineShell

namespace CommandLine

/-- A single command that has this name without its quotes. -/
def IsCalled (line : CommandLine) (name : String) : Prop :=
  ∃ first arguments, line.pipeline.stages = [first :: arguments] ∧ first.unquoted = some name

/-- Several commands, or a single one that the shell does not run itself. -/
def IsProgram (line : CommandLine) : Prop :=
  1 < line.pipeline.size ∨ ∃ name, line.IsCalled name ∧ name ≠ "cd" ∧ name ≠ "exit"

/-- The name tells what the shell runs itself, and the words behind it are the arguments. -/
structure Classified (line : CommandLine) : Prop where
  changeDirectory_iff :
    (∃ directory, line.builtin? = some (.changeDirectory directory)) ↔ line.IsCalled "cd"
  directory : ∀ {directory}, line.builtin? = some (.changeDirectory directory) →
    ∃ first second, line.pipeline.stages = [[first, second]] ∧ second.unquoted = some directory
  exit_iff : (∃ argument, line.builtin? = some (.exit argument)) ↔ line.IsCalled "exit"
  argument : ∀ {argument}, line.builtin? = some (.exit argument) →
    ∃ first arguments, line.pipeline.stages = [first :: arguments] ∧
      argument = arguments.head?.bind Word.unquoted ∧ (argument = none ↔ arguments = [])
  none_iff : line.builtin? = none ↔ line.IsProgram

variable {text : String} {ops : OperatorSet} {line : CommandLine} {raw name : String}
  {arguments : List Word}

theorem isCalled_iff (hs : line.pipeline.stages = [.literal raw :: arguments]) :
    line.IsCalled name ↔ Word.stripQuotes raw = name := by
  constructor
  · rintro ⟨first, arguments', hs', hf⟩
    cases hs.symm.trans hs'
    exact Option.some.inj hf
  · rintro rfl
    exact ⟨.literal raw, arguments, hs, rfl⟩

theorem isProgram_iff (hs : line.pipeline.stages = [.literal raw :: arguments]) :
    line.IsProgram ↔ Word.stripQuotes raw ≠ "cd" ∧ Word.stripQuotes raw ≠ "exit" := by
  have hsize : ¬1 < line.pipeline.size := by simp [← Pipeline.length_stages, hs]
  simp [IsProgram, hsize, isCalled_iff hs]

theorem not_isCalled (h : 1 < line.pipeline.size) (name : String) : ¬line.IsCalled name := by
  rintro ⟨first, arguments, hs, -⟩
  simp [← Pipeline.length_stages, hs] at h

/-- An accepted line has several stages, or one that begins with a literal. -/
theorem exists_single_of_parse (h : parse text ops = .ok line) :
    1 < line.pipeline.size ∨
      ∃ raw arguments, line.pipeline.stages = [.literal raw :: arguments] := by
  cases hs : line.pipeline.stages with
  | nil =>
    have hpos := size_pos_of_parse h
    simp [← Pipeline.length_stages, hs] at hpos
  | cons stage rest =>
    cases rest with
    | cons second rest => exact .inl (by simp [← Pipeline.length_stages, hs])
    | nil =>
      have hmem : stage ∈ line.pipeline.stages := hs ▸ List.mem_singleton_self stage
      obtain ⟨first, arguments, rfl⟩ := List.exists_cons_of_ne_nil (stage_ne_nil_of_parse h hmem)
      obtain ⟨raw, rfl⟩ := exists_literal_of_parse h hmem List.mem_cons_self
      exact .inr ⟨raw, arguments, rfl⟩

/-- One word stands behind `cd`. -/
theorem exists_directory_of_parse (h : parse text ops = .ok line)
    (hs : line.pipeline.stages = [.literal raw :: arguments]) (hcd : Word.stripQuotes raw = "cd") :
    ∃ directory, arguments = [.literal directory] := by
  have hmem : .literal raw :: arguments ∈ line.pipeline.stages := hs ▸ List.mem_singleton_self _
  have hlen : (Word.literal raw :: arguments).length = 2 := by
    obtain ⟨p, hp, rfl⟩ := exists_grammatical_of_parse h
    rw [Pipeline.stages_ofWords] at hmem
    exact hp.changeDirectory _ hmem (congrArg some hcd)
  obtain ⟨second, rfl⟩ := List.length_eq_one_iff.1 (Nat.succ.inj hlen)
  obtain ⟨directory, rfl⟩ :=
    exists_literal_of_parse h hmem (List.mem_cons_of_mem _ List.mem_cons_self)
  exact ⟨directory, rfl⟩

/-- An argument behind a name has a value. -/
theorem argument_eq_none_iff (h : parse text ops = .ok line)
    (hs : line.pipeline.stages = [.literal raw :: arguments]) :
    arguments.head?.bind Word.unquoted = none ↔ arguments = [] := by
  cases arguments with
  | nil => exact iff_of_true rfl rfl
  | cons second rest =>
    obtain ⟨raw', rfl⟩ := exists_literal_of_parse h (hs ▸ List.mem_singleton_self _)
      (List.mem_cons_of_mem _ List.mem_cons_self)
    exact iff_of_false nofun nofun

theorem builtin?_of_single (hs : line.pipeline.stages = [.literal raw :: arguments]) :
    line.builtin? =
      if Word.stripQuotes raw = "cd" then
        (arguments.head?.bind Word.unquoted).map .changeDirectory
      else if Word.stripQuotes raw = "exit" then
        some (.exit (arguments.head?.bind Word.unquoted))
      else none := by
  simp only [builtin?, hs, Word.unquoted, Option.some.injEq]

theorem builtin?_of_several (h : 1 < line.pipeline.size) : line.builtin? = none := by
  rw [builtin?.eq_def]
  split
  case h_1 hs => exact absurd h (by simp [← Pipeline.length_stages, hs])
  case h_2 => rfl

theorem classified_of_several (h : 1 < line.pipeline.size) : line.Classified := by
  have hb := builtin?_of_several h
  constructor
  case changeDirectory_iff => simp [hb, not_isCalled h]
  case directory => simp [hb]
  case exit_iff => simp [hb, not_isCalled h]
  case argument => simp [hb]
  case none_iff => exact iff_of_true hb (.inl h)

/-- The three names there are for a single command: `cd`, `exit` and all others. -/
theorem classified_of_single (h : parse text ops = .ok line)
    (hs : line.pipeline.stages = [.literal raw :: arguments]) : line.Classified := by
  have hb := builtin?_of_single hs
  by_cases hcd : Word.stripQuotes raw = "cd"
  · obtain ⟨directory, rfl⟩ := exists_directory_of_parse h hs hcd
    replace hb : line.builtin? = some (.changeDirectory (Word.stripQuotes directory)) := by
      rw [hb, if_pos hcd]
      rfl
    constructor
    case changeDirectory_iff => simp [hb, isCalled_iff hs, hcd]
    case directory =>
      intro directory' hd
      cases hb.symm.trans hd
      exact ⟨_, _, hs, rfl⟩
    case exit_iff => simp [hb, isCalled_iff hs, hcd]
    case argument => simp [hb]
    case none_iff => simp [hb, isProgram_iff hs, hcd]
  rw [if_neg hcd] at hb
  by_cases hexit : Word.stripQuotes raw = "exit"
  · rw [if_pos hexit] at hb
    constructor
    case changeDirectory_iff => simp [hb, isCalled_iff hs, hcd]
    case directory => simp [hb]
    case exit_iff => simp [hb, isCalled_iff hs, hexit]
    case argument =>
      intro argument ha
      cases hb.symm.trans ha
      exact ⟨_, _, hs, rfl, argument_eq_none_iff h hs⟩
    case none_iff => simp [hb, isProgram_iff hs, hexit]
  · rw [if_neg hexit] at hb
    constructor
    case changeDirectory_iff => simp [hb, isCalled_iff hs, hcd]
    case directory => simp [hb]
    case exit_iff => simp [hb, isCalled_iff hs, hexit]
    case argument => simp [hb]
    case none_iff => exact iff_of_true hb ((isProgram_iff hs).2 ⟨hcd, hexit⟩)

theorem classified_of_parse (h : parse text ops = .ok line) : line.Classified := by
  rcases exists_single_of_parse h with hsize | ⟨raw, arguments, hs⟩
  · exact classified_of_several hsize
  · exact classified_of_single h hs

end CommandLine

/-! ### What the worker launches -/

namespace System

variable {terminalGroup : Option Pid} {operators : OperatorSet} {past : Trace} {s s' : System}
  {text : String} {line : CommandLine}

/-- Whatever is launched in a run is an accepted line for programs. -/
theorem program_of_launching (h : Run (.initial terminalGroup operators) past s)
    {forked : List Pid} {calls : Program Task (Except LaunchError Spawned)}
    (hd : s.doing = .launching text line forked calls) :
    CommandLine.parse text operators = .ok line ∧ line.IsProgram := by
  induction h generalizing forked calls with
  | start => cases hd
  | move h m ih =>
    rcases m.launching_cases hd with ⟨_, _, hd⟩ | ⟨-, hparse, hb⟩
    · exact ih hd
    · rw [operators_of_run h] at hparse
      exact ⟨hparse, (CommandLine.classified_of_parse hparse).none_iff.1 hb⟩

/-- A line for programs is launched as soon as it is received. -/
theorem doing_of_receive (m : s.Moves (.receive (.line text)) s')
    (hparse : CommandLine.parse text s.worker.operators = .ok line) (hline : line.IsProgram) :
    s'.doing = .launching text line [] (line.launch .stage (Doing.terminal s.worker)) := by
  have hb := (CommandLine.classified_of_parse hparse).none_iff.2 hline
  cases m with
  | receive idle done h =>
    show Doing.begin (s.worker.lineRead text).worker (s.worker.lineRead text).next = _
    rw [Worker.lineRead_of_builtin?_eq_none hparse hb]
    rfl

/-- Only a launch forks. -/
theorem launching_of_fork (h : Run (.initial terminalGroup operators) past s) {child : Task}
    {answer : Except Errno Pid} (m : s.Moves (.call (.fork child) answer) s') :
    ∃ text line forked calls, s.doing = .launching text line forked calls := by
  cases m with
  | callDirectory hd answer =>
    have hnone := (ChangesQuietly.run h hd).1 (.ok default)
    cases hnone
  | callLaunch hd answer new => exact ⟨_, _, _, _, hd⟩

/-- **What the shell runs itself is told by the name of a lone command, and nothing else is kept
from being launched.**  A line is a change of the directory or a way to leave exactly if its only
command has that name, and its arguments are the words behind it.  In any state that a run leads
to, the worker launches a line that it receives exactly if it is accepted and has several commands
or one with another name, and every fork is made for such a line. -/
theorem launched_iff_program (terminalGroup : Option Pid) (operators : OperatorSet) :
    (∀ text line, CommandLine.parse text operators = .ok line → line.Classified) ∧
      ∀ past s, Run (.initial terminalGroup operators) past s →
        (∀ text s', s.Moves (.receive (.line text)) s' → ∀ line,
          ((∃ text' forked calls, s'.doing = .launching text' line forked calls) ↔
              CommandLine.parse text operators = .ok line ∧ line.IsProgram) ∧
            (CommandLine.parse text operators = .ok line → line.IsProgram →
              s'.doing = .launching text line []
                (line.launch .stage (Doing.terminal s.worker)))) ∧
        ∀ child answer s', s.Moves (.call (.fork child) answer) s' →
          ∃ text line forked calls, s.doing = .launching text line forked calls ∧
            CommandLine.parse text operators = .ok line ∧ line.IsProgram := by
  refine ⟨fun _ _ h => CommandLine.classified_of_parse h, fun past s h => ⟨?_, ?_⟩⟩
  · intro text s' m line
    have hlaunch : CommandLine.parse text operators = .ok line → line.IsProgram →
        s'.doing = .launching text line [] (line.launch .stage (Doing.terminal s.worker)) := by
      intro hparse hline
      exact doing_of_receive m ((operators_of_run h).symm ▸ hparse) hline
    refine ⟨⟨?_, fun ⟨hparse, hline⟩ => ⟨_, _, _, hlaunch hparse hline⟩⟩, hlaunch⟩
    rintro ⟨text', forked, calls, hd⟩
    have hprogram := program_of_launching (h.move m) hd
    rcases m.launching_cases hd with ⟨forked, calls, hd⟩ | ⟨he, -⟩
    · have hidle : s.doing = .listening := by
        cases m with
        | receive idle done _ => exact idle
      cases hidle.symm.trans hd
    · cases he
      exact hprogram
  · intro child answer s' m
    obtain ⟨text, line, forked, calls, hd⟩ := launching_of_fork h m
    exact ⟨text, line, forked, calls, hd, program_of_launching h hd⟩

/-- The quotes in the name, the redirection and `&` do not matter: the directory is changed and
nothing is launched. -/
theorem launched_iff_program_quoted : ∃ (line : CommandLine) (s s' : System),
    CommandLine.parse "\"c\"d \"a b\" > f &" .full = .ok line ∧ line.Classified ∧
      line.IsCalled "cd" ∧ s.Moves (.receive (.line "\"c\"d \"a b\" > f &")) s' ∧
      ∀ text line forked calls, s'.doing ≠ .launching text line forked calls := by
  let words : List Word := [.literal "\"c\"d", .literal "\"a b\""]
  let line : CommandLine :=
    ⟨Pipeline.ofWords words, { background := true, output := some "f" }⟩
  have hparse : CommandLine.parse "\"c\"d \"a b\" > f &" .full = .ok line := by decide +kernel
  obtain ⟨hclassified, hruns⟩ := launched_iff_program none .full
  have hcalled : line.IsCalled "cd" := ⟨_, _, rfl, by decide +kernel⟩
  let asked : System := { System.initial none .full with
    inbox := [.line "\"c\"d \"a b\" > f &"], reader := .waiting }
  have hrun : Run (.initial none .full) _ asked := Run.start.move (.request rfl rfl)
  have m : asked.Moves (.receive (.line "\"c\"d \"a b\" > f &")) _ := .receive rfl rfl rfl
  refine ⟨line, _, _, hparse, hclassified _ _ hparse, hcalled, m, ?_⟩
  intro text line' forked calls hd
  obtain ⟨hparse', hline⟩ := ((hruns _ _ hrun).1 _ _ m line').1.1 ⟨text, forked, calls, hd⟩
  cases hparse.symm.trans hparse'
  obtain ⟨directory, hb⟩ := (hclassified _ _ hparse).changeDirectory_iff.2 hcalled
  cases hb.symm.trans ((hclassified _ _ hparse).none_iff.2 hline)

end System

end PipelineShell
