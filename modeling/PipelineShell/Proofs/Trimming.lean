/-
Lines with blanks around them.

Nobody but the worker sees a line as it was entered: the reader looks whether
anything is left of it without the blanks around it, and this is what goes into
the history and into the table of jobs.  Nothing comes of the difference.  A
line without its blanks has the same words, or is refused as the line is, and
nothing is left of it exactly if it has no words.

* `tokenize_trimmed`, `CommandLine.parse_trimmed` — the blanks around a line do
  not matter;
* `trimmed_eq_empty_iff` — nothing is left exactly of a line without words;
* `Session.entered_line` — what becomes of a line, told by its words;
* `Run.exists_launched` — every job in the table is named by a line that was
  launched;
* `trimmed_read_alike` — all of this together.

Design notes: trimming knows nothing of quotes.  But a quote is no blank, so it
takes none away, and in a line whose quotes are closed nothing inside them is at
an end of the line.  Where a quote is left open, blanks inside it may go, but it
stays open without them.
-/
import Mathlib.Data.List.DropRight
import PipelineShell.Proofs.BlankSplit
import PipelineShell.Proofs.Builtins
import PipelineShell.Session

namespace PipelineShell

open Text

/-! ### Words -/

namespace Word

variable {ops : OperatorSet} {gap text : List Char}

theorem tokens_blank_append (h : ∀ c ∈ gap, isBlank c = true) :
    tokens ops (gap ++ text) = tokens ops text :=
  tokens_congr (Layout.trimStart_append h)

theorem tokens_append_blank (h : ∀ c ∈ gap, isBlank c = true) :
    tokens ops (text ++ gap) = tokens ops text := by
  have hapart : IsApart gap := fun c cs e => h c (e ▸ List.mem_cons_self)
  cases htext : tokens ops text with
  | ok words =>
    rw [tokens_append_of_isApart htext hapart,
      Layout.tokens_of_trimStart_eq_nil (trimStart_of_blank h)]
    exact congrArg Except.ok (List.append_nil words)
  | error e =>
    -- A quote that is left open before the blanks is still open behind them.
    have hopen : ¬Balanced (text ++ gap) := fun hbalanced =>
      Layout.not_balanced_of_tokens_error htext
        ((balanced_append_iff_left (balanced_of_blank h)).1 hbalanced)
    cases hall : tokens ops (text ++ gap) with
    | ok words => exact absurd (exists_tokens_iff_balanced.1 ⟨words, hall⟩) hopen
    | error e' => rfl

/-- A text without words is a text of blanks. -/
theorem tokens_eq_nil_iff : tokens ops text = .ok [] ↔ ∀ c ∈ text, isBlank c = true := by
  constructor
  · intro h
    obtain ⟨⟨pieces, trail⟩, hvalid, rfl, hwords⟩ := Layout.exists_valid_of_tokens h
    obtain rfl : pieces = [] := List.map_eq_nil_iff.1 hwords
    exact Layout.valid_nil_iff.1 hvalid
  · exact fun h => Layout.tokens_of_trimStart_eq_nil (trimStart_of_blank h)

end Word

/-- The line without the blanks around it. -/
def trimmed (line : String) : String :=
  String.ofList ((line.toList.dropWhile isBlank).rdropWhile isBlank)

theorem trimmed_eq (line : String) : trimmed line = String.ofList (trim line.toList) := rfl

/-- The blanks around a line do not matter. -/
theorem tokenize_trimmed (line : String) (ops : OperatorSet) :
    tokenize (trimmed line) ops = tokenize line ops := by
  obtain ⟨before, after, hbefore, hafter, hline⟩ := trim_eq line.toList
  calc tokenize (trimmed line) ops
      = Word.tokens ops (trim line.toList) := by rw [tokenize, trimmed_eq, String.toList_ofList]
    _ = Word.tokens ops (before ++ trim line.toList) := (Word.tokens_blank_append hbefore).symm
    _ = Word.tokens ops (before ++ trim line.toList ++ after) :=
        (Word.tokens_append_blank hafter).symm
    _ = tokenize line ops := congrArg (Word.tokens ops) hline.symm

theorem CommandLine.parse_trimmed (line : String) (ops : OperatorSet) :
    parse (trimmed line) ops = parse line ops := by
  rw [parse, parse, tokenize_trimmed]

/-- Nothing is left exactly of a line without words. -/
theorem trimmed_eq_empty_iff (line : String) (ops : OperatorSet) :
    trimmed line = "" ↔ tokenize line ops = .ok [] := by
  rw [trimmed_eq, String.ofList_eq_empty_iff, trim_eq_nil, tokenize, Word.tokens_eq_nil_iff]

/-! ### The reader -/

/-- A line without words is skipped.  Any other one is handed on as it is and entered in the history
without the blanks around it. -/
theorem Session.entered_line (s : Session) (enter : History → String → History) (line : String)
    (ops : OperatorSet) :
    s.entered enter (.line line) =
      if tokenize line ops = .ok [] then some { s with phase := .prompting }
      else
        some { s with
          phase := .waiting, inbox := s.inbox ++ [.line line]
          history := enter s.history (trimmed line) } := by
  have hblank : (trim line.toList).isEmpty = true ↔ tokenize line ops = .ok [] := by
    rw [List.isEmpty_iff, ← trimmed_eq_empty_iff, trimmed_eq, String.ofList_eq_empty_iff]
  rw [entered]
  simp only [hblank]
  rfl

/-! ### The table of jobs -/

namespace Job

/-- The job is the other one, perhaps without some of its processes. -/
structure LeftOf (job before : Job) : Prop where
  line : job.line = before.line
  group : job.group = before.group
  mem : ∀ pid ∈ job.pids, pid ∈ before.pids

/-- The job is made of the processes that were started for the line, and is named by this line. -/
structure StartedFor (job : Job) (text : String) (spawned : Spawned) : Prop where
  line : job.line = trimmed text
  group : job.group = spawned.group
  mem : ∀ pid ∈ job.pids, pid ∈ spawned.pids

variable {job before : Job}

theorem LeftOf.rfl : job.LeftOf job := ⟨Eq.refl _, Eq.refl _, fun _ => id⟩

theorem LeftOf.collect {pid : Pid} {status : Int} : (job.collect pid status).LeftOf job :=
  ⟨Eq.refl _, Eq.refl _, fun _ hp => (mem_pids_collect.1 hp).1⟩

theorem LeftOf.startedFor {text : String} {spawned : Spawned} (hleft : job.LeftOf before)
    (h : before.StartedFor text spawned) : job.StartedFor text spawned where
  line := hleft.line.trans h.line
  group := hleft.group.trans h.group
  mem pid hp := h.mem pid (hleft.mem pid hp)

end Job

namespace JobTable

variable {t : JobTable} {id : Nat} {job : Job}

theorem exists_leftOf_setBackground {moved : Nat}
    (hj : (t.setBackground moved).get? id = some job) :
    ∃ before, t.get? id = some before ∧ job.LeftOf before := by
  rw [get?_setBackground] at hj
  split at hj
  · next hid =>
    obtain ⟨before, hb, rfl⟩ := Option.map_eq_some_iff.1 hj
    exact ⟨before, hid ▸ hb, rfl, rfl, fun _ hp => hp⟩
  · exact ⟨job, hj, .rfl⟩

theorem Coherent.exists_leftOf_remove (hc : t.Coherent) {pid : Pid} {status : Int}
    (hj : (t.remove pid status).2.get? id = some job) :
    ∃ before, t.get? id = some before ∧ job.LeftOf before := by
  rcases hc.get?_remove_cases hj with ⟨hb, -⟩ | ⟨before, hb, -, rfl, -⟩
  · exact ⟨job, hb, .rfl⟩
  · exact ⟨before, hb, .collect⟩

end JobTable

/-- A launch of this line has come to these processes. -/
def Trace.Launched (past : Trace) (text : String) (line : CommandLine) (spawned : Spawned) : Prop :=
  ∃ t forked result, (t, Event.launched result) ∈ past ∧
    t.doing = .launching text line forked (.done result) ∧ Worker.running? result = some spawned

namespace Run

variable {terminalGroup : Option Pid} {operators : OperatorSet} {past : Trace} {s : System}
  {text : String} {line : CommandLine} {spawned : Spawned}

/-- What is launched is what has been read. -/
theorem parse_of_launched (h : Run (.initial terminalGroup operators) past s)
    (hl : past.Launched text line spawned) : CommandLine.parse text operators = .ok line := by
  obtain ⟨t, forked, result, hmem, hd, -⟩ := hl
  obtain ⟨after, before, rfl⟩ := List.append_of_mem hmem
  exact (System.program_of_launching h.split.1 hd).1

/-- Every job in the table comes from a launch. -/
theorem exists_launched (h : Run (.initial terminalGroup operators) past s) {id : Nat} {job : Job}
    (hj : s.worker.jobs.get? id = some job) :
    ∃ text line spawned, past.Launched text line spawned ∧ job.StartedFor text spawned := by
  induction h generalizing job with
  | start => cases hj
  | @move past s s' e h m ih =>
    -- A job that was there before comes from where it came from then.
    have hbefore : ∀ {before : Job}, s.worker.jobs.get? id = some before → job.LeftOf before →
        ∃ text line spawned, Trace.Launched ((s, e) :: past) text line spawned ∧
          job.StartedFor text spawned := by
      intro before hb hleft
      obtain ⟨text, line, spawned, ⟨t, forked, result, hmem, ht⟩, hstarted⟩ := ih hb
      exact ⟨text, line, spawned, ⟨t, forked, result, List.mem_cons_of_mem _ hmem, ht⟩,
        hleft.startedFor hstarted⟩
    have hsound := (System.sound_initial terminalGroup operators).run h
    rcases hsound.jobs_cases m with hjobs | ⟨moved, hjobs⟩ | ⟨pid, status, hjobs⟩ |
      ⟨text, line, forked, result, spawned, new, rfl, hd, hr, hi⟩
    · exact hbefore (hjobs ▸ hj) .rfl
    · obtain ⟨before, hb, hleft⟩ := JobTable.exists_leftOf_setBackground (hjobs ▸ hj)
      exact hbefore hb hleft
    · obtain ⟨before, hb, hleft⟩ := hsound.coherent.exists_leftOf_remove (hjobs ▸ hj)
      exact hbefore hb hleft
    · obtain ⟨last, hl, -⟩ := JobTable.insert?_eq_some_iff.1 hi
      rw [JobTable.get?_insert? hi hl] at hj
      split at hj
      · obtain rfl := Option.some.inj hj
        exact ⟨text, line, spawned, ⟨s, forked, result, List.mem_cons_self, hd, hr⟩, rfl, rfl,
          fun _ hp => hp⟩
      · exact hbefore hj .rfl

end Run

/-- **A line is read as it is without the blanks around it**, and it is blank exactly if it has no
words.  So the reader skips exactly the lines without words.  Any other one is handed on as it is,
and what is entered in the history for it has the same words and is the same command, whatever the
history does with it; and the name of every job in the table is read as the line that was launched
for this job. -/
theorem trimmed_read_alike (ops : OperatorSet) :
    (∀ line : String,
      (trimmed line = "" ↔ tokenize line ops = .ok []) ∧
        tokenize (trimmed line) ops = tokenize line ops ∧
        CommandLine.parse (trimmed line) ops = CommandLine.parse line ops) ∧
      (∀ (s : Session) (enter : History → String → History) (line : String),
        (s.entered enter (.line line) = some { s with phase := .prompting } ↔
            tokenize line ops = .ok []) ∧
          (tokenize line ops = .ok [] ∨
            s.entered enter (.line line) = some { s with
              phase := .waiting, inbox := s.inbox ++ [.line line]
              history := enter s.history (trimmed line) })) ∧
      ∀ terminalGroup past s, Run (.initial terminalGroup ops) past s →
        ∀ id job, s.worker.jobs.get? id = some job →
          ∃ text line spawned, past.Launched text line spawned ∧ job.StartedFor text spawned ∧
            CommandLine.parse text ops = .ok line ∧ CommandLine.parse job.line ops = .ok line := by
  refine ⟨fun line => ⟨trimmed_eq_empty_iff line ops, tokenize_trimmed line ops,
    CommandLine.parse_trimmed line ops⟩, fun s enter line => ?_,
    fun terminalGroup past s h id job hj => ?_⟩
  · have hentered := s.entered_line enter line ops
    by_cases hwords : tokenize line ops = .ok []
    · rw [if_pos hwords] at hentered
      exact ⟨iff_of_true hentered hwords, .inl hwords⟩
    · rw [if_neg hwords] at hentered
      refine ⟨iff_of_false (fun hskip => ?_) hwords, .inr hentered⟩
      cases congrArg Session.phase (Option.some.inj (hentered.symm.trans hskip))
  · obtain ⟨text, line, spawned, hlaunched, hstarted⟩ := h.exists_launched hj
    have hparse := h.parse_of_launched hlaunched
    refine ⟨text, line, spawned, hlaunched, hstarted, hparse, ?_⟩
    rw [hstarted.line, CommandLine.parse_trimmed, hparse]

/-- A job in the background, from a line with an ideographic space before it and a tab behind. -/
theorem trimmed_read_alike_background : ∃ (past : Trace) (s : System) (job : Job),
    Run (.initial none .full) past s ∧ s.worker.jobs.get? 1 = some job ∧ job.line = "a &" ∧
      (∃ text line spawned, past.Launched text line spawned ∧ job.StartedFor text spawned ∧
        CommandLine.parse text .full = .ok line ∧ CommandLine.parse job.line .full = .ok line) ∧
      CommandLine.parse (trimmed "\u3000a &\t") .full =
        .ok ⟨Pipeline.ofWords [.literal "a"], { background := true }⟩ := by
  have hparse : CommandLine.parse "\u3000a &\t" .full =
      .ok ⟨Pipeline.ofWords [.literal "a"], { background := true }⟩ := by
    decide +kernel
  have asked : Run (.initial none .full) [(_, .request (.line "\u3000a &\t"))] _ :=
    Run.start.move (.request rfl rfl)
  have received := asked.move (.receive_line rfl rfl rfl hparse rfl)
  have forked := received.move (.callLaunch (r := .fork _) rfl (.ok 7) fun _ _ => rfl)
  have grouped := forked.move (.callLaunch (r := .setGroup 7 0) rfl (.ok ()) fun _ h => by cases h)
  have launched := grouped.move (.launched rfl rfl)
  obtain ⟨hlines, -, hjobs⟩ := trimmed_read_alike .full
  refine ⟨_, _, _, launched, rfl, ?_, hjobs none _ _ launched 1 _ rfl,
    (hlines "\u3000a &\t").2.2.trans hparse⟩
  decide +kernel

end PipelineShell
