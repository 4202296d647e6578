/-
A line that is turned down has the defect that it is told about.

`SyntaxError.Found` says for each error what is wrong with the words of the
line, in terms of the words alone.  There is no way to find an unexpected
operator: whatever passes the checks of the whole line is written in parts, and
no operator is left in the stages of these.

* `ArgumentVector.checkBackground_eq_error_iff` — the first check turns down a
  misplaced `&`, and nothing else does;
* `ArgumentVector.found_of_checkRedirect` — what the check of one redirection
  says is wrong is wrong with this redirection;
* `CommandLine.parse_error_found` — the defect that parsing names is there.

Design notes: the checks run one after the other, so the later ones may use what
the earlier ones have excluded.  For a redirection this is only that `&` ends
the line if it occurs, so the words before it (the core) can be looked at alone.
-/
import PipelineShell.Proofs.Grammar

namespace PipelineShell

open LineParts

/-- `&` stands alone, or in front of some word. -/
def MisplacedBackground (words : List Word) : Prop :=
  words = [.operator .background] ∨
    ∃ before after, words = before ++ .operator .background :: after ∧ after ≠ []

/-- The redirection stands first, or no word follows it, or its filename is followed by something
that is not a redirection of another kind. -/
def MisplacedRedirect (op : Operator) (core : List Word) : Prop :=
  ∃ before after, core = before ++ .operator op :: after ∧
    (before = [] ∨ after = [] ∨ ∃ file next rest, after = file :: next :: rest ∧
      ∀ other, next = .operator other → other.isRedirect = true → other = op)

/-- Not something that can be the name of a file. -/
def Word.Nameless (w : Word) : Prop := (∃ op, w = .operator op) ∨ w.unquoted = some ""

theorem Word.nameless_of_not_isFilename {w : Word} (h : ¬w.IsFilename) : w.Nameless := by
  cases w with
  | operator op => exact .inl ⟨op, rfl⟩
  | literal raw =>
    refine .inr (congrArg some ?_)
    by_contra hne
    exact h ⟨_, rfl, hne⟩

/-- What is wrong with the words of a line, for each error. -/
inductive SyntaxError.Found (words : List Word) : SyntaxError → Prop
  | backgroundPosition : MisplacedBackground words → Found words .backgroundPosition
  | mixedRedirect : .operator .output ∈ words → .operator .append ∈ words →
      Found words .mixedRedirect
  | duplicateRedirect {op : Operator} : op.isRedirect = true → 2 ≤ words.count (.operator op) →
      Found words (.duplicateRedirect op)
  | redirectPosition {op : Operator} {core : List Word} {background : Bool} :
      op.isRedirect = true → words.count (.operator op) = 1 →
      words = core ++ closing background → .operator .background ∉ core →
      MisplacedRedirect op core → Found words (.redirectPosition op)
  | badFilename {op : Operator} {before after : List Word} {file : Word} :
      op.isRedirect = true → words.count (.operator op) = 1 →
      words = before ++ .operator op :: file :: after → file.Nameless →
      Found words (.badFilename op)
  | emptyCommand {p : LineParts} : ArgumentVector.checkLine ⟨words⟩ = .ok () →
      p.Arranged → p.words = words → [] ∈ p.stages → Found words .emptyCommand
  | cdArity {p : LineParts} {stage : List Word} : ArgumentVector.checkLine ⟨words⟩ = .ok () →
      p.Arranged → p.words = words → stage ∈ p.stages →
      stage.head?.bind Word.unquoted = some "cd" → stage.length ≠ 2 → Found words .cdArity

namespace ArgumentVector

/-! ### The checks of the line -/

theorem misplacedBackground_iff {before after : List Word}
    (hb : Word.operator .background ∉ before) :
    MisplacedBackground (before ++ .operator .background :: after) ↔
      after ≠ [] ∨ before = [] ∧ after = [] := by
  constructor
  · rintro (h | ⟨before', after', e, hne⟩)
    · refine .inr ?_
      cases before with
      | nil => exact ⟨rfl, (List.cons.inj h).2⟩
      | cons w before => simp at h
    · -- another `&` in front of a word stands before the last word
      refine .inl fun hnil => hb ?_
      have hlast := congrArg List.dropLast e
      rw [hnil, List.dropLast_concat, List.dropLast_append_cons,
        List.dropLast_cons_of_ne_nil hne] at hlast
      rw [hlast]
      exact List.mem_append_right before' List.mem_cons_self
  · rintro (hne | ⟨rfl, rfl⟩)
    · exact .inr ⟨before, after, rfl, hne⟩
    · exact .inl rfl

/-- The check for `&` has one error. -/
theorem checkBackground_eq_error_iff {words : List Word} {e : SyntaxError} :
    checkBackground ⟨words⟩ = .error e ↔ e = .backgroundPosition ∧ MisplacedBackground words := by
  cases hp : position? ⟨words⟩ .background with
  | none =>
    have hm := position?_eq_none_iff.1 hp
    simp only [checkBackground, hp]
    constructor
    · intro h
      cases h
    · rintro ⟨-, rfl | ⟨before, after, rfl, -⟩⟩
      · exact absurd List.mem_cons_self hm
      · exact absurd (List.mem_append_right before List.mem_cons_self) hm
  | some p =>
    obtain ⟨before, after, e', hb, hpos⟩ := position?_eq_some_iff.1 hp
    obtain rfl : words = before ++ .operator .background :: after := e'
    have hcond : (p.val + 1 ≠ size ⟨before ++ .operator .background :: after⟩ ∨
        size ⟨before ++ .operator .background :: after⟩ = 1) ↔
          MisplacedBackground (before ++ .operator .background :: after) := by
      rw [misplacedBackground_iff hb, hpos]
      simp only [size, List.length_append, List.length_cons, ← List.length_eq_zero_iff, ne_eq]
      omega
    simp only [checkBackground, hp]
    by_cases hmis : MisplacedBackground (before ++ .operator .background :: after)
    · rw [if_pos (hcond.2 hmis)]
      exact ⟨fun h => ⟨(Except.error.inj h).symm, hmis⟩, fun h => h.1 ▸ rfl⟩
    · rw [if_neg (hcond.not.2 hmis)]
      refine iff_of_false (fun h => ?_) fun h => hmis h.2
      cases h

/-- A redirection whose place is turned down is misplaced among the words before a closing `&`. -/
theorem misplacedRedirect_of_place {op : Operator} {before after : List Word} {b : Bool}
    (h : before.length = 0 ∨ ¬(before.length + 2 = (before ++ .operator op :: after).length ∨
      chainsAt ⟨(before ++ .operator op :: after) ++ closing b⟩
        (before ++ .operator op :: after).length op before.length = true)) :
    MisplacedRedirect op (before ++ .operator op :: after) := by
  refine ⟨before, after, rfl, ?_⟩
  rcases h with hfirst | hnext
  · exact .inl (List.length_eq_zero_iff.1 hfirst)
  match after with
  | [] => exact .inr (.inl rfl)
  | [file] => exact absurd (.inl (by simp)) hnext
  | file :: next :: rest =>
    refine .inr (.inr ⟨file, next, rest, rfl, fun other hother hred => ?_⟩)
    by_contra hne
    have hsplit : words ⟨(before ++ .operator op :: file :: next :: rest) ++ closing b⟩
        = before ++ .operator op :: file :: (next :: rest ++ closing b) := by simp
    rw [continues_iff hsplit] at hnext
    exact hnext (.inr ⟨by simp, other, rest ++ closing b, by simp [hother], hred, hne⟩)

/-- A redirection whose place is accepted stands before a word that is not a closing `&`. -/
theorem exists_file_of_place {op : Operator} {before after : List Word} {v : ArgumentVector}
    (h : before.length + 2 = (before ++ .operator op :: after).length ∨
      v.chainsAt (before ++ .operator op :: after).length op before.length = true) :
    ∃ file rest, after = file :: rest := by
  cases after with
  | nil => simp [chainsAt] at h
  | cons file rest => exact ⟨file, rest, rfl⟩

/-- The check of a redirection only complains about what is there. -/
theorem found_of_checkRedirect {op : Operator} {core : List Word} {b : Bool} {e : SyntaxError}
    (hop : op.isRedirect = true) (hcore : Word.operator .background ∉ core)
    (h : checkRedirect ⟨core ++ closing b⟩ core.length op = .error e) :
    e.Found (core ++ closing b) := by
  by_cases hm : Word.operator op ∈ core
  case neg =>
    rw [(checkRedirect_closed_iff hop core b).2 (.inl hm)] at h
    cases h
  obtain ⟨before, after, rfl, hb⟩ := List.eq_append_cons_of_mem hm
  have hsplit : (before ++ .operator op :: after) ++ closing b
      = before ++ .operator op :: (after ++ closing b) := by simp
  obtain ⟨p, hp, hpos⟩ :
      ∃ p, position? ⟨(before ++ .operator op :: after) ++ closing b⟩ op = some p ∧
        p.val = before.length := hsplit ▸ position?_append hb (after ++ closing b)
  rw [checkRedirect, hp, count_eq] at h
  simp only [hpos] at h
  split at h
  case isTrue hmany =>
    cases h
    exact .duplicateRedirect hop hmany
  case isFalse hmany =>
    have honce : ((before ++ .operator op :: after) ++ closing b).count (.operator op) = 1 :=
      Nat.le_antisymm (Nat.not_lt.1 hmany) (List.count_pos_iff.2 (List.mem_append_left _ hm))
    split at h
    case isTrue hplace =>
      cases h
      exact .redirectPosition hop honce rfl hcore (misplacedRedirect_of_place hplace)
    case isFalse hplace =>
      rw [not_or, not_not] at hplace
      obtain ⟨file, rest, rfl⟩ := exists_file_of_place hplace.2
      split at h
      case isFalse => cases h
      case isTrue hfile =>
        cases h
        refine .badFilename hop honce hsplit (Word.nameless_of_not_isFilename fun hname => ?_)
        rw [(filename?_isNone (words_behind hsplit 0)).2 hname] at hfile
        cases hfile

theorem found_of_checkLine {words : List Word} {e : SyntaxError}
    (h : checkLine ⟨words⟩ = .error e) : e.Found words := by
  rw [checkLine, bind_eq_error_iff] at h
  rcases h with h | ⟨b, hb, h⟩
  · obtain ⟨rfl, hmis⟩ := checkBackground_eq_error_iff.1 h
    exact .backgroundPosition hmis
  obtain ⟨core, rfl, hcore, hsize⟩ := CommandLine.exists_core hb
  rw [hsize] at h
  by_cases hmix : (has ⟨core ++ closing b⟩ .output && has ⟨core ++ closing b⟩ .append) = true
  · rw [if_pos hmix] at h
    cases h
    rw [Bool.and_eq_true, has_iff, has_iff] at hmix
    exact .mixedRedirect hmix.1 hmix.2
  · rw [if_neg hmix] at h
    simp only [bind_eq_error_iff] at h
    rcases h with h | ⟨_, _, h | ⟨_, _, h⟩⟩
    · exact found_of_checkRedirect rfl hcore h
    · exact found_of_checkRedirect rfl hcore h
    · exact found_of_checkRedirect rfl hcore h

end ArgumentVector

/-! ### The checks of the stages -/

theorem exists_of_forM_eq_error {ε α : Type} {f : α → Except ε Unit} {l : List α} {e : ε}
    (h : l.forM f = .error e) : ∃ a ∈ l, f a = .error e := by
  induction l with
  | nil => cases h
  | cons a l ih =>
    rw [List.forM_eq_forM, List.forM_cons, bind_eq_error_iff] at h
    rcases h with h | ⟨_, _, h⟩
    · exact ⟨a, List.mem_cons_self, h⟩
    · obtain ⟨a', ha', h⟩ := ih h
      exact ⟨a', List.mem_cons_of_mem a ha', h⟩

/-- A stage without operators is turned down for being empty, or for the arguments of `cd`. -/
theorem checkStage_eq_error {stage : List Word} {e : SyntaxError}
    (hops : ∀ op, Word.operator op ∉ stage) (h : checkStage stage = .error e) :
    (e = .emptyCommand ∧ stage = []) ∨
      (e = .cdArity ∧ stage.head?.bind Word.unquoted = some "cd" ∧ stage.length ≠ 2) := by
  cases stage with
  | nil =>
    cases h
    exact .inl ⟨rfl, rfl⟩
  | cons first rest =>
    simp only [checkStage, findSome?_operator?_eq_none_iff.2 hops] at h
    split at h
    case isTrue hcd =>
      cases h
      exact .inr ⟨rfl, hcd⟩
    case isFalse => cases h

namespace CommandLine

theorem found_of_ofWordsChecked {words : List Word} {e : SyntaxError}
    (h : ofWordsChecked words = .error e) : e.Found words := by
  rw [ofWordsChecked, bind_eq_error_iff] at h
  rcases h with h | ⟨_, hline, h⟩
  · exact ArgumentVector.found_of_checkLine h
  · obtain ⟨p, hp, rfl⟩ := exists_arranged hline
    rw [bind_eq_error_iff] at h
    rcases h with h | ⟨_, _, h⟩
    · obtain ⟨stage, hs, h⟩ := exists_of_forM_eq_error h
      rw [stages_ofWords_words hp] at hs
      rcases checkStage_eq_error (operator_not_mem_stage hp hs) h with ⟨rfl, rfl⟩ | ⟨rfl, hcd, hlen⟩
      · exact .emptyCommand hline hp rfl hs
      · exact .cdArity hline hp rfl hs hcd hlen
    · cases h

theorem parse_eq_syntactic_iff {line : String} {ops : OperatorSet} {e : SyntaxError} :
    parse line ops = .error (.syntactic e) ↔
      ∃ words, tokenize line ops = .ok words ∧ ofWordsChecked words = .error e := by
  rw [parse]
  cases tokenize line ops with
  | error e' => simp
  | ok words => cases h : ofWordsChecked words <;> simp [h, Except.mapError]

/-- **Parsing names defects that are there.**  A line that is turned down once it is cut has the
defect of the error among its words.  A misplaced `&` is always reported as such, and no operator
is ever unexpected. -/
theorem parse_error_found (line : String) (ops : OperatorSet) :
    (∀ e, parse line ops = .error (.syntactic e) →
        ∃ words, tokenize line ops = .ok words ∧ e.Found words) ∧
      (parse line ops = .error (.syntactic .backgroundPosition) ↔
        ∃ words, tokenize line ops = .ok words ∧ MisplacedBackground words) ∧
      ∀ op, parse line ops ≠ .error (.syntactic (.unexpectedOperator op)) := by
  refine ⟨fun e h => ?_, ⟨fun h => ?_, ?_⟩, fun op h => ?_⟩
  · obtain ⟨words, hw, h⟩ := parse_eq_syntactic_iff.1 h
    exact ⟨words, hw, found_of_ofWordsChecked h⟩
  · obtain ⟨words, hw, h⟩ := parse_eq_syntactic_iff.1 h
    cases found_of_ofWordsChecked h with
    | backgroundPosition hmis => exact ⟨words, hw, hmis⟩
  · rintro ⟨words, hw, hmis⟩
    -- no check comes before this one
    refine parse_eq_syntactic_iff.2 ⟨words, hw, bind_eq_error_iff.2 (.inl ?_)⟩
    exact bind_eq_error_iff.2
      (.inl (ArgumentVector.checkBackground_eq_error_iff.2 ⟨rfl, hmis⟩))
  · obtain ⟨words, -, h⟩ := parse_eq_syntactic_iff.1 h
    cases found_of_ofWordsChecked h

/-- Behind `> b` comes `<`, which may stand there, so the error is about `<` and not about `>`. -/
theorem parse_error_found_unfinished :
    parse "a > b < c d &" (.ofList [.output, .input, .background])
        = .error (.syntactic (.redirectPosition .input)) ∧
      ∃ words, tokenize "a > b < c d &" (.ofList [.output, .input, .background]) = .ok words ∧
        (SyntaxError.redirectPosition .input).Found words := by
  have h : parse "a > b < c d &" (.ofList [.output, .input, .background])
      = .error (.syntactic (.redirectPosition .input)) := by decide +kernel
  exact ⟨h, (parse_error_found _ _).1 _ h⟩

end CommandLine

end PipelineShell
