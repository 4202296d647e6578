/-
Configured operators: a list of spellings stands for a set.

Operators are configured as a list of texts.  In which order they are listed,
and how often, decides how the set is kept, and so with what it compares equal;
but a line is cut, and read, in the same way by any two sets with the same
members.

* `mapM_parse_eq_ok_iff`, `mapM_parse_eq_error_iff` — a list is read exactly if
  it is a list of spellings, and otherwise its first other text is the error;
* `Layout.Valid.congr` — whether a layout is valid depends on the members of a
  set alone;
* `tokenize_congr`, `CommandLine.parse_congr` — and so does what a line is;
* `configuration_is_set` — all of it, for lists of texts.

Design notes: two sets are never compared while a line is cut.  The words of a
line are those of its valid layouts, and these speak of members only, so the
order in which a set tries its operators does not come up.
-/
import Mathlib.Data.Set.List
import PipelineShell.CommandLine
import PipelineShell.Proofs.Layout
import PipelineShell.Proofs.Placement

namespace PipelineShell

/-! ### Reading a list of spellings -/

namespace Operator

variable {raw : String} {op : Operator} {e : UnknownOperator}

theorem text_injective : Function.Injective Operator.text := by
  intro op o h
  have hlist := congrArg String.toList h
  rw [Operator.text, Operator.text, String.toList_ofList, String.toList_ofList] at hlist
  exact OperatorSet.spelling_injective hlist

theorem parse_text (op : Operator) : parse op.text = .ok op := by
  rw [parse, Operator.text, String.toList_ofList, ofSpelling?_spelling]

theorem parse_eq_ok_iff : parse raw = .ok op ↔ raw = op.text := by
  constructor
  · intro h
    rw [parse] at h
    split at h
    · next o ho =>
      cases h
      rw [Operator.text, ← eq_spelling_of_ofSpelling? ho, String.ofList_toList]
    · cases h
  · rintro rfl
    exact parse_text op

theorem parse_eq_error_iff :
    parse raw = .error e ↔ raw = e.text ∧ ∀ op : Operator, raw ≠ op.text := by
  constructor
  · intro h
    refine ⟨?_, ?_⟩
    · rw [parse] at h
      split at h
      · cases h
      · cases h
        rfl
    · rintro op rfl
      cases (parse_text op).symm.trans h
  · rintro ⟨rfl, hno⟩
    cases h : parse e.text with
    | ok op => exact absurd (parse_eq_ok_iff.1 h) (hno op)
    | error e' =>
      rw [parse] at h
      split at h
      · cases h
      · exact h.symm

/-- What the spellings are. -/
theorem exists_eq_text_iff :
    (∃ op : Operator, raw = op.text) ↔ raw ∈ ["&", "|", "<", ">", ">>"] := by
  constructor
  · rintro ⟨op, rfl⟩
    cases op <;> decide
  · intro h
    simp only [List.mem_cons, List.not_mem_nil, or_false] at h
    rcases h with rfl | rfl | rfl | rfl | rfl
    · exact ⟨.background, rfl⟩
    · exact ⟨.pipe, rfl⟩
    · exact ⟨.input, rfl⟩
    · exact ⟨.output, rfl⟩
    · exact ⟨.append, rfl⟩

theorem mapM_parse_eq_ok_iff : ∀ {texts : List String} {ops : List Operator},
    texts.mapM parse = .ok ops ↔ texts = ops.map Operator.text
  | [], ops => by
    rw [List.mapM_nil]
    constructor
    · rintro ⟨⟩
      rfl
    · intro h
      rw [List.map_eq_nil_iff.1 h.symm]
      rfl
  | raw :: texts, ops => by
    rw [List.mapM_cons, bind_eq_ok_iff]
    constructor
    · rintro ⟨op, hop, h⟩
      obtain ⟨rest, hrest, h⟩ := bind_eq_ok_iff.1 h
      cases h
      rw [List.map_cons, parse_eq_ok_iff.1 hop, mapM_parse_eq_ok_iff.1 hrest]
    · intro h
      cases ops with
      | nil => cases h
      | cons op rest =>
        obtain ⟨hop, hrest⟩ := List.cons.inj h
        refine ⟨op, parse_eq_ok_iff.2 hop, bind_eq_ok_iff.2 ?_⟩
        exact ⟨rest, mapM_parse_eq_ok_iff.2 hrest, rfl⟩

/-- The error is about the first text that is no spelling. -/
theorem mapM_parse_eq_error_iff : ∀ {texts : List String},
    texts.mapM parse = .error e ↔ ∃ (before : List Operator) (after : List String),
      texts = before.map Operator.text ++ e.text :: after ∧ ∀ op : Operator, e.text ≠ op.text
  | [] => by
    rw [List.mapM_nil]
    constructor
    · rintro ⟨⟩
    · rintro ⟨before, after, h, -⟩
      exact absurd h.symm (by simp)
  | raw :: texts => by
    rw [List.mapM_cons, bind_eq_error_iff]
    constructor
    · rintro (h | ⟨op, hop, h⟩)
      · obtain ⟨rfl, hno⟩ := parse_eq_error_iff.1 h
        exact ⟨[], texts, rfl, hno⟩
      · rcases bind_eq_error_iff.1 h with h | ⟨rest, -, h⟩
        · obtain ⟨before, after, rfl, hno⟩ := mapM_parse_eq_error_iff.1 h
          exact ⟨op :: before, after, by rw [parse_eq_ok_iff.1 hop]; rfl, hno⟩
        · cases h
    · rintro ⟨before, after, h, hno⟩
      cases before with
      | nil =>
        obtain ⟨rfl, -⟩ := List.cons.inj h
        exact .inl (parse_eq_error_iff.2 ⟨rfl, hno⟩)
      | cons op before =>
        obtain ⟨hop, hrest⟩ := List.cons.inj h
        refine .inr ⟨op, parse_eq_ok_iff.2 hop, bind_eq_error_iff.2 (.inl ?_)⟩
        exact mapM_parse_eq_error_iff.2 ⟨before, after, hrest, hno⟩

end Operator

namespace OperatorSet

variable {texts : List String} {s : OperatorSet} {e : UnknownOperator} {op : Operator}

theorem ofSpellings_eq_ok_iff :
    ofSpellings texts = .ok s ↔ ∃ ops : List Operator, texts = ops.map Operator.text ∧
      ofList ops = s := by
  simp only [ofSpellings, map_eq_ok_iff, Operator.mapM_parse_eq_ok_iff]

theorem ofSpellings_eq_error_iff :
    ofSpellings texts = .error e ↔ ∃ (before : List Operator) (after : List String),
      texts = before.map Operator.text ++ e.text :: after ∧
        ∀ op : Operator, e.text ≠ op.text := by
  rw [ofSpellings, map_eq_error_iff, Operator.mapM_parse_eq_error_iff]

/-- The members are the operators that are listed. -/
theorem mem_of_ofSpellings (h : ofSpellings texts = .ok s) : op ∈ s ↔ op.text ∈ texts := by
  obtain ⟨ops, rfl, rfl⟩ := ofSpellings_eq_ok_iff.1 h
  rw [mem_ofList, List.mem_map_of_injective Operator.text_injective]

/-- Without an error, all texts are spellings. -/
theorem exists_ofSpellings_eq_error_iff :
    (∃ e, ofSpellings texts = .error e) ↔ ∃ raw ∈ texts, ∀ op : Operator, raw ≠ op.text := by
  constructor
  · rintro ⟨e, h⟩
    obtain ⟨before, after, rfl, hno⟩ := ofSpellings_eq_error_iff.1 h
    exact ⟨e.text, List.mem_append_right _ List.mem_cons_self, hno⟩
  · rintro ⟨raw, hmem, hno⟩
    cases h : ofSpellings texts with
    | error e => exact ⟨e, rfl⟩
    | ok s =>
      obtain ⟨ops, rfl, -⟩ := ofSpellings_eq_ok_iff.1 h
      obtain ⟨op, -, rfl⟩ := List.mem_map.1 hmem
      exact absurd rfl (hno op)

end OperatorSet

/-! ### Only the members count -/

section members

variable {ops ops' : OperatorSet} (h : ∀ op, op ∈ ops ↔ op ∈ ops')
include h

theorem Word.fits_congr {w : Word} {rest : List Char} : w.Fits ops rest ↔ w.Fits ops' rest := by
  cases w with
  | literal raw => simp only [Word.Fits, h]
  | operator op => simp only [Word.Fits, h]

theorem Layout.Valid.congr {l : Layout} (hl : l.Valid ops) : l.Valid ops' where
  blank := hl.blank
  outside := hl.outside
  separated := hl.separated
  fits before piece after hpieces := (Word.fits_congr h).1 (hl.fits before piece after hpieces)

/-- Words that one set finds in a line, the other one finds too. -/
theorem tokenize_eq_ok_of_members {line : String} {words : List Word}
    (hw : tokenize line ops = .ok words) : tokenize line ops' = .ok words := by
  obtain ⟨l, hl, htext, rfl⟩ := Layout.exists_valid_of_tokens hw
  rw [tokenize, ← htext]
  exact Layout.tokens_text_of_valid (hl.congr h)

theorem tokenize_congr (line : String) : tokenize line ops = tokenize line ops' := by
  cases hw : tokenize line ops with
  | ok words => exact (tokenize_eq_ok_of_members h hw).symm
  | error e =>
    cases hw' : tokenize line ops' with
    | ok words =>
      have hok := tokenize_eq_ok_of_members (fun op => (h op).symm) hw'
      cases hw.symm.trans hok
    | error e' =>
      -- There is only one thing that can be wrong with a line.
      cases e
      cases e'
      rfl

theorem CommandLine.parse_congr (line : String) :
    CommandLine.parse line ops = CommandLine.parse line ops' := by
  rw [CommandLine.parse, CommandLine.parse, tokenize_congr h]

end members

/-- **A configuration is a set.**  A list of texts is refused exactly if one of them is no spelling
of an operator, and then it is the first such text that is named; otherwise the set has the
operators that are listed and no others.  Any two lists with the same operators, in whatever order
and however often, make sets by which every line is cut and read in the same way, although the sets
may differ. -/
theorem configuration_is_set (texts : List String) :
    ((∃ e, OperatorSet.ofSpellings texts = .error e) ↔
      ∃ raw ∈ texts, raw ∉ ["&", "|", "<", ">", ">>"]) ∧
    (∀ e, OperatorSet.ofSpellings texts = .error e ↔ ∃ before after,
      texts = before ++ e.text :: after ∧ (∀ raw ∈ before, raw ∈ ["&", "|", "<", ">", ">>"]) ∧
        e.text ∉ ["&", "|", "<", ">", ">>"]) ∧
    (∀ s, OperatorSet.ofSpellings texts = .ok s → ∀ op, op ∈ s ↔ op.text ∈ texts) ∧
    (∀ texts' s s', OperatorSet.ofSpellings texts = .ok s →
      OperatorSet.ofSpellings texts' = .ok s' →
      (∀ op : Operator, op.text ∈ texts ↔ op.text ∈ texts') →
      ∀ line, tokenize line s = tokenize line s' ∧
        CommandLine.parse line s = CommandLine.parse line s') ∧
    ∃ listed listed' s s', OperatorSet.ofSpellings listed = .ok s ∧
      OperatorSet.ofSpellings listed' = .ok s' ∧
      (∀ op : Operator, op.text ∈ listed ↔ op.text ∈ listed') ∧ s ≠ s' := by
  have hknown : ∀ raw : String, raw ∉ ["&", "|", "<", ">", ">>"] ↔
      ∀ op : Operator, raw ≠ op.text := fun raw => by
    rw [← Operator.exists_eq_text_iff, not_exists]
  refine ⟨?_, fun e => ?_, fun s hs op => OperatorSet.mem_of_ofSpellings hs, ?_, ?_⟩
  · simp only [hknown]
    exact OperatorSet.exists_ofSpellings_eq_error_iff
  · rw [OperatorSet.ofSpellings_eq_error_iff, hknown]
    constructor
    · rintro ⟨before, after, htexts, hno⟩
      refine ⟨before.map Operator.text, after, htexts, fun raw hraw => ?_, hno⟩
      obtain ⟨op, -, rfl⟩ := List.mem_map.1 hraw
      exact Operator.exists_eq_text_iff.1 ⟨op, rfl⟩
    · rintro ⟨before, after, htexts, hbefore, hno⟩
      -- Texts that are all spellings are the spellings of some operators.
      obtain ⟨ops, rfl⟩ : before ∈ Set.range (List.map Operator.text) := by
        rw [Set.range_list_map]
        intro raw hraw
        obtain ⟨op, hop⟩ := Operator.exists_eq_text_iff.2 (hbefore raw hraw)
        exact ⟨op, hop.symm⟩
      exact ⟨ops, after, htexts, hno⟩
  · intro texts' s s' hs hs' hsame line
    have hmembers : ∀ op, op ∈ s ↔ op ∈ s' := fun op =>
      (OperatorSet.mem_of_ofSpellings hs).trans
        ((hsame op).trans (OperatorSet.mem_of_ofSpellings hs').symm)
    exact ⟨tokenize_congr hmembers line, CommandLine.parse_congr hmembers line⟩
  · refine ⟨["<", ">"], [">", "<"], _, _, rfl, rfl, fun op => ?_, by decide⟩
    cases op <;> decide

theorem configuration_is_set_reordered : ∃ s s',
    OperatorSet.ofSpellings [">", "|", ">>", "|"] = .ok s ∧
      OperatorSet.ofSpellings ["|", ">>", ">", ">"] = .ok s' ∧ s ≠ s' ∧
      (∀ line, tokenize line s = tokenize line s') ∧
      OperatorSet.ofSpellings ["|", "&&", ">", "||"] = .error ⟨"&&"⟩ := by
  have hs : OperatorSet.ofSpellings [">", "|", ">>", "|"] = .ok _ := rfl
  have hs' : OperatorSet.ofSpellings ["|", ">>", ">", ">"] = .ok _ := rfl
  obtain ⟨-, -, -, hsame, -⟩ := configuration_is_set [">", "|", ">>", "|"]
  obtain ⟨-, hfirst, -⟩ := configuration_is_set ["|", "&&", ">", "||"]
  refine ⟨_, _, hs, hs', by decide, fun line => (hsame _ _ _ hs hs' ?_ line).1, ?_⟩
  · intro op
    cases op <;> decide
  · exact (hfirst ⟨"&&"⟩).2 ⟨["|"], [">", "||"], rfl, by decide, by decide⟩

end PipelineShell
