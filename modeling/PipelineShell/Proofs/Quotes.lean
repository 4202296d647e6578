/-
Inside and outside quotes.

A place in a text is outside quotes if an even number of quote characters
stands before it; a text with an even number of them is balanced.
`IsLiteralAt` says when a piece of text is one whole literal, given what
follows it, and `literalSpan` takes exactly this piece:

* `isLiteralAt_literalSpan`, `literalSpan_append_of_isLiteralAt` — the span is
  a literal, and a literal is the span;
* `not_outside_of_unclosed` — there is no span only if the rest of the text
  ends inside quotes.
-/
import Mathlib.Algebra.Group.Nat.Even
import PipelineShell.Word.Tokens

namespace PipelineShell

namespace Operator

variable {op : Operator} {c : Char}

theorem isBlank_of_mem_spelling (h : c ∈ op.spelling) : Text.isBlank c = false := by
  have hall : op.spelling.all (!Text.isBlank ·) = true := by cases op <;> decide
  simpa using List.all_eq_true.1 hall c h

theorem utf8Size_of_mem_spelling (h : c ∈ op.spelling) : c.utf8Size = 1 := by
  have hall : op.spelling.all (·.utf8Size == 1) = true := by cases op <;> decide
  exact eq_of_beq (List.all_eq_true.1 hall c h)

end Operator

namespace Text

/-- The number of quote characters is even. -/
def Balanced (cs : List Char) : Prop := Even (cs.count '"')

instance (cs : List Char) : Decidable (Balanced cs) :=
  inferInstanceAs (Decidable (Even (cs.count '"')))

theorem balanced_nil : Balanced [] := ⟨0, rfl⟩

theorem balanced_cons_quote {cs : List Char} : Balanced ('"' :: cs) ↔ ¬Balanced cs := by
  rw [Balanced, List.count_cons_self, Nat.even_add_one, Balanced]

theorem balanced_cons {c : Char} {cs : List Char} (h : c ≠ '"') :
    Balanced (c :: cs) ↔ Balanced cs := by
  rw [Balanced, List.count_cons_of_ne h, Balanced]

theorem balanced_append_iff {cs ds : List Char} (h : Balanced cs) :
    Balanced (cs ++ ds) ↔ Balanced ds := by
  have h' : Even (cs.count '"') := h
  rw [Balanced, List.count_append, Nat.even_add, iff_true_left h', Balanced]

theorem balanced_append_iff_left {cs ds : List Char} (h : Balanced ds) :
    Balanced (cs ++ ds) ↔ Balanced cs := by
  have h' : Even (ds.count '"') := h
  rw [Balanced, List.count_append, Nat.even_add, iff_true_right h', Balanced]

theorem balanced_of_not_mem {cs : List Char} (h : '"' ∉ cs) : Balanced cs := by
  rw [Balanced, List.count_eq_zero.2 h]
  exact ⟨0, rfl⟩

theorem ne_quote_of_isBlank {c : Char} (h : isBlank c = true) : c ≠ '"' := by
  rintro rfl
  exact absurd h (by decide)

theorem balanced_of_blank {cs : List Char} (h : ∀ c ∈ cs, isBlank c = true) : Balanced cs :=
  balanced_of_not_mem fun hm => ne_quote_of_isBlank (h _ hm) rfl

theorem balanced_spelling (op : Operator) : Balanced op.spelling := by
  cases op <;> decide

/-- A place behind `before` is outside quotes; `inQuotes` tells whether `before` began inside. -/
def Outside (inQuotes : Bool) (before : List Char) : Prop := Balanced before ↔ inQuotes = false

theorem outside_false {cs : List Char} : Outside false cs ↔ Balanced cs := by
  simp [Outside]

theorem outside_nil {q : Bool} : Outside q [] ↔ q = false := by
  simp [Outside, balanced_nil]

theorem outside_cons {q : Bool} {c : Char} {cs : List Char} :
    Outside q (c :: cs) ↔ Outside (q != (c == '"')) cs := by
  by_cases hc : c = '"'
  · subst hc
    rw [Outside, balanced_cons_quote, Outside]
    cases q <;> simp
  · rw [Outside, balanced_cons hc, Outside]
    cases q <;> simp [hc]

end Text

namespace OperatorSet

theorem matchAt_eq_none_iff {s : OperatorSet} {text : List Char} :
    s.matchAt text = none ↔ ∀ op ∈ s, ¬op.spelling <+: text := by
  rw [matchAt, List.find?_eq_none]
  simp only [List.isPrefixOf_iff_prefix]
  rfl

theorem spelling_injective {op o : Operator} (h : op.spelling = o.spelling) : op = o := by
  have := congrArg Operator.ofSpelling? h
  rwa [Operator.ofSpelling?_spelling, Operator.ofSpelling?_spelling, Option.some_inj] at this

/-- The operator that is found is the longest one of the set. -/
theorem matchAt_eq_some_iff {s : OperatorSet} {text : List Char} {op : Operator} :
    s.matchAt text = some op ↔
      op ∈ s ∧ op.spelling <+: text ∧ ∀ o ∈ s, o.spelling <+: text → o.length ≤ op.length := by
  constructor
  · intro h
    exact ⟨mem_of_matchAt h, isPrefix_of_matchAt h, fun o ho hp => longest_matchAt h ho hp⟩
  · rintro ⟨hop, hp, hlong⟩
    cases hm : s.matchAt text with
    | none => exact absurd hp (matchAt_eq_none_iff.1 hm op hop)
    | some o =>
      have hle := longest_matchAt hm hop hp
      have hge := hlong o (mem_of_matchAt hm) (isPrefix_of_matchAt hm)
      have he : o.spelling = op.spelling :=
        (List.prefix_of_prefix_length_le (isPrefix_of_matchAt hm) hp hge).eq_of_length
          (Nat.le_antisymm hge hle)
      rw [spelling_injective he]

end OperatorSet

theorem map_eq_ok_iff {ε α β : Type} {f : α → β} {x : Except ε α} {b : β} :
    f <$> x = .ok b ↔ ∃ a, x = .ok a ∧ f a = b := by
  cases x with
  | error e => simp [Functor.map, Except.map]
  | ok a => simp [Functor.map, Except.map]

theorem map_eq_error_iff {ε α β : Type} {f : α → β} {x : Except ε α} {e : ε} :
    f <$> x = .error e ↔ x = .error e := by
  cases x with
  | error e' => simp [Functor.map, Except.map]
  | ok a => simp [Functor.map, Except.map]

namespace Word

open Text

theorem endsLiteral_eq_false_iff {ops : OperatorSet} {c : Char} {cs : List Char} :
    endsLiteral ops (c :: cs) = false ↔
      isBlank c = false ∧ ∀ op ∈ ops, ¬op.spelling <+: c :: cs := by
  rw [endsLiteral, Bool.or_eq_false_iff, Option.isSome_eq_false_iff, Option.isNone_iff_eq_none,
    OperatorSet.matchAt_eq_none_iff]

/-- Taken from a place that is inside quotes or not, `raw` ends outside quotes, and no literal ends
within it, when the text goes on with `rest`. -/
def IsLiteralAt (ops : OperatorSet) (inQuotes : Bool) (raw rest : List Char) : Prop :=
  Outside inQuotes raw ∧
    ∀ before c after, raw = before ++ c :: after → Outside inQuotes before →
      endsLiteral ops (c :: after ++ rest) = false

theorem isLiteralAt_nil {ops : OperatorSet} {q : Bool} {rest : List Char} :
    IsLiteralAt ops q [] rest ↔ q = false := by
  simp [IsLiteralAt, outside_nil]

theorem isLiteralAt_cons {ops : OperatorSet} {q : Bool} {c : Char} {raw rest : List Char} :
    IsLiteralAt ops q (c :: raw) rest ↔
      (q = false → endsLiteral ops (c :: raw ++ rest) = false) ∧
        IsLiteralAt ops (q != (c == '"')) raw rest := by
  rw [IsLiteralAt, IsLiteralAt, outside_cons]
  constructor
  · rintro ⟨hout, hin⟩
    refine ⟨fun hq => hin [] c raw rfl (outside_nil.2 hq), hout, ?_⟩
    rintro before d after rfl hb
    exact hin (c :: before) d after rfl (outside_cons.2 hb)
  · rintro ⟨hhead, hout, hin⟩
    refine ⟨hout, ?_⟩
    intro before d after e hb
    cases before with
    | nil =>
      obtain ⟨rfl, rfl⟩ := List.cons.inj e
      exact hhead (outside_nil.1 hb)
    | cons b before =>
      obtain ⟨rfl, rfl⟩ := List.cons.inj e
      exact hin before d after rfl (outside_cons.1 hb)

/-- The span is a literal, and one could end behind it. -/
theorem isLiteralAt_literalSpan {ops : OperatorSet} {q : Bool} {cs : List Char}
    (h : (literalSpan ops q cs).unclosed = false) :
    IsLiteralAt ops q (literalSpan ops q cs).raw (literalSpan ops q cs).rest ∧
      endsLiteral ops (literalSpan ops q cs).rest = true := by
  induction cs generalizing q with
  | nil => exact ⟨isLiteralAt_nil.2 h, rfl⟩
  | cons c cs ih =>
    rw [literalSpan] at h ⊢
    split at h
    case isTrue hends =>
      rw [if_pos hends, isLiteralAt_nil]
      rw [Bool.and_eq_true, Bool.not_eq_true'] at hends
      exact hends
    case isFalse hends =>
      obtain ⟨hlit, hrest⟩ := ih h
      rw [if_neg hends, isLiteralAt_cons]
      refine ⟨⟨fun hq => ?_, hlit⟩, hrest⟩
      rw [List.cons_append, literalSpan_append]
      simpa [hq] using hends

/-- A literal, where one could end behind it, is the span. -/
theorem literalSpan_append_of_isLiteralAt {ops : OperatorSet} {raw rest : List Char}
    (hrest : endsLiteral ops rest = true) : ∀ {q : Bool}, IsLiteralAt ops q raw rest →
      literalSpan ops q (raw ++ rest) = ⟨raw, rest, false⟩ := by
  induction raw with
  | nil =>
    intro q h
    obtain rfl := isLiteralAt_nil.1 h
    cases rest with
    | nil => rfl
    | cons d rest => simp [literalSpan, hrest]
  | cons c raw ih =>
    intro q h
    obtain ⟨hhead, htail⟩ := isLiteralAt_cons.1 h
    have hends : ¬(!q && endsLiteral ops (c :: (raw ++ rest))) = true := by
      rw [Bool.and_eq_true, Bool.not_eq_true']
      rintro ⟨hq, he⟩
      exact absurd he (Bool.eq_false_iff.1 (hhead hq))
    rw [List.cons_append, literalSpan, if_neg hends, ih htail]

/-- A span that is not closed reaches to the end, and ends inside quotes. -/
theorem not_outside_of_unclosed {ops : OperatorSet} {cs : List Char} : ∀ {q : Bool},
    (literalSpan ops q cs).unclosed = true → ¬Outside q cs := by
  induction cs with
  | nil =>
    intro q h
    obtain rfl : q = true := h
    simp [outside_nil]
  | cons c cs ih =>
    intro q h
    rw [literalSpan] at h
    split at h
    case isTrue => cases h
    case isFalse => exact fun hout => ih h (outside_cons.1 hout)

end Word

end PipelineShell
