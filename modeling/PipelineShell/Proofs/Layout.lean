/-
Lines laid out as words and gaps, and that cutting a line finds the one layout.

A `Layout` puts a gap before every word and one behind the last.  It is `Valid`
for a set of operators if the gaps are blanks outside quotes, two literals in a
row are kept apart, and every word fits its place (`Word.Fits`): a literal has
all its quotes closed and holds, outside them, neither a blank nor the start of
an operator of the set; an operator is a longest one that the line continues
with.

* `tokens_text_of_valid` — the words of a valid layout are found in its text;
* `exists_valid_of_tokens` — the words that are found have a valid layout;
* `tokenize_iff_layout` — both together: there are no words exactly if the
  quotes of the line are not closed, and otherwise the words are those of the
  valid layouts of the line, which agree on them.
-/
import Mathlib.Algebra.Ring.Parity
import PipelineShell.Proofs.Quotes

namespace PipelineShell

open Text

namespace Word

/-- The word may stand where the line goes on with `rest` behind it. -/
def Fits (ops : OperatorSet) (rest : List Char) : Word → Prop
  | .literal raw =>
    raw.toList ≠ [] ∧ Balanced raw.toList ∧
      ∀ before c after, raw.toList = before ++ c :: after → Balanced before →
        isBlank c = false ∧ ∀ op ∈ ops, ¬op.spelling <+: c :: after ++ rest
  | .operator op =>
    op ∈ ops ∧ ∀ o ∈ ops, o.spelling <+: op.spelling ++ rest → o.length ≤ op.length

theorem fits_literal_iff {ops : OperatorSet} {rest : List Char} {raw : String} :
    Fits ops rest (.literal raw) ↔ raw.toList ≠ [] ∧ IsLiteralAt ops false raw.toList rest := by
  simp only [Fits, IsLiteralAt, outside_false, List.cons_append, endsLiteral_eq_false_iff]

theorem fits_operator_iff {ops : OperatorSet} {rest : List Char} {op : Operator} :
    Fits ops rest (.operator op) ↔ ops.matchAt (op.spelling ++ rest) = some op := by
  rw [Fits, OperatorSet.matchAt_eq_some_iff]
  exact and_congr_right fun _ => (and_iff_right (List.prefix_append _ _)).symm

theorem text_operator_toList (op : Operator) : (Word.operator op).text.toList = op.spelling :=
  String.toList_ofList

theorem Fits.balanced {ops : OperatorSet} {rest : List Char} {w : Word} (h : w.Fits ops rest) :
    Balanced w.text.toList := by
  cases w with
  | literal raw => exact h.2.1
  | operator op => exact text_operator_toList op ▸ balanced_spelling op

end Word

/-- Every word with the gap before it, and the gap behind the last one. -/
structure Layout where
  pieces : List (List Char × Word)
  trail : List Char

namespace Layout

/-- Pieces written one behind the other. -/
def written (pieces : List (List Char × Word)) : List Char :=
  pieces.flatMap fun p => p.1 ++ p.2.text.toList

def text (l : Layout) : List Char := written l.pieces ++ l.trail

def words (l : Layout) : List Word := l.pieces.map (·.2)

def gaps (l : Layout) : List (List Char) := l.pieces.map (·.1) ++ [l.trail]

theorem trail_mem_gaps (l : Layout) : l.trail ∈ l.gaps :=
  List.mem_append_right _ (List.mem_singleton_self l.trail)

structure Valid (ops : OperatorSet) (l : Layout) : Prop where
  blank : ∀ gap ∈ l.gaps, ∀ c ∈ gap, isBlank c = true
  /-- Gaps and words begin outside quotes. -/
  outside : ∀ before after, l.pieces = before ++ after → Balanced (written before)
  /-- Two literals do not touch. -/
  separated : ∀ before gap raw gap' raw' after,
    l.pieces = before ++ (gap, .literal raw) :: (gap', .literal raw') :: after → gap' ≠ []
  fits : ∀ before piece after, l.pieces = before ++ piece :: after →
    piece.2.Fits ops (written after ++ l.trail)

/-- A literal that begins right here, without a gap. -/
def StartsWithLiteral : List (List Char × Word) → Prop
  | ([], .literal _) :: _ => True
  | _ => False

variable {ops : OperatorSet} {gap trail : List Char} {w : Word} {pieces : List (List Char × Word)}

theorem valid_nil_iff : Valid ops ⟨[], trail⟩ ↔ ∀ c ∈ trail, isBlank c = true := by
  constructor
  · exact fun h => h.blank trail (trail_mem_gaps _)
  · intro h
    refine ⟨by simpa [gaps] using h, ?_, ?_, ?_⟩
    · intro before after e
      obtain ⟨rfl, -⟩ := List.append_eq_nil_iff.1 e.symm
      exact balanced_nil
    · intro before _ _ _ _ _ e
      exact absurd e.symm (by simp)
    · intro before _ _ e
      exact absurd e.symm (by simp)

theorem valid_cons_iff :
    Valid ops ⟨(gap, w) :: pieces, trail⟩ ↔
      (∀ c ∈ gap, isBlank c = true) ∧ w.Fits ops (written pieces ++ trail) ∧
        ((∃ raw, w = .literal raw) → ¬StartsWithLiteral pieces) ∧ Valid ops ⟨pieces, trail⟩ := by
  have hwritten : ∀ before, written ((gap, w) :: before)
      = (gap ++ w.text.toList) ++ written before := fun before => by simp [written]
  constructor
  · intro h
    have hgap := h.blank gap List.mem_cons_self
    have hfits := h.fits [] (gap, w) pieces rfl
    have hb : Balanced (gap ++ w.text.toList) :=
      (balanced_append_iff (balanced_of_blank hgap)).2 hfits.balanced
    refine ⟨hgap, hfits, ?_, ?_, ?_, ?_, ?_⟩
    · rintro ⟨raw, rfl⟩ hstart
      match pieces, hstart with
      | ([], .literal raw') :: after, _ => exact h.separated [] gap raw [] raw' after rfl rfl
    · exact fun g hg => h.blank g (List.mem_cons_of_mem _ hg)
    · rintro before after e
      have := h.outside ((gap, w) :: before) after (congrArg (List.cons (gap, w)) e)
      rwa [hwritten, balanced_append_iff hb] at this
    · intro before g raw g' raw' after e
      exact h.separated ((gap, w) :: before) g raw g' raw' after (congrArg (List.cons (gap, w)) e)
    · intro before piece after e
      exact h.fits ((gap, w) :: before) piece after (congrArg (List.cons (gap, w)) e)
  · rintro ⟨hgap, hfits, hsep, h⟩
    have hb : Balanced (gap ++ w.text.toList) :=
      (balanced_append_iff (balanced_of_blank hgap)).2 hfits.balanced
    refine ⟨?_, ?_, ?_, ?_⟩
    · intro g hg
      rcases List.mem_cons.1 hg with rfl | hg
      · exact hgap
      · exact h.blank g hg
    · intro before after e
      cases before with
      | nil => exact balanced_nil
      | cons piece before =>
        obtain rfl := (List.cons.inj e).1
        rw [hwritten, balanced_append_iff hb]
        exact h.outside before after (List.cons.inj e).2
    · intro before g raw g' raw' after e
      cases before with
      | nil =>
        obtain ⟨hpiece, rfl⟩ := List.cons.inj e
        rintro rfl
        exact hsep ⟨raw, congrArg Prod.snd hpiece⟩ trivial
      | cons piece before =>
        exact h.separated before g raw g' raw' after (List.cons.inj e).2
    · intro before piece after e
      cases before with
      | nil =>
        obtain ⟨rfl, rfl⟩ := List.cons.inj e
        exact hfits
      | cons piece' before =>
        exact h.fits before piece after (List.cons.inj e).2

/-! ### A valid layout is found -/

theorem endsLiteral_of_isBlank {c : Char} {cs : List Char} (h : isBlank c = true) :
    Word.endsLiteral ops (c :: cs) = true := by
  rw [Word.endsLiteral, h, Bool.true_or]

/-- A literal could end where the pieces begin, unless they begin with a literal. -/
theorem Valid.endsLiteral_text (h : Valid ops ⟨pieces, trail⟩) (hs : ¬StartsWithLiteral pieces) :
    Word.endsLiteral ops (written pieces ++ trail) = true := by
  match pieces, h, hs with
  | [], h, _ =>
    cases trail with
    | nil => rfl
    | cons c trail => exact endsLiteral_of_isBlank (valid_nil_iff.1 h c List.mem_cons_self)
  | (c :: gap, w) :: pieces, h, _ =>
    exact endsLiteral_of_isBlank ((valid_cons_iff.1 h).1 c List.mem_cons_self)
  | ([], .literal raw) :: pieces, _, hs => exact absurd trivial hs
  | ([], .operator op) :: pieces, h, _ =>
    have hm := Word.fits_operator_iff.1 (valid_cons_iff.1 h).2.1
    have e : written (([], .operator op) :: pieces) ++ trail
        = op.spelling ++ (written pieces ++ trail) := by
      simp [written, Word.text_operator_toList]
    rw [e]
    obtain ⟨c, cs, hc⟩ := List.exists_cons_of_ne_nil (List.ne_nil_of_length_pos op.length_pos)
    rw [hc, List.cons_append] at hm ⊢
    rw [Word.endsLiteral, hm, Option.isSome_some, Bool.or_true]

theorem trimStart_append {gap rest : List Char} (h : ∀ c ∈ gap, isBlank c = true) :
    trimStart (gap ++ rest) = trimStart rest := List.dropWhile_append_of_pos h

theorem tokens_of_trimStart_eq_nil {text : List Char} (h : trimStart text = []) :
    Word.tokens ops text = .ok [] := by
  rw [Word.tokens]
  split
  · rfl
  · next h' => rw [h] at h'; cases h'

theorem tokens_of_operator {text cs : List Char} {c : Char} {op : Operator}
    (h : trimStart text = c :: cs) (hm : ops.matchAt (c :: cs) = some op) :
    Word.tokens ops text = (.operator op :: ·) <$> Word.tokens ops ((c :: cs).drop op.length) := by
  rw [Word.tokens]
  split
  · next h' => rw [h] at h'; cases h'
  · next c' cs' h' =>
    obtain ⟨rfl, rfl⟩ := List.cons.inj (h.symm.trans h')
    split
    · next op' hm' =>
      obtain rfl := Option.some.inj (hm.symm.trans hm')
      rfl
    · next hm' => rw [hm] at hm'; cases hm'

theorem tokens_of_literal {text cs : List Char} {c : Char} {s : Word.LiteralSpan}
    (h : trimStart text = c :: cs) (hm : ops.matchAt (c :: cs) = none)
    (hs : Word.literalSpan ops false (c :: cs) = s) (hclosed : s.unclosed = false) :
    Word.tokens ops text
      = (.literal (String.ofList s.raw) :: ·) <$> Word.tokens ops s.rest := by
  rw [Word.tokens]
  split
  · next h' => rw [h] at h'; cases h'
  · next c' cs' h' =>
    obtain ⟨rfl, rfl⟩ := List.cons.inj (h.symm.trans h')
    split
    · next op' hm' => rw [hm] at hm'; cases hm'
    · subst hs
      simp only [hclosed, Bool.false_eq_true, if_false]

/-- One word is taken off the front. -/
theorem tokens_append {rest : List Char} (hgap : ∀ c ∈ gap, isBlank c = true)
    (hw : w.Fits ops rest)
    (hrest : (∃ raw, w = .literal raw) → Word.endsLiteral ops rest = true) :
    Word.tokens ops (gap ++ (w.text.toList ++ rest)) = (w :: ·) <$> Word.tokens ops rest := by
  cases w with
  | operator op =>
    have hm := Word.fits_operator_iff.1 hw
    rw [Word.text_operator_toList]
    obtain ⟨c, cs, hc⟩ := List.exists_cons_of_ne_nil (List.ne_nil_of_length_pos op.length_pos)
    have hblank : isBlank c = false := by
      cases op <;> (obtain ⟨rfl, -⟩ := List.cons.inj hc; decide)
    have htrim : trimStart (gap ++ (op.spelling ++ rest)) = c :: (cs ++ rest) := by
      rw [trimStart_append hgap, hc, List.cons_append, trimStart, List.dropWhile_cons,
        if_neg (by simp [hblank])]
    rw [tokens_of_operator htrim (by rwa [hc] at hm), ← List.cons_append, ← hc, Operator.length,
      List.drop_left]
  | literal raw =>
    obtain ⟨hne, hlit⟩ := Word.fits_literal_iff.1 hw
    have hspan := Word.literalSpan_append_of_isLiteralAt (hrest ⟨raw, rfl⟩) hlit
    show Word.tokens ops (gap ++ (raw.toList ++ rest)) = _
    obtain ⟨c, cs, hc⟩ := List.exists_cons_of_ne_nil hne
    rw [hc] at hlit hspan ⊢
    obtain ⟨hblank, hmatch⟩ :=
      Word.endsLiteral_eq_false_iff.1 ((Word.isLiteralAt_cons.1 hlit).1 rfl)
    have htrim : trimStart (gap ++ (c :: cs ++ rest)) = c :: (cs ++ rest) := by
      rw [trimStart_append hgap, List.cons_append, trimStart, List.dropWhile_cons,
        if_neg (by simp [hblank])]
    rw [tokens_of_literal htrim (OperatorSet.matchAt_eq_none_iff.2 hmatch) hspan rfl, ← hc,
      String.ofList_toList]

/-- **A valid layout is found**: its text is cut into its words. -/
theorem tokens_text_of_valid : ∀ {pieces : List (List Char × Word)},
    Valid ops ⟨pieces, trail⟩ →
      Word.tokens ops (written pieces ++ trail) = .ok (pieces.map (·.2))
  | [], h => by
    exact tokens_of_trimStart_eq_nil (trimStart_of_blank (valid_nil_iff.1 h))
  | (gap, w) :: pieces, h => by
    obtain ⟨hgap, hfits, hsep, hrest⟩ := valid_cons_iff.1 h
    have e : written ((gap, w) :: pieces) ++ trail
        = gap ++ (w.text.toList ++ (written pieces ++ trail)) := by simp [written]
    rw [e, tokens_append hgap hfits fun hlit => hrest.endsLiteral_text (hsep hlit),
      tokens_text_of_valid hrest]
    rfl

/-! ### What is found has a valid layout -/

/-- Where a literal could end, no literal begins. -/
theorem Valid.not_startsWithLiteral (h : Valid ops ⟨pieces, trail⟩)
    (hends : Word.endsLiteral ops (written pieces ++ trail) = true) :
    ¬StartsWithLiteral pieces := by
  intro hs
  match pieces, h, hs with
  | ([], .literal raw) :: pieces, h, _ =>
    obtain ⟨hne, hlit⟩ := Word.fits_literal_iff.1 (valid_cons_iff.1 h).2.1
    obtain ⟨c, cs, hc⟩ := List.exists_cons_of_ne_nil hne
    have e : written (([], .literal raw) :: pieces) ++ trail
        = raw.toList ++ (written pieces ++ trail) := by simp [written, Word.text]
    rw [e, hc] at hends
    rw [hc] at hlit
    rw [(Word.isLiteralAt_cons.1 hlit).1 rfl] at hends
    cases hends

theorem Valid.balanced_text {l : Layout} (h : l.Valid ops) : Balanced l.text :=
  (balanced_append_iff (h.outside l.pieces [] (List.append_nil _).symm)).2
    (balanced_of_blank (h.blank l.trail l.trail_mem_gaps))

theorem eq_gap_append_of_trimStart {text rest : List Char} (h : trimStart text = rest) :
    ∃ gap, (∀ c ∈ gap, isBlank c = true) ∧ text = gap ++ rest :=
  ⟨text.takeWhile isBlank, fun _ hc => List.all_eq_true.1 List.all_takeWhile _ hc,
    h ▸ (takeWhile_append_trimStart text).symm⟩

/-- A word in front of a valid layout. -/
theorem exists_valid_cons {text rest : List Char} {words : List Word}
    (hgap : ∀ c ∈ gap, isBlank c = true) (hw : w.Fits ops rest)
    (hrest : (∃ raw, w = .literal raw) → Word.endsLiteral ops rest = true)
    (htext : text = gap ++ (w.text.toList ++ rest))
    (hl : ∃ l : Layout, l.Valid ops ∧ l.text = rest ∧ l.words = words) :
    ∃ l : Layout, l.Valid ops ∧ l.text = text ∧ l.words = w :: words := by
  obtain ⟨⟨pieces, trail⟩, hvalid, hpieces, rfl⟩ := hl
  subst hpieces
  exact ⟨⟨(gap, w) :: pieces, trail⟩, valid_cons_iff.2
    ⟨hgap, hw, fun hlit => hvalid.not_startsWithLiteral (hrest hlit), hvalid⟩,
    by simp [htext, Layout.text, written], rfl⟩

theorem exists_valid_of_tokens {text : List Char} {words : List Word}
    (h : Word.tokens ops text = .ok words) :
    ∃ l : Layout, l.Valid ops ∧ l.text = text ∧ l.words = words := by
  fun_induction Word.tokens ops text generalizing words with
  | case1 text htrim =>
    obtain ⟨gap, hgap, rfl⟩ := eq_gap_append_of_trimStart htrim
    cases h
    exact ⟨⟨[], gap⟩, valid_nil_iff.2 hgap, by simp [Layout.text, written], rfl⟩
  | case2 text c cs htrim op hm ih =>
    obtain ⟨gap, hgap, rfl⟩ := eq_gap_append_of_trimStart htrim
    obtain ⟨words', hwords, rfl⟩ := map_eq_ok_iff.1 h
    obtain ⟨rest, hrest⟩ := OperatorSet.isPrefix_of_matchAt hm
    have hdrop : (c :: cs).drop op.length = rest := by
      rw [← hrest, Operator.length, List.drop_left]
    rw [hdrop] at ih hwords
    rw [← hrest] at hm
    exact exists_valid_cons hgap (Word.fits_operator_iff.2 hm) (fun ⟨_, e⟩ => by cases e)
      (by rw [Word.text_operator_toList, hrest]) (ih hwords)
  | case3 => cases h
  | case4 text c cs htrim hm s hclosed =>
    rename_i ih
    have hblank := Word.isBlank_head_trimStart htrim
    obtain ⟨gap, hgap, rfl⟩ := eq_gap_append_of_trimStart htrim
    obtain ⟨words', hwords, rfl⟩ := map_eq_ok_iff.1 h
    obtain ⟨hlit, hrest⟩ := Word.isLiteralAt_literalSpan (Bool.eq_false_iff.2 hclosed)
    have happend := Word.literalSpan_append ops false (c :: cs)
    have hne : s.raw ≠ [] := by
      intro hnil
      rw [show (Word.literalSpan ops false (c :: cs)).raw = [] from hnil, List.nil_append]
        at happend
      rw [happend, Word.endsLiteral, hm, hblank] at hrest
      cases hrest
    refine exists_valid_cons (w := .literal (String.ofList s.raw)) hgap
      (Word.fits_literal_iff.2 ?_) (fun _ => hrest) ?_ (ih hwords)
    · rw [String.toList_ofList]
      exact ⟨hne, hlit⟩
    · show _ = gap ++ ((String.ofList s.raw).toList ++ s.rest)
      rw [String.toList_ofList, happend]

/-- Without words, a quote is left open. -/
theorem not_balanced_of_tokens_error {text : List Char} {e : LexError}
    (h : Word.tokens ops text = .error e) : ¬Balanced text := by
  fun_induction Word.tokens ops text with
  | case1 => cases h
  | case2 text c cs htrim op hm ih =>
    obtain ⟨gap, hgap, rfl⟩ := eq_gap_append_of_trimStart htrim
    obtain ⟨rest, hrest⟩ := OperatorSet.isPrefix_of_matchAt hm
    have hdrop : (c :: cs).drop op.length = rest := by
      rw [← hrest, Operator.length, List.drop_left]
    rw [hdrop] at ih h
    rw [balanced_append_iff (balanced_of_blank hgap), ← hrest,
      balanced_append_iff (balanced_spelling op)]
    exact ih (map_eq_error_iff.1 h)
  | case3 text c cs htrim hm s hunclosed =>
    obtain ⟨gap, hgap, rfl⟩ := eq_gap_append_of_trimStart htrim
    rw [balanced_append_iff (balanced_of_blank hgap), ← outside_false]
    exact Word.not_outside_of_unclosed hunclosed
  | case4 text c cs htrim hm s hclosed =>
    rename_i ih
    obtain ⟨gap, hgap, rfl⟩ := eq_gap_append_of_trimStart htrim
    have hlit := (Word.isLiteralAt_literalSpan (Bool.eq_false_iff.2 hclosed)).1
    have happend := Word.literalSpan_append ops false (c :: cs)
    rw [balanced_append_iff (balanced_of_blank hgap), ← happend,
      balanced_append_iff (outside_false.1 hlit.1)]
    exact ih (map_eq_error_iff.1 h)

end Layout

/-- **Cutting a line finds its one layout.**  There are no words exactly if the number of quotes is
odd; and words are found exactly if they are those of a valid layout of the line. -/
theorem tokenize_iff_layout (line : String) (ops : OperatorSet) :
    (tokenize line ops = .error .unbalancedQuotes ↔ Odd (line.toList.count '"')) ∧
      (¬Odd (line.toList.count '"') → ∃ words, tokenize line ops = .ok words) ∧
      ∀ words, tokenize line ops = .ok words ↔
        ∃ l : Layout, l.Valid ops ∧ l.text = line.toList ∧ l.words = words := by
  have hok : ∀ words, tokenize line ops = .ok words ↔
      ∃ l : Layout, l.Valid ops ∧ l.text = line.toList ∧ l.words = words := by
    intro words
    constructor
    · exact Layout.exists_valid_of_tokens
    · rintro ⟨l, hvalid, htext, rfl⟩
      rw [tokenize, ← htext]
      exact Layout.tokens_text_of_valid hvalid
  have herror : tokenize line ops = .error .unbalancedQuotes ↔ Odd (line.toList.count '"') := by
    rw [← Nat.not_even_iff_odd]
    constructor
    · exact Layout.not_balanced_of_tokens_error
    · intro hodd
      cases h : tokenize line ops with
      | error e => rfl
      | ok words =>
        obtain ⟨l, hvalid, htext, -⟩ := (hok words).1 h
        exact absurd (htext ▸ hvalid.balanced_text) hodd
  refine ⟨herror, fun h => ?_, hok⟩
  cases hw : tokenize line ops with
  | error e => exact absurd (herror.1 hw) h
  | ok words => exact ⟨words, rfl⟩

end PipelineShell
