/-
Blanks first, operators afterwards.

A line that is cut at blanks only has literals for words.  Cutting each of these
again, now at the operators of a set, gives the words that the set finds in the
whole line.  So operators refine the cut at blanks and do nothing else.

* `Word.exists_tokens_iff_balanced` — whether a text can be cut is a matter of
  its quotes, whatever the operators are;
* `Word.tokens_append_of_isApart` — what stands before a blank is cut as if
  nothing came behind it;
* `tokenize_refines_blanks` — cutting a line is cutting the pieces between its
  blanks; where no operator stands outside quotes, there is nothing to refine.

Design notes: no operator holds a blank, so none reaches from one piece into the
next, and a piece has all its quotes closed, so cutting it begins outside quotes
as it does in the line.
-/
import PipelineShell.Proofs.Rereading

namespace PipelineShell

open Text

namespace Word

variable {ops : OperatorSet} {w : Word} {text rest more : List Char} {words : List Word}

/-- Quotes alone decide whether a text can be cut. -/
theorem exists_tokens_iff_balanced : (∃ words, tokens ops text = .ok words) ↔ Balanced text := by
  constructor
  · rintro ⟨words, h⟩
    obtain ⟨l, hvalid, rfl, -⟩ := Layout.exists_valid_of_tokens h
    exact hvalid.balanced_text
  · intro hbalanced
    cases h : tokens ops text with
    | error e => exact absurd hbalanced (Layout.not_balanced_of_tokens_error h)
    | ok words => exact ⟨words, rfl⟩

/-! ### What comes behind a blank does not matter -/

theorem Fits.append (h : w.Fits ops rest) (hmore : IsApart more) : w.Fits ops (rest ++ more) := by
  cases w with
  | literal raw =>
    obtain ⟨hne, hbalanced, hin⟩ := h
    refine ⟨hne, hbalanced, fun before c after e hb => ⟨(hin before c after e hb).1, ?_⟩⟩
    intro op hop hp
    rw [← List.append_assoc] at hp
    exact (hin before c after e hb).2 op hop (Operator.prefix_of_isApart hmore hp)
  | operator op =>
    refine ⟨h.1, fun o ho hp => h.2 o ho ?_⟩
    rw [← List.append_assoc] at hp
    exact Operator.prefix_of_isApart hmore hp

theorem endsLiteral_append (h : endsLiteral ops text = true) (hrest : IsApart rest) :
    endsLiteral ops (text ++ rest) = true := by
  cases text with
  | nil => exact endsLiteral_of_isApart hrest
  | cons c cs =>
    by_contra hends
    obtain ⟨hblank, hnone⟩ := endsLiteral_eq_false_iff.1 (Bool.eq_false_iff.2 hends)
    have hnot : endsLiteral ops (c :: cs) = false := endsLiteral_eq_false_iff.2
      ⟨hblank, fun op hop hp => hnone op hop (hp.trans (List.prefix_append (c :: cs) rest))⟩
    rw [hnot] at h
    cases h

/-- The words of a valid layout are found also if something follows it behind a blank. -/
theorem tokens_written_append {trail : List Char} (hrest : IsApart rest) :
    ∀ {pieces : List (List Char × Word)}, Layout.Valid ops ⟨pieces, trail⟩ →
      tokens ops (Layout.written pieces ++ trail ++ rest)
        = (pieces.map (·.2) ++ ·) <$> tokens ops rest
  | [], h => by
    have htrim : trimStart (trail ++ rest) = trimStart rest :=
      Layout.trimStart_append (Layout.valid_nil_iff.1 h)
    exact (tokens_congr htrim).trans (id_map (tokens ops rest)).symm
  | (gap, w) :: pieces, h => by
    obtain ⟨hgap, hfits, hsep, hpieces⟩ := Layout.valid_cons_iff.1 h
    have hsplit : Layout.written ((gap, w) :: pieces) ++ trail ++ rest
        = gap ++ (w.text.toList ++ (Layout.written pieces ++ trail ++ rest)) := by
      simp [Layout.written]
    rw [hsplit, Layout.tokens_append hgap (hfits.append hrest) fun hlit =>
      endsLiteral_append (hpieces.endsLiteral_text (hsep hlit)) hrest,
      tokens_written_append hrest hpieces, Functor.map_map]
    rfl

/-- What stands before a blank, or at the end, is cut by itself. -/
theorem tokens_append_of_isApart (h : tokens ops text = .ok words) (hrest : IsApart rest) :
    tokens ops (text ++ rest) = (words ++ ·) <$> tokens ops rest := by
  obtain ⟨⟨pieces, trail⟩, hvalid, rfl, rfl⟩ := Layout.exists_valid_of_tokens h
  exact tokens_written_append hrest hvalid

/-! ### Cutting at blanks only -/

theorem not_mem_empty (op : Operator) : op ∉ OperatorSet.empty := List.not_mem_nil

/-- Where blanks alone end a literal there is one. -/
theorem isApart_of_endsLiteral_empty (h : endsLiteral .empty rest = true) : IsApart rest := by
  rintro c cs rfl
  by_contra hblank
  have hnot : endsLiteral .empty (c :: cs) = false := endsLiteral_eq_false_iff.2
    ⟨Bool.eq_false_iff.2 hblank, fun op hop => absurd hop (not_mem_empty op)⟩
  rw [hnot] at h
  cases h

/-- The pieces between the blanks of a text, each with its words. -/
theorem exists_parts (ops : OperatorSet) (h : tokens .empty text = .ok words) :
    ∃ (raws : List String) (parts : List (List Word)), words = raws.map .literal ∧
      List.Forall₂ (fun raw part => tokenize raw ops = .ok part) raws parts ∧
      tokens ops text = .ok parts.flatten := by
  fun_induction tokens .empty text generalizing words with
  | case1 text htrim =>
    cases h
    exact ⟨[], [], rfl, .nil, Layout.tokens_of_trimStart_eq_nil htrim⟩
  | case2 text c cs htrim op hm ih =>
    exact absurd (OperatorSet.mem_of_matchAt hm) (not_mem_empty op)
  | case3 => cases h
  | case4 text c cs htrim hm s hclosed =>
    rename_i ih
    obtain ⟨words, hwords, rfl⟩ := map_eq_ok_iff.1 h
    obtain ⟨raws, parts, rfl, hparts, htokens⟩ := ih hwords
    -- The first piece is balanced, and a blank or nothing comes behind it.
    obtain ⟨hlit, hends⟩ := isLiteralAt_literalSpan (Bool.eq_false_iff.2 hclosed)
    obtain ⟨part, hpart⟩ : ∃ part, tokens ops s.raw = .ok part :=
      exists_tokens_iff_balanced.2 (outside_false.1 hlit.1)
    have hwhole : tokens ops text = tokens ops (s.raw ++ s.rest) := by
      refine tokens_congr ?_
      rw [literalSpan_append, htrim, trimStart, List.dropWhile_cons_of_neg]
      exact Bool.eq_false_iff.1 (isBlank_head_trimStart htrim)
    refine ⟨String.ofList s.raw :: raws, part :: parts, rfl, .cons ?_ hparts, ?_⟩
    · rw [tokenize, String.toList_ofList]
      exact hpart
    · rw [hwhole, tokens_append_of_isApart hpart (isApart_of_endsLiteral_empty hends), htokens]
      rfl

end Word

/-! ### Lines without operators -/

/-- No operator of the set begins outside the quotes of the text. -/
def Unreserved (ops : OperatorSet) (text : List Char) : Prop :=
  ∀ before after, text = before ++ after → Balanced before → ∀ op ∈ ops, ¬op.spelling <+: after

/-- Where no operator stands outside quotes, a layout at blanks is good for the set too. -/
theorem Layout.Valid.of_unreserved {ops : OperatorSet} {l : Layout} (h : l.Valid .empty)
    (hline : Unreserved ops l.text) : l.Valid ops where
  blank := h.blank
  outside := h.outside
  separated := h.separated
  fits before piece after hpieces := by
    obtain ⟨gap, w⟩ := piece
    have hfits := h.fits before (gap, w) after hpieces
    cases w with
    | operator op => exact absurd hfits.1 (Word.not_mem_empty op)
    | literal raw =>
      obtain ⟨hne, hbalanced, hin⟩ := hfits
      refine ⟨hne, hbalanced, fun b c a hraw hb => ⟨(hin b c a hraw hb).1, ?_⟩⟩
      -- The place in the literal is a place of the line, and outside quotes there as well.
      have hmem : (gap, Word.literal raw) ∈ l.pieces := by
        rw [hpieces]
        exact List.mem_append_right before List.mem_cons_self
      have hgap : Balanced gap :=
        balanced_of_blank (h.blank gap (List.mem_append_left _ (List.mem_map_of_mem hmem)))
      refine hline (written before ++ gap ++ b) _ ?_ ?_
      · simp [Layout.text, hpieces, written, Word.text, hraw]
      · rw [List.append_assoc, balanced_append_iff (h.outside before _ hpieces),
          balanced_append_iff hgap]
        exact hb

theorem tokenize_of_unreserved {line : String} {ops : OperatorSet}
    (h : Unreserved ops line.toList) : tokenize line ops = tokenize line .empty := by
  cases hempty : tokenize line .empty with
  | ok words =>
    obtain ⟨l, hvalid, htext, rfl⟩ := Layout.exists_valid_of_tokens hempty
    rw [tokenize, ← htext]
    exact Layout.tokens_text_of_valid (hvalid.of_unreserved (htext ▸ h))
  | error e =>
    have hunbalanced := Layout.not_balanced_of_tokens_error hempty
    cases hops : tokenize line ops with
    | ok words => exact absurd (Word.exists_tokens_iff_balanced.1 ⟨words, hops⟩) hunbalanced
    | error e' => rfl

/-- **Operators only refine the cut at blanks.**  A line can be cut at the operators of a set
exactly if it can be cut at blanks.  The words are then those of the pieces between the blanks, one
piece after the other, and every piece can be cut.  If no operator of two sets stands outside
quotes, both find the same words. -/
theorem tokenize_refines_blanks (line : String) (ops : OperatorSet) :
    ((∃ e, tokenize line ops = .error e) ↔ ∃ e, tokenize line .empty = .error e) ∧
      (∀ words, tokenize line .empty = .ok words →
        ∃ (raws : List String) (parts : List (List Word)), words = raws.map .literal ∧
          List.Forall₂ (fun raw part => tokenize raw ops = .ok part) raws parts ∧
          tokenize line ops = .ok parts.flatten) ∧
      ∀ ops', Unreserved ops line.toList → Unreserved ops' line.toList →
        tokenize line ops = tokenize line ops' := by
  have herror : ∀ ops, (∃ e, tokenize line ops = .error e) ↔ ¬Balanced line.toList := by
    intro ops
    have hcut : (∃ words, tokenize line ops = .ok words) ↔ Balanced line.toList :=
      Word.exists_tokens_iff_balanced
    rw [← hcut]
    cases tokenize line ops with
    | error e => exact iff_of_true ⟨e, rfl⟩ fun ⟨words, h⟩ => by cases h
    | ok words => exact iff_of_false nofun (not_not_intro ⟨words, rfl⟩)
  refine ⟨(herror ops).trans (herror .empty).symm, fun words h => Word.exists_parts ops h, ?_⟩
  intro ops' h h'
  exact (tokenize_of_unreserved h).trans (tokenize_of_unreserved h').symm

/-- The blanks leave two pieces; only the operators outside quotes cut them further. -/
theorem tokenize_refines_blanks_glued :
    tokenize "a|\"b |c\">>d  >e" .empty = .ok [.literal "a|\"b |c\">>d", .literal ">e"] ∧
      ∃ (raws : List String) (parts : List (List Word)),
        [.literal "a|\"b |c\">>d", .literal ">e"] = raws.map Word.literal ∧
          List.Forall₂ (fun raw part => tokenize raw (.ofList [.pipe, .append]) = .ok part)
            raws parts ∧
          tokenize "a|\"b |c\">>d  >e" (.ofList [.pipe, .append]) = .ok parts.flatten := by
  have h : tokenize "a|\"b |c\">>d  >e" .empty
      = .ok [.literal "a|\"b |c\">>d", .literal ">e"] := by decide +kernel
  exact ⟨h, (tokenize_refines_blanks _ (.ofList [.pipe, .append])).2.1 _ h⟩

end PipelineShell
