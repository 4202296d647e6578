/-
A line read character by character, with byte offsets.

`tokenize` takes whole words off a list of characters.  A `Scanner` reads one
character at a time and keeps the word that it is in the middle of; where an
operator may begin it cuts the line at the offset that it has reached, and it
cannot do so in the middle of a character.  Behind an operator it passes over as
many characters as the spelling has further bytes.

* `slice?_eq_some_iff` — a line can be cut at an offset exactly if its
  characters up to there fill it;
* `Scanner.exists_step?` — a scanner that stands at a character finds what it
  looks for, and the next one stands at a character too;
* `Scanner.step?_of_matchAt` — behind an operator it stands as many bytes later
  as the operator has;
* `scan?_eq` — so a scanner gets through every line, and finds the words of
  `tokenize`.

Design notes: what cannot be done is `none`.  What a scanner has still to find
is `Scanner.outcome`; a step does not change it, and that is the whole proof.
-/
import Mathlib.Logic.Relation
import PipelineShell.Proofs.Layout

namespace PipelineShell

open Text

/-! ### Cutting at an offset -/

/-- What comes behind this many bytes; nothing if a character would be cut in two. -/
def slice? (line : String) (offset : Nat) : Option String :=
  if h : String.Pos.Raw.IsValid line ⟨offset⟩ then
    some (line.sliceFrom (line.pos ⟨offset⟩ h)).copy
  else none

theorem slice?_append (before rest : String) :
    slice? (before ++ rest) before.utf8ByteSize = some rest := by
  have hvalid : String.Pos.Raw.IsValid (before ++ rest) ⟨before.utf8ByteSize⟩ :=
    String.Pos.Raw.isValid_iff_exists_append.2 ⟨before, rest, rfl, rfl⟩
  have hsplits : ((before ++ rest).pos ⟨before.utf8ByteSize⟩ hvalid).Splits before rest :=
    ⟨rfl, rfl⟩
  rw [slice?, dif_pos hvalid]
  exact congrArg some ((String.Pos.splits _).eq_right hsplits)

theorem slice?_eq_some_iff {line rest : String} {offset : Nat} : slice? line offset = some rest ↔
    ∃ before, line = before ++ rest ∧ offset = before.utf8ByteSize := by
  constructor
  · intro h
    rw [slice?] at h
    split at h
    · next hvalid =>
      cases h
      have hsplits := (line.pos ⟨offset⟩ hvalid).splits
      exact ⟨_, hsplits.eq_append, congrArg String.Pos.Raw.byteIdx hsplits.offset_eq_rawEndPos⟩
    · cases h
  · rintro ⟨before, rfl, rfl⟩
    exact slice?_append before rest

example : slice? "é|a" 2 = some "|a" := by decide +kernel

example : slice? "é|a" 1 = none := by decide +kernel

/-! ### The scanner -/

/-- A line that has been read in part. -/
structure Scanner where
  /-- How many bytes have been read. -/
  offset : Nat := 0
  rest : List Char
  /-- A quote is open. -/
  quoted : Bool := false
  /-- The literal that is being read. -/
  current : List Char := []
  /-- The words that have been read. -/
  words : List Word := []

namespace Scanner

/-- Passes over a character, if there is one. -/
def next (s : Scanner) : Scanner :=
  match s.rest with
  | [] => s
  | c :: rest => { s with offset := s.offset + c.utf8Size, rest }

/-- Passes over some characters. -/
def skip : Nat → Scanner → Scanner
  | 0, s => s
  | count + 1, s => skip count s.next

/-- The literal that is being read, if there is one, ends here. -/
def flush (s : Scanner) : Scanner :=
  let last := if s.current.isEmpty then [] else [Word.literal (String.ofList s.current)]
  { s with current := [], words := s.words ++ last }

/-- The character belongs to a literal. -/
def take (s : Scanner) (c : Char) : Scanner :=
  { s with quoted := s.quoted != (c == '"'), current := s.current ++ [c] }

def push (s : Scanner) (op : Operator) : Scanner := { s with words := s.words ++ [.operator op] }

/-- Reads what begins at this text, whose first character is `c`. -/
def read (ops : OperatorSet) (s : Scanner) (c : Char) (text : List Char) : Scanner :=
  match ops.matchAt text with
  | some op => (s.next.flush.push op).skip (op.text.utf8ByteSize - 1)
  | none => s.next.take c

/-- Reads a character, and the rest of an operator that begins with it. -/
def step? (line : String) (ops : OperatorSet) (s : Scanner) : Option Scanner :=
  match s.rest with
  | [] => some s
  | c :: _ =>
    if s.quoted then some (s.next.take c)
    else if isBlank c then some s.next.flush
    else (slice? line s.offset).map fun text => s.read ops c text.toList

/-- The words, at the end of a line. -/
def finish (s : Scanner) : Except LexError (List Word) :=
  if s.quoted then .error .unbalancedQuotes else .ok s.flush.words

/-- The scanner stands at a character of the line, or at its end. -/
def StandsAt (line : String) (s : Scanner) : Prop :=
  slice? line s.offset = some (String.ofList s.rest)

variable {line : String} {ops : OperatorSet} {s : Scanner} {c : Char} {rest : List Char}

theorem next_of_rest (h : s.rest = c :: rest) :
    s.next = { s with offset := s.offset + c.utf8Size, rest } := by
  rw [next, h]

theorem length_skip_le (count : Nat) : (s.skip count).rest.length ≤ s.rest.length := by
  induction count generalizing s with
  | zero => exact Nat.le_refl _
  | succ count ih =>
    refine Nat.le_trans ih ?_
    rw [next]
    split
    · exact Nat.le_refl _
    · next h => rw [h]; exact Nat.le_succ _

/-- Less is left of the line after every step. -/
theorem length_step?_lt {s' : Scanner} (hrest : s.rest = c :: rest)
    (hs : s.step? line ops = some s') : s'.rest.length < s.rest.length := by
  have hnext : s.next.rest.length < s.rest.length := by
    rw [next_of_rest hrest, hrest]
    exact Nat.lt_succ_self _
  rw [step?, hrest] at hs
  dsimp only at hs
  split at hs
  · cases hs
    exact hnext
  split at hs
  · cases hs
    exact hnext
  · obtain ⟨text, -, rfl⟩ := Option.map_eq_some_iff.1 hs
    rw [read]
    split
    · exact Nat.lt_of_le_of_lt (length_skip_le _) hnext
    · exact hnext

/-- Reads to the end of the line. -/
def scan? (line : String) (ops : OperatorSet) (s : Scanner) :
    Option (Except LexError (List Word)) :=
  match _hrest : s.rest with
  | [] => some s.finish
  | _ :: _ =>
    match _hs : s.step? line ops with
    | none => none
    | some s' => scan? line ops s'
termination_by s.rest.length
decreasing_by exact length_step?_lt _hrest _hs

theorem StandsAt.next (h : s.StandsAt line) : s.next.StandsAt line := by
  cases hrest : s.rest with
  | nil =>
    rw [Scanner.next, hrest]
    exact h
  | cons c rest =>
    obtain ⟨before, hline, hoffset⟩ := slice?_eq_some_iff.1 h
    rw [next_of_rest hrest]
    refine slice?_eq_some_iff.2 ⟨before ++ String.singleton c, ?_, ?_⟩
    · rw [hline, hrest, String.append_assoc, String.singleton_eq_ofList, ← String.ofList_append]
      rfl
    · rw [String.utf8ByteSize_append, String.utf8ByteSize_singleton, ← hoffset]

theorem StandsAt.skip (h : s.StandsAt line) (count : Nat) : (s.skip count).StandsAt line := by
  induction count generalizing s with
  | zero => exact h
  | succ count ih => exact ih h.next

/-- Reading goes on from a character to a character. -/
theorem StandsAt.step? {s' : Scanner} (h : s.StandsAt line) (hs : s.step? line ops = some s') :
    s'.StandsAt line := by
  have hnext : s.next.StandsAt line := h.next
  rw [Scanner.step?] at hs
  split at hs
  · cases hs
    exact h
  split at hs
  · cases hs
    exact hnext
  split at hs
  · cases hs
    exact hnext
  · obtain ⟨text, -, rfl⟩ := Option.map_eq_some_iff.1 hs
    rw [read]
    split
    · next op _ =>
      have hpush : (s.next.flush.push op).StandsAt line := hnext
      exact hpush.skip _
    · exact hnext

/-- Where an operator may begin, the line is cut at the place that has been reached. -/
theorem StandsAt.step?_eq (h : s.StandsAt line) (hrest : s.rest = c :: rest)
    (hq : s.quoted = false) (hblank : isBlank c = false) :
    s.step? line ops = some (s.read ops c s.rest) := by
  have hslice : slice? line s.offset = some (String.ofList s.rest) := h
  rw [Scanner.step?, hrest]
  refine (if_neg (by simp [hq])).trans ((if_neg (by simp [hblank])).trans ?_)
  rw [hslice, Option.map_some, String.toList_ofList, hrest]

/-- Passing over characters of one byte each. -/
theorem skip_append {cs : List Char} (hcs : ∀ c ∈ cs, c.utf8Size = 1) (h : s.rest = cs ++ rest) :
    s.skip cs.length = { s with offset := s.offset + cs.length, rest } := by
  induction cs generalizing s with
  | nil =>
    rw [List.nil_append] at h
    rw [← h]
    rfl
  | cons c cs ih =>
    obtain ⟨hc, hcs⟩ := List.forall_mem_cons.1 hcs
    have hnext := next_of_rest h
    rw [List.length_cons, skip, hnext, ih hcs rfl, hc, Nat.add_assoc, Nat.add_comm 1]

end Scanner

/-! ### What is still to be found -/

namespace Word

variable {ops : OperatorSet} {c : Char} {cs current : List Char} {q : Bool}

/-- The words of a text that begins in the middle of a literal. -/
def continued (ops : OperatorSet) (current : List Char) (inQuotes : Bool) (text : List Char) :
    Except LexError (List Word) :=
  let s := literalSpan ops inQuotes text
  if s.unclosed then .error .unbalancedQuotes
  else (.literal (String.ofList (current ++ s.raw)) :: ·) <$> tokens ops s.rest

theorem continued_cons (h : (!q && endsLiteral ops (c :: cs)) = false) :
    continued ops current q (c :: cs) = continued ops (current ++ [c]) (q != (c == '"')) cs := by
  rw [continued, continued, literalSpan, if_neg (Bool.eq_false_iff.1 h), List.append_assoc]
  rfl

theorem continued_of_endsLiteral {text : List Char} (h : endsLiteral ops text = true) :
    continued ops current false text =
      (.literal (String.ofList current) :: ·) <$> tokens ops text := by
  have hspan : literalSpan ops false text = ⟨[], text, false⟩ := by
    cases text with
    | nil => rfl
    | cons c cs => rw [literalSpan, h]; rfl
  rw [continued, hspan, List.append_nil]
  rfl

theorem tokens_of_trimStart_eq_cons {text : List Char} (h : trimStart text = c :: cs) :
    tokens ops text =
      match ops.matchAt (c :: cs) with
      | some op => (.operator op :: ·) <$> tokens ops ((c :: cs).drop op.length)
      | none => continued ops [] false (c :: cs) := by
  cases hm : ops.matchAt (c :: cs) with
  | some op => exact Layout.tokens_of_operator h hm
  | none =>
    rw [tokens]
    split
    · next h' => cases h.symm.trans h'
    · next c' cs' h' =>
      obtain ⟨rfl, rfl⟩ := List.cons.inj (h.symm.trans h')
      split
      · next op hm' => cases hm.symm.trans hm'
      · rfl

theorem tokens_cons_of_isBlank (h : isBlank c = true) : tokens ops (c :: cs) = tokens ops cs := by
  have htrim : trimStart (c :: cs) = trimStart cs := List.dropWhile_cons_of_pos h
  cases hcs : trimStart cs with
  | nil =>
    rw [Layout.tokens_of_trimStart_eq_nil hcs,
      Layout.tokens_of_trimStart_eq_nil (htrim.trans hcs)]
  | cons d ds =>
    rw [tokens_of_trimStart_eq_cons hcs, tokens_of_trimStart_eq_cons (htrim.trans hcs)]

theorem trimStart_cons (h : isBlank c = false) : trimStart (c :: cs) = c :: cs :=
  List.dropWhile_cons_of_neg (Bool.eq_false_iff.1 h)

theorem tokens_cons_of_endsLiteral (h : endsLiteral ops (c :: cs) = false) :
    tokens ops (c :: cs) = continued ops [c] (c == '"') cs := by
  obtain ⟨hblank, hmatch⟩ := Bool.or_eq_false_iff.1 h
  rw [tokens_of_trimStart_eq_cons (trimStart_cons hblank),
    Option.isNone_iff_eq_none.1 (Option.isSome_eq_false_iff.1 hmatch)]
  show continued ops [] false (c :: cs) = _
  rw [continued_cons (by rw [h]; rfl), Bool.false_bne]
  rfl

end Word

namespace Scanner

variable {line : String} {ops : OperatorSet} {s : Scanner} {c : Char} {rest : List Char}

/-- The words that a scanner comes to if it reads on. -/
def outcome (ops : OperatorSet) (s : Scanner) : Except LexError (List Word) :=
  (s.words ++ ·) <$>
    (if s.current = [] ∧ s.quoted = false then Word.tokens ops s.rest
      else Word.continued ops s.current s.quoted s.rest)

theorem outcome_start (line : String) :
    outcome ops { rest := line.toList } = tokenize line ops := by
  rw [outcome, if_pos ⟨rfl, rfl⟩, tokenize]
  cases Word.tokens ops line.toList <;> rfl

/-- A literal may end where it ends anyway. -/
theorem outcome_flush (hq : s.quoted = false) (h : Word.endsLiteral ops s.rest = true) :
    s.outcome ops = (s.flush.words ++ ·) <$> Word.tokens ops s.rest := by
  rw [outcome, flush]
  cases hc : s.current with
  | nil => rw [if_pos ⟨rfl, hq⟩]; simp
  | cons c current =>
    rw [if_neg (by simp), hq, Word.continued_of_endsLiteral h]
    cases Word.tokens ops s.rest <;> simp

theorem finish_eq_outcome (h : s.rest = []) : s.finish = s.outcome ops := by
  rw [finish]
  cases hq : s.quoted with
  | true =>
    rw [if_pos rfl, outcome, if_neg (by simp [hq]), hq, h]
    rfl
  | false =>
    rw [if_neg Bool.false_ne_true, outcome_flush hq (by rw [h]; rfl), h,
      Layout.tokens_of_trimStart_eq_nil rfl]
    exact congrArg Except.ok (List.append_nil _).symm

theorem outcome_take (h : s.rest = c :: rest)
    (hc : (!s.quoted && Word.endsLiteral ops (c :: rest)) = false) :
    (s.next.take c).outcome ops = s.outcome ops := by
  rw [next_of_rest h, take, outcome, outcome, if_neg (by simp), h]
  -- The character begins a literal or goes on with one.
  split
  · next hs =>
    obtain ⟨hcurrent, hq⟩ := hs
    rw [hq] at hc ⊢
    rw [Word.tokens_cons_of_endsLiteral hc, hcurrent, Bool.false_bne]
    rfl
  · rw [Word.continued_cons hc]

/-- Behind an operator the scanner stands as many bytes later as the operator has. -/
theorem step?_of_matchAt {op : Operator} (h : s.StandsAt line) (hq : s.quoted = false)
    (hop : ops.matchAt s.rest = some op) :
    s.step? line ops = some
      { s.flush.push op with
        offset := s.offset + op.text.utf8ByteSize, rest := s.rest.drop op.length } := by
  -- Every character of a spelling is one byte long, so passing over them passes over the bytes.
  have hbytes : op.text.utf8ByteSize = op.length := by cases op <;> rfl
  have hone : ∀ c ∈ op.spelling, c.utf8Size = 1 := fun _ => Operator.utf8Size_of_mem_spelling
  have hblank : ∀ c ∈ op.spelling, isBlank c = false := fun _ => Operator.isBlank_of_mem_spelling
  obtain ⟨after, hrest⟩ := OperatorSet.isPrefix_of_matchAt hop
  rw [hbytes, Operator.length]
  obtain ⟨c, cs, hspelling⟩ := List.exists_cons_of_ne_nil (List.ne_nil_of_length_pos op.length_pos)
  rw [hspelling] at hone hblank hrest
  obtain ⟨hc, hcs⟩ := List.forall_mem_cons.1 hone
  have hfront : s.rest = c :: (cs ++ after) := hrest.symm
  have hskip : (s.next.flush.push op).skip cs.length =
      { s.flush.push op with offset := s.offset + (cs.length + 1), rest := after } := by
    rw [next_of_rest hfront, hc]
    refine (skip_append hcs rfl).trans ?_
    rw [Nat.add_comm cs.length, ← Nat.add_assoc]
    rfl
  rw [h.step?_eq hfront hq (hblank c List.mem_cons_self), read, hop]
  simp only [hbytes, Operator.length, hspelling, List.length_cons, Nat.add_sub_cancel, hskip]
  rw [← hrest, ← List.length_cons, List.drop_left]

/-- A scanner can always go on, and what it will have found in the end stays the same. -/
theorem exists_step? (h : s.StandsAt line) (hrest : s.rest = c :: rest) :
    ∃ s', s.step? line ops = some s' ∧ s'.outcome ops = s.outcome ops := by
  cases hq : s.quoted with
  | true =>
    refine ⟨s.next.take c, ?_, outcome_take hrest (by rw [hq]; rfl)⟩
    rw [step?, hrest]
    exact if_pos hq
  | false =>
    -- Outside quotes a literal ends at a blank and at an operator, and goes on otherwise.
    cases hblank : isBlank c with
    | true =>
      have hends : Word.endsLiteral ops s.rest = true := by
        rw [hrest]
        exact Layout.endsLiteral_of_isBlank hblank
      refine ⟨s.next.flush, ?_, ?_⟩
      · rw [step?, hrest]
        exact (if_neg (by simp [hq])).trans (if_pos hblank)
      · rw [outcome_flush hq hends, hrest, Word.tokens_cons_of_isBlank hblank, next_of_rest hrest,
          outcome, if_pos ⟨rfl, hq⟩]
        rfl
    | false =>
      cases hop : ops.matchAt s.rest with
      | some op =>
        refine ⟨_, step?_of_matchAt h hq hop, ?_⟩
        have hends : Word.endsLiteral ops s.rest = true := by
          rw [hrest] at hop ⊢
          rw [Word.endsLiteral, hop, Option.isSome_some, Bool.or_true]
        have htokens : Word.tokens ops s.rest =
            (.operator op :: ·) <$> Word.tokens ops (s.rest.drop op.length) := by
          rw [hrest] at hop ⊢
          exact Layout.tokens_of_operator (Word.trimStart_cons hblank) hop
        rw [outcome_flush hq hends, htokens, outcome, if_pos ⟨rfl, hq⟩]
        show ((s.flush.words ++ [.operator op]) ++ ·) <$> Word.tokens ops _ = _
        cases Word.tokens ops (s.rest.drop op.length) <;> simp
      | none =>
        have hends : Word.endsLiteral ops (c :: rest) = false := by
          rw [Word.endsLiteral, hblank, ← hrest, hop]
          rfl
        refine ⟨s.next.take c, ?_, outcome_take hrest (by rw [hq, hends]; rfl)⟩
        rw [h.step?_eq hrest hq hblank, read, hop]

theorem scan?_eq_outcome (h : s.StandsAt line) : s.scan? line ops = some (s.outcome ops) := by
  induction hlen : s.rest.length using Nat.strongRecOn generalizing s with
  | ind length ih =>
    rw [scan?]
    split
    · next hrest => rw [finish_eq_outcome hrest]
    · next c rest hrest =>
      obtain ⟨s', hs, houtcome⟩ := exists_step? h hrest
      split
      · next hnone => cases hs.symm.trans hnone
      · next s'' hs' =>
        cases hs.symm.trans hs'
        rw [ih _ (hlen ▸ length_step?_lt hrest hs) (h.step? hs) rfl, houtcome]

end Scanner

/-- The words of a line, as a scanner finds them. -/
def scan? (line : String) (ops : OperatorSet) : Option (Except LexError (List Word)) :=
  Scanner.scan? line ops { rest := line.toList }

theorem Scanner.standsAt_start (line : String) :
    StandsAt line { rest := line.toList } := by
  refine slice?_eq_some_iff.2 ⟨"", ?_, rfl⟩
  rw [String.ofList_toList]
  rfl

/-- The scanner comes up while the line is read. -/
def Scanner.Reached (line : String) (ops : OperatorSet) (s : Scanner) : Prop :=
  Relation.ReflTransGen (fun s s' => s.step? line ops = some s') { rest := line.toList } s

theorem Scanner.Reached.standsAt {line : String} {ops : OperatorSet} {s : Scanner}
    (h : s.Reached line ops) : s.StandsAt line := by
  induction h with
  | refl => exact standsAt_start line
  | tail _ hs ih => exact ih.step? hs

/-- Reading goes on from wherever it has come to. -/
theorem Scanner.Reached.exists_step? {line : String} {ops : OperatorSet} {s : Scanner}
    (h : s.Reached line ops) : ∃ s', s.step? line ops = some s' := by
  cases hrest : s.rest with
  | nil => exact ⟨s, by rw [Scanner.step?, hrest]⟩
  | cons c rest =>
    obtain ⟨s', hs, -⟩ := Scanner.exists_step? h.standsAt hrest
    exact ⟨s', hs⟩

/-- A scanner gets through every line, and finds its words. -/
theorem scan?_eq (line : String) (ops : OperatorSet) :
    scan? line ops = some (tokenize line ops) :=
  (Scanner.scan?_eq_outcome (Scanner.standsAt_start line)).trans
    (congrArg some (Scanner.outcome_start line))

end PipelineShell
