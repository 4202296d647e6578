/-
What the queries and removals of an argument vector mean for its words.

A position splits the words: what stands before the first occurrence of an
operator does not contain it (`position?_eq_some_iff`).  Removals put the two
parts together again (`takeBackground_append`, `takeRedirect_append`), and the
two checks of a line say of these parts

* `checkBackground_eq_ok_iff` — there is no `&`, or it is the last of several
  words;
* `checkRedirect_eq_ok_iff` — a redirection is missing, or stands once behind
  some word and before a filename, and with this filename ends the line or is
  followed by another kind of redirection.
-/
import Mathlib.Data.List.Basic
import PipelineShell.Modifier
import PipelineShell.Placement

namespace PipelineShell

theorem bind_eq_ok_iff {ε α β : Type} {x : Except ε α} {f : α → Except ε β} {b : β} :
    x >>= f = .ok b ↔ ∃ a, x = .ok a ∧ f a = .ok b := by
  cases x with
  | error e =>
    constructor
    · intro h
      cases h
    · rintro ⟨a, h, -⟩
      cases h
  | ok a => exact ⟨fun h => ⟨a, rfl, h⟩, fun ⟨_, ha, hb⟩ => Except.ok.inj ha ▸ hb⟩

theorem bind_eq_error_iff {ε α β : Type} {x : Except ε α} {f : α → Except ε β} {e : ε} :
    x >>= f = .error e ↔ x = .error e ∨ ∃ a, x = .ok a ∧ f a = .error e := by
  cases x with
  | error e' =>
    constructor
    · intro h
      cases h
      exact .inl rfl
    · rintro (h | ⟨a, h, -⟩) <;> cases h
      rfl
  | ok a =>
    constructor
    · exact fun h => .inr ⟨a, rfl, h⟩
    · rintro (h | ⟨a', h, hf⟩)
      · cases h
      · cases h
        exact hf

/-- A literal with a value that is not empty. -/
def Word.IsFilename (w : Word) : Prop := ∃ value, w.unquoted = some value ∧ value ≠ ""

theorem Word.IsFilename.ne_operator {w : Word} (h : w.IsFilename) (op : Operator) :
    w ≠ .operator op := by
  rintro rfl
  obtain ⟨value, hv, _⟩ := h
  exact absurd hv (by simp [Word.unquoted])

namespace ArgumentVector

theorem position?_eq_none_iff {v : ArgumentVector} {op : Operator} :
    v.position? op = none ↔ Word.operator op ∉ v.words := by
  refine List.findFinIdx?_eq_none_iff.trans ⟨fun h hm => ?_, fun h w hw hop => ?_⟩
  · exact h _ hm (Word.isOperator_iff.2 rfl)
  · rw [Word.isOperator_iff.1 hop] at hw
    exact h hw

theorem position?_eq_some_iff {v : ArgumentVector} {op : Operator} {p : Fin v.size} :
    v.position? op = some p ↔
      ∃ before after, v.words = before ++ .operator op :: after ∧
        Word.operator op ∉ before ∧ p.val = before.length := by
  obtain ⟨words⟩ := v
  have hlt : p.val < words.length := p.isLt
  refine List.findFinIdx?_eq_some_iff.trans ⟨?_, ?_⟩
  · rintro ⟨hp, hbefore⟩
    refine ⟨words.take p.val, words.drop (p.val + 1), ?_, ?_, ?_⟩
    · rw [← Word.isOperator_iff.1 hp]
      exact (List.take_append_drop p.val words).symm.trans
        (congrArg _ (List.drop_eq_getElem_cons hlt))
    · intro hm
      obtain ⟨j, hj, e⟩ := List.getElem_of_mem hm
      rw [List.length_take] at hj
      rw [List.getElem_take] at e
      have hjp : j < p.val := Nat.lt_of_lt_of_le hj (Nat.min_le_left _ _)
      exact hbefore ⟨j, Nat.lt_trans hjp hlt⟩ hjp (Word.isOperator_iff.2 e)
    · rw [List.length_take]
      omega
  · rintro ⟨before, after, e, hm, hp⟩
    simp only at e
    subst e
    refine ⟨Word.isOperator_iff.2 ?_, fun j hj hop => hm ?_⟩
    · show (before ++ Word.operator op :: after)[p.val] = _
      simp [hp]
    · have hlt : j.val < before.length := hp ▸ hj
      have hj' := Word.isOperator_iff.1 hop
      simp only [Fin.getElem_fin, List.getElem_append_left hlt] at hj'
      exact hj' ▸ List.getElem_mem hlt

/-- Where the operator stands in a vector that is split at it. -/
theorem position?_append {before : List Word} {op : Operator} (h : Word.operator op ∉ before)
    (after : List Word) :
    ∃ p, position? ⟨before ++ .operator op :: after⟩ op = some p ∧ p.val = before.length := by
  have hlt : before.length < size ⟨before ++ .operator op :: after⟩ := by simp [size]
  exact ⟨⟨before.length, hlt⟩, position?_eq_some_iff.2 ⟨before, after, rfl, h, rfl⟩, rfl⟩

/-- A list is split at the first occurrence of an element in one way only. -/
theorem append_cons_inj_of_first {α : Type} [DecidableEq α] {a : α} {l₁ l₂ r₁ r₂ : List α}
    (h₁ : a ∉ l₁) (h₂ : a ∉ l₂) (e : l₁ ++ a :: r₁ = l₂ ++ a :: r₂) : l₁ = l₂ ∧ r₁ = r₂ := by
  have hi := congrArg (List.idxOf a) e
  rw [List.idxOf_append_of_notMem h₁, List.idxOf_append_of_notMem h₂, List.idxOf_cons_self,
    List.idxOf_cons_self] at hi
  obtain ⟨hl, hr⟩ := List.append_inj e (by omega)
  exact ⟨hl, (List.cons.inj hr).2⟩

theorem has_iff {v : ArgumentVector} {op : Operator} :
    v.has op = true ↔ Word.operator op ∈ v.words := by
  rw [has, Option.isSome_iff_ne_none, ne_eq, position?_eq_none_iff, not_not]

theorem count_eq (v : ArgumentVector) (op : Operator) :
    v.count op = v.words.count (.operator op) := by
  rw [count, List.count]
  refine List.countP_congr fun w _ => ?_
  rw [Word.isOperator_iff, beq_iff_eq]

/-! Removals. -/

theorem takeBackground_of_not_mem {words : List Word}
    (h : Word.operator .background ∉ words) :
    takeBackground ⟨words⟩ = (false, ⟨words⟩) := by
  rw [takeBackground, position?_eq_none_iff.2 h]

theorem takeBackground_append {before : List Word} (h : Word.operator .background ∉ before)
    (after : List Word) :
    takeBackground ⟨before ++ .operator .background :: after⟩ = (true, ⟨before ++ after⟩) := by
  obtain ⟨p, hp, e⟩ := position?_append h after
  rw [takeBackground, hp]
  simp [remove, e, List.eraseIdx_append_of_length_le]

theorem takeRedirect_of_not_mem {words : List Word} {op : Operator}
    (h : Word.operator op ∉ words) : takeRedirect ⟨words⟩ op = (none, ⟨words⟩) := by
  rw [takeRedirect, position?_eq_none_iff.2 h]

theorem takeRedirect_append {before : List Word} {op : Operator} (h : Word.operator op ∉ before)
    (file : Word) (after : List Word) :
    takeRedirect ⟨before ++ .operator op :: file :: after⟩ op
      = (file.unquoted, ⟨before ++ after⟩) := by
  obtain ⟨p, hp, e⟩ := position?_append h (file :: after)
  rw [takeRedirect, hp]
  simp [remove, size, e, List.eraseIdx_append_of_length_le]

/-! Checks. -/

theorem checkBackground_eq_ok_iff {v : ArgumentVector} {b : Bool} :
    v.checkBackground = .ok b ↔
      (b = false ∧ Word.operator .background ∉ v.words) ∨
        (b = true ∧ ∃ before, v.words = before ++ [.operator .background] ∧ before ≠ [] ∧
          Word.operator .background ∉ before) := by
  cases hp : v.position? .background with
  | none =>
    have hm := position?_eq_none_iff.1 hp
    simp only [checkBackground, hp]
    constructor
    · intro h
      cases h
      exact .inl ⟨rfl, hm⟩
    · rintro (⟨rfl, -⟩ | ⟨-, before, e, -⟩)
      · rfl
      · exact absurd (e ▸ by simp) hm
  | some p =>
    obtain ⟨before, after, e, hb, hpos⟩ := position?_eq_some_iff.1 hp
    have hsize : v.size = before.length + (after.length + 1) := by simp [size, e]
    have hne : before.length = 0 ↔ before = [] := List.length_eq_zero_iff
    have hafter : after.length = 0 ↔ after = [] := List.length_eq_zero_iff
    simp only [checkBackground, hp, hpos, hsize]
    constructor
    · intro h
      split at h
      case isTrue => cases h
      case isFalse hn =>
        cases h
        have hnil : after = [] := hafter.1 (by omega)
        exact .inr ⟨rfl, before, by rw [e, hnil], fun h0 => hn (.inr (by simp [h0, hnil])), hb⟩
    · rintro (⟨-, hm⟩ | ⟨rfl, before', e', hne', hb'⟩)
      · exact absurd (e ▸ by simp) hm
      · -- both splits are at the first `&`
        obtain ⟨rfl, rfl⟩ := append_cons_inj_of_first hb hb' (e.symm.trans e')
        rw [if_neg (by simp [hne'])]

theorem filename?_isNone {v : ArgumentVector} {i : Nat} {w : Word} (h : v.words[i]? = some w) :
    (v.filename? i).isNone = false ↔ w.IsFilename := by
  rw [filename?, get?, h, Option.bind_some, Word.IsFilename]
  cases w.unquoted with
  | none => simp
  | some value => simp [Option.filter]

theorem isOtherRedirect_iff {op : Operator} {w : Word} :
    isOtherRedirect op w = true ↔
      ∃ next, w = .operator next ∧ next.isRedirect = true ∧ next ≠ op := by
  cases w with
  | literal raw => simp [isOtherRedirect, Word.operator?]
  | operator next => simp [isOtherRedirect, Word.operator?]

/-- What follows a filename: the end, or a redirection of another kind before the end. -/
def Continues (stop : Nat) (op : Operator) (here : Nat) (after : List Word) : Prop :=
  here = stop ∨
    here < stop ∧ ∃ next rest, after = .operator next :: rest ∧ next.isRedirect = true ∧ next ≠ op

/-- What stands behind an operator and its file name. -/
theorem words_behind {v : ArgumentVector} {op : Operator} {before after : List Word} {file : Word}
    (e : v.words = before ++ .operator op :: file :: after) (i : Nat) :
    v.words[before.length + i + 1]? = (file :: after)[i]? := by
  rw [e, List.getElem?_append_right (by omega), Nat.add_assoc, Nat.add_sub_cancel_left,
    List.getElem?_cons_succ]

theorem continues_iff {v : ArgumentVector} {stop : Nat} {op : Operator} {before after : List Word}
    {file : Word} (e : v.words = before ++ .operator op :: file :: after) :
    (before.length + 2 = stop ∨ v.chainsAt stop op before.length = true) ↔
      Continues stop op (before.length + 2) after := by
  rw [chainsAt, Bool.and_eq_true, decide_eq_true_iff, Continues]
  refine or_congr_right (and_congr_right fun _ => ?_)
  have hget : v.get? (before.length + 2) = after.head? := by
    rw [get?, words_behind e 1, List.getElem?_cons_succ, List.head?_eq_getElem?]
  rw [hget]
  cases after with
  | nil =>
    constructor
    · intro h
      cases h
    · rintro ⟨_, _, h, _⟩
      cases h
  | cons w rest =>
    rw [List.head?_cons, Option.any_some, isOtherRedirect_iff]
    constructor
    · rintro ⟨next, rfl, hnext⟩
      exact ⟨next, rest, rfl, hnext⟩
    · rintro ⟨next, rest', hw, hnext⟩
      exact ⟨next, (List.cons.inj hw).1, hnext⟩

theorem checkRedirect_eq_ok_iff {v : ArgumentVector} {stop : Nat} {op : Operator} :
    v.checkRedirect stop op = .ok () ↔
      Word.operator op ∉ v.words ∨
        ∃ before file after, v.words = before ++ .operator op :: file :: after ∧
          Word.operator op ∉ before ∧ Word.operator op ∉ after ∧ before ≠ [] ∧
          file.IsFilename ∧ Continues stop op (before.length + 2) after := by
  rw [checkRedirect, count_eq]
  cases hp : v.position? op with
  | none =>
    have hm := position?_eq_none_iff.1 hp
    rw [List.count_eq_zero.2 hm]
    exact iff_of_true rfl (.inl hm)
  | some p =>
    obtain ⟨before, tail, e, hb, hpos⟩ := position?_eq_some_iff.1 hp
    have hmem : Word.operator op ∈ v.words := e ▸ by simp
    have hcount : v.words.count (.operator op) = tail.count (.operator op) + 1 := by
      rw [e, List.count_append, List.count_eq_zero.2 hb, List.count_cons_self, Nat.zero_add]
    have hne : before.length = 0 ↔ before = [] := List.length_eq_zero_iff
    simp only [hpos, hcount, not_true, hmem, false_or]
    constructor
    · intro h
      split at h
      case isTrue => cases h
      case isFalse honce =>
        split at h
        case isTrue => cases h
        case isFalse hplace =>
          split at h
          case isTrue => cases h
          case isFalse hfile =>
            rw [not_or, not_not] at hplace
            have htail : Word.operator op ∉ tail := List.count_eq_zero.1 (by omega)
            cases tail with
            | nil => simp [filename?, get?, e] at hfile
            | cons file after =>
              have hfile' := (filename?_isNone (words_behind e 0)).1 (Bool.eq_false_iff.2 hfile)
              exact ⟨before, file, after, e, hb, fun h => htail (List.mem_cons_of_mem _ h),
                fun h => hplace.1 (hne.2 h), hfile', (continues_iff e).1 hplace.2⟩
    · rintro ⟨before', file, after, e', hb', hafter, hne', hfile, hcont⟩
      obtain ⟨rfl, rfl⟩ := append_cons_inj_of_first hb hb' (e.symm.trans e')
      have htail : (file :: after).count (.operator op) = 0 :=
        List.count_eq_zero.2 fun h => (List.mem_cons.1 h).elim
          (fun h => hfile.ne_operator op h.symm) hafter
      have hname : (v.filename? (before.length + 1)).isNone = false :=
        (filename?_isNone (words_behind e 0)).2 hfile
      rw [if_neg (by omega), if_neg (by rw [not_or, not_not]; exact ⟨fun h => hne' (hne.1 h),
        (continues_iff e).2 hcont⟩), hname]
      rfl

/-- The checks of a line, for a line without `&` or with one at its end. -/
theorem checkLine_eq_ok_iff {v : ArgumentVector} :
    v.checkLine = .ok () ↔
      ∃ b, v.checkBackground = .ok b ∧
        ¬(Word.operator .output ∈ v.words ∧ Word.operator .append ∈ v.words) ∧
        ∀ op, op.isRedirect = true →
          v.checkRedirect (if b then v.size - 1 else v.size) op = .ok () := by
  rw [checkLine, bind_eq_ok_iff]
  refine exists_congr fun b => and_congr_right fun _ => ?_
  by_cases hmix : (v.has .output && v.has .append) = true
  · rw [if_pos hmix]
    rw [Bool.and_eq_true, has_iff, has_iff] at hmix
    constructor
    · intro h
      cases h
    · exact fun h => absurd hmix h.1
  · rw [if_neg hmix]
    rw [Bool.and_eq_true, has_iff, has_iff] at hmix
    simp only [bind_eq_ok_iff]
    constructor
    · rintro ⟨_, hout, _, hin, happ⟩
      refine ⟨hmix, fun op hop => ?_⟩
      cases op with
      | input => exact hin
      | output => exact hout
      | append => exact happ
      | background => cases hop
      | pipe => cases hop
    · rintro ⟨-, h⟩
      exact ⟨(), h .output rfl, (), h .input rfl, h .append rfl⟩

end ArgumentVector

end PipelineShell
