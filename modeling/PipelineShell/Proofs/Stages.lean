/-
Cutting words at every `|`.

`Pipeline.ofWords` keeps its stages as spans over the words that are no `|`.
Read back through the spans, the stages are the pieces between the pipes, in
order (`stages_ofWords`), so what is known about cutting a list at separators
holds for stages.

* `Span.Tiles` — spans that lie one behind the other and leave nothing out;
* `tiles_spansOf` — the spans of the stages are such, over all words kept;
* `intercalate_segments` — the pieces with the pipes put back are the words;
* `ofWords_lossless` — both together: cutting at every `|` loses nothing.
-/
import PipelineShell.Pipeline

namespace PipelineShell

namespace Span

theorem slice_append_left {pre : List Word} {start : Nat} (h : start ≤ pre.length)
    (words : List Word) :
    (Span.mk start pre.length).slice (pre ++ words) = pre.drop start := by
  rw [slice, List.drop_append_of_le_length h, List.take_append_of_le_length (by simp)]
  exact List.take_of_length_le (by simp)

/-- The spans lie one behind the other, from `start` to `stop`. -/
inductive Tiles : Nat → List Span → Nat → Prop
  | single {start stop : Nat} : Tiles start [⟨start, stop⟩] stop
  | cons {start mid stop : Nat} {spans : List Span} (rest : Tiles mid spans stop) :
      Tiles start (⟨start, mid⟩ :: spans) stop

namespace Tiles

variable {start stop : Nat} {spans : List Span}

theorem head? (h : Tiles start spans stop) : spans.head?.map Span.start = some start := by
  cases h with
  | single => rfl
  | cons _ => rfl

theorem getLast? (h : Tiles start spans stop) : spans.getLast?.map Span.stop = some stop := by
  induction h with
  | single => rfl
  | cons rest ih =>
    -- There is a span behind the first one, so the last one stays the last.
    cases rest with
    | single => exact ih
    | cons _ => exact ih

theorem start_eq_stop (h : Tiles start spans stop) {i : Nat} {s s' : Span}
    (hs : spans[i]? = some s) (hs' : spans[i + 1]? = some s') : s'.start = s.stop := by
  induction h generalizing i with
  | single => simp at hs'
  | cons rest ih =>
    cases i with
    | zero =>
      obtain rfl := Option.some.inj hs
      have hsecond : _ = some s' := (List.head?_eq_getElem?).trans hs'
      have hhead := rest.head?
      rw [hsecond] at hhead
      exact Option.some.inj hhead
    | succ i => exact ih hs hs'

end Tiles

end Span

namespace Pipeline

/-- The words cut at every `|`. -/
def segments (words : List Word) : List (List Word) := words.splitOnP (·.isOperator .pipe)

theorem segments_ne_nil (words : List Word) : segments words ≠ [] :=
  List.splitOnP_ne_nil _ words

theorem segments_cons_pipe {w : Word} (h : w.isOperator .pipe = true) (words : List Word) :
    segments (w :: words) = [] :: segments words := by
  simp [segments, List.splitOnP_cons_eq_if_modifyHead, h]

theorem segments_cons {w : Word} (h : w.isOperator .pipe = false) (words : List Word) :
    segments (w :: words) = (segments words).modifyHead (w :: ·) := by
  rw [segments, List.splitOnP_cons_eq_if_modifyHead, if_neg (by simp [h])]
  rfl

/-- A word of a stage is a word of the line and no `|`. -/
theorem mem_of_mem_segments {words stage : List Word} {w : Word} (hs : stage ∈ segments words)
    (hw : w ∈ stage) : w ∈ words ∧ w.isOperator .pipe = false := by
  induction words generalizing stage with
  | nil =>
    rw [segments, List.splitOnP_nil, List.mem_singleton] at hs
    subst hs
    exact absurd hw List.not_mem_nil
  | cons a words ih =>
    cases ha : a.isOperator .pipe with
    | true =>
      rw [segments_cons_pipe ha] at hs
      rcases List.mem_cons.1 hs with rfl | hs
      · exact absurd hw List.not_mem_nil
      · exact (ih hs hw).imp_left (List.mem_cons_of_mem a)
    | false =>
      rw [segments_cons ha] at hs
      obtain ⟨first, rest, e⟩ := List.exists_cons_of_ne_nil (segments_ne_nil words)
      rw [e, List.modifyHead_cons] at hs
      rcases List.mem_cons.1 hs with rfl | hs
      · rcases List.mem_cons.1 hw with rfl | hw
        · exact ⟨List.mem_cons_self, ha⟩
        · exact (ih (e ▸ List.mem_cons_self) hw).imp_left (List.mem_cons_of_mem a)
      · exact (ih (e ▸ List.mem_cons_of_mem first hs) hw).imp_left (List.mem_cons_of_mem a)

/-- The spans read back: what has been kept of the current stage goes to the front of the first
piece. -/
theorem map_slice_spansOf (words : List Word) : ∀ (pre : List Word) (start : Nat),
    start ≤ pre.length →
      (spansOf start pre.length words).map (·.slice (pre ++ arenaOf words))
        = (segments words).modifyHead (pre.drop start ++ ·) := by
  induction words with
  | nil =>
    intro pre start h
    simp [spansOf, segments, Span.slice_append_left h]
  | cons w words ih =>
    intro pre start h
    cases hw : w.isOperator .pipe with
    | true =>
      have hrest := ih pre pre.length (Nat.le_refl _)
      rw [List.drop_length] at hrest
      rw [spansOf, if_pos hw, arenaOf_cons_pipe hw, segments_cons_pipe hw, List.map_cons, hrest,
        Span.slice_append_left h]
      simp only [List.nil_append, List.modifyHead_cons, List.append_nil]
      obtain ⟨first, rest, e⟩ := List.exists_cons_of_ne_nil (segments_ne_nil words)
      rw [e, List.modifyHead_cons]
    | false =>
      have hrest := ih (pre ++ [w]) start (by simp; omega)
      rw [List.drop_append_of_le_length h] at hrest
      rw [spansOf, if_neg (by simp [hw]), arenaOf_cons hw, segments_cons hw]
      rw [List.length_append, List.length_singleton, List.append_assoc] at hrest
      rw [show pre ++ w :: arenaOf words = pre ++ ([w] ++ arenaOf words) from rfl, hrest]
      obtain ⟨first, rest, e⟩ := List.exists_cons_of_ne_nil (segments_ne_nil words)
      simp [e]

/-- The stages of a line are the pieces between its pipes. -/
theorem stages_ofWords (words : List Word) : (ofWords words).stages = segments words := by
  have h := map_slice_spansOf words [] 0 (Nat.le_refl 0)
  obtain ⟨first, rest, e⟩ := List.exists_cons_of_ne_nil (segments_ne_nil words)
  rw [stages, ofWords]
  simpa [e] using h

/-! ### Nothing is lost -/

theorem segments_eq_splitOn (words : List Word) :
    segments words = words.splitOn (.operator .pipe) := by
  have hpipe : (fun w : Word => w.isOperator .pipe) = (· == .operator .pipe) := by
    funext w
    rw [Bool.eq_iff_iff, Word.isOperator_iff, beq_iff_eq]
  rw [segments, hpipe]
  rfl

/-- The pieces between the pipes, with the pipes put back. -/
theorem intercalate_segments (words : List Word) :
    [Word.operator .pipe].intercalate (segments words) = words := by
  rw [segments_eq_splitOn]
  exact List.intercalate_splitOn _

/-- The spans from the beginning of the current stage on cover all words that are still kept. -/
theorem tiles_spansOf (words : List Word) (start here : Nat) :
    Span.Tiles start (spansOf start here words) (here + (arenaOf words).length) := by
  induction words generalizing start here with
  | nil => exact .single
  | cons w words ih =>
    rw [spansOf]
    cases hw : w.isOperator .pipe with
    | true =>
      rw [if_pos rfl, arenaOf_cons_pipe hw]
      exact .cons (ih here here)
    | false =>
      rw [if_neg Bool.false_ne_true, arenaOf_cons hw, List.length_cons, ← Nat.add_assoc,
        Nat.add_right_comm here _ 1]
      exact ih start (here + 1)

/-- Every `|` ends a stage, and the end of the words ends one more. -/
theorem length_spansOf (words : List Word) (start here : Nat) :
    (spansOf start here words).length = words.count (.operator .pipe) + 1 := by
  induction words generalizing start here with
  | nil => rfl
  | cons w words ih =>
    rw [spansOf]
    cases hw : w.isOperator .pipe with
    | true =>
      rw [if_pos rfl, Word.isOperator_iff.1 hw, List.length_cons, ih, List.count_cons_self]
    | false =>
      have hne : w ≠ .operator .pipe := fun e => by
        rw [Word.isOperator_iff.2 e] at hw
        cases hw
      rw [if_neg Bool.false_ne_true, ih, List.count_cons_of_ne hne]

theorem pipe_not_mem_arenaOf (words : List Word) : Word.operator .pipe ∉ arenaOf words := by
  intro hmem
  have hkept := (List.mem_filter.1 hmem).2
  rw [Word.isOperator_iff.2 rfl] at hkept
  cases hkept

/-- **Cutting at every `|` loses nothing**, whatever the words are.  The spans begin at the first
word that is kept, each where the one before ends, and the last one ends behind the last word; no
`|` is kept; there is one stage more than there are `|`; and the stages with one `|` between any two
of them are the words. -/
theorem ofWords_lossless (words : List Word) :
    (ofWords words).spans.head?.map Span.start = some 0 ∧
      (∀ i s s', (ofWords words).spans[i]? = some s → (ofWords words).spans[i + 1]? = some s' →
        s'.start = s.stop) ∧
      (ofWords words).spans.getLast?.map Span.stop = some (ofWords words).arena.length ∧
      Word.operator .pipe ∉ (ofWords words).arena ∧
      (ofWords words).size = words.count (.operator .pipe) + 1 ∧
      [Word.operator .pipe].intercalate (ofWords words).stages = words := by
  have htiles : Span.Tiles 0 (ofWords words).spans (0 + (ofWords words).arena.length) :=
    tiles_spansOf words 0 0
  rw [Nat.zero_add] at htiles
  refine ⟨htiles.head?, fun i s s' => htiles.start_eq_stop, htiles.getLast?,
    pipe_not_mem_arenaOf words, length_spansOf words 0 0, ?_⟩
  rw [stages_ofWords]
  exact intercalate_segments words

/-- Pipes at both ends and two in a row: the stages there are empty. -/
theorem ofWords_lossless_piped :
    (ofWords [.operator .pipe, .literal "a", .operator .pipe, .operator .pipe, .literal "b",
        .operator .pipe]).spans = [⟨0, 0⟩, ⟨0, 1⟩, ⟨1, 1⟩, ⟨1, 2⟩, ⟨2, 2⟩] ∧
      (Span.mk 1 2).start = (Span.mk 1 1).stop ∧
      [Word.operator .pipe].intercalate [[], [.literal "a"], [], [.literal "b"], []] =
        [.operator .pipe, .literal "a", .operator .pipe, .operator .pipe, .literal "b",
          .operator .pipe] := by
  obtain ⟨-, hadjoin, -, -, -, hwords⟩ := ofWords_lossless [.operator .pipe, .literal "a",
    .operator .pipe, .operator .pipe, .literal "b", .operator .pipe]
  exact ⟨rfl, hadjoin 2 _ _ rfl rfl, hwords⟩

end Pipeline

end PipelineShell
