/-
Pipelines: the stages of a line, kept as ranges over one list of words.

`ofWords` drops every `|` and starts a new stage there, so there is one stage
more than there are `|`, and stages may be empty.  The ranges lie within the
words by construction.
-/
import PipelineShell.Word

namespace PipelineShell

/-- The positions from `start` up to, but not including, `stop`. -/
structure Span where
  start : Nat
  stop : Nat
deriving DecidableEq, Repr

namespace Span

/-- The part of a list that a span covers. -/
def slice (s : Span) (words : List Word) : List Word := (words.drop s.start).take (s.stop - s.start)

/-- The span lies within the first `n` positions. -/
def Within (s : Span) (n : Nat) : Prop := s.start ≤ s.stop ∧ s.stop ≤ n

instance (s : Span) (n : Nat) : Decidable (s.Within n) :=
  inferInstanceAs (Decidable (s.start ≤ s.stop ∧ s.stop ≤ n))

end Span

structure Pipeline where
  arena : List Word
  spans : List Span
  within : ∀ s ∈ spans, s.Within arena.length
deriving DecidableEq

namespace Pipeline

def size (p : Pipeline) : Nat := p.spans.length

def isEmpty (p : Pipeline) : Bool := p.spans.isEmpty

/-- The words of each stage, in order. -/
def stages (p : Pipeline) : List (List Word) := p.spans.map (·.slice p.arena)

theorem length_stages (p : Pipeline) : p.stages.length = p.size := List.length_map _

def stage? (p : Pipeline) (i : Nat) : Option (List Word) := p.stages[i]?

/-- The words that are no `|`. -/
def arenaOf (words : List Word) : List Word := words.filter fun w => !w.isOperator .pipe

/-- The spans of the stages; `start` is where the current stage begins and `here` how many words
have been kept so far. -/
def spansOf (start here : Nat) : List Word → List Span
  | [] => [⟨start, here⟩]
  | w :: words =>
    if w.isOperator .pipe then ⟨start, here⟩ :: spansOf here here words
    else spansOf start (here + 1) words

theorem arenaOf_cons_pipe {w : Word} {words : List Word} (h : w.isOperator .pipe = true) :
    arenaOf (w :: words) = arenaOf words := by simp [arenaOf, h]

theorem arenaOf_cons {w : Word} {words : List Word} (h : w.isOperator .pipe = false) :
    arenaOf (w :: words) = w :: arenaOf words := by simp [arenaOf, h]

theorem within_spansOf : ∀ {words : List Word} {start here : Nat} {s : Span}, start ≤ here →
    s ∈ spansOf start here words → s.Within (here + (arenaOf words).length)
  | [], start, here, s, hle, hs => by
    rw [spansOf, List.mem_singleton] at hs
    subst hs
    exact ⟨hle, Nat.le_add_right _ _⟩
  | w :: words, start, here, s, hle, hs => by
    rw [spansOf] at hs
    cases hw : w.isOperator .pipe with
    | true =>
      rw [if_pos hw] at hs
      rw [arenaOf_cons_pipe hw]
      rcases List.mem_cons.1 hs with rfl | hs
      · exact ⟨hle, Nat.le_add_right _ _⟩
      · exact within_spansOf (Nat.le_refl _) hs
    | false =>
      rw [if_neg (by simp [hw])] at hs
      have := within_spansOf (Nat.le_succ_of_le hle) hs
      have e : here + (arenaOf (w :: words)).length = here + 1 + (arenaOf words).length := by
        rw [arenaOf_cons hw, List.length_cons]
        omega
      rw [e]
      exact this

/-- Cuts a list of words at every `|`. -/
def ofWords (words : List Word) : Pipeline where
  arena := arenaOf words
  spans := spansOf 0 0 words
  within := fun s hs => by
    have := within_spansOf (Nat.le_refl 0) hs
    rwa [Nat.zero_add] at this

/-- The stage as it is written in a line. -/
def stageText (stage : List Word) : String := String.intercalate " " (stage.map Word.text)

/-- The pipeline as it is written in a line. -/
def text (p : Pipeline) : String := String.intercalate " | " (p.stages.map stageText)

end Pipeline

end PipelineShell
