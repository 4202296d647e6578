/-
Clusters: groups of characters that a reader takes for one.

A letter and its marks are one cluster, and so are a Korean syllable, a flag,
a chain of joined pictographs, and consonants joined by linkers.  A line end
or a control is a cluster of its own, and so are a carriage return and a line
feed behind it.

* `attaches cluster c`: the character `c` goes on with a cluster.
* `clusters cs`: a text cut into clusters; `flatten_clusters` says that nothing
  gets lost.
-/
import PipelineShell.Text.BreakClass

namespace PipelineShell.Text

namespace BreakClass

/-- Nothing attaches to such a character, and it attaches to nothing. -/
def standsAlone : BreakClass → Bool
  | .carriageReturn | .lineFeed | .control => true
  | _ => false

/-- Belongs to whatever is before it. -/
def isTrailer : BreakClass → Bool
  | .extend | .joiner | .spacingMark => true
  | _ => false

/-- The second goes on with a syllable that the first is part of. -/
def sharesSyllable : BreakClass → BreakClass → Bool
  | .leading, .leading | .leading, .vowel | .leading, .openSyllable
  | .leading, .closedSyllable => true
  | .vowel, .vowel | .vowel, .trailing | .openSyllable, .vowel | .openSyllable, .trailing => true
  | .trailing, .trailing | .closedSyllable, .trailing => true
  | _, _ => false

end BreakClass

/-! In the following the last character of a cluster comes first. -/

/-- A pictograph, maybe with marks. -/
def endsInPictograph (cluster : List Char) : Bool :=
  match cluster.dropWhile fun c => breakClass c = .extend with
  | c :: _ => breakClass c = .pictograph
  | [] => false

/-- A mark between two consonants that neither joins nor parts them. -/
def isNeutralMark (c : Char) : Bool :=
  (breakClass c = .extend && c ≠ '\u200c') || breakClass c = .joiner

/-- A consonant with a linker, maybe among other marks. -/
def endsInLinkedConsonant (cluster : List Char) : Bool :=
  let isMark := fun c => linkers.contains c || isNeutralMark c
  (cluster.takeWhile isMark).any linkers.contains &&
    match cluster.dropWhile isMark with
    | c :: _ => consonants.contains c
    | [] => false

/-- Half a flag is left over. -/
def endsInHalfFlag (cluster : List Char) : Bool :=
  (cluster.takeWhile fun c => breakClass c = .flag).length % 2 = 1

/-- Whether a character goes on with a cluster. -/
def attaches (cluster : List Char) (c : Char) : Bool :=
  match cluster with
  | [] => false
  | last :: before =>
    let a := breakClass last
    let b := breakClass c
    if a = .carriageReturn && b = .lineFeed then true
    else if a.standsAlone || b.standsAlone then false
    else
      a.sharesSyllable b || b.isTrailer || a = .prepended ||
        (a = .joiner && b = .pictograph && endsInPictograph before) ||
        (b = .flag && endsInHalfFlag cluster) ||
        (consonants.contains c && endsInLinkedConsonant cluster)

/-- Adds a character to a text that is cut into clusters, the last cluster first. -/
def addToClusters : List (List Char) → Char → List (List Char)
  | [], c => [[c]]
  | cluster :: before, c =>
    if attaches cluster c then (c :: cluster) :: before else [c] :: cluster :: before

/-- Cuts a text into clusters. -/
def clusters (cs : List Char) : List (List Char) :=
  ((cs.foldl addToClusters []).map List.reverse).reverse

theorem flatten_addToClusters (done : List (List Char)) (c : Char) :
    (addToClusters done c).flatten = c :: done.flatten := by
  cases done with
  | nil => rfl
  | cons cluster before =>
    simp only [addToClusters]
    split <;> simp

theorem flatten_foldl_addToClusters (cs : List Char) (done : List (List Char)) :
    (cs.foldl addToClusters done).flatten = cs.reverse ++ done.flatten := by
  induction cs generalizing done with
  | nil => rfl
  | cons c cs ih => simp [ih, flatten_addToClusters]

/-- Nothing gets lost. -/
theorem flatten_clusters (cs : List Char) : (clusters cs).flatten = cs := by
  rw [clusters, ← List.reverse_flatten, flatten_foldl_addToClusters]
  simp

end PipelineShell.Text
