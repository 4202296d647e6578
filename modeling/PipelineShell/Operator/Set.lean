/-
The set of operators that a configuration reserves.

A set keeps its operators without repetition and the longer spellings first;
among spellings of one length the order of insertion stays.  So the first
operator that the text continues with is a longest one (`longest_matchAt`).
Two sets are equal when they hold the same operators in the same order, which
is finer than having the same members.

* `mem_ofList` — a set made from a list has exactly the members of the list;
* `ofSpellings` — reads a configured list and names the first text in it that
  is no operator.
-/
import PipelineShell.Operator
import PipelineShell.Text.Escaped

namespace PipelineShell

/-- A text that is not the spelling of an operator. -/
structure UnknownOperator where
  text : String
deriving DecidableEq, Repr

def UnknownOperator.message (e : UnknownOperator) : String :=
  "未知の演算子: " ++ String.ofList (Text.quoted e.text.toList)

/-- The operator with this spelling. -/
def Operator.parse (text : String) : Except UnknownOperator Operator :=
  match ofSpelling? text.toList with
  | some op => .ok op
  | none => .error ⟨text⟩

structure OperatorSet where
  toList : List Operator
  nodup : toList.Nodup
  longestFirst : toList.Pairwise fun a b => b.length ≤ a.length
deriving DecidableEq

namespace OperatorSet

instance : Membership Operator OperatorSet := ⟨fun s op => op ∈ s.toList⟩

instance (op : Operator) (s : OperatorSet) : Decidable (op ∈ s) :=
  inferInstanceAs (Decidable (op ∈ s.toList))

theorem mem_def {op : Operator} {s : OperatorSet} : op ∈ s ↔ op ∈ s.toList := Iff.rfl

def contains (s : OperatorSet) (op : Operator) : Bool := decide (op ∈ s)

/-- No operator at all: only blanks separate words. -/
def empty : OperatorSet := ⟨[], List.nodup_nil, List.Pairwise.nil⟩

/-- Places an operator behind all that are at least as long. -/
def place (op : Operator) : List Operator → List Operator
  | [] => [op]
  | o :: rest => if o.length < op.length then op :: o :: rest else o :: place op rest

theorem mem_place {op o : Operator} : ∀ {l : List Operator}, o ∈ place op l ↔ o = op ∨ o ∈ l
  | [] => by simp [place]
  | a :: l => by
    rw [place]
    split
    · simp
    · simp [mem_place, or_left_comm]

theorem nodup_place {op : Operator} : ∀ {l : List Operator}, l.Nodup → op ∉ l → (place op l).Nodup
  | [], _, _ => by simp [place]
  | a :: l, hl, hop => by
    rw [List.nodup_cons] at hl
    rw [List.mem_cons, not_or] at hop
    rw [place]
    split
    · exact List.nodup_cons.2 ⟨by simp [hop], List.nodup_cons.2 hl⟩
    · exact List.nodup_cons.2 ⟨by simp [mem_place, Ne.symm hop.1, hl.1], nodup_place hl.2 hop.2⟩

theorem longestFirst_place {op : Operator} : ∀ {l : List Operator},
    l.Pairwise (fun a b => b.length ≤ a.length) →
      (place op l).Pairwise fun a b => b.length ≤ a.length
  | [], _ => by simp [place]
  | a :: l, hl => by
    rw [List.pairwise_cons] at hl
    rw [place]
    split
    case isTrue h =>
      refine List.pairwise_cons.2 ⟨fun b hb => ?_, List.pairwise_cons.2 hl⟩
      rcases List.mem_cons.1 hb with rfl | hb
      · omega
      · have := hl.1 b hb
        omega
    case isFalse h =>
      refine List.pairwise_cons.2 ⟨fun b hb => ?_, longestFirst_place hl.2⟩
      rcases mem_place.1 hb with rfl | hb
      · omega
      · exact hl.1 b hb

/-- Adds an operator; one that is there already stays where it is. -/
def insert (s : OperatorSet) (op : Operator) : OperatorSet :=
  if h : op ∈ s.toList then s
  else ⟨place op s.toList, nodup_place s.nodup h, longestFirst_place s.longestFirst⟩

theorem mem_insert {s : OperatorSet} {op o : Operator} : o ∈ s.insert op ↔ o = op ∨ o ∈ s := by
  rw [mem_def, mem_def, insert]
  split
  case isTrue h =>
    constructor
    · exact Or.inr
    · rintro (rfl | h')
      · exact h
      · exact h'
  case isFalse => exact mem_place

/-- The set of the operators in a list. -/
def ofList (ops : List Operator) : OperatorSet := ops.foldl insert empty

theorem mem_foldl_insert {o : Operator} : ∀ {ops : List Operator} {s : OperatorSet},
    o ∈ ops.foldl insert s ↔ o ∈ s ∨ o ∈ ops
  | [], s => by simp
  | op :: ops, s => by
    rw [List.foldl_cons, mem_foldl_insert, mem_insert, List.mem_cons]
    constructor
    · rintro ((h | h) | h) <;> simp [h]
    · rintro (h | h | h) <;> simp [h]

theorem mem_ofList {o : Operator} {ops : List Operator} : o ∈ ofList ops ↔ o ∈ ops := by
  rw [ofList, mem_foldl_insert]
  simp [mem_def, empty]

/-- All five operators. -/
def full : OperatorSet := ofList Operator.all

instance : Inhabited OperatorSet := ⟨full⟩

/-- Reads a list of spellings; the first that is unknown is the error. -/
def ofSpellings (texts : List String) : Except UnknownOperator OperatorSet :=
  ofList <$> texts.mapM Operator.parse

/-- The operator of the set that the text continues with, a longest one. -/
def matchAt (s : OperatorSet) (text : List Char) : Option Operator :=
  s.toList.find? fun op => op.spelling.isPrefixOf text

theorem mem_of_matchAt {s : OperatorSet} {text : List Char} {op : Operator}
    (h : s.matchAt text = some op) : op ∈ s := List.mem_of_find?_eq_some h

theorem isPrefix_of_matchAt {s : OperatorSet} {text : List Char} {op : Operator}
    (h : s.matchAt text = some op) : op.spelling <+: text := by
  rw [matchAt] at h
  have := List.find?_some h
  exact List.isPrefixOf_iff_prefix.1 this

theorem longest_matchAt {s : OperatorSet} {text : List Char} {op o : Operator}
    (h : s.matchAt text = some op) (ho : o ∈ s) (hp : o.spelling <+: text) :
    o.length ≤ op.length := by
  rw [matchAt, List.find?_eq_some_iff_append] at h
  obtain ⟨_, before, after, e, hb⟩ := h
  have ho' : o ∈ before ++ op :: after := e ▸ ho
  rcases List.mem_append.1 ho' with ho' | ho'
  · have := hb o ho'
    simp [List.isPrefixOf_iff_prefix.2 hp] at this
  · have hs := s.longestFirst
    rw [e, List.pairwise_append] at hs
    rcases List.mem_cons.1 ho' with rfl | ho'
    · exact Nat.le_refl _
    · exact (List.pairwise_cons.1 hs.2.1).1 o ho'

end OperatorSet

end PipelineShell
