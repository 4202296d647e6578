/-
Cutting a line into words.

Outside double quotes, blanks separate words and an operator of the set is a
word of its own, the longest one that the line continues with.  Everything
else is literal text; a double quote stays in the text and turns the meaning
of blanks and operators off until the next one.  There is no escape character.

`tokens` takes one word after the other off the front: skip blanks, then an
operator or a maximal literal.  The rest is shorter each time
(`literal_rest_length_lt`), which is why it ends.  A line whose last quote is
not closed has no words at all.
-/
import PipelineShell.Operator.Set
import PipelineShell.Text.Blank
import PipelineShell.Word

namespace PipelineShell

inductive LexError where
  | unbalancedQuotes
deriving DecidableEq, Repr

def LexError.message : LexError → String
  | .unbalancedQuotes => "クォートが閉じられていません"

namespace Word

/-- What taking a literal off the front of a text gives. -/
structure LiteralSpan where
  raw : List Char
  rest : List Char
  /-- The text ended inside quotes. -/
  unclosed : Bool
deriving DecidableEq, Repr

/-- Whether a literal ends before this text, given that it is outside quotes. -/
def endsLiteral (ops : OperatorSet) : List Char → Bool
  | [] => true
  | c :: cs => Text.isBlank c || (ops.matchAt (c :: cs)).isSome

/-- The longest literal at the front; `inQuotes` tells whether a quote is open. -/
def literalSpan (ops : OperatorSet) (inQuotes : Bool) : List Char → LiteralSpan
  | [] => ⟨[], [], inQuotes⟩
  | c :: cs =>
    if !inQuotes && endsLiteral ops (c :: cs) then ⟨[], c :: cs, false⟩
    else
      let s := literalSpan ops (inQuotes != (c == '"')) cs
      ⟨c :: s.raw, s.rest, s.unclosed⟩

theorem literalSpan_append (ops : OperatorSet) (inQuotes : Bool) (cs : List Char) :
    (literalSpan ops inQuotes cs).raw ++ (literalSpan ops inQuotes cs).rest = cs := by
  induction cs generalizing inQuotes with
  | nil => rfl
  | cons c cs ih =>
    rw [literalSpan]
    split
    · rfl
    · simp [ih]

theorem literalSpan_rest_length_le (ops : OperatorSet) (inQuotes : Bool) (cs : List Char) :
    (literalSpan ops inQuotes cs).rest.length ≤ cs.length := by
  have := congrArg List.length (literalSpan_append ops inQuotes cs)
  rw [List.length_append] at this
  omega

/-- A literal that begins outside quotes, where no word ends, takes at least one character. -/
theorem literal_rest_length_lt {ops : OperatorSet} {c : Char} {cs : List Char}
    (h : endsLiteral ops (c :: cs) = false) :
    (literalSpan ops false (c :: cs)).rest.length < (c :: cs).length := by
  rw [literalSpan, h]
  exact Nat.lt_succ_of_le (literalSpan_rest_length_le ops _ cs)

theorem length_trimStart_le (cs : List Char) : (Text.trimStart cs).length ≤ cs.length :=
  (List.dropWhile_sublist _).length_le

theorem isBlank_head_trimStart {cs rest : List Char} {c : Char}
    (h : Text.trimStart cs = c :: rest) : Text.isBlank c = false := by
  induction cs with
  | nil => simp [Text.trimStart] at h
  | cons a as ih =>
    rw [Text.trimStart, List.dropWhile_cons] at h
    split at h
    · exact ih h
    · next ha =>
      cases h
      simpa using ha

/-- The words of a text that begins outside quotes. -/
def tokens (ops : OperatorSet) (text : List Char) : Except LexError (List Word) :=
  match _h : Text.trimStart text with
  | [] => .ok []
  | c :: cs =>
    match _hm : ops.matchAt (c :: cs) with
    | some op => (Word.operator op :: ·) <$> tokens ops ((c :: cs).drop op.length)
    | none =>
      let s := literalSpan ops false (c :: cs)
      if s.unclosed then .error .unbalancedQuotes
      else (Word.literal (String.ofList s.raw) :: ·) <$> tokens ops s.rest
termination_by text.length
decreasing_by
  · have h1 := length_trimStart_le text
    have h2 := op.length_pos
    rw [_h] at h1
    simp only [List.length_drop, List.length_cons] at *
    omega
  · have h1 := length_trimStart_le text
    have h2 : endsLiteral ops (c :: cs) = false := by
      simp [endsLiteral, _hm, isBlank_head_trimStart _h]
    have h3 := literal_rest_length_lt h2
    rw [_h] at h1
    exact Nat.lt_of_lt_of_le h3 h1

end Word

/-- The words of a line. -/
def tokenize (line : String) (ops : OperatorSet) : Except LexError (List Word) :=
  Word.tokens ops line.toList

end PipelineShell
