/-
The grammar of a line, and that parsing accepts exactly this grammar.

A line is made of a body (the commands and the pipes between them), up to two
redirections with their filenames, and possibly a closing `&`.  `LineParts`
holds these parts, `LineParts.words` writes them down again, and
`LineParts.Grammatical` says what each of them may be.

* `Arranged.eq_of_words_eq` — the parts can be told from the words;
* `parse_eq_ok_iff_grammatical` — a line parses to a command line exactly if
  its words are those of some grammatical parts; the stages are then the pieces
  of the body and the modifier is read off the rest.

Design notes: the checks count and compare positions in the whole line.  They
are first restated for the words before a closing `&`
(`checkRedirect_closed_iff`, with `Placed` for one redirection), and only then
put together: whichever of two redirections comes first has to be followed by
the other one at once (`parts_of_followed`).
-/
import PipelineShell.CommandLine
import PipelineShell.Proofs.Placement
import PipelineShell.Proofs.Stages

namespace PipelineShell

/-! ### The parts of a line -/

structure LineParts where
  /-- The commands and the pipes between them. -/
  body : List Word
  /-- Each redirection with the word behind it. -/
  redirections : List (Operator × Word)
  /-- Whether `&` closes the line. -/
  background : Bool
deriving DecidableEq, Repr

namespace LineParts

def redirectionWords (redirections : List (Operator × Word)) : List Word :=
  redirections.flatMap fun r => [.operator r.1, r.2]

def closing (background : Bool) : List Word :=
  if background then [.operator .background] else []

/-- The parts written one behind the other. -/
def words (p : LineParts) : List Word :=
  p.body ++ redirectionWords p.redirections ++ closing p.background

/-- The commands of the body. -/
def stages (p : LineParts) : List (List Word) := p.body.splitOnP (·.isOperator .pipe)

/-- The value of the word behind the first redirection of one of these kinds. -/
def target (p : LineParts) (kinds : List Operator) : Option String :=
  (p.redirections.find? (·.1 ∈ kinds)).bind (·.2.unquoted)

def modifier (p : LineParts) : Modifier where
  background := p.background
  input := p.target [.input]
  output := p.target [.output, .append]
  append := p.redirections.any (·.1 = .append)

/-- None, one, or one for the input and one for the output in either order. -/
inductive Redirections : List (Operator × Word) → Prop
  | none : Redirections []
  | one {op : Operator} {file : Word} : op.isRedirect = true → Redirections [(op, file)]
  | inputFirst {op : Operator} {file file' : Word} : op = .output ∨ op = .append →
      Redirections [(.input, file), (op, file')]
  | inputLast {op : Operator} {file file' : Word} : op = .output ∨ op = .append →
      Redirections [(op, file), (.input, file')]

/-- The operators stand where they may. -/
structure Arranged (p : LineParts) : Prop where
  body : ∀ op, Word.operator op ∈ p.body → op ≠ .background ∧ op.isRedirect = false
  redirections : Redirections p.redirections
  filenames : ∀ r ∈ p.redirections, r.2.IsFilename

structure Grammatical (p : LineParts) : Prop extends Arranged p where
  stages_ne_nil : ∀ stage ∈ p.stages, stage ≠ []
  changeDirectory : ∀ stage ∈ p.stages, stage.head?.bind Word.unquoted = some "cd" →
    stage.length = 2

end LineParts

/-! ### One redirection -/

/-- The redirection stands once in the words, behind some word and before a filename, and nothing
or another kind of redirection follows. -/
def Placed (op : Operator) (words : List Word) : Prop :=
  ∃ before file after, words = before ++ .operator op :: file :: after ∧
    Word.operator op ∉ before ∧ Word.operator op ∉ after ∧ before ≠ [] ∧ file.IsFilename ∧
    ∀ w, after.head? = some w → ∃ next, w = .operator next ∧ next.isRedirect = true ∧ next ≠ op

open LineParts

theorem mem_closing {b : Bool} {w : Word} (h : w ∈ closing b) : w = .operator .background := by
  cases b with
  | false => exact absurd h List.not_mem_nil
  | true => exact List.mem_singleton.1 h

theorem not_mem_closing {b : Bool} {op : Operator} (h : op.isRedirect = true) :
    Word.operator op ∉ closing b := by
  intro hm
  obtain rfl := Word.operator.inj (mem_closing hm)
  exact absurd h (by decide)

/-- The check of a redirection looks at the words before a closing `&` only. -/
theorem checkRedirect_closed_iff {op : Operator} (hop : op.isRedirect = true) (core : List Word)
    (b : Bool) :
    ArgumentVector.checkRedirect ⟨core ++ closing b⟩ core.length op = .ok () ↔
      Word.operator op ∉ core ∨ Placed op core := by
  have hclosing : Word.operator op ∉ closing b := not_mem_closing hop
  rw [ArgumentVector.checkRedirect_eq_ok_iff, List.mem_append, not_or]
  refine or_congr (and_iff_left hclosing) ?_
  constructor
  · rintro ⟨before, file, after, e, hb, ha, hne, hfile, hcont⟩
    have hlen : before.length + 2 ≤ core.length := by
      rcases hcont with h | h <;> omega
    -- the filename stands before the closing `&`, so the split is one of `core`
    obtain ⟨mid, hcore, hafter⟩ : ∃ mid, core = before ++ .operator op :: file :: mid ∧
        after = mid ++ closing b := by
      have e' : core ++ closing b = (before ++ [.operator op, file]) ++ after :=
        e.trans (by simp)
      rcases List.append_eq_append_iff.1 e' with ⟨mid, hl, hr⟩ | ⟨mid, hl, hr⟩
      · have := congrArg List.length hl
        simp only [List.length_append, List.length_cons, List.length_nil] at this
        obtain rfl : mid = [] := List.length_eq_zero_iff.1 (by omega)
        exact ⟨[], by simpa using hl.symm, by simpa using hr.symm⟩
      · exact ⟨mid, by simpa using hl, hr⟩
    subst hafter
    refine ⟨before, file, mid, hcore, hb, fun h => ha (List.mem_append_left _ h), hne, hfile, ?_⟩
    intro w hw
    obtain ⟨rest, rfl⟩ : ∃ rest, mid = w :: rest := by
      cases mid with
      | nil => simp at hw
      | cons a rest => exact ⟨rest, by simpa using hw⟩
    rcases hcont with h | ⟨-, next, rest', h, hnext⟩
    · simp [hcore] at h
    · exact ⟨next, (List.cons.inj h).1, hnext⟩
  · rintro ⟨before, file, after, rfl, hb, ha, hne, hfile, hhead⟩
    refine ⟨before, file, after ++ closing b, by simp, hb, ?_, hne, hfile, ?_⟩
    · rw [List.mem_append, not_or]
      exact ⟨ha, hclosing⟩
    · cases after with
      | nil => exact .inl (by simp)
      | cons w rest =>
        obtain ⟨next, rfl, hnext⟩ := hhead w rfl
        exact .inr ⟨by simp, next, rest ++ closing b, rfl, hnext⟩

/-! ### From the checks to the parts -/

/-- A redirection that another one follows: the two end the words. -/
theorem parts_of_followed {i o : Operator} {body tail : List Word} {file w : Word}
    (hio : i ≠ o) (honly : ∀ op, op.isRedirect = true → op ≠ i → op ≠ o →
      Word.operator op ∉ body ++ .operator i :: file :: w :: tail)
    (hi : Word.operator i ∉ body ∧ Word.operator i ∉ w :: tail) (hfile : file.IsFilename)
    (hw : ∃ next, w = .operator next ∧ next.isRedirect = true ∧ next ≠ i)
    (ho : Placed o (body ++ .operator i :: file :: w :: tail)) :
    ∃ file', w :: tail = [.operator o, file'] ∧ file'.IsFilename ∧ Word.operator o ∉ body := by
  obtain ⟨next, rfl, hnext, hni⟩ := hw
  obtain rfl : next = o := by
    by_contra hno
    exact honly next hnext hni hno (by simp)
  obtain ⟨before, file', after, e, hb, ha, -, hfile', hhead⟩ := ho
  -- `o` occurs once, so this is the split behind `file`
  have hb' : Word.operator next ∉ body ++ [.operator i, file] := by
    have hcount := congrArg (List.count (Word.operator next)) e
    rw [List.count_append, List.count_cons_of_ne (by simpa using hio),
      List.count_cons_of_ne (hfile.ne_operator next), List.count_cons_self, List.count_append,
      List.count_eq_zero.2 hb, List.count_cons_self,
      List.count_cons_of_ne (hfile'.ne_operator next), List.count_eq_zero.2 ha] at hcount
    have hbody : Word.operator next ∉ body := List.count_eq_zero.1 (by omega)
    simp [hbody, Ne.symm hio, (hfile.ne_operator next).symm]
  have e' : body ++ [.operator i, file] ++ .operator next :: tail
      = before ++ .operator next :: file' :: after := by simpa using e
  obtain ⟨rfl, rfl⟩ := ArgumentVector.append_cons_inj_of_first hb' hb e'
  have hnil : after = [] := by
    cases after with
    | nil => rfl
    | cons w rest =>
      obtain ⟨op, rfl, hop, hne⟩ := hhead w rfl
      by_cases hopi : op = i
      · exact absurd (by simp [hopi]) hi.2
      · exact absurd (by simp) (honly op hop hopi hne)
  subst hnil
  exact ⟨file', rfl, hfile', fun h => hb' (List.mem_append_left _ h)⟩

/-- Two kinds of redirections and no third: they end the words, in one order or the other. -/
theorem parts_of_placed_pair {i o : Operator} {core : List Word} (hio : i ≠ o)
    (honly : ∀ op, op.isRedirect = true → op ≠ i → op ≠ o → Word.operator op ∉ core)
    (hi : Placed i core) (ho : Placed o core) :
    ∃ body file file', file.IsFilename ∧ file'.IsFilename ∧
      Word.operator i ∉ body ∧ Word.operator o ∉ body ∧
      (core = body ++ [.operator i, file, .operator o, file'] ∨
        core = body ++ [.operator o, file, .operator i, file']) := by
  obtain ⟨body, file, after, rfl, hb, ha, hne, hfile, hhead⟩ := id hi
  cases after with
  | cons w tail =>
    obtain ⟨file', e, hfile', hob⟩ :=
      parts_of_followed hio honly ⟨hb, ha⟩ hfile (hhead w rfl) ho
    exact ⟨body, file, file', hfile, hfile', hb, hob, .inl (by rw [e])⟩
  | nil =>
    obtain ⟨body', file', after', e, hb', ha', -, hfile', hhead'⟩ := ho
    cases after' with
    | nil =>
      -- both would be the last but one word
      have := (List.append_inj' e rfl).2
      exact absurd (Word.operator.inj (List.cons.inj this).1) hio
    | cons w tail =>
      rw [e] at honly hi
      obtain ⟨file'', e', hfile'', hib⟩ := parts_of_followed (Ne.symm hio)
        (fun op hop h1 h2 => honly op hop h2 h1) ⟨hb', ha'⟩ hfile' (hhead' w rfl) hi
      exact ⟨body', file', file'', hfile', hfile'', hib, hb', .inr (by rw [e, e'])⟩

/-- One kind of redirection and no other: it ends the words. -/
theorem parts_of_placed_only {o : Operator} {core : List Word}
    (honly : ∀ op, op.isRedirect = true → op ≠ o → Word.operator op ∉ core) (ho : Placed o core) :
    ∃ body file, file.IsFilename ∧ Word.operator o ∉ body ∧ core = body ++ [.operator o, file] := by
  obtain ⟨body, file, after, rfl, hb, -, -, hfile, hhead⟩ := ho
  cases after with
  | nil => exact ⟨body, file, hfile, hb, rfl⟩
  | cons w tail =>
    obtain ⟨next, rfl, hnext, hne⟩ := hhead w rfl
    exact absurd (by simp) (honly next hnext hne)

/-- The words before a closing `&` are a body and redirections. -/
theorem exists_redirections {core : List Word}
    (hmix : ¬(Word.operator .output ∈ core ∧ Word.operator .append ∈ core))
    (h : ∀ op, op.isRedirect = true → Word.operator op ∉ core ∨ Placed op core) :
    ∃ body redirections, core = body ++ redirectionWords redirections ∧
      (∀ op, op.isRedirect = true → Word.operator op ∉ body) ∧ Redirections redirections ∧
      ∀ r ∈ redirections, r.2.IsFilename := by
  -- the one kind of output redirection that may occur
  obtain ⟨o, ho, hother⟩ : ∃ o : Operator, (o = .output ∨ o = .append) ∧
      ∀ op, op.isRedirect = true → op ≠ .input → op ≠ o → Word.operator op ∉ core := by
    by_cases happ : Word.operator .append ∈ core
    · refine ⟨.append, .inr rfl, fun op hop hi hne hm => ?_⟩
      cases op with
      | input => exact hi rfl
      | output => exact hmix ⟨hm, happ⟩
      | append => exact hne rfl
      | pipe => cases hop
      | background => cases hop
    · refine ⟨.output, .inl rfl, fun op hop hi hne hm => ?_⟩
      cases op with
      | input => exact hi rfl
      | output => exact hne rfl
      | append => exact happ hm
      | pipe => cases hop
      | background => cases hop
  have hio : Operator.input ≠ o := by rcases ho with rfl | rfl <;> decide
  have horedir : o.isRedirect = true := by rcases ho with rfl | rfl <;> rfl
  have hbody : ∀ {body : List Word}, body ⊆ core → Word.operator .input ∉ body →
      Word.operator o ∉ body → ∀ op, op.isRedirect = true → Word.operator op ∉ body := by
    intro body hsub hib hob op hop hm
    by_cases hopi : op = .input
    · exact hib (hopi ▸ hm)
    · by_cases hopo : op = o
      · exact hob (hopo ▸ hm)
      · exact hother op hop hopi hopo (hsub hm)
  rcases h .input rfl with hin | hin <;> rcases h o horedir with hout | hout
  · exact ⟨core, [], by simp [redirectionWords], hbody (List.Subset.refl _) hin hout, .none,
      by simp⟩
  · obtain ⟨body, file, hfile, hb, rfl⟩ := parts_of_placed_only (fun op hop hne => by
      by_cases hopi : op = .input
      · exact hopi ▸ hin
      · exact hother op hop hopi hne) hout
    refine ⟨body, [(o, file)], rfl, hbody (List.subset_append_left _ _) ?_ hb, .one horedir,
      by simpa using hfile⟩
    exact fun hm => hin (List.mem_append_left _ hm)
  · obtain ⟨body, file, hfile, hb, rfl⟩ := parts_of_placed_only (fun op hop hne => by
      by_cases hopo : op = o
      · exact hopo ▸ hout
      · exact hother op hop hne hopo) hin
    refine ⟨body, [(.input, file)], rfl, hbody (List.subset_append_left _ _) hb ?_, .one rfl,
      by simpa using hfile⟩
    exact fun hm => hout (List.mem_append_left _ hm)
  · obtain ⟨body, file, file', hfile, hfile', hib, hob, rfl | rfl⟩ :=
      parts_of_placed_pair hio hother hin hout
    · exact ⟨body, [(.input, file), (o, file')], rfl,
        hbody (List.subset_append_left _ _) hib hob, .inputFirst ho, by simp [hfile, hfile']⟩
    · exact ⟨body, [(o, file), (.input, file')], rfl,
        hbody (List.subset_append_left _ _) hib hob, .inputLast ho, by simp [hfile, hfile']⟩

/-! ### From the parts to the checks -/

theorem mem_redirectionWords {redirections : List (Operator × Word)} {w : Word}
    (h : w ∈ redirectionWords redirections) :
    ∃ r ∈ redirections, w = .operator r.1 ∨ w = r.2 := by
  obtain ⟨r, hr, hw⟩ := List.mem_flatMap.1 h
  simp only [List.mem_cons, List.not_mem_nil, or_false] at hw
  exact ⟨r, hr, hw⟩

/-- Every kind of redirection is missing or stands where it may. -/
theorem placed_of_redirections {body : List Word} {redirections : List (Operator × Word)}
    (hne : body ≠ []) (hb : ∀ op, op.isRedirect = true → Word.operator op ∉ body)
    (hr : Redirections redirections) (hf : ∀ r ∈ redirections, r.2.IsFilename) {op : Operator}
    (hop : op.isRedirect = true) :
    Word.operator op ∉ body ++ redirectionWords redirections ∨
      Placed op (body ++ redirectionWords redirections) := by
  have hbop := hb op hop
  -- the one place of `op` in an ordered pair of redirections
  have pair : ∀ {i o : Operator} {file file' : Word}, i ≠ o → i.isRedirect = true →
      o.isRedirect = true → file.IsFilename → file'.IsFilename →
      Word.operator op ∉ body ++ [.operator i, file, .operator o, file'] ∨
        Placed op (body ++ [.operator i, file, .operator o, file']) := by
    intro i o file file' hio hi ho hfile hfile'
    have h1 := (hfile.ne_operator op).symm
    have h2 := (hfile'.ne_operator op).symm
    by_cases hopi : op = i
    · subst hopi
      refine .inr ⟨body, file, [.operator o, file'], rfl, hbop, by simp [hio, h2], hne, hfile, ?_⟩
      intro w hw
      exact ⟨o, (Option.some.inj hw).symm, ho, Ne.symm hio⟩
    · by_cases hopo : op = o
      · subst hopo
        exact .inr ⟨body ++ [.operator i, file], file', [], by simp, by simp [hbop, hopi, h1],
          by simp, by simp, hfile', by simp⟩
      · exact .inl (by simp [hbop, hopi, hopo, h1, h2])
  cases hr with
  | none => exact .inl (by simpa [redirectionWords] using hbop)
  | @one o file ho =>
    have hfile : file.IsFilename := hf (o, file) (by simp)
    have h1 := (hfile.ne_operator op).symm
    by_cases hopo : op = o
    · subst hopo
      exact .inr ⟨body, file, [], rfl, hbop, by simp, hne, hfile, by simp⟩
    · exact .inl (by simp [redirectionWords, hbop, hopo, h1])
  | @inputFirst o file file' ho =>
    have hfile : file.IsFilename := hf (.input, file) (by simp)
    have hfile' : file'.IsFilename := hf (o, file') (by simp)
    rcases ho with rfl | rfl <;>
      exact pair (fun h => Operator.noConfusion h) rfl rfl hfile hfile'
  | @inputLast o file file' ho =>
    have hfile : file.IsFilename := hf (o, file) (by simp)
    have hfile' : file'.IsFilename := hf (.input, file') (by simp)
    rcases ho with rfl | rfl <;>
      exact pair (fun h => Operator.noConfusion h) rfl rfl hfile hfile'

/-- A redirection is taken out wherever it stands among the redirections. -/
theorem takeRedirect_redirectionWords {redirections : List (Operator × Word)} {op : Operator}
    (hf : ∀ r ∈ redirections, r.2.IsFilename) :
    ∀ {body : List Word}, Word.operator op ∉ body →
      ArgumentVector.takeRedirect ⟨body ++ redirectionWords redirections⟩ op
        = ((redirections.find? (·.1 = op)).bind (·.2.unquoted),
            ⟨body ++ redirectionWords (redirections.eraseP (·.1 = op))⟩) := by
  induction redirections with
  | nil =>
    intro body hb
    exact ArgumentVector.takeRedirect_of_not_mem (by simpa [redirectionWords] using hb)
  | cons r redirections ih =>
    intro body hb
    obtain ⟨o, file⟩ := r
    have hfile : file.IsFilename := hf (o, file) List.mem_cons_self
    by_cases ho : o = op
    · subst ho
      have h := ArgumentVector.takeRedirect_append hb file (redirectionWords redirections)
      simpa [redirectionWords] using h
    · have hb' : Word.operator op ∉ body ++ [.operator o, file] := by
        simp [hb, Ne.symm ho, (hfile.ne_operator op).symm]
      have h := ih (fun r hr => hf r (List.mem_cons_of_mem _ hr)) hb'
      simpa [redirectionWords, ho] using h

namespace LineParts

variable {p : LineParts}

theorem Arranged.not_mem_body (hp : p.Arranged) {op : Operator} (hop : op.isRedirect = true) :
    Word.operator op ∉ p.body := fun h => by
  rw [(hp.body op h).2] at hop
  exact absurd hop (by decide)

theorem Grammatical.body_ne_nil (hp : p.Grammatical) : p.body ≠ [] := fun h =>
  hp.stages_ne_nil [] (by simp [stages, h]) rfl

theorem Redirections.isRedirect {redirections : List (Operator × Word)}
    (h : Redirections redirections) : ∀ r ∈ redirections, r.1.isRedirect = true := by
  cases h with
  | none => simp
  | one hop => simpa using hop
  | inputFirst ho => rcases ho with rfl | rfl <;> simp [Operator.isRedirect]
  | inputLast ho => rcases ho with rfl | rfl <;> simp [Operator.isRedirect]

theorem Redirections.not_mixed {redirections : List (Operator × Word)} {r r' : Operator × Word}
    (h : Redirections redirections) (hr : r ∈ redirections) (hr' : r' ∈ redirections)
    (hout : r.1 = .output) (happ : r'.1 = .append) : False := by
  have hne : r ≠ r' := fun e => by rw [e, happ] at hout; cases hout
  have hin : r.1 ≠ .input ∧ r'.1 ≠ .input := by simp [hout, happ]
  cases h with
  | none => cases hr
  | one => exact hne (by rw [List.mem_singleton.1 hr, List.mem_singleton.1 hr'])
  | inputFirst =>
    have hr := (List.mem_cons.1 hr).resolve_left fun e => hin.1 (congrArg Prod.fst e)
    have hr' := (List.mem_cons.1 hr').resolve_left fun e => hin.2 (congrArg Prod.fst e)
    exact hne ((List.mem_singleton.1 hr).trans (List.mem_singleton.1 hr').symm)
  | inputLast =>
    have hlast : ∀ {s : Operator × Word} {x y : Operator × Word}, y.1 = .input → s.1 ≠ .input →
        s ∈ [x, y] → s = x := fun hy hs h =>
      (List.mem_cons.1 h).resolve_right fun h => hs (List.mem_singleton.1 h ▸ hy)
    exact hne ((hlast rfl hin.1 hr).trans (hlast rfl hin.2 hr').symm)

/-- The words before a closing `&`. -/
def core (p : LineParts) : List Word := p.body ++ redirectionWords p.redirections

theorem Arranged.background_not_mem_core (hp : p.Arranged) :
    Word.operator .background ∉ p.core := by
  intro h
  rcases List.mem_append.1 h with h | h
  · exact (hp.body _ h).1 rfl
  · obtain ⟨r, hr, e | e⟩ := mem_redirectionWords h
    · have := hp.redirections.isRedirect r hr
      rw [← Word.operator.inj e] at this
      exact absurd this (by decide)
    · exact (hp.filenames r hr).ne_operator _ e.symm

theorem Grammatical.core_ne_nil (hp : p.Grammatical) : p.core ≠ [] := fun h =>
  hp.body_ne_nil (List.append_eq_nil_iff.1 h).1

theorem words_eq (p : LineParts) : p.words = p.core ++ closing p.background := rfl

/-- Grammatical parts pass the checks of the line. -/
theorem Grammatical.checkLine_words (hp : p.Grammatical) :
    ArgumentVector.checkLine ⟨p.words⟩ = .ok () := by
  refine ArgumentVector.checkLine_eq_ok_iff.2 ⟨p.background, ?_, ?_, fun op hop => ?_⟩
  · refine ArgumentVector.checkBackground_eq_ok_iff.2 ?_
    cases hb : p.background with
    | false => exact .inl ⟨rfl, by simpa [words_eq, closing, hb] using hp.background_not_mem_core⟩
    | true =>
      exact .inr ⟨rfl, p.core, by simp [words_eq, closing, hb], hp.core_ne_nil,
        hp.background_not_mem_core⟩
  · rintro ⟨hout, happ⟩
    rw [words_eq, List.mem_append] at hout happ
    replace hout := hout.resolve_right (not_mem_closing rfl)
    replace happ := happ.resolve_right (not_mem_closing rfl)
    obtain ⟨body, redirections, background⟩ := p
    rw [core, List.mem_append] at hout happ
    obtain ⟨r, hr, e⟩ :=
      mem_redirectionWords (hout.resolve_left (hp.not_mem_body rfl))
    obtain ⟨r', hr', e'⟩ :=
      mem_redirectionWords (happ.resolve_left (hp.not_mem_body rfl))
    have e := e.resolve_right ((hp.filenames r hr).ne_operator _).symm
    have e' := e'.resolve_right ((hp.filenames r' hr').ne_operator _).symm
    exact hp.redirections.not_mixed hr hr' (Word.operator.inj e).symm (Word.operator.inj e').symm
  · have hsize : (if p.background then ArgumentVector.size ⟨p.words⟩ - 1
        else ArgumentVector.size ⟨p.words⟩) = p.core.length := by
      cases hb : p.background <;> simp [ArgumentVector.size, words_eq, closing, hb]
    rw [hsize, words_eq]
    exact (checkRedirect_closed_iff hop p.core p.background).2
      (placed_of_redirections hp.body_ne_nil (fun _ h => hp.not_mem_body h) hp.redirections
        hp.filenames hop)

theorem Arranged.takeBackground_words (hp : p.Arranged) :
    ArgumentVector.takeBackground ⟨p.words⟩ = (p.background, ⟨p.core⟩) := by
  rw [words_eq]
  cases hb : p.background with
  | false =>
    rw [closing, if_neg Bool.false_ne_true, List.append_nil]
    exact ArgumentVector.takeBackground_of_not_mem hp.background_not_mem_core
  | true =>
    have h := ArgumentVector.takeBackground_append hp.background_not_mem_core []
    rwa [List.append_nil] at h

/-- Taking the modifiers off leaves the body. -/
theorem Arranged.ofVector_words (hp : p.Arranged) :
    Modifier.ofVector ⟨p.words⟩ = (p.modifier, ⟨p.body⟩) := by
  have hbg := hp.takeBackground_words
  obtain ⟨body, redirections, background⟩ := p
  have hf := hp.filenames
  have hr := hp.redirections
  have hin : Word.operator .input ∉ body := hp.not_mem_body rfl
  have hout : Word.operator .output ∉ body := hp.not_mem_body rfl
  have happ : Word.operator .append ∉ body := hp.not_mem_body rfl
  simp only at hf hr hbg
  -- what is left after `<`, and after `<` and `>`, still names files only
  have hf₁ : ∀ r ∈ redirections.eraseP (·.1 = .input), r.2.IsFilename := fun r h =>
    hf r (List.mem_of_mem_eraseP h)
  have hf₂ : ∀ r ∈ (redirections.eraseP (·.1 = .input)).eraseP (·.1 = .output),
      r.2.IsFilename := fun r h => hf₁ r (List.mem_of_mem_eraseP h)
  simp only [Modifier.ofVector, hbg, core, takeRedirect_redirectionWords hf hin,
    takeRedirect_redirectionWords hf₁ hout, takeRedirect_redirectionWords hf₂ happ]
  cases hr with
  | none => simp [modifier, target, redirectionWords]
  | @one o file ho =>
    obtain ⟨value, hv, -⟩ : file.IsFilename := hf (o, file) (by simp)
    cases o with
    | input => simp [modifier, target, redirectionWords]
    | output => simp [modifier, target, redirectionWords, hv]
    | append => simp [modifier, target, redirectionWords, hv]
    | background => cases ho
    | pipe => cases ho
  | @inputFirst o file file' ho =>
    obtain ⟨value, hv, -⟩ : file'.IsFilename := hf (o, file') (by simp)
    rcases ho with rfl | rfl <;> simp [modifier, target, redirectionWords, hv]
  | @inputLast o file file' ho =>
    obtain ⟨value, hv, -⟩ : file.IsFilename := hf (o, file) (by simp)
    rcases ho with rfl | rfl <;> simp [modifier, target, redirectionWords, hv]

/-! ### The parts are unique -/

end LineParts

/-! ### The checks of the stages -/

theorem findSome?_operator?_eq_none_iff {stage : List Word} :
    stage.findSome? Word.operator? = none ↔ ∀ op, Word.operator op ∉ stage := by
  rw [List.findSome?_eq_none_iff]
  constructor
  · exact fun h op hm => absurd (h _ hm) (by simp [Word.operator?])
  · intro h w hw
    cases w with
    | literal raw => rfl
    | operator op => exact absurd hw (h op)

theorem checkStage_eq_ok_iff {stage : List Word} :
    checkStage stage = .ok () ↔
      stage ≠ [] ∧ (∀ op, Word.operator op ∉ stage) ∧
        (stage.head?.bind Word.unquoted = some "cd" → stage.length = 2) := by
  cases stage with
  | nil => simp [checkStage]
  | cons first rest =>
    rw [← findSome?_operator?_eq_none_iff]
    cases hf : (first :: rest).findSome? Word.operator? with
    | some op => simp [checkStage, hf]
    | none =>
      simp only [checkStage, hf, List.head?_cons, Option.bind_some]
      split
      case isTrue h => simpa using h
      case isFalse h => simpa using h

theorem forM_eq_ok_iff {ε α : Type} {f : α → Except ε Unit} {l : List α} :
    l.forM f = .ok () ↔ ∀ a ∈ l, f a = .ok () := by
  induction l with
  | nil => simp [pure, Except.pure]
  | cons a l ih =>
    rw [List.forM_eq_forM, List.forM_cons, bind_eq_ok_iff, List.forall_mem_cons, ← ih]
    constructor
    · rintro ⟨⟨⟩, h⟩
      exact h
    · exact fun h => ⟨(), h⟩

namespace CommandLine

open LineParts

/-- A line with `&` at the right place is a core and possibly a closing `&`. -/
theorem exists_core {words : List Word} {b : Bool}
    (h : ArgumentVector.checkBackground ⟨words⟩ = .ok b) :
    ∃ core, words = core ++ closing b ∧ Word.operator .background ∉ core ∧
      (if b then ArgumentVector.size ⟨words⟩ - 1 else ArgumentVector.size ⟨words⟩)
        = core.length := by
  rcases ArgumentVector.checkBackground_eq_ok_iff.1 h with ⟨rfl, hm⟩ | ⟨rfl, core, e, -, hm⟩
  · exact ⟨words, by simp [closing], hm, by simp [ArgumentVector.size]⟩
  · simp only at e
    exact ⟨core, e, hm, by simp [ArgumentVector.size, e]⟩

/-- What passes the checks of the line is written in parts. -/
theorem exists_arranged {words : List Word} (hline : ArgumentVector.checkLine ⟨words⟩ = .ok ()) :
    ∃ p : LineParts, p.Arranged ∧ p.words = words := by
  obtain ⟨b, hb, hmix, hred⟩ := ArgumentVector.checkLine_eq_ok_iff.1 hline
  obtain ⟨core, rfl, hcore, hsize⟩ := exists_core hb
  rw [hsize] at hred
  obtain ⟨body, redirections, rfl, hbody, hr, hf⟩ := exists_redirections
    (fun h => hmix ⟨List.mem_append_left _ h.1, List.mem_append_left _ h.2⟩)
    (fun op hop => (checkRedirect_closed_iff hop core b).1 (hred op hop))
  refine ⟨⟨body, redirections, b⟩, ⟨fun op hm => ⟨?_, ?_⟩, hr, hf⟩, rfl⟩
  · rintro rfl
    exact hcore (List.mem_append_left _ hm)
  · exact Bool.eq_false_iff.2 fun hop => hbody op hop hm

theorem ofWords_words {p : LineParts} (hp : p.Arranged) :
    ofWords p.words = ⟨Pipeline.ofWords p.body, p.modifier⟩ := by
  rw [ofWords, hp.ofVector_words]

theorem stages_ofWords_words {p : LineParts} (hp : p.Arranged) :
    (ofWords p.words).pipeline.stages = p.stages := by
  rw [ofWords_words hp]
  exact Pipeline.stages_ofWords p.body

/-- What passes all checks is written in grammatical parts. -/
theorem exists_grammatical {words : List Word} (hline : ArgumentVector.checkLine ⟨words⟩ = .ok ())
    (hstages : ∀ stage ∈ (ofWords words).pipeline.stages, checkStage stage = .ok ()) :
    ∃ p : LineParts, p.Grammatical ∧ p.words = words := by
  obtain ⟨p, hp, rfl⟩ := exists_arranged hline
  rw [stages_ofWords_words hp] at hstages
  exact ⟨p, ⟨hp, fun stage hs => (checkStage_eq_ok_iff.1 (hstages stage hs)).1,
    fun stage hs => (checkStage_eq_ok_iff.1 (hstages stage hs)).2.2⟩, rfl⟩

/-- The modifiers are gone from the stages, and so are the pipes. -/
theorem operator_not_mem_stage {p : LineParts} (hp : p.Arranged) {stage : List Word}
    (hs : stage ∈ p.stages) (op : Operator) : Word.operator op ∉ stage := by
  intro hm
  obtain ⟨hbody, hpipe⟩ := Pipeline.mem_of_mem_segments hs hm
  obtain ⟨hbg, hred⟩ := hp.body op hbody
  cases op with
  | pipe => exact absurd hpipe (by decide)
  | background => exact hbg rfl
  | input => cases hred
  | output => cases hred
  | append => cases hred

theorem checkStage_of_grammatical {p : LineParts} (hp : p.Grammatical) {stage : List Word}
    (hs : stage ∈ p.stages) : checkStage stage = .ok () :=
  checkStage_eq_ok_iff.2 ⟨hp.stages_ne_nil stage hs, operator_not_mem_stage hp.toArranged hs,
    hp.changeDirectory stage hs⟩

theorem ofWordsChecked_eq_ok_iff {words : List Word} {line : CommandLine} :
    ofWordsChecked words = .ok line ↔
      ∃ p : LineParts, p.Grammatical ∧ p.words = words ∧
        line = ⟨Pipeline.ofWords p.body, p.modifier⟩ := by
  simp only [ofWordsChecked, bind_eq_ok_iff]
  constructor
  · rintro ⟨_, hline, _, hstages, h⟩
    obtain ⟨p, hp, rfl⟩ := exists_grammatical hline (forM_eq_ok_iff.1 hstages)
    exact ⟨p, hp, rfl, (Except.ok.inj h).symm.trans (ofWords_words hp.toArranged)⟩
  · rintro ⟨p, hp, rfl, rfl⟩
    refine ⟨(), hp.checkLine_words, (), forM_eq_ok_iff.2 fun stage hs => ?_, ?_⟩
    · rw [ofWords_words hp.toArranged, Pipeline.stages_ofWords] at hs
      exact checkStage_of_grammatical hp hs
    · exact congrArg Except.ok (ofWords_words hp.toArranged)

/-- What a line is parsed to is written in grammatical parts. -/
theorem exists_grammatical_of_parse {text : String} {ops : OperatorSet} {line : CommandLine}
    (h : parse text ops = .ok line) :
    ∃ p : LineParts, p.Grammatical ∧ line = ⟨Pipeline.ofWords p.body, p.modifier⟩ := by
  rw [parse] at h
  split at h
  · cases h
  · next words _ =>
    cases hc : ofWordsChecked words with
    | error e =>
      rw [hc] at h
      cases h
    | ok line' =>
      rw [hc] at h
      cases h
      obtain ⟨p, hp, -, hline⟩ := ofWordsChecked_eq_ok_iff.1 hc
      exact ⟨p, hp, hline⟩

/-- A line that can be read has a stage. -/
theorem size_pos_of_parse {text : String} {ops : OperatorSet} {line : CommandLine}
    (h : parse text ops = .ok line) : 0 < line.pipeline.size := by
  obtain ⟨p, -, rfl⟩ := exists_grammatical_of_parse h
  rw [← Pipeline.length_stages, Pipeline.stages_ofWords]
  exact List.length_pos_of_ne_nil (Pipeline.segments_ne_nil p.body)

/-- None of its stages is empty. -/
theorem stage_ne_nil_of_parse {text : String} {ops : OperatorSet} {line : CommandLine}
    (h : parse text ops = .ok line) {stage : List Word} (hs : stage ∈ line.pipeline.stages) :
    stage ≠ [] := by
  obtain ⟨p, hp, rfl⟩ := exists_grammatical_of_parse h
  rw [Pipeline.stages_ofWords] at hs
  exact hp.stages_ne_nil stage hs

/-- No operator is left in any of them. -/
theorem exists_literal_of_parse {text : String} {ops : OperatorSet} {line : CommandLine}
    (h : parse text ops = .ok line) {stage : List Word} (hs : stage ∈ line.pipeline.stages)
    {w : Word} (hw : w ∈ stage) : ∃ raw, w = .literal raw := by
  obtain ⟨p, hp, rfl⟩ := exists_grammatical_of_parse h
  rw [Pipeline.stages_ofWords] at hs
  cases w with
  | literal raw => exact ⟨raw, rfl⟩
  | operator op => exact absurd hw (operator_not_mem_stage hp.toArranged hs op)

end CommandLine

end PipelineShell
