/-
Reading back what was written.

A word that was found in one line is found again in any other, provided that
blanks keep it apart from its neighbours.  So the words of a pipeline that is
written out, with a blank between two words and around every pipe, are those it
was cut from.

* `Word.Stands.fits` — where nothing touches a word it stands as it stood;
* `Reads` — a text that is cut into these words wherever nothing touches it,
  with `Reads.append` to put two such texts behind one another;
* `reread_text` — cutting the text of a pipeline gives the words that the
  pipeline was made of, and parsing it gives the pipeline back, without
  modifiers.

Design notes: no operator holds a blank, and that is all there is to it.  A
literal such as `>` stands where only `>>` is reserved, and the blank behind it
keeps it from becoming one.
-/
import PipelineShell.Proofs.Grammar
import PipelineShell.Proofs.Layout

namespace PipelineShell

open Text

/-! ### Where nothing touches -/

/-- The text is empty or begins with a blank, so no word reaches into it. -/
def Text.IsApart (rest : List Char) : Prop := ∀ c cs, rest = c :: cs → isBlank c = true

theorem Text.isApart_nil : IsApart [] := nofun

theorem Text.isApart_space (rest : List Char) : IsApart ([' '] ++ rest) := by
  intro c cs h
  obtain ⟨rfl, -⟩ := List.cons.inj h
  decide

/-- An operator that begins before a blank ends before it. -/
theorem Operator.prefix_of_isApart {op : Operator} {cs rest : List Char} (hrest : IsApart rest)
    (h : op.spelling <+: cs ++ rest) : op.spelling <+: cs := by
  rcases List.prefix_or_prefix_of_prefix h (List.prefix_append cs rest) with hp | ⟨tail, htail⟩
  · exact hp
  · rw [← htail, List.prefix_append_right_inj] at h
    cases tail with
    | nil => exact ⟨[], by rw [← htail, List.append_nil, List.append_nil]⟩
    | cons c tail =>
      -- A blank would be a part of the operator.
      obtain ⟨more, rfl⟩ := h
      have hblank := hrest c (tail ++ more) rfl
      have hmem : c ∈ op.spelling := htail ▸ List.mem_append_right cs List.mem_cons_self
      rw [Operator.isBlank_of_mem_spelling hmem] at hblank
      cases hblank

namespace Word

variable {ops : OperatorSet} {w : Word} {rest : List Char}

/-- The word may stand in a line. -/
def Stands (ops : OperatorSet) (w : Word) : Prop := ∃ rest, w.Fits ops rest

theorem Stands.fits (h : w.Stands ops) (hrest : IsApart rest) : w.Fits ops rest := by
  obtain ⟨before, hw⟩ := h
  cases w with
  | literal raw =>
    obtain ⟨hne, hbalanced, hin⟩ := hw
    refine ⟨hne, hbalanced, fun b c a e hb => ⟨(hin b c a e hb).1, fun op hop hp => ?_⟩⟩
    have hwithin : op.spelling <+: c :: a := Operator.prefix_of_isApart hrest hp
    exact (hin b c a e hb).2 op hop (hwithin.trans (List.prefix_append _ _))
  | operator op =>
    refine ⟨hw.1, fun o ho hp => ?_⟩
    exact hw.2 o ho ((Operator.prefix_of_isApart hrest hp).trans (List.prefix_append _ _))

theorem endsLiteral_of_isApart (hrest : IsApart rest) : endsLiteral ops rest = true := by
  cases rest with
  | nil => rfl
  | cons c rest => rw [endsLiteral, hrest c rest rfl, Bool.true_or]

/-- The words that are found in a line may stand in one. -/
theorem stands_of_tokens {text : List Char} {words : List Word}
    (h : tokens ops text = .ok words) : ∀ w ∈ words, w.Stands ops := by
  obtain ⟨l, hvalid, -, rfl⟩ := Layout.exists_valid_of_tokens h
  intro w hw
  obtain ⟨piece, hpiece, rfl⟩ := List.mem_map.1 hw
  obtain ⟨before, after, e⟩ := List.append_of_mem hpiece
  exact ⟨_, hvalid.fits before piece after e⟩

theorem stands_operator {op : Operator} (h : op ∈ ops) : (operator op).Stands ops := by
  refine ⟨[], h, fun o _ hp => ?_⟩
  rw [List.append_nil] at hp
  exact hp.length_le

end Word

/-! ### Texts that are read back -/

namespace Word

variable {ops : OperatorSet} {gap text text' rest : List Char} {words words' : List Word}

theorem tokens_of_unclosed {c : Char} {cs : List Char} (h : trimStart text = c :: cs)
    (hm : ops.matchAt (c :: cs) = none)
    (hs : (literalSpan ops false (c :: cs)).unclosed = true) :
    tokens ops text = .error .unbalancedQuotes := by
  rw [tokens]
  split
  · next h' => rw [h] at h'; cases h'
  · next c' cs' h' =>
    obtain ⟨rfl, rfl⟩ := List.cons.inj (h.symm.trans h')
    split
    · next op' hm' => rw [hm] at hm'; cases hm'
    · simp only [hs, if_true]

/-- Only what begins behind the blanks is looked at. -/
theorem tokens_congr (h : trimStart text = trimStart text') :
    tokens ops text = tokens ops text' := by
  cases htrim : trimStart text' with
  | nil =>
    rw [Layout.tokens_of_trimStart_eq_nil htrim, Layout.tokens_of_trimStart_eq_nil (h.trans htrim)]
  | cons c cs =>
    cases hm : ops.matchAt (c :: cs) with
    | some op =>
      rw [Layout.tokens_of_operator htrim hm, Layout.tokens_of_operator (h.trans htrim) hm]
    | none =>
      cases hs : (literalSpan ops false (c :: cs)).unclosed with
      | false =>
        rw [Layout.tokens_of_literal htrim hm rfl hs,
          Layout.tokens_of_literal (h.trans htrim) hm rfl hs]
      | true =>
        rw [tokens_of_unclosed htrim hm hs, tokens_of_unclosed (h.trans htrim) hm hs]

/-- A text that is cut into these words wherever nothing touches it. -/
def Reads (ops : OperatorSet) (text : List Char) (words : List Word) : Prop :=
  ∀ gap rest, (∀ c ∈ gap, isBlank c = true) → IsApart rest →
    tokens ops (gap ++ text ++ rest) = (words ++ ·) <$> tokens ops rest

theorem Reads.nil : Reads ops [] [] := by
  intro gap rest hgap _
  have htokens : tokens ops (gap ++ [] ++ rest) = tokens ops rest := by
    rw [List.append_nil]
    exact tokens_congr (Layout.trimStart_append hgap)
  rw [htokens]
  exact (id_map (tokens ops rest)).symm

theorem Stands.reads {w : Word} (h : w.Stands ops) : Reads ops w.text.toList [w] := by
  intro gap rest hgap hrest
  rw [List.append_assoc]
  exact Layout.tokens_append hgap (h.fits hrest) fun _ => endsLiteral_of_isApart hrest

/-- A blank between two texts keeps them apart. -/
theorem Reads.append (h : Reads ops text words) (h' : Reads ops text' words') :
    Reads ops (text ++ ' ' :: text') (words ++ words') := by
  intro before rest hbefore hrest
  have hsplit : before ++ (text ++ ' ' :: text') ++ rest
      = before ++ text ++ ([' '] ++ (text' ++ rest)) := by simp
  rw [hsplit, h before _ hbefore (isApart_space (text' ++ rest)), ← List.append_assoc [' '],
    h' [' '] rest (List.forall_mem_singleton.2 rfl) hrest, Functor.map_map]
  simp only [List.append_assoc]

/-- A line that is such a text is cut into its words. -/
theorem Reads.tokens_eq (h : Reads ops text words) : tokens ops text = .ok words := by
  have hnil : tokens ops [] = .ok [] := Layout.tokens_of_trimStart_eq_nil rfl
  have hline := h [] [] nofun isApart_nil
  rw [List.append_nil, List.nil_append, hnil] at hline
  rw [hline]
  exact congrArg Except.ok (List.append_nil words)

/-- Texts behind one another, with a separator that may stand between any two. -/
theorem Reads.intercalate {α : Type} {sep : List Char} {sepWords : List Word}
    {f : α → List Char} {g : α → List Word} : ∀ {l : List α},
    (1 < l.length → ∀ {text text' words words'}, Reads ops text words → Reads ops text' words' →
      Reads ops (text ++ sep ++ text') (words ++ sepWords ++ words')) →
    (∀ a ∈ l, Reads ops (f a) (g a)) →
      Reads ops (sep.intercalate (l.map f)) (sepWords.intercalate (l.map g))
  | [], _, _ => Reads.nil
  | [a], _, h => by
    rw [List.map_singleton, List.map_singleton, List.intercalate_singleton,
      List.intercalate_singleton]
    exact h a List.mem_cons_self
  | a :: b :: l, hsep, h => by
    have htwo : 1 < (a :: b :: l).length := Nat.succ_lt_succ l.length.succ_pos
    have hrest := Reads.intercalate (l := b :: l) (fun _ => hsep htwo)
      fun x hx => h x (List.mem_cons_of_mem a hx)
    simp only [List.map_cons, List.intercalate_cons_cons] at hrest ⊢
    simpa only [List.append_assoc] using hsep htwo (h a List.mem_cons_self) hrest

theorem intercalate_singletons {α : Type} : ∀ l : List α, [].intercalate (l.map fun a => [a]) = l
  | [] => rfl
  | [a] => List.intercalate_singleton
  | a :: b :: l => by
    have hrest := intercalate_singletons (b :: l)
    simp only [List.map_cons, List.intercalate_cons_cons, List.append_nil] at hrest ⊢
    rw [hrest]
    rfl

/-- Words with a blank between two of them. -/
theorem reads_words {words : List Word} (h : ∀ w ∈ words, w.Stands ops) :
    Reads ops ([' '].intercalate (words.map (·.text.toList))) words := by
  have hsep : ∀ {text text' words words'}, Reads ops text words → Reads ops text' words' →
      Reads ops (text ++ [' '] ++ text') (words ++ [] ++ words') := fun h h' => by
    simpa only [List.append_assoc, List.append_nil, List.singleton_append] using h.append h'
  have hwords := Reads.intercalate (g := fun w => [w]) (fun _ => hsep) fun w hw => (h w hw).reads
  rwa [intercalate_singletons] at hwords

/-- Stages with a pipe between two of them, and blanks around the pipe. -/
theorem reads_stages {stages : List (List Word)}
    (hpipe : 1 < stages.length → (operator .pipe).Stands ops)
    (h : ∀ stage ∈ stages, ∀ w ∈ stage, w.Stands ops) :
    Reads ops ([' ', '|', ' '].intercalate
        (stages.map fun stage => [' '].intercalate (stage.map (·.text.toList))))
      ([operator .pipe].intercalate stages) := by
  have hsep : 1 < stages.length → ∀ {text text' words words'}, Reads ops text words →
      Reads ops text' words' → Reads ops (text ++ [' ', '|', ' '] ++ text')
        (words ++ [operator .pipe] ++ words') := fun htwo _ _ _ _ h h' => by
    have hall := (h.append (hpipe htwo).reads).append h'
    simpa only [List.append_assoc, text_operator_toList, Operator.spelling, List.cons_append,
      List.nil_append] using hall
  have hstages := Reads.intercalate (g := id) hsep fun stage hs => reads_words (h stage hs)
  rwa [List.map_id] at hstages

end Word

/-! ### Pipelines written out -/

namespace Pipeline

theorem segments_of_not_mem {words : List Word} (h : Word.operator .pipe ∉ words) :
    segments words = [words] := by
  induction words with
  | nil => rfl
  | cons w words ih =>
    rw [List.mem_cons, not_or] at h
    have hword : w.isOperator .pipe = false :=
      Bool.eq_false_iff.2 fun e => h.1 (Word.isOperator_iff.1 e).symm
    rw [segments_cons hword, ih h.2, List.modifyHead_cons]

theorem text_toList (p : Pipeline) :
    p.text.toList = [' ', '|', ' '].intercalate
      (p.stages.map fun stage => [' '].intercalate (stage.map (·.text.toList))) := by
  have hstage : ∀ stage, (stageText stage).toList
      = [' '].intercalate (stage.map (·.text.toList)) := by
    intro stage
    rw [stageText, String.toList_intercalate, List.map_map]
    rfl
  rw [text, String.toList_intercalate, List.map_map]
  simp only [Function.comp_def, hstage]
  rfl

/-- The text of a pipeline is cut into the words that the pipeline was made of. -/
theorem tokenize_text {ops : OperatorSet} {words : List Word} (h : ∀ w ∈ words, w.Stands ops) :
    tokenize (ofWords words).text ops = .ok words := by
  have hpipe : 1 < (segments words).length → (Word.operator .pipe).Stands ops := by
    intro htwo
    by_contra hno
    rw [segments_of_not_mem fun hm => hno (h _ hm)] at htwo
    exact Nat.lt_irrefl 1 htwo
  have hreads := Word.reads_stages hpipe fun stage hs w hw => h w (mem_of_mem_segments hs hw).1
  rw [intercalate_segments] at hreads
  rw [tokenize, text_toList, stages_ofWords]
  exact hreads.tokens_eq

end Pipeline

/-! ### Reading a pipeline back -/

/-- Grammatical parts without their modifiers are grammatical. -/
theorem LineParts.Grammatical.bare {p : LineParts} (h : p.Grammatical) :
    LineParts.Grammatical ⟨p.body, [], false⟩ where
  body := h.body
  redirections := .none
  filenames := nofun
  stages_ne_nil := h.stages_ne_nil
  changeDirectory := h.changeDirectory

/-- **Writing a pipeline out and reading it back loses nothing.**  The text of the pipeline of a
line's words is cut into these words; and where the line parses, the text of its pipeline parses to
this pipeline, without modifiers. -/
theorem reread_text (line : String) (ops : OperatorSet) :
    (∀ words, tokenize line ops = .ok words →
        tokenize (Pipeline.ofWords words).text ops = .ok words) ∧
      ∀ command, CommandLine.parse line ops = .ok command →
        CommandLine.parse command.pipeline.text ops = .ok ⟨command.pipeline, {}⟩ := by
  refine ⟨fun words hwords => Pipeline.tokenize_text (Word.stands_of_tokens hwords), ?_⟩
  intro command hcommand
  -- The words of the line, and the parts they are of.
  rw [CommandLine.parse] at hcommand
  cases hwords : tokenize line ops with
  | error e => rw [hwords] at hcommand; cases hcommand
  | ok words =>
    simp only [hwords] at hcommand
    cases hchecked : CommandLine.ofWordsChecked words with
    | error e => rw [hchecked] at hcommand; cases hcommand
    | ok checked =>
      rw [hchecked] at hcommand
      cases hcommand
      obtain ⟨p, hp, rfl, rfl⟩ := CommandLine.ofWordsChecked_eq_ok_iff.1 hchecked
      -- The pipeline is made of the body, whose words are some of the line's.
      have hstands : ∀ w ∈ p.body, w.Stands ops := fun w hw =>
        Word.stands_of_tokens hwords w (by simp [LineParts.words, hw])
      have hbody : CommandLine.ofWordsChecked p.body = .ok ⟨Pipeline.ofWords p.body, {}⟩ :=
        CommandLine.ofWordsChecked_eq_ok_iff.2 ⟨_, hp.bare, by
          simp [LineParts.words, LineParts.redirectionWords, LineParts.closing], rfl⟩
      rw [CommandLine.parse, Pipeline.tokenize_text hstands]
      simp only [hbody, Except.mapError]

/-- Where `>` is not reserved it is a literal, also when it is read back. -/
theorem reread_literal_redirect :
    ∃ command, CommandLine.parse "a >  b|\">> c\"d" (.ofList [.pipe, .append]) = .ok command ∧
      command.pipeline.text = "a > b | \">> c\"d" ∧
      CommandLine.parse "a > b | \">> c\"d" (.ofList [.pipe, .append])
        = .ok ⟨command.pipeline, {}⟩ ∧
      tokenize "a > b | \">> c\"d" (.ofList [.pipe, .append])
        = tokenize "a >  b|\">> c\"d" (.ofList [.pipe, .append]) := by
  let words : List Word :=
    [.literal "a", .literal ">", .literal "b", .operator .pipe, .literal "\">> c\"d"]
  let command : CommandLine := ⟨Pipeline.ofWords words, {}⟩
  have htokens : tokenize "a >  b|\">> c\"d" (.ofList [.pipe, .append]) = .ok words := by
    decide +kernel
  have hparse : CommandLine.parse "a >  b|\">> c\"d" (.ofList [.pipe, .append])
      = .ok command := by
    decide +kernel
  have htext : (Pipeline.ofWords words).text = "a > b | \">> c\"d" := by decide +kernel
  have htext' : command.pipeline.text = "a > b | \">> c\"d" := htext
  obtain ⟨hwords, hpipeline⟩ := reread_text "a >  b|\">> c\"d" (.ofList [.pipe, .append])
  have hwordsBack := hwords words htokens
  have hpipelineBack := hpipeline command hparse
  rw [htext] at hwordsBack
  rw [htext'] at hpipelineBack
  exact ⟨command, hparse, htext', hpipelineBack, hwordsBack.trans htokens.symm⟩

end PipelineShell
