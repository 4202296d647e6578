/-
Quoting: whatever is written between double quotes arrives as it was.

A value without a double quote can be put between two of them, whatever else it
holds.  It is a single word then, and the quotes are taken off where its value
is used.  So stages of such values, with a modifier, have a line that parses to
exactly them.

* `Word.stands_quoted` — a quoted value may stand in any line, for any
  operators;
* `Reads.redirect`, `Reads.background` — what may follow the commands in a line;
* `parse_quotedLine` — the line of quotable stages and a quotable modifier
  parses, to words with these values and to this modifier.

Design notes: the text and the words of the line are put together side by side
(`reads_quotedLine`), and only then the words are seen to be grammatical parts
(`grammatical_quotedParts`); no character is looked at twice.
-/
import PipelineShell.Proofs.Rereading

namespace PipelineShell

open Text

/-! ### A value between quotes -/

def quote (value : String) : String := "\"" ++ value ++ "\""

theorem quote_toList (value : String) : (quote value).toList = '"' :: (value.toList ++ ['"']) := by
  rw [quote, String.toList_append, String.toList_append]
  rfl

namespace Word

/-- The word that a value between quotes is. -/
def quoted (value : String) : Word := .literal (quote value)

variable {ops : OperatorSet} {value : String}

theorem quoted_text : (quoted value).text = quote value := rfl

theorem unquoted_quoted (h : '"' ∉ value.toList) : (quoted value).unquoted = some value := by
  have hfilter : value.toList.filter (· ≠ '"') = value.toList :=
    List.filter_eq_self.2 fun c hc => decide_eq_true fun e => h (e ▸ hc)
  rw [quoted, unquoted, stripQuotes, quote_toList, List.filter_cons_of_neg (by decide),
    List.filter_append, hfilter, List.filter_cons_of_neg (by decide), List.filter_nil,
    List.append_nil, String.ofList_toList]

theorem isFilename_quoted (h : '"' ∉ value.toList) (hne : value ≠ "") :
    (quoted value).IsFilename :=
  ⟨value, unquoted_quoted h, hne⟩

theorem not_spelling_prefix_quote (op : Operator) (cs : List Char) :
    ¬op.spelling <+: '"' :: cs := by
  intro h
  cases op <;> exact absurd (List.cons_prefix_cons.1 h).1 (by decide)

/-- The only place of a quoted value that is outside quotes is where it begins. -/
theorem stands_quoted (h : '"' ∉ value.toList) : (quoted value).Stands ops := by
  have htext : (quote value).toList = '"' :: (value.toList ++ ['"']) := quote_toList value
  have hbalanced : Balanced (quote value).toList := by
    rw [htext, balanced_cons_quote, balanced_append_iff (balanced_of_not_mem h),
      balanced_cons_quote, not_not]
    exact balanced_nil
  refine ⟨[], by rw [htext]; exact List.cons_ne_nil _ _, hbalanced, ?_⟩
  intro before c after e hbefore
  rw [htext] at e
  cases before with
  | nil =>
    obtain ⟨rfl, -⟩ := List.cons.inj e
    exact ⟨by decide, fun op _ => not_spelling_prefix_quote op _⟩
  | cons b before =>
    obtain ⟨rfl, htail⟩ := List.cons.inj e
    -- Behind the first quote the next one comes last, so there is none before another character.
    have hsub : '"' ∉ before := by
      obtain ⟨init, last, hlast⟩ : ∃ init last, c :: after = init ++ [last] :=
        ⟨_, _, (List.dropLast_append_getLast (List.cons_ne_nil c after)).symm⟩
      have hends : value.toList ++ ['"'] = before ++ init ++ [last] := by
        rw [List.append_assoc, ← hlast]
        exact htail
      have hinit : value.toList = before ++ init := (List.append_inj' hends rfl).1
      exact fun hm => h (hinit ▸ List.mem_append_left init hm)
    exact absurd (balanced_of_not_mem hsub) (balanced_cons_quote.1 hbefore)

/-! ### What may follow the commands -/

variable {text : List Char} {words : List Word}

theorem Reads.redirect {op : Operator} (h : Reads ops text words) (hop : op ∈ ops)
    (hvalue : '"' ∉ value.toList) :
    Reads ops (text ++ (' ' :: op.spelling ++ ' ' :: (quote value).toList))
      (words ++ [.operator op, quoted value]) := by
  have hall := (h.append (stands_operator hop).reads).append (stands_quoted hvalue).reads
  simpa only [List.append_assoc, List.cons_append, List.nil_append, text_operator_toList,
    quoted_text] using hall

theorem Reads.background (h : Reads ops text words) (hop : .background ∈ ops) :
    Reads ops (text ++ [' ', '&']) (words ++ [.operator .background]) := by
  have hall := h.append (stands_operator hop).reads
  rwa [text_operator_toList] at hall

end Word

/-! ### Stages and a modifier between quotes -/

/-- Stages of values and a modifier that can be written with every value between quotes. -/
structure Quotable (stages : List (List String)) (m : Modifier) : Prop where
  stages_ne_nil : stages ≠ []
  stage_ne_nil : ∀ stage ∈ stages, stage ≠ []
  value : ∀ stage ∈ stages, ∀ value ∈ stage, '"' ∉ value.toList
  /-- A stage that changes the directory names one directory. -/
  changeDirectory : ∀ stage ∈ stages, stage.head? = some "cd" → stage.length = 2
  filename : ∀ file, m.input = some file ∨ m.output = some file →
    file ≠ "" ∧ '"' ∉ file.toList
  append : m.append = true → m.output.isSome = true

/-- The operator before the file that the output goes to. -/
def Modifier.outputOperator (m : Modifier) : Operator := if m.append then .append else .output

/-- A redirection as it is written behind the commands, with its file between quotes. -/
def redirection (op : Operator) (file : Option String) : String :=
  match file with
  | none => ""
  | some file => " " ++ op.text ++ " " ++ quote file

/-- The line that is written for stages of values and a modifier. -/
def quotedLine (stages : List (List String)) (m : Modifier) : String :=
  String.intercalate " | " (stages.map fun stage => String.intercalate " " (stage.map quote))
    ++ redirection .input m.input ++ redirection m.outputOperator m.output
    ++ if m.background then " &" else ""

/-- The parts that the line has. -/
def quotedParts (stages : List (List String)) (m : Modifier) : LineParts where
  body := [.operator .pipe].intercalate (stages.map (·.map Word.quoted))
  redirections := (m.input.map fun file => (.input, Word.quoted file)).toList
    ++ (m.output.map fun file => (m.outputOperator, Word.quoted file)).toList
  background := m.background

variable {stages : List (List String)} {m : Modifier}

theorem Word.Reads.redirection {ops : OperatorSet} {op : Operator} {text : List Char}
    {words : List Word} {file : Option String} (h : Reads ops text words) (hop : op ∈ ops)
    (hfile : ∀ value, file = some value → '"' ∉ value.toList) :
    Reads ops (text ++ (redirection op file).toList) (words ++
      LineParts.redirectionWords (file.map fun value => (op, Word.quoted value)).toList) := by
  cases file with
  | none =>
    have hnone : (PipelineShell.redirection op none).toList = [] := rfl
    simpa [hnone, LineParts.redirectionWords] using h
  | some value =>
    have hall := h.redirect hop (hfile value rfl)
    have htext : (PipelineShell.redirection op (some value)).toList
        = ' ' :: op.spelling ++ ' ' :: (quote value).toList := by
      simp [PipelineShell.redirection, Operator.text]
    rwa [← htext] at hall

/-- The text of the line and its words, side by side. -/
theorem reads_quotedLine (h : Quotable stages m) :
    Word.Reads .full (quotedLine stages m).toList (quotedParts stages m).words := by
  have hfull : ∀ op, op ∈ OperatorSet.full := fun op => OperatorSet.mem_ofList.2 op.mem_all
  have hbody : Word.Reads .full
      (String.intercalate " | " (stages.map fun stage =>
        String.intercalate " " (stage.map quote))).toList
      ([.operator .pipe].intercalate (stages.map (·.map Word.quoted))) := by
    have hstands : ∀ stage ∈ stages.map (·.map Word.quoted), ∀ w ∈ stage,
        w.Stands .full := by
      intro stage hs w hw
      obtain ⟨values, hvalues, rfl⟩ := List.mem_map.1 hs
      obtain ⟨value, hvalue, rfl⟩ := List.mem_map.1 hw
      exact Word.stands_quoted (h.value values hvalues value hvalue)
    have hreads := Word.reads_stages (fun _ => Word.stands_operator (hfull .pipe)) hstands
    simpa [String.toList_intercalate, List.map_map, Function.comp_def, Word.quoted_text]
      using hreads
  have hinput := hbody.redirection (hfull .input) fun file hf => (h.filename file (.inl hf)).2
  have houtput := hinput.redirection (hfull m.outputOperator) fun file hf =>
    (h.filename file (.inr hf)).2
  have hredirections : LineParts.redirectionWords (quotedParts stages m).redirections
      = LineParts.redirectionWords (m.input.map fun file => (.input, Word.quoted file)).toList
        ++ LineParts.redirectionWords
          (m.output.map fun file => (m.outputOperator, Word.quoted file)).toList :=
    List.flatMap_append
  rw [LineParts.words, hredirections, quotedLine]
  cases hb : m.background with
  | false => simpa [quotedParts, LineParts.closing, hb] using houtput
  | true =>
    have hall := houtput.background (hfull .background)
    simpa [quotedParts, LineParts.closing, hb] using hall

/-! ### The parts of the line -/

theorem mem_intercalate {α : Type} {sep : List α} {a : α} : ∀ {ls : List (List α)},
    a ∈ sep.intercalate ls → a ∈ sep ∨ ∃ l ∈ ls, a ∈ l
  | [], h => absurd h List.not_mem_nil
  | [l], h => by
    rw [List.intercalate_singleton] at h
    exact .inr ⟨l, List.mem_cons_self, h⟩
  | l :: l' :: ls, h => by
    rw [List.intercalate_cons_cons, List.append_assoc, List.mem_append, List.mem_append] at h
    rcases h with h | h | h
    · exact .inr ⟨l, List.mem_cons_self, h⟩
    · exact .inl h
    · obtain hsep | ⟨found, hfound, ha⟩ := mem_intercalate h
      · exact .inl hsep
      · exact .inr ⟨found, List.mem_cons_of_mem l hfound, ha⟩

/-- Stages without a pipe are the pieces between the pipes that are put between them. -/
theorem Pipeline.segments_intercalate {stages : List (List Word)} (hne : stages ≠ [])
    (h : ∀ stage ∈ stages, Word.operator .pipe ∉ stage) :
    segments ([.operator .pipe].intercalate stages) = stages := by
  rw [segments_eq_splitOn]
  exact List.splitOn_intercalate _ h hne

theorem stages_quotedParts (h : Quotable stages m) :
    (quotedParts stages m).stages = stages.map (·.map Word.quoted) := by
  refine Pipeline.segments_intercalate (List.map_eq_nil_iff.not.2 h.stages_ne_nil) ?_
  intro stage hs hm
  obtain ⟨values, -, rfl⟩ := List.mem_map.1 hs
  obtain ⟨value, -, e⟩ := List.mem_map.1 hm
  cases e

theorem modifier_quotedParts (h : Quotable stages m) : (quotedParts stages m).modifier = m := by
  obtain ⟨background, input, output, append⟩ := m
  have hvalue : ∀ file, input = some file ∨ output = some file →
      (Word.quoted file).unquoted = some file :=
    fun file hf => Word.unquoted_quoted (h.filename file hf).2
  have happend : append = true → output.isSome = true := h.append
  cases input with
  | none =>
    cases output with
    | none => cases append <;> simp_all [quotedParts, LineParts.modifier, LineParts.target]
    | some out =>
      have hout := hvalue out (.inr rfl)
      cases append <;>
        simp [quotedParts, LineParts.modifier, LineParts.target, Modifier.outputOperator, hout]
  | some inp =>
    have hinp := hvalue inp (.inl rfl)
    cases output with
    | none => cases append <;> simp_all [quotedParts, LineParts.modifier, LineParts.target]
    | some out =>
      have hout := hvalue out (.inr rfl)
      cases append <;>
        simp [quotedParts, LineParts.modifier, LineParts.target, Modifier.outputOperator, hinp,
          hout]

theorem redirections_quotedParts (h : Quotable stages m) :
    LineParts.Redirections (quotedParts stages m).redirections ∧
      ∀ r ∈ (quotedParts stages m).redirections, r.2.IsFilename := by
  have hfile : ∀ file, m.input = some file ∨ m.output = some file →
      (Word.quoted file).IsFilename :=
    fun file hf => Word.isFilename_quoted (h.filename file hf).2 (h.filename file hf).1
  have houtput : m.outputOperator = .output ∨ m.outputOperator = .append := by
    rw [Modifier.outputOperator]
    split
    · exact .inr rfl
    · exact .inl rfl
  have hredirect : m.outputOperator.isRedirect = true := by
    rcases houtput with e | e <;> rw [e] <;> rfl
  rw [quotedParts]
  cases hin : m.input with
  | none =>
    cases hout : m.output with
    | none => exact ⟨.none, nofun⟩
    | some out =>
      exact ⟨.one hredirect, List.forall_mem_singleton.2 (hfile out (.inr hout))⟩
  | some inp =>
    cases hout : m.output with
    | none => exact ⟨.one rfl, List.forall_mem_singleton.2 (hfile inp (.inl hin))⟩
    | some out =>
      exact ⟨.inputFirst houtput, List.forall_mem_cons.2 ⟨hfile inp (.inl hin),
        List.forall_mem_singleton.2 (hfile out (.inr hout))⟩⟩

theorem grammatical_quotedParts (h : Quotable stages m) : (quotedParts stages m).Grammatical := by
  obtain ⟨hredirections, hfilenames⟩ := redirections_quotedParts h
  have hstages := stages_quotedParts h
  refine ⟨⟨fun op hop => ?_, hredirections, hfilenames⟩, fun stage hs => ?_, fun stage hs hcd => ?_⟩
  · -- The pipes are the only operators of the body.
    rcases mem_intercalate hop with hpipe | ⟨stage, hs, hm⟩
    · obtain rfl := Word.operator.inj (List.mem_singleton.1 hpipe)
      exact ⟨by decide, rfl⟩
    · obtain ⟨values, -, rfl⟩ := List.mem_map.1 hs
      obtain ⟨value, -, e⟩ := List.mem_map.1 hm
      cases e
  · rw [hstages] at hs
    obtain ⟨values, hvalues, rfl⟩ := List.mem_map.1 hs
    exact List.map_eq_nil_iff.not.2 (h.stage_ne_nil values hvalues)
  · rw [hstages] at hs
    obtain ⟨values, hvalues, rfl⟩ := List.mem_map.1 hs
    obtain ⟨first, rest, rfl⟩ := List.exists_cons_of_ne_nil (h.stage_ne_nil values hvalues)
    have hfirst := Word.unquoted_quoted (h.value _ hvalues first List.mem_cons_self)
    -- The first value of the stage is `cd`, as it is the value of the first word.
    have hhead : (first :: rest).head? = some "cd" := hfirst.symm.trans hcd
    rw [List.length_map]
    exact h.changeDirectory _ hvalues hhead

/-- **Quoting is safe and complete.**  Stages of any values without double quotes can be written
with each value between quotes, and so can any modifier: the line parses, its words have these
values, in these stages, and its modifier is the given one. -/
theorem parse_quotedLine (h : Quotable stages m) :
    ∃ command, CommandLine.parse (quotedLine stages m) .full = .ok command ∧
      command.pipeline.stages.map (·.map Word.unquoted) = stages.map (·.map some) ∧
      command.modifier = m := by
  have htokens : tokenize (quotedLine stages m) .full = .ok (quotedParts stages m).words :=
    (reads_quotedLine h).tokens_eq
  have hchecked := CommandLine.ofWordsChecked_eq_ok_iff.2
    ⟨quotedParts stages m, grammatical_quotedParts h, rfl, rfl⟩
  refine ⟨⟨Pipeline.ofWords (quotedParts stages m).body, (quotedParts stages m).modifier⟩,
    ?_, ?_, modifier_quotedParts h⟩
  · rw [CommandLine.parse, htokens]
    simp only [hchecked, Except.mapError]
  · have hstages : (Pipeline.ofWords (quotedParts stages m).body).stages
        = stages.map (·.map Word.quoted) := by
      rw [Pipeline.stages_ofWords]
      exact stages_quotedParts h
    rw [hstages, List.map_map]
    refine List.map_congr_left fun stage hs => ?_
    rw [Function.comp_apply, List.map_map]
    exact List.map_congr_left fun value hv => Word.unquoted_quoted (h.value stage hs value hv)

/-- Operators, blanks and nothing at all, between quotes. -/
theorem parse_quoted_operators :
    quotedLine [["echo", "a | b > c &", ""], ["cd", "\t<é\x00"]]
        { background := true, input := some "< in", output := some "&", append := true }
      = "\"echo\" \"a | b > c &\" \"\" | \"cd\" \"\t<é\x00\" < \"< in\" >> \"&\" &" ∧
    ∃ command, CommandLine.parse
        "\"echo\" \"a | b > c &\" \"\" | \"cd\" \"\t<é\x00\" < \"< in\" >> \"&\" &" .full
          = .ok command ∧
      command.pipeline.stages.map (·.map Word.unquoted)
        = [[some "echo", some "a | b > c &", some ""], [some "cd", some "\t<é\x00"]] ∧
      command.modifier =
        { background := true, input := some "< in", output := some "&", append := true } := by
  have hline : quotedLine [["echo", "a | b > c &", ""], ["cd", "\t<é\x00"]]
        { background := true, input := some "< in", output := some "&", append := true }
      = "\"echo\" \"a | b > c &\" \"\" | \"cd\" \"\t<é\x00\" < \"< in\" >> \"&\" &" := by
    decide +kernel
  have hquotable : Quotable [["echo", "a | b > c &", ""], ["cd", "\t<é\x00"]]
      { background := true, input := some "< in", output := some "&", append := true } := by
    refine ⟨by decide, by decide, by decide +kernel, by decide +kernel, ?_, fun _ => rfl⟩
    rintro file (e | e) <;> cases e <;> decide +kernel
  exact ⟨hline, hline ▸ parse_quotedLine hquotable⟩

end PipelineShell
