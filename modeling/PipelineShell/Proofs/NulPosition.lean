/-
A NUL stops a launch before it begins.

The system takes arguments and file names up to the first NUL only, so a launch
looks for one in everything that it is going to pass on.  If there is one, the
launch is over before its first call, and the error tells how many bytes stand
before this NUL.

* `nulPosition?_eq_some_iff` — the position is that of the first zero in the
  UTF-8 form of the text;
* `CommandLine.launch_invalid_iff` — an accepted line is refused for an argument
  exactly if some value holds a NUL, and the position belongs to the first one.

Design notes: the model looks for the character and adds up the sizes of those
before it.  In UTF-8 only NUL has a zero among its bytes, and the first zero of
a list is the only one with no zero before it, so both find the same place.
-/
import Mathlib.Data.List.TakeWhile
import PipelineShell.Proofs.Transcript

namespace PipelineShell

/-! ### Zeros in UTF-8 -/

/-- A character is encoded with a zero only if it is NUL: other bytes have leading bits set, or are
the character itself. -/
theorem zero_mem_utf8EncodeChar {c : Char} : 0 ∈ String.utf8EncodeChar c ↔ c = '\x00' := by
  constructor
  · intro h
    refine Char.toNat_inj.1 (show c.val.toNat = 0 from ?_)
    have hlt : c.val.toNat < 1114112 := by
      rcases c.valid with hlt | ⟨-, hlt⟩ <;> omega
    have hzero : ∀ n, (0 : UInt8) = UInt8.ofNat n ↔ n % 256 = 0 := fun n =>
      eq_comm.trans (UInt8.ofNat_eq_iff_mod_eq_toNat n 0)
    rw [String.utf8EncodeChar] at h
    split_ifs at h <;>
      · simp only [List.mem_cons, List.not_mem_nil, or_false, hzero] at h
        omega
  · rintro rfl
    decide

theorem Bytes.ofText_eq (s : String) : Bytes.ofText s = s.toList.flatMap String.utf8EncodeChar := by
  conv_lhs => rw [← String.ofList_toList (s := s)]
  exact List.toList_data_toByteArray

theorem zero_mem_ofText {s : String} : 0 ∈ Bytes.ofText s ↔ '\x00' ∈ s.toList := by
  rw [Bytes.ofText_eq, List.mem_flatMap]
  constructor
  · rintro ⟨c, hc, h⟩
    rwa [← zero_mem_utf8EncodeChar.1 h]
  · exact fun h => ⟨_, h, zero_mem_utf8EncodeChar.2 rfl⟩

/-- What stands before the first zero. -/
theorem ofText_of_split {s : String} {before after : List Char}
    (h : s.toList = before ++ '\x00' :: after) (hbefore : '\x00' ∉ before) :
    Bytes.ofText s = before.flatMap String.utf8EncodeChar ++
      0 :: after.flatMap String.utf8EncodeChar ∧ 0 ∉ before.flatMap String.utf8EncodeChar := by
  refine ⟨?_, fun hz => ?_⟩
  · rw [Bytes.ofText_eq, h, List.flatMap_append, List.flatMap_cons]
    rfl
  · obtain ⟨c, hc, hz⟩ := List.mem_flatMap.1 hz
    exact hbefore (zero_mem_utf8EncodeChar.1 hz ▸ hc)

theorem foldl_utf8Size : ∀ (l : List Char) (n : Nat),
    l.foldl (fun n c => n + c.utf8Size) n = n + (l.flatMap String.utf8EncodeChar).length
  | [], n => rfl
  | c :: l, n => by
    rw [List.foldl_cons, foldl_utf8Size l, List.flatMap_cons, List.length_append,
      String.length_utf8EncodeChar, Nat.add_assoc]

/-! ### The position of a NUL -/

theorem nulPosition?_eq_none {s : String} (h : '\x00' ∉ s.toList) : nulPosition? s = none := by
  have htake : s.toList.takeWhile (· ≠ '\x00') = s.toList :=
    List.takeWhile_eq_self_iff.2 fun c hc => decide_eq_true fun e => h (e ▸ hc)
  simp only [nulPosition?, htake]
  exact if_neg (Nat.lt_irrefl _)

theorem nulPosition?_of_split {s : String} {before after : List Char}
    (h : s.toList = before ++ '\x00' :: after) (hbefore : '\x00' ∉ before) :
    nulPosition? s = some (before.flatMap String.utf8EncodeChar).length := by
  have htake : s.toList.takeWhile (· ≠ '\x00') = before := by
    have hne : ∀ c ∈ before, c ≠ '\x00' := fun c hc e => hbefore (e ▸ hc)
    rw [h, List.takeWhile_append_of_pos fun c hc => decide_eq_true (hne c hc)]
    simp
  simp only [nulPosition?, htake]
  rw [if_pos (by simp [h]), foldl_utf8Size, Nat.zero_add]

/-- The position of a NUL is that of the first zero among the bytes. -/
theorem nulPosition?_eq_some_iff {s : String} {position : Nat} :
    nulPosition? s = some position ↔
      ∃ before after, Bytes.ofText s = before ++ 0 :: after ∧ 0 ∉ before ∧
        position = before.length := by
  by_cases hnul : '\x00' ∈ s.toList
  · obtain ⟨before, after, hsplit, hbefore⟩ := List.eq_append_cons_of_mem hnul
    obtain ⟨hbytes, hzero⟩ := ofText_of_split hsplit hbefore
    rw [nulPosition?_of_split hsplit hbefore]
    constructor
    · intro h
      exact ⟨_, _, hbytes, hzero, (Option.some.inj h).symm⟩
    · rintro ⟨before', after', h, hzero', rfl⟩
      rw [(ArgumentVector.append_cons_inj_of_first hzero hzero' (hbytes.symm.trans h)).1]
  · rw [nulPosition?_eq_none hnul]
    refine iff_of_false nofun ?_
    rintro ⟨before, after, h, -⟩
    exact hnul (zero_mem_ofText.1 (h ▸ List.mem_append_right before List.mem_cons_self))

theorem nulPosition?_eq_none_iff {s : String} : nulPosition? s = none ↔ '\x00' ∉ s.toList := by
  refine ⟨fun h hnul => ?_, nulPosition?_eq_none⟩
  obtain ⟨before, after, hsplit, hbefore⟩ := List.eq_append_cons_of_mem hnul
  cases h.symm.trans (nulPosition?_of_split hsplit hbefore)

/-! ### The values of a line -/

/-- The first value with a NUL, and how many bytes of it stand before the NUL. -/
def FirstNul (values : List String) (position : Nat) : Prop :=
  ∃ passed value others before after, values = passed ++ value :: others ∧
    (∀ v ∈ passed, '\x00' ∉ v.toList) ∧ Bytes.ofText value = before ++ 0 :: after ∧
    0 ∉ before ∧ position = before.length

theorem firstNul_iff {values : List String} {position : Nat} :
    FirstNul values position ↔ values.findSome? nulPosition? = some position := by
  simp only [List.findSome?_eq_some_iff, nulPosition?_eq_some_iff, nulPosition?_eq_none_iff]
  constructor
  · rintro ⟨passed, value, others, before, after, rfl, hpassed, hbytes, hbefore, rfl⟩
    exact ⟨passed, value, others, rfl, ⟨before, after, hbytes, hbefore, rfl⟩, hpassed⟩
  · rintro ⟨passed, value, others, rfl, ⟨before, after, hbytes, hbefore, rfl⟩, hpassed⟩
    exact ⟨passed, value, others, before, after, rfl, hpassed, hbytes, hbefore, rfl⟩

theorem exists_firstNul_iff {values : List String} :
    (∃ position, FirstNul values position) ↔ ∃ value ∈ values, '\x00' ∈ value.toList := by
  simp only [firstNul_iff]
  rw [← Option.isSome_iff_exists, List.findSome?_isSome_iff]
  refine exists_congr fun value => and_congr_right fun _ => ?_
  rw [Option.isSome_iff_ne_none, ne_eq, nulPosition?_eq_none_iff, not_not]

namespace CommandLine

variable {text : String} {ops : OperatorSet} {line : CommandLine}

/-- The values of the words of all stages, and then the files. -/
def values (line : CommandLine) : List String :=
  line.pipeline.stages.flatten.filterMap Word.unquoted ++
    (line.modifier.input.toList ++ line.modifier.output.toList)

/-- In an accepted line every word has a value, so nothing else is passed on. -/
theorem texts_eq_values (h : parse text ops = .ok line) : line.texts = line.values := by
  have hwords : ∀ w ∈ line.pipeline.stages.flatten, w.unquoted = some w.argument := by
    intro w hw
    obtain ⟨stage, hs, hw⟩ := List.mem_flatten.1 hw
    exact exists_unquoted_of_parse h hs hw
  rw [texts, values, List.filterMap_congr hwords]
  exact congrArg (· ++ _) (congrFun List.filterMap_eq_map _).symm

theorem ofCommandLine_eq_error_iff (h : parse text ops = .ok line) {position : Nat} :
    Plan.ofCommandLine line = .error (.invalidArgument position) ↔
      FirstNul line.values position := by
  rw [← failure?_eq_some_iff, Plan.failure?_ofCommandLine, texts_eq_values h, firstNul_iff]
  change line.values.findSome? (Option.map LaunchError.invalidArgument ∘ nulPosition?) = _ ↔ _
  rw [← List.map_findSome?, Option.map_eq_some_iff]
  constructor
  · rintro ⟨position', hfirst, e⟩
    exact LaunchError.invalidArgument.inj e ▸ hfirst
  · exact fun hfirst => ⟨position, hfirst, rfl⟩

variable {τ σ : Type} {step : σ → (r : Request τ) → r.Answer → σ → Prop}
  {enter : Stage → τ} {terminal : Option Descriptor}

/-- A plan that is there does not fail for an argument. -/
theorem ofCommandLine_eq_error_of_runs {s s' : σ} {log : Transcript τ}
    {position : Nat} (h : (line.launch enter terminal).Runs step s log
      (.error (.invalidArgument position)) s') :
    Plan.ofCommandLine line = .error (.invalidArgument position) := by
  rw [launch] at h
  cases hplan : Plan.ofCommandLine line with
  | error e =>
    rw [hplan] at h
    obtain ⟨-, he, -⟩ := Program.runs_done_iff.1 h
    exact congrArg Except.error (Except.error.inj he).symm
  | ok plan =>
    rw [hplan] at h
    obtain ⟨pids, hyields⟩ := h.exists_yields
    rcases Plan.yields_launch hyields with ⟨he, -⟩ | ⟨e, he, -⟩ | ⟨-, e, he⟩ <;> cases he

/-- **A NUL is found before anything happens, and nothing else is refused.**  For an accepted line,
the launch is over without a call if some value of a word or the name of a file holds a NUL: it is
refused for the first of these, with the number of bytes before its first NUL.  No other launch ends
with this error, whatever its calls are answered. -/
theorem launch_invalid_iff (h : parse text ops = .ok line) (enter : Stage → τ)
    (terminal : Option Descriptor) :
    ((∃ position, FirstNul line.values position) ↔
        ∃ value ∈ line.values, '\x00' ∈ value.toList) ∧
      (∀ position, FirstNul line.values position →
        line.launch enter terminal = .done (.error (.invalidArgument position))) ∧
      ∀ {σ : Type} (step : σ → (r : Request τ) → r.Answer → σ → Prop) (s : σ) (log : Transcript τ)
        (result : Except LaunchError Spawned) (s' : σ),
        (line.launch enter terminal).Runs step s log result s' → ∀ position,
          (result = .error (.invalidArgument position) ↔ FirstNul line.values position) ∧
            (FirstNul line.values position → log = [] ∧ s' = s) := by
  have hdone : ∀ position, FirstNul line.values position →
      line.launch enter terminal = .done (.error (.invalidArgument position)) := by
    intro position hnul
    rw [launch, (ofCommandLine_eq_error_iff h).2 hnul]
    rfl
  refine ⟨exists_firstNul_iff, hdone, fun step s log result s' hrun position => ?_⟩
  have hends : FirstNul line.values position →
      log = [] ∧ result = .error (.invalidArgument position) ∧ s' = s := by
    intro hnul
    rw [hdone position hnul] at hrun
    exact Program.runs_done_iff.1 hrun
  refine ⟨⟨?_, fun hnul => (hends hnul).2.1⟩, fun hnul => ⟨(hends hnul).1, (hends hnul).2.2⟩⟩
  rintro rfl
  exact (ofCommandLine_eq_error_iff h).1 (ofCommandLine_eq_error_of_runs hrun)

/-- The quotes are gone, and the letter before the NUL takes two bytes.  The name of the file has a
NUL as well, but it comes later. -/
theorem launch_invalid_iff_quoted : ∃ line,
    parse "a | b \"é\x00\" > \x00" (.ofList [.pipe, .output]) = .ok line ∧
      FirstNul line.values 2 ∧
      line.launch id none = .done (.error (.invalidArgument 2)) := by
  let line : CommandLine :=
    ⟨Pipeline.ofWords [.literal "a", .operator .pipe, .literal "b", .literal "\"é\x00\""],
      { output := some "\x00" }⟩
  have hparse : parse "a | b \"é\x00\" > \x00" (.ofList [.pipe, .output]) = .ok line := by
    decide +kernel
  have hnul : FirstNul line.values 2 := firstNul_iff.2 (by decide +kernel)
  exact ⟨line, hparse, hnul, (launch_invalid_iff hparse id none).2.1 2 hnul⟩

end CommandLine

end PipelineShell
