import MacroFamilies.ArityFile
import MacroFamilies.Proofs.Numeral
import MacroFamilies.Proofs.Template.Places
import MacroFamilies.Proofs.Text.Margins
/-!
# What an arity file says

The content of an arity file is either a numeral of a number that fits a signed word and is not
negative, or a numeral of a negative one that fits, or something else; the first is the maximum
arity, and each of the others has its own message. An error points at the content, which is searched
for in the whole text: as the content does not start with a blank, it is not found in the margin in
front of it.
-/

namespace MacroFamilies

variable {cs : List Char}

/-! ## Where the content is found -/

namespace Text

theorem offset?_prefix (pattern after : List Char) : offset? pattern (pattern ++ after) = some 0 := by
  cases pattern with
  | nil => cases after <;> simp [offset?]
  | cons c pattern =>
    rw [List.cons_append, offset?, if_pos (by simp)]

/-- What starts with none of the characters in front of a text is found in the text itself. -/
theorem offset?_append {pattern before : List Char} (hne : pattern ≠ [])
    (h : ∀ c ∈ before, pattern.head? ≠ some c) (text : List Char) :
    offset? pattern (before ++ text) = (offset? pattern text).map (byteLength before + ·) := by
  induction before with
  | nil => simp [byteLength]
  | cons c before ih =>
    obtain ⟨hc, hbefore⟩ := List.forall_mem_cons.1 h
    have hpattern : ¬ pattern.isPrefixOf (c :: (before ++ text)) = true := by
      obtain ⟨d, pattern, rfl⟩ := List.exists_cons_of_ne_nil hne
      have hd : d ≠ c := by simpa using hc
      simp [hd]
    rw [List.cons_append, offset?, if_neg hpattern, ih hbefore, Option.map_map]
    simp [Function.comp_def, byteLength, Nat.add_assoc]

theorem head?_trim {c : Char} (h : (trim cs).head? = some c) : isBlank c = false := by
  obtain ⟨right, hcs, -⟩ := exists_margins cs
  have hcontent : cs.dropWhile isBlank = trim cs ++ right := by
    rw [← List.append_right_inj (cs.takeWhile isBlank), List.takeWhile_append_dropWhile,
      ← List.append_assoc, ← hcs]
  have hhead := List.head?_dropWhile_not isBlank cs
  rw [hcontent, List.head?_append, h] at hhead
  exact hhead

end Text

namespace ArityFile

theorem exists_contentSpan (cs : List Char) :
    ∃ left right, cs = left ++ Text.trim cs ++ right ∧
      (∀ c ∈ left ++ right, Text.isBlank c = true) ∧
      contentSpan cs = ⟨byteLength left, byteLength left + byteLength (Text.trim cs)⟩ := by
  by_cases hnil : Text.trim cs = []
  -- an empty content is found in front of everything, and all of the text is margin
  · refine ⟨[], cs, by simp [hnil], Text.trim_eq_nil_iff.1 hnil, ?_⟩
    rw [contentSpan, hnil, show cs = [] ++ cs from rfl, Text.offset?_prefix]
    rfl
  · obtain ⟨right, hcs, hright⟩ := Text.exists_margins cs
    have hleft : ∀ c ∈ cs.takeWhile Text.isBlank, Text.isBlank c = true :=
      fun c hc => List.mem_takeWhile_imp hc
    have hfound : Text.offset? (Text.trim cs) cs = some (byteLength (cs.takeWhile Text.isBlank)) := by
      have hblank : ∀ c ∈ cs.takeWhile Text.isBlank, (Text.trim cs).head? ≠ some c := by
        intro c hc hhead
        exact absurd (Text.head?_trim hhead) (by simp [hleft c hc])
      calc Text.offset? (Text.trim cs) cs
        _ = Text.offset? (Text.trim cs)
            (cs.takeWhile Text.isBlank ++ (Text.trim cs ++ right)) := by
          rw [← List.append_assoc, ← hcs]
        _ = some (byteLength (cs.takeWhile Text.isBlank)) := by
          rw [Text.offset?_append hnil hblank, Text.offset?_prefix]
          rfl
    refine ⟨cs.takeWhile Text.isBlank, right, hcs, ?_, ?_⟩
    · intro c hc
      exact (List.mem_append.1 hc).elim (hleft c) (hright c)
    · rw [contentSpan, hfound]
      rfl

/-! ## How the content is judged -/

open Numeral

/-- What is said about the content of an arity file. -/
inductive Judgement (content : List Char) : Except Fault Nat → Prop
  | arity {n : Nat} (writes : Writes content n) (fits : n < 2 ^ 63) : Judgement content (.ok n)
  | negative {v : Int} (writes : Writes content v) (fits : -2 ^ 63 ≤ v) (neg : v < 0) :
    Judgement content (.error (.negative v))
  | notAnInteger (none_fits : ∀ v, Writes content v → ¬ (-2 ^ 63 ≤ v ∧ v < 2 ^ 63)) :
    Judgement content (.error (.notAnInteger (String.ofList content)))

theorem judgement_classify (content : List Char) : Judgement content (classify content) := by
  have hword {v : Int} : (signed? content).filter (fitsSigned 64) = some v ↔
      Writes content v ∧ -2 ^ 63 ≤ v ∧ v < 2 ^ 63 := by
    rw [Option.filter_eq_some_iff, signed?_eq_some_iff, fitsSigned_iff]
  unfold classify
  split
  case h_1 n hn =>
    obtain ⟨hwrites, -, hlt⟩ := hword.1 hn
    have hfits : (n : Int) < 2 ^ 63 := hlt
    exact .arity hwrites (by omega)
  case h_2 n hn =>
    obtain ⟨hwrites, hle, -⟩ := hword.1 hn
    exact .negative hwrites hle (Int.negSucc_lt_zero n)
  case h_3 hnone =>
    refine .notAnInteger fun v hwrites hfits => ?_
    rw [hword.2 ⟨hwrites, hfits⟩] at hnone
    cases hnone

theorem Judgement.unique {judged other : Except Fault Nat} (h : Judgement cs judged)
    (h' : Judgement cs other) : judged = other := by
  cases h with
  | arity writes fits =>
    cases h' with
    | arity writes' _ => rw [Int.ofNat.inj (writes.unique writes')]
    | negative writes' _ neg =>
      have := writes.unique writes'
      omega
    | notAnInteger none_fits => exact absurd ⟨by omega, by omega⟩ (none_fits _ writes)
  | negative writes fits neg =>
    cases h' with
    | arity writes' _ =>
      have := writes.unique writes'
      omega
    | negative writes' _ _ => rw [writes.unique writes']
    | notAnInteger none_fits => exact absurd ⟨fits, by omega⟩ (none_fits _ writes)
  | notAnInteger none_fits =>
    cases h' with
    | arity writes fits => exact absurd ⟨by omega, by omega⟩ (none_fits _ writes)
    | negative writes fits neg => exact absurd ⟨fits, by omega⟩ (none_fits _ writes)
    | notAnInteger _ => rfl

theorem classify_eq_iff {judged : Except Fault Nat} :
    classify cs = judged ↔ Judgement cs judged := by
  refine ⟨?_, (judgement_classify cs).unique⟩
  rintro rfl
  exact judgement_classify cs

theorem classify_eq_ok_iff {n : Nat} : classify cs = .ok n ↔ Writes cs n ∧ n < 2 ^ 63 := by
  rw [classify_eq_iff]
  constructor
  · rintro ⟨writes, fits⟩
    exact ⟨writes, fits⟩
  · rintro ⟨writes, fits⟩
    exact .arity writes fits

example : classify "-0".toList = .ok 0 := by decide +kernel

theorem classify_eq_negative_iff {v : Int} :
    classify cs = .error (.negative v) ↔ Writes cs v ∧ -2 ^ 63 ≤ v ∧ v < 0 := by
  rw [classify_eq_iff]
  constructor
  · intro h
    cases h with
    | negative writes fits neg => exact ⟨writes, fits, neg⟩
  · rintro ⟨writes, fits, neg⟩
    exact .negative writes fits neg

theorem classify_eq_notAnInteger_iff :
    classify cs = .error (.notAnInteger (String.ofList cs)) ↔
      ¬ ∃ v, Writes cs v ∧ -2 ^ 63 ≤ v ∧ v < 2 ^ 63 := by
  rw [classify_eq_iff]
  constructor
  · intro h
    cases h with
    | notAnInteger none_fits => exact fun ⟨v, writes, fits⟩ => none_fits v writes fits
  · exact fun hnone => .notAnInteger fun v writes fits => hnone ⟨v, writes, fits⟩

example : classify "9223372036854775808".toList =
    .error (.notAnInteger "9223372036854775808") := by decide +kernel

/-! ## How it is reported -/

theorem negative_ne_notAnInteger (v : Int) (text : String) :
    (Fault.negative v).wording.1 ≠ (Fault.notAnInteger text).wording.1 := by
  intro h
  have hlead : ("max arity must not be negative, found " ++ toString v).toList.take 11 =
      ("max arity '" ++ text ++ "' is not an integer").toList.take 11 :=
    congrArg (fun message : String => message.toList.take 11) h
  rw [String.append_assoc, String.toList_append, String.toList_append,
    List.take_append_of_le_length (by decide), List.take_append_of_le_length (by decide)] at hlead
  revert hlead
  decide

theorem Fault.wording_injective : Function.Injective fun fault : Fault => fault.wording.1 := by
  intro fault other h
  cases fault with
  | negative v =>
    cases other with
    | negative w => rw [Int.repr_inj.1 ((String.append_right_inj _).1 h)]
    | notAnInteger text => exact absurd h (negative_ne_notAnInteger v text)
  | notAnInteger text =>
    cases other with
    | negative w => exact absurd h.symm (negative_ne_notAnInteger w text)
    | notAnInteger other =>
      rw [(String.append_right_inj _).1 ((String.append_left_inj _).1 h)]

/-- The arity file is refused with this message. -/
def Refuses (name text message : String) : Prop :=
  ∃ d, parse name text = .error d ∧ d.message = message

/-- The diagnostic is about the configuration and points at the content of the arity file, which is
what its blank margins leave. -/
structure PointsAtContent (name text : String) (d : Diagnostic) : Prop where
  kind_eq : d.kind = .config
  source_eq : d.source = some ⟨name, text⟩
  span_eq : ∃ left right, text.toList = left ++ Text.trim text.toList ++ right ∧
    (∀ c ∈ left ++ right, Text.isBlank c = true) ∧
    ∃ span, d.span = some span ∧ span.Marks text (Text.trimmed text) ∧
      span.start = byteLength left ∧
      span.stop = byteLength left + byteLength (Text.trim text.toList)

variable {name text : String}

theorem parse_eq_ok_iff {n : Nat} :
    parse name text = .ok n ↔ classify (Text.trim text.toList) = .ok n := by
  unfold parse
  cases classify (Text.trim text.toList) <;> simp

theorem refuses_iff {fault : Fault} : Refuses name text fault.wording.1 ↔
    classify (Text.trim text.toList) = .error fault := by
  unfold Refuses parse
  cases classify (Text.trim text.toList) with
  | ok n => simp
  | error other => simpa using Fault.wording_injective.eq_iff

theorem pointsAtContent_of_parse {d : Diagnostic} (h : parse name text = .error d) :
    PointsAtContent name text d := by
  unfold parse at h
  split at h
  · cases h
  · cases h
    obtain ⟨left, right, htext, hblank, hspan⟩ := exists_contentSpan text.toList
    refine ⟨rfl, rfl, left, right, htext, hblank, _, rfl, ?_, ?_, ?_⟩
    · apply Span.marks_of_eq left _ right htext <;> rw [hspan]
    · rw [hspan]
    · rw [hspan]

end ArityFile

end MacroFamilies
