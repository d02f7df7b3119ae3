import MacroFamilies.Proofs.Template.Lines
/-!
# Placeholders of parts

A placeholder holds no blank, no parenthesis and no line break. So a text can be cut at any such
character and its parts have the placeholders of the text, and nothing is lost when a margin of
blanks is taken off. In particular every template can be cut into its lines.
-/

namespace MacroFamilies

theorem isBlank_of_isNameChar {c : Char} (h : Segment.isNameChar c = true) :
    Text.isBlank c = false := by
  simp only [Segment.isNameChar, Char.isAlphanum, Char.isAlpha, Char.isUpper, Char.isLower,
    Char.isDigit, Bool.or_eq_true, Bool.and_eq_true, decide_eq_true_eq, beq_iff_eq,
    UInt32.le_iff_toNat_le, ge_iff_le] at h
  change (((65 ≤ c.toNat ∧ c.toNat ≤ 90) ∨ (97 ≤ c.toNat ∧ c.toNat ≤ 122)) ∨
    (48 ≤ c.toNat ∧ c.toNat ≤ 57)) ∨ c = '_' at h
  have hrange : 48 ≤ c.toNat ∧ c.toNat ≤ 122 := by
    rcases h with h | rfl
    · omega
    · decide
  simp only [Text.isBlank, Bool.or_eq_false_iff, Bool.and_eq_false_iff, decide_eq_false_iff_not,
    beq_eq_false_iff_ne]
  omega

namespace Segment

/-- The placeholders of a text in order of appearance; none if one of them is malformed. -/
def places (cs : List Char) : Option (List String) := (reading cs).map Atom.names

@[simp] theorem places_nil : places [] = some [] := by
  rw [places, reading_nil]
  rfl

theorem places_append_separator {c : Char} (hc : isSeparator c = true) (before after : List Char) :
    places (before ++ c :: after) =
      (places before).bind fun xs => (places after).map fun ys => xs ++ ys := by
  rw [places, reading_append_separator hc, places, places]
  cases reading before with
  | none => rfl
  | some xs =>
    cases reading after with
    | none => rfl
    | some ys => simp [Atom.names]

theorem places_cons_separator {c : Char} (hc : isSeparator c = true) (cs : List Char) :
    places (c :: cs) = places cs := by
  have hcut := places_append_separator hc [] cs
  rw [List.nil_append, places_nil, Option.bind_some] at hcut
  rw [hcut]
  simp

theorem places_concat_separator {c : Char} (hc : isSeparator c = true) (cs : List Char) :
    places (cs ++ [c]) = places cs := by
  rw [places_append_separator hc, places_nil]
  cases places cs <;> simp

/-! ## Margins -/

theorem isSeparator_of_isBlank {c : Char} (h : Text.isBlank c = true) : isSeparator c = true := by
  have hname : isNameChar c = false := by
    by_contra hname
    rw [Bool.not_eq_false] at hname
    rw [isBlank_of_isNameChar hname] at h
    cases h
  have hmark {d : Char} (hd : Text.isBlank d = false) : c ≠ d := by
    rintro rfl
    rw [hd] at h
    cases h
  simp [isSeparator, hname, hmark (d := '%') (by decide), hmark (d := '{') (by decide),
    hmark (d := '}') (by decide)]

theorem places_trimStart (cs : List Char) : places (Text.trimStart cs) = places cs := by
  induction cs with
  | nil => rfl
  | cons c cs ih =>
    by_cases hc : Text.isBlank c = true
    · rw [Text.trimStart, List.dropWhile_cons_of_pos hc, ← Text.trimStart, ih,
        places_cons_separator (isSeparator_of_isBlank hc)]
    · rw [Text.trimStart, List.dropWhile_cons_of_neg hc]

theorem places_trimEnd (cs : List Char) : places (Text.trimEnd cs) = places cs := by
  induction cs using List.reverseRecOn with
  | nil => rfl
  | append_singleton cs c ih =>
    unfold Text.trimEnd at ih ⊢
    rw [List.reverse_append, List.reverse_singleton, List.singleton_append]
    by_cases hc : Text.isBlank c = true
    · rw [List.dropWhile_cons_of_pos hc, ih, places_concat_separator (isSeparator_of_isBlank hc)]
    · rw [List.dropWhile_cons_of_neg hc, List.reverse_cons, List.reverse_reverse]

/-- Margins hold no part of a placeholder. -/
theorem places_trim (cs : List Char) : places (Text.trim cs) = places cs := by
  rw [Text.trim, places_trimEnd, places_trimStart]

/-! ## Lines -/

def placesInAll : List (List Char) → Option (List String)
  | [] => some []
  | cs :: rest => (places cs).bind fun xs => (placesInAll rest).map fun ys => xs ++ ys

theorem placesInAll_pieces (cs : List Char) : placesInAll (Text.pieces cs) = places cs := by
  have hjoined : ∀ ps : List (List Char), ps ≠ [] →
      placesInAll ps = places (['\n'].intercalate ps) := by
    intro ps hne
    induction ps with
    | nil => exact absurd rfl hne
    | cons p ps ih =>
      cases ps with
      | nil => cases hp : places p <;> simp [placesInAll, hp]
      | cons q ps =>
        rw [placesInAll, ih (List.cons_ne_nil q ps), List.intercalate_cons_cons,
          List.append_assoc, List.singleton_append, places_append_separator (by decide)]
  rw [Text.pieces, hjoined _ (List.splitOn_ne_nil _ _), List.intercalate_splitOn]

theorem places_dropReturn (cs : List Char) : places (Text.dropReturn cs) = places cs := by
  unfold Text.dropReturn
  split_ifs with hlast
  · obtain ⟨front, rfl⟩ := List.getLast?_eq_some_iff.1 hlast
    rw [List.dropLast_concat, places_concat_separator (by decide)]
  · rfl

theorem placesInAll_linesOfPieces (ps : List (List Char)) :
    placesInAll (Text.linesOfPieces ps) = placesInAll ps := by
  induction ps using Text.linesOfPieces.induct with
  | case1 => rfl
  | case2 =>
    -- an empty last piece is no line
    simp [Text.linesOfPieces, placesInAll]
  | case3 last hlast => rw [Text.linesOfPieces, if_neg hlast]
  | case4 p q rest ih =>
    have hfirst : placesInAll (p :: q :: rest) =
        (places p).bind fun xs => (placesInAll (q :: rest)).map fun ys => xs ++ ys := rfl
    rw [Text.linesOfPieces, placesInAll, ih, places_dropReturn, hfirst]

theorem placesInAll_lines (cs : List Char) : placesInAll (Text.lines cs) = places cs := by
  rw [Text.lines, placesInAll_linesOfPieces, placesInAll_pieces]

/-- Blank lines and margins hold no placeholder. -/
theorem placesInAll_numberedLines (first : Nat) (lines : List (List Char)) :
    placesInAll ((Template.numberedLines first lines).map (·.2)) = placesInAll lines := by
  induction lines generalizing first with
  | nil => rfl
  | cons line rest ih =>
    have hline := places_trim line
    rw [Template.numberedLines, placesInAll]
    by_cases hblank : Text.trim line = []
    · rw [if_pos hblank, ih, ← hline, hblank, places_nil]
      simp
    · rw [if_neg hblank, List.map_cons, placesInAll, ih, hline]

end Segment

namespace Template

theorem places_text (t : Template) : Segment.places t.text.toList = some t.placeholders := by
  rw [Segment.places, t.reading_text, t.placeholders_eq]
  rfl

theorem exists_parse_of_places {text : String} {names : List String}
    (h : Segment.places text.toList = some names) (name : String) :
    ∃ t, parse name text = .ok t ∧ t.placeholders = names := by
  have hread : (Segment.reading text.toList).isSome := by
    rw [← Option.isSome_map (f := Atom.names), ← Segment.places, h]
    rfl
  obtain ⟨t, ht⟩ := (exists_parse_iff name text).2 hread
  have hplaces := t.places_text
  rw [(name_text_of_parse ht).2, h, Option.some.injEq] at hplaces
  exact ⟨t, ht, hplaces.symm⟩

theorem exists_mapM_parse (label : Nat → String) {numbered : List (Nat × List Char)}
    {names : List String} (h : Segment.placesInAll (numbered.map (·.2)) = some names) :
    ∃ lines, (numbered.mapM fun (number, line) => parse (label number) (String.ofList line)) =
        .ok lines ∧ lines.flatMap placeholders = names := by
  induction numbered generalizing names with
  | nil => exact ⟨[], rfl, Option.some.inj h⟩
  | cons line numbered ih =>
    obtain ⟨xs, hxs, h⟩ := Option.bind_eq_some_iff.1 h
    obtain ⟨ys, hys, rfl⟩ := Option.map_eq_some_iff.1 h
    have htext : Segment.places (String.ofList line.2).toList = some xs := by
      rw [String.toList_ofList]
      exact hxs
    obtain ⟨t, ht, rfl⟩ := exists_parse_of_places htext (label line.1)
    obtain ⟨ts, hts, rfl⟩ := ih hys
    exact ⟨t :: ts, Traversal.mapM_eq_ok_iff.2 (.cons ht (Traversal.mapM_eq_ok_iff.1 hts)), rfl⟩

theorem exists_lines_places (t : Template) :
    ∃ lines, t.lines = .ok lines ∧ lines.flatMap placeholders = t.placeholders := by
  apply exists_mapM_parse fun number => t.name ++ ":" ++ toString number
  rw [Segment.placesInAll_numberedLines, Segment.placesInAll_lines, t.places_text]

theorem exists_lines {α : Type} {t : Template} {xs : List α} {text : α → String}
    (htexts : t.lineTexts = xs.map text) :
    ∃ lines, t.lines = .ok lines ∧ List.Forall₂ (fun x line => line.text = text x) xs lines := by
  obtain ⟨lines, hlines, -⟩ := t.exists_lines_places
  have heq : List.Forall₂ (· = ·) (lines.map (·.text)) (xs.map text) := by
    rw [List.forall₂_eq_eq_eq, texts_of_lines hlines, htexts]
  rw [List.forall₂_map_left_iff, List.forall₂_map_right_iff] at heq
  exact ⟨lines, hlines, heq.flip⟩

end Template

end MacroFamilies
