import MacroFamilies.Family
import MacroFamilies.Proofs.Emission.Aliases
import MacroFamilies.Proofs.ParameterSet.Entries
import MacroFamilies.Proofs.Template.Places
import MacroFamilies.Proofs.Text.Replace
/-!
# Long names and the names of an arity

The long name of an alias is made from the characters of its line, with an underscore in front of
the leftmost `%{arity}`. The macro of an arity is named by the segments of the line, with a value
for the placeholder that starts with the underscore. Behind a percent sign that escapes theirs, the
characters `%{arity}` are no placeholder, and there the two ways part: the main statement says that
they agree exactly if no such characters stand in front of the placeholder.
-/

namespace MacroFamilies

theorem Atom.exists_chars {atoms : List Atom} (h : names atoms = []) :
    ∃ cs : List Char, atoms = cs.map .char := by
  induction atoms with
  | nil => exact ⟨[], rfl⟩
  | cons x atoms ih =>
    cases x with
    | char c =>
      obtain ⟨cs, rfl⟩ := ih h
      exact ⟨c :: cs, rfl⟩
    | value name => cases h

theorem Segment.exists_chars_of_append {start rest cs : List Char} (hunescaped : Unescaped start)
    (hstart : (reading start).isSome) (h : reading (start ++ rest) = some (cs.map .char)) :
    ∃ first last, cs = first ++ last ∧ reading start = some (first.map .char) ∧
      reading rest = some (last.map .char) := by
  obtain ⟨xs, hxs⟩ := Option.isSome_iff_exists.1 hstart
  rw [reading_append hunescaped hxs] at h
  obtain ⟨ys, hys, heq⟩ := Option.map_eq_some_iff.1 h
  obtain ⟨first, last, rfl, rfl, rfl⟩ := List.map_eq_append_iff.1 heq.symm
  exact ⟨first, last, rfl, hxs, hys⟩

namespace Emission

/-! ## Lines with one place for the arity -/

theorem reading_arityMark (rest : List Char) :
    Segment.reading (arityMark ++ rest) =
      (Segment.reading rest).map (.value "arity" :: ·) :=
  Segment.reading_placeholder (by decide : Segment.isName "arity".toList = true) rest

theorem reading_escapedMark (rest : List Char) :
    Segment.reading ('%' :: (arityMark ++ rest)) =
      (Segment.reading rest).map (arityMark.map .char ++ ·) := by
  have hread := Segment.reading_append_plain (by decide : '%' ∉ arityMark.tail) rest
  have hmark : '%' :: (arityMark ++ rest) = '%' :: '%' :: (arityMark.tail ++ rest) := rfl
  rw [hmark, Segment.reading_escaped, hread, Option.map_map]
  rfl

/-- A line cut around the only placeholder that it has, with the characters that are read in front
of it and behind it. -/
structure ArityAt (line before after left right : List Char) : Prop where
  text_eq : line = before ++ (arityMark ++ after)
  unescaped : Unescaped before
  reading_before : Segment.reading before = some (left.map .char)
  reading_after : Segment.reading after = some (right.map .char)

theorem exists_arityAt {line : Template} (h : line.placeholders = ["arity"]) :
    ∃ before after left right, ArityAt line.text.toList before after left right := by
  have hplaces : line.placeholders = [] ++ "arity" :: [] := h
  obtain ⟨before, after, xs, ys, hopening, hbefore, hxs, hafter, hys⟩ :=
    Template.exists_place hplaces
  obtain ⟨left, rfl⟩ := Atom.exists_chars hxs
  obtain ⟨right, rfl⟩ := Atom.exists_chars hys
  exact ⟨before, after, left, right, hopening.text_eq, hopening.unescaped, hbefore, hafter⟩

namespace ArityAt

variable {line : String} {before after left right : List Char}

theorem opening (h : ArityAt line.toList before after left right) :
    Opening line.toList before ("arity\x7d".toList ++ after) :=
  ⟨h.text_eq, h.unescaped⟩

theorem reading_line (h : ArityAt line.toList before after left right) :
    Segment.reading line.toList = some (left.map .char ++ .value "arity" :: right.map .char) := by
  rw [h.text_eq, Segment.reading_append h.unescaped h.reading_before, reading_arityMark,
    h.reading_after]
  rfl

theorem reading_longName (h : ArityAt line.toList before after left right)
    (hmark : ¬ arityMark <:+: before) :
    Segment.reading (longName line).toList =
      some (left.map .char ++ .char '_' :: .value "arity" :: right.map .char) := by
  have hleft : Text.Leftmost arityMark line.toList before after := by
    rw [h.text_eq]
    exact Text.leftmost_of_not_infix (by decide) hmark after
  have hunderscore : Segment.Copied '_' (arityMark ++ after) := fun hc => absurd hc (by decide)
  rw [longName, String.toList_ofList, Text.replaceFirst_of_leftmost hleft,
    Segment.reading_append h.unescaped h.reading_before, List.cons_append,
    Segment.reading_copied hunderscore, reading_arityMark, h.reading_after]
  rfl

theorem exists_escaped (h : ArityAt line.toList before after left right) {front behind : List Char}
    (hsplit : before = front ++ (arityMark ++ behind)) :
    ∃ start first last, front = start ++ ['%'] ∧ Unescaped start ∧
      Segment.reading start = some (first.map .char) ∧
      Segment.reading behind = some (last.map .char) ∧ left = first ++ arityMark ++ last := by
  have hbefore : (Segment.reading (front ++ (arityMark ++ behind))).isSome := by
    rw [← hsplit, h.reading_before]
    rfl
  have hread := h.reading_before
  have hescaped : ¬ Unescaped front := by
    -- otherwise there would be a placeholder in front of the only one
    intro hunescaped
    rw [hsplit] at hread
    obtain ⟨-, last, -, -, hlast⟩ := Segment.exists_chars_of_append hunescaped
      (Segment.isSome_reading_of_append (by decide) (by decide) hbefore) hread
    rw [reading_arityMark] at hlast
    obtain ⟨ys, -, heq⟩ := Option.map_eq_some_iff.1 hlast
    cases last <;> cases heq
  obtain ⟨start, rfl, hstart⟩ := exists_of_not_unescaped hescaped
  rw [List.append_assoc, List.singleton_append] at hsplit hbefore
  rw [hsplit] at hread
  obtain ⟨first, rest, rfl, hfirst, hrest⟩ := Segment.exists_chars_of_append hstart
    (Segment.isSome_reading_of_append (by decide) (by decide) hbefore) hread
  rw [reading_escapedMark] at hrest
  obtain ⟨ys, hbehind, heq⟩ := Option.map_eq_some_iff.1 hrest
  obtain ⟨mark, last, rfl, hmark, rfl⟩ := List.map_eq_append_iff.1 heq.symm
  obtain rfl : mark = arityMark := List.map_injective_iff.2 (fun _ _ => Atom.char.inj) hmark
  exact ⟨start, first, last, rfl, hstart, hfirst, hbehind, (List.append_assoc _ _ _).symm⟩

/-- The long name, if there is a mark in front of the placeholder: the leftmost one is no longer
escaped. -/
theorem exists_reading_longName (h : ArityAt line.toList before after left right)
    (hmark : arityMark <:+: before) :
    ∃ first last, left = first ++ arityMark ++ last ∧
      Segment.reading (longName line).toList =
        some (first.map .char ++ .char '%' :: .char '_' :: .value "arity" ::
          (last.map .char ++ .value "arity" :: right.map .char)) := by
  obtain ⟨front, behind, hleft⟩ := Text.exists_leftmost hmark
  have hline := hleft.append (arityMark ++ after)
  rw [← h.text_eq] at hline
  have hbehind : Unescaped behind := by
    have hunescaped := h.unescaped
    have hclose : front ++ (arityMark ++ behind) =
        front ++ arityMark.dropLast ++ '}' :: behind := by
      rw [List.append_assoc]
      rfl
    rwa [hleft.text_eq, hclose, unescaped_append_cons (by decide)] at hunescaped
  obtain ⟨start, first, last, rfl, hstart, hfirst, hlast, hsplit⟩ := h.exists_escaped hleft.text_eq
  refine ⟨first, last, hsplit, ?_⟩
  have hsign : Segment.Copied '%' ('_' :: (arityMark ++ (behind ++ (arityMark ++ after)))) :=
    fun _ => by simp
  have hunderscore : Segment.Copied '_' (arityMark ++ (behind ++ (arityMark ++ after))) :=
    fun hc => absurd hc (by decide)
  rw [longName, String.toList_ofList, Text.replaceFirst_of_leftmost hline, List.append_assoc,
    Segment.reading_append hstart hfirst, List.singleton_append, List.cons_append,
    Segment.reading_copied hsign, Segment.reading_copied hunderscore, reading_arityMark,
    Segment.reading_append hbehind hlast, reading_arityMark, h.reading_after]
  rfl

end ArityAt

/-! ## What the names are expanded to -/

theorem fill_arity (n : Nat) (rest : List Atom) :
    Atom.fill (synthesize n).get? (.value "arity" :: rest) =
      (Atom.fill (synthesize n).get? rest).map ((toString n).toList ++ ·) := by
  rw [Atom.fill, ParameterSet.get?_synthesize_arity]
  rfl

theorem ArityAt.expand_eq {before after left right : List Char} {line : Template}
    (h : ArityAt line.text.toList before after left right) (arity : String) :
    line.expand (.arityOnly arity) = .ok (String.ofList (left ++ (arity.toList ++ right))) := by
  have hatoms := line.reading_text
  rw [h.reading_line, Option.some.injEq] at hatoms
  rw [Template.expand_eq_ok_iff, ← hatoms, Atom.fill_append, Atom.fill_map_char, Atom.fill,
    ParameterSet.get?_arityOnly, Atom.fill_map_char, String.toList_ofList]
  rfl

section Long

variable {line : String} {before after left right : List Char} {n : Nat} {atoms : List Atom}
  {long : List Char}

theorem ArityAt.long_eq (h : ArityAt line.toList before after left right)
    (hmark : ¬ arityMark <:+: before) (hread : Segment.reading (longName line).toList = some atoms)
    (hlong : Atom.fill (synthesize n).get? atoms = some long) :
    long = left ++ '_' :: ((toString n).toList ++ right) := by
  obtain rfl := Option.some.inj (hread.symm.trans (h.reading_longName hmark))
  rw [Atom.fill_append, Atom.fill_map_char, Atom.fill, fill_arity, Atom.fill_map_char] at hlong
  simpa using hlong.symm

theorem ArityAt.exists_long_eq (h : ArityAt line.toList before after left right)
    (hmark : arityMark <:+: before) (hread : Segment.reading (longName line).toList = some atoms)
    (hlong : Atom.fill (synthesize n).get? atoms = some long) :
    ∃ first last, left = first ++ arityMark ++ last ∧ long = first ++ ['%', '_'] ++
      ((toString n).toList ++ (last ++ ((toString n).toList ++ right))) := by
  obtain ⟨first, last, hleft, hlongName⟩ := h.exists_reading_longName hmark
  obtain rfl := Option.some.inj (hread.symm.trans hlongName)
  refine ⟨first, last, hleft, ?_⟩
  rw [Atom.fill_append, Atom.fill_map_char, Atom.fill, Atom.fill, fill_arity, Atom.fill_append,
    Atom.fill_map_char, fill_arity, Atom.fill_map_char] at hlong
  simpa using hlong.symm

end Long

/-- A character in front of a common part and one behind it in the other text are the same, if both
texts are. -/
theorem eq_of_append_concat {c d : Char} {front back common : List Char}
    (h : front ++ [c] ++ common = back ++ common ++ [d]) : c = d := by
  induction common using List.reverseRecOn generalizing d with
  | nil =>
    have hlast : front = back ∧ c = d := by simpa using h
    exact hlast.2
  | append_singleton common e ih =>
    rw [← List.append_assoc, ← List.append_assoc] at h
    obtain ⟨hinit, hlast⟩ := List.append_inj' h rfl
    obtain rfl : e = d := List.singleton_inj.1 hlast
    exact ih hinit

theorem underscore_not_mem_digits (n : Nat) : '_' ∉ (toString n).toList := by
  rw [Nat.toString_eq_repr, Nat.toList_repr]
  intro h
  exact absurd (Nat.isDigit_of_mem_toDigits (by decide) (by decide) h) (by decide)

/-- With the arity in two places and an underscore in front of the first one, the end is not what it
is with an underscore in front of the second one. -/
theorem append_digits_ne (n : Nat) (front back middle right : List Char) :
    front ++ ((toString n).toList ++ (middle ++ ((toString n).toList ++ right))) ≠
      back ++ (middle ++ '_' :: ((toString n).toList ++ right)) := by
  have hunderscore := underscore_not_mem_digits n
  have hdigits : (toString n).toList ≠ [] := by simp
  generalize (toString n).toList = digits at hunderscore hdigits ⊢
  obtain ⟨others, digit, rfl⟩ := (List.eq_nil_or_concat' _).resolve_left hdigits
  intro h
  have hend : front ++ others ++ [digit] ++ middle ++ (others ++ digit :: right) =
      back ++ middle ++ ['_'] ++ (others ++ digit :: right) := by
    simpa using h
  rw [eq_of_append_concat (List.append_cancel_right hend)] at hunderscore
  simp at hunderscore

/-- The directives of a line with one place for the arity end in the name of the arity exactly if no
escaped mark stands in front of that place. -/
theorem directive_ends_in_arityName_iff {template : Template} {fileName : String}
    {rules : List Abbreviation} {N : Nat} {trailer : Option String} {artifact : Artifact}
    {lines : List Template} (hlines : template.lines = .ok lines)
    (hok : aliases fileName template rules ⟨N⟩ trailer = .ok artifact) {i n : Nat}
    {line : Template} (hline : lines[i]? = some line) (harity : line.placeholders = ["arity"])
    (hn : n ≤ N) :
    ∃ before after directive spelled,
      Opening line.text.toList before ("arity\x7d".toList ++ after) ∧
      artifact.lines[2 + i * (N + 1) + n]? = some directive ∧
      line.expand (.arityOnly ("_" ++ toString n)) = .ok spelled ∧
      (∀ f : Family, f.name.text = line.text → f.arityName n = .ok spelled) ∧
      ((∃ front, directive = front ++ " " ++ spelled) ↔ ¬ arityMark <:+: before) := by
  obtain ⟨before, after, left, right, hat⟩ := exists_arityAt harity
  obtain ⟨definition, directive, hparse, hexpand, hentry⟩ :=
    directive_of_aliases hlines hok hline hn
  refine ⟨before, after, directive, _, hat.opening, hentry, hat.expand_eq _,
    fun f hf => (hf ▸ hat).expand_eq _, ?_⟩
  have htext : definition.text.toList =
      ("#define " ++ Abbreviation.shorten rules line.text).toList ++
        ' ' :: (longName line.text).toList := by
    rw [(Template.name_text_of_parse hparse).2, aliasText]
    simp
  obtain ⟨atoms, front, long, hread, hlong, hfront⟩ :=
    Template.expand_append_separator (by decide) htext hexpand
  by_cases hmark : arityMark <:+: before
  · obtain ⟨first, last, rfl, rfl⟩ := hat.exists_long_eq hmark hread hlong
    refine iff_of_false ?_ (not_not_intro hmark)
    rintro ⟨other, rfl⟩
    apply append_digits_ne n (front ++ ' ' :: (first ++ ['%', '_']))
      (other.toList ++ ' ' :: (first ++ arityMark)) last right
    simpa using hfront.symm
  · obtain rfl := hat.long_eq hmark hread hlong
    refine iff_of_true ⟨String.ofList front, ?_⟩ hmark
    rw [← String.toList_inj, hfront]
    simp

/-- Two lines with an escaped percent sign in front of the place of the arity; in the first one it
belongs to an escaped mark. -/
def escapedAliases : Template where
  name := "s"
  text := "A%%\x7barity\x7d%\x7barity\x7d\nB%%%\x7barity\x7d"
  segments := [.literal "A%\x7barity\x7d".toList, .placeholder "arity" ⟨10, 18⟩,
    .literal "\nB%".toList, .placeholder "arity" ⟨22, 30⟩]
  segments_eq := by cbv

def escapedMarkLine : Template where
  name := "s:1"
  text := "A%%\x7barity\x7d%\x7barity\x7d"
  segments := [.literal "A%\x7barity\x7d".toList, .placeholder "arity" ⟨10, 18⟩]
  segments_eq := by cbv

def escapedSignLine : Template where
  name := "s:2"
  text := "B%%%\x7barity\x7d"
  segments := [.literal "B%".toList, .placeholder "arity" ⟨3, 11⟩]
  segments_eq := by cbv

theorem lines_escapedAliases : escapedAliases.lines = .ok [escapedMarkLine, escapedSignLine] := by
  have hnumbered : Template.numberedLines 1 (Text.lines escapedAliases.text.toList) =
      [(1, escapedMarkLine.text.toList), (2, escapedSignLine.text.toList)] := by decide +kernel
  have hmark := Template.parse_of_scan "s:1" escapedMarkLine.segments_eq
  have hsign := Template.parse_of_scan "s:2" escapedSignLine.segments_eq
  rw [Template.lines, hnumbered, Traversal.mapM_eq_ok_iff]
  exact .cons hmark (.cons hsign .nil)

theorem aliases_escapedAliases : aliases "s" escapedAliases [] ⟨0⟩ none =
    .ok ⟨"s", ["#pragma once", "", "#define A%\x7barity\x7d0 A%_00", "#define B%0 B%_0"]⟩ := by
  decide +kernel

theorem directive_ends_in_arityName_escapedSignLine :
    ∃ artifact directive, aliases "s" escapedAliases [] ⟨0⟩ none = .ok artifact ∧
      escapedSignLine.placeholders = ["arity"] ∧ artifact.lines[3]? = some directive ∧
      escapedSignLine.expand (.arityOnly "_0") = .ok "B%_0" ∧
      ∃ front, directive = front ++ " " ++ "B%_0" := by
  have hline : [escapedMarkLine, escapedSignLine][1]? = some escapedSignLine := rfl
  obtain ⟨before, after, directive, spelled, hopening, hentry, hspelled, -, hends⟩ :=
    directive_ends_in_arityName_iff lines_escapedAliases aliases_escapedAliases hline rfl le_rfl
  obtain rfl : "B%_0" = spelled := by
    have hexpand : escapedSignLine.expand (.arityOnly "_0") = .ok "B%_0" := by decide
    exact Except.ok.inj (hexpand.symm.trans hspelled)
  refine ⟨_, directive, aliases_escapedAliases, rfl, hentry, hspelled, hends.2 fun hmark => ?_⟩
  -- in front of the place of the arity there is no room for another mark
  have hlength := congrArg List.length hopening.text_eq
  have hle := hmark.length_le
  have hsize : escapedSignLine.text.toList.length = 11 ∧ "arity\x7d".toList.length = 6 ∧
      arityMark.length = 8 := by decide
  simp only [List.length_append, List.length_cons] at hlength
  omega

/-- An escaped mark in front of the placeholder takes the underscore. -/
theorem exists_directive_without_arityName :
    ∃ artifact directive, escapedAliases.lines = .ok [escapedMarkLine, escapedSignLine] ∧
      escapedMarkLine.placeholders = ["arity"] ∧
      aliases "s" escapedAliases [] ⟨0⟩ none = .ok artifact ∧ artifact.lines[2]? = some directive ∧
      escapedMarkLine.expand (.arityOnly "_0") = .ok "A%\x7barity\x7d_0" ∧
      ¬ ∃ front, directive = front ++ " " ++ "A%\x7barity\x7d_0" := by
  refine ⟨_, _, lines_escapedAliases, rfl, aliases_escapedAliases, rfl, by decide, ?_⟩
  rintro ⟨front, hfront⟩
  have hsuffix : " A%\x7barity\x7d_0".toList <:+ "#define A%\x7barity\x7d0 A%_00".toList := by
    refine ⟨front.toList, ?_⟩
    rw [hfront]
    simp
  revert hsuffix
  decide

end Emission

end MacroFamilies
