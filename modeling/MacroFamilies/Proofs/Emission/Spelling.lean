import MacroFamilies.Proofs.Emission.Undefinition
import MacroFamilies.Proofs.Family.Line
import MacroFamilies.Proofs.Text.Replace
/-!
# One spelling in every file

The dispatch macros, the aliases and the undefining directives are written by three passes, each of
which spells the macro of an arity in its own way. The main statement says that all three write the
same name, and in which entry of which line it stands.
-/

namespace MacroFamilies

def afterLastSpace (line : String) : String :=
  String.ofList (line.toList.reverse.takeWhile (· != ' ')).reverse

theorem afterLastSpace_append (before : String) {last : String} (h : ' ' ∉ last.toList) :
    afterLastSpace (before ++ " " ++ last) = last := by
  have hlast : ∀ c ∈ last.toList.reverse, (c != ' ') = true := by
    intro c hc
    rw [bne_iff_ne]
    rintro rfl
    exact h (List.mem_reverse.1 hc)
  have hreverse : (before ++ " " ++ last).toList.reverse =
      last.toList.reverse ++ ' ' :: before.toList.reverse := by
    simp
  rw [afterLastSpace, hreverse, List.takeWhile_append_of_pos hlast]
  simp

namespace FamilyName

def underscored (f : FamilyName) : FamilyName where
  stem := f.stem ++ "_"
  ending := f.ending
  stem_ne_empty := by
    intro h
    have hlength := congrArg String.length h
    simp at hlength
  stem_chars := by
    intro c hc
    rw [String.toList_append, List.mem_append] at hc
    rcases hc with hc | hc
    · exact f.stem_chars c hc
    · rw [show "_".toList = ['_'] by decide, List.mem_singleton] at hc
      rw [hc]
      decide
  ending_chars := f.ending_chars

theorem space_not_mem_spelled (f : FamilyName) (n : Nat) : ' ' ∉ (f.spelled n).toList := by
  have hdigits : ' ' ∉ Nat.toDigits 10 n := fun h =>
    absurd (isNameChar_of_mem_toDigits h) (by decide)
  have hstem := f.stem_not_mem (c := ' ') (by decide)
  have hending := f.ending_not_mem (c := ' ') (by decide)
  simp [spelled, hstem, hending, hdigits]

theorem toList_marked_mark (f : FamilyName) :
    f.marked.toList = f.stem.toList ++ (Emission.arityMark ++ f.ending.toList) := by
  have hmark : Emission.arityMark = "%\x7barity\x7d".toList := rfl
  rw [marked, hmark, String.toList_append, String.toList_append, List.append_assoc]

theorem longName_marked (f : FamilyName) : Emission.longName f.marked = f.underscored.marked := by
  have hlong : f.underscored.marked.toList =
      f.stem.toList ++ ('_' :: Emission.arityMark ++ f.ending.toList) := by
    rw [toList_marked_mark, underscored, String.toList_append, List.append_assoc]
    rfl
  have hstem : ¬ Emission.arityMark <:+: f.stem.toList := fun hmark =>
    f.stem_not_mem (c := '%') (by decide) (hmark.subset (by decide))
  have hleft : Text.Leftmost Emission.arityMark f.marked.toList f.stem.toList f.ending.toList := by
    rw [toList_marked_mark]
    exact Text.leftmost_of_not_infix (by decide) hstem _
  rw [← String.toList_inj, Emission.longName, String.toList_ofList,
    Text.replaceFirst_of_leftmost hleft, hlong]

theorem fill_underscored (f : FamilyName) (n : Nat) {atoms : List Atom}
    (h : Segment.reading f.underscored.marked.toList = some atoms) :
    Atom.fill (synthesize n).get? atoms = some (f.spelled n).toList := by
  rw [reading_marked, Option.some.injEq] at h
  rw [← h, Atom.fill_append, Atom.fill_map_char, Atom.fill,
    ParameterSet.get?_synthesize_arity, Atom.fill_map_char]
  simp [underscored, spelled]

/-! ## The lines of one family -/

theorem expand_underscored (f : FamilyName) {line : Template}
    (htext : line.text = f.underscored.marked) (n : Nat) :
    line.expand (synthesize n) = .ok (f.spelled n) := by
  have hread := line.reading_text
  rw [htext] at hread
  rw [Template.expand_eq_ok_iff]
  exact f.fill_underscored n hread

theorem afterLastSpace_directive (f : FamilyName) (short : String) {directive : Template}
    (htext : directive.text = short ++ " " ++ Emission.longName f.marked) {n : Nat} {line : String}
    (hline : directive.expand (synthesize n) = .ok line) : afterLastSpace line = f.spelled n := by
  have hcut : directive.text.toList = short.toList ++ ' ' :: f.underscored.marked.toList := by
    rw [htext, longName_marked]
    simp
  obtain ⟨atoms, left, right, hread, hright, hleft⟩ :=
    Template.expand_append_separator (by decide) hcut hline
  rw [f.fill_underscored n hread, Option.some.injEq] at hright
  have hend : line = String.ofList left ++ " " ++ f.spelled n := by
    rw [← String.toList_inj, hleft, ← hright]
    simp
  rw [hend]
  exact afterLastSpace_append _ (f.space_not_mem_spelled n)

end FamilyName

/-! ## The three files -/

section Files

variable {lines : List FamilyLine} (range : ArityRange)

theorem exists_families {template : Template} (fileName : String) (style : DispatchStyle)
    (htexts : template.lineTexts = lines.map (·.text)) :
    ∃ families, Emission.families template = .ok families ∧
      List.Forall₂ FamilyLine.Describes lines families ∧
      Emission.dispatch fileName template range style =
        .ok ⟨fileName, ["#pragma once", ""] ++ lines.flatMap (·.dispatchBlock range style)⟩ := by
  obtain ⟨ts, hts, htext⟩ := Template.exists_lines htexts
  obtain ⟨families, hfamilies, hdescribes⟩ :=
    Traversal.exists_mapM_of_forall₂ htext fun l t ht => l.exists_family ht
  have hblocks : families.mapM (·.dispatchLines range style) =
      .ok (lines.map (·.dispatchBlock range style)) := by
    apply Traversal.mapM_eq_ok_map_of_forall₂ hdescribes
    intro l f hf
    exact hf.dispatchLines range style
  have hok : Emission.families template = .ok families := by
    rw [Emission.families, hts]
    exact hfamilies
  refine ⟨families, hok, hdescribes, ?_⟩
  rw [Emission.dispatch, hok]
  simp only [bind, Except.bind, hblocks]
  rfl

theorem undefinition_eq {template : Template} (fileName : String)
    (htexts : template.lineTexts = lines.map (·.underscored.marked)) :
    Emission.undefinition fileName template range =
      .ok ⟨fileName, lines.flatMap fun l => Emission.undefinitionsOf range l.spelled⟩ := by
  obtain ⟨ts, hts, htext⟩ := Template.exists_lines htexts
  exact Emission.undefinition_eq_ok fileName range hts
    (htext.imp fun l _ ht => l.expand_underscored ht)

theorem dispatch_lines (lines : List FamilyLine) (style : DispatchStyle) :
    (["#pragma once", ""] ++ lines.flatMap (·.dispatchBlock range style)).length =
        2 + 3 * lines.length ∧
      ∀ i l, lines[i]? = some l →
        (["#pragma once", ""] ++ lines.flatMap (·.dispatchBlock range style))[3 + 3 * i]? =
          (l.dispatchBlock range style)[1]? := by
  have hpreamble : ["#pragma once", ""].length = 2 := rfl
  have hsize : ∀ l ∈ lines, (l.dispatchBlock range style).length = 3 := fun l _ => rfl
  constructor
  · rw [List.length_append, Traversal.length_flatMap_of_length hsize, hpreamble]
    omega
  · intro i l hl
    have hindex : 3 + 3 * i - 2 = i * 3 + 1 := by omega
    rw [List.getElem?_append_right (by rw [hpreamble]; omega), hpreamble, hindex,
      Traversal.getElem?_flatMap_of_length hsize (by decide), hl]
    rfl

theorem aliases_lines {template : Template} {fileName : String} {rules : List Abbreviation}
    {trailer : Option String} {artifact : Artifact}
    (htexts : template.lineTexts = lines.map (·.marked))
    (hok : Emission.aliases fileName template rules range trailer = .ok artifact) :
    artifact.lines.length = 2 + lines.length * (range.max + 1) + trailer.toList.length ∧
      ∀ i l n, lines[i]? = some l → n ≤ range.max →
        ∃ directive, artifact.lines[2 + i * (range.max + 1) + n]? = some directive ∧
          afterLastSpace directive = l.spelled n := by
  obtain ⟨ts, hts, htext⟩ := Template.exists_lines htexts
  constructor
  · rw [Emission.length_of_aliases hts hok, htext.length_eq]
  · intro i l n hl hn
    obtain ⟨line, hline, hmarked⟩ := Traversal.exists_getElem?_of_forall₂ htext hl
    obtain ⟨directive, text, hparse, hexpand, hentry⟩ :=
      Emission.directive_of_aliases hts hok hline hn
    have hdirective := (Template.name_text_of_parse hparse).2
    rw [hmarked, Emission.aliasText] at hdirective
    exact ⟨text, hentry, l.afterLastSpace_directive _ hdirective hexpand⟩

/-- The dispatch macros, the aliases and the undefining directives spell each macro alike. -/
theorem emitters_spell_alike (lines : List FamilyLine) (N : Nat) (style : DispatchStyle)
    (rules : List Abbreviation) (trailer : Option String)
    (dispatchFile aliasFile undefFile : String)
    {dispatchTemplate aliasTemplate undefTemplate : Template} {aliasArtifact : Artifact}
    (hdispatch : dispatchTemplate.lineTexts = lines.map (·.text))
    (halias : aliasTemplate.lineTexts = lines.map (·.marked))
    (hundef : undefTemplate.lineTexts = lines.map (·.underscored.marked))
    (hok : Emission.aliases aliasFile aliasTemplate rules ⟨N⟩ trailer = .ok aliasArtifact) :
    ∃ families dispatchArtifact undefArtifact,
      Emission.families dispatchTemplate = .ok families ∧
      Emission.dispatch dispatchFile dispatchTemplate ⟨N⟩ style = .ok dispatchArtifact ∧
      Emission.undefinition undefFile undefTemplate ⟨N⟩ = .ok undefArtifact ∧
      dispatchArtifact.lines.length = 2 + 3 * lines.length ∧
      aliasArtifact.lines.length = 2 + lines.length * (N + 1) + trailer.toList.length ∧
      undefArtifact.lines.length = lines.length * (N + 1) ∧
      ∀ i l n, lines[i]? = some l → n ≤ N →
        ∃ f selector names directive,
          families[i]? = some f ∧ f.selectorName style = .ok selector ∧
          f.descendingList ⟨N⟩ style = .ok names ∧
          dispatchArtifact.lines[3 + 3 * i]? = some ("   " ++ style.proxyMacro ++ "(" ++ selector ++
            ", (__VA_ARGS__, " ++ commaList names ++ "))(__VA_ARGS__)") ∧
          names[2 * (N - n)]? = some (l.spelled n) ∧
          aliasArtifact.lines[2 + i * (N + 1) + n]? = some directive ∧
          afterLastSpace directive = l.spelled n ∧
          undefArtifact.lines[i * (N + 1) + n]? = some ("#undef " ++ l.spelled n) := by
  obtain ⟨families, hfamilies, hdescribes, hdispatched⟩ :=
    exists_families ⟨N⟩ dispatchFile style hdispatch
  have hundefined := undefinition_eq ⟨N⟩ undefFile hundef
  obtain ⟨hdispatchCount, hdispatchLine⟩ := dispatch_lines ⟨N⟩ lines style
  obtain ⟨haliasCount, haliasLine⟩ := aliases_lines ⟨N⟩ halias hok
  refine ⟨families, _, _, hfamilies, hdispatched, hundefined, hdispatchCount, haliasCount,
    Emission.length_flatMap_undefinitionsOf, ?_⟩
  intro i l n hl hn
  obtain ⟨f, hf, hdescribe⟩ := Traversal.exists_getElem?_of_forall₂ hdescribes hl
  obtain ⟨directive, hdirective, hspelled⟩ := haliasLine i l n hl hn
  refine ⟨f, _, _, directive, hf, hdescribe.selectorName style,
    hdescribe.descendingList ⟨N⟩ style, hdispatchLine i l hl, ?_, hdirective, hspelled,
    Emission.getElem?_flatMap_undefinitionsOf hl hn⟩
  rw [(l.getElem?_descending style.errorMarker (Nat.sub_le N n)).1, Nat.sub_sub_self hn]

end Files

def messageAliases : Template where
  name := "alias"
  text := "\n  MSG%\x7barity\x7d\n"
  segments := [.literal "\n  MSG".toList, .placeholder "arity" ⟨6, 14⟩, .literal ['\n']]
  segments_eq := by cbv

def messageUndefinitions : Template where
  name := "undef"
  text := "MSG_%\x7barity\x7d"
  segments := [.literal "MSG_".toList, .placeholder "arity" ⟨4, 12⟩]
  segments_eq := by cbv

theorem emitters_spell_alike_messageLine :
    ∃ dispatchTemplate aliasArtifact dispatchArtifact undefArtifact,
      Template.parse "dispatch" messageLine.text = .ok dispatchTemplate ∧
      Emission.aliases "short" messageAliases [⟨"MSG", "M"⟩] ⟨1⟩ (some "x") = .ok aliasArtifact ∧
      Emission.dispatch "long" dispatchTemplate ⟨1⟩ {} = .ok dispatchArtifact ∧
      Emission.undefinition "undef" messageUndefinitions ⟨1⟩ = .ok undefArtifact ∧
      dispatchArtifact.lines.length = 5 ∧ aliasArtifact.lines.length = 5 ∧
      undefArtifact.lines[1]? = some ("#undef " ++ messageLine.spelled 1) := by
  obtain ⟨t, ht⟩ := (Template.exists_parse_iff "dispatch" _).2 messageLine.isSome_reading_text
  have htexts : t.lineTexts = [messageLine].map (·.text) := by
    rw [Template.lineTexts, (Template.name_text_of_parse ht).2]
    decide
  have hundef : messageUndefinitions.lineTexts = [messageLine].map (·.underscored.marked) := by
    decide
  have hok : Emission.aliases "short" messageAliases [⟨"MSG", "M"⟩] ⟨1⟩ (some "x") =
      .ok ⟨"short", ["#pragma once", "", "#define M0 MSG_0", "#define M1 MSG_1", "x"]⟩ := by
    decide +kernel
  obtain ⟨families, dispatched, undefined, -, hdispatched, hundefined, hlength, -, -, hspelled⟩ :=
    emitters_spell_alike [messageLine] 1 {} [⟨"MSG", "M"⟩] (some "x") "long" "short" "undef"
      htexts (by decide) hundef hok
  obtain ⟨f, selector, names, directive, -, -, -, -, -, -, -, hline⟩ :=
    hspelled 0 messageLine 1 rfl le_rfl
  exact ⟨t, _, dispatched, undefined, ht, hok, hdispatched, hundefined, hlength, rfl, hline⟩

end MacroFamilies
