import MacroFamilies.Emission.Undefinition
import MacroFamilies.Proofs.Emission.Aliases
import MacroFamilies.Proofs.Template.Arities
import MacroFamilies.Proofs.Template.Separators
/-!
# All macros are undefined

A template whose places all have values is undefined line by line and arity by arity. A directive is
found by the number of its line among those that are not blank and by its arity, and the directives
of a line with a place in it are all different.
-/

namespace MacroFamilies

namespace Emission

def undefinitionsOf (range : ArityRange) (names : Nat → String) : List String :=
  range.ascending.map fun n => "#undef " ++ names n

section Directives

variable {α : Type} {xs : List α} {names : α → Nat → String} {range : ArityRange}

theorem undefinition_eq_ok {template : Template} {lines : List Template} (fileName : String)
    (range : ArityRange) (hlines : template.lines = .ok lines)
    (hnames : List.Forall₂ (fun x line => ∀ n, line.expand (synthesize n) = .ok (names x n))
      xs lines) :
    undefinition fileName template range =
      .ok ⟨fileName, xs.flatMap fun x => undefinitionsOf range (names x)⟩ := by
  have hblocks : lines.mapM (undefinitionLines range) =
      .ok (xs.map fun x => undefinitionsOf range (names x)) := by
    apply Traversal.mapM_eq_ok_map_of_forall₂ hnames
    intro x line hline
    apply Traversal.mapM_eq_ok_map
    intro n _
    rw [hline n]
    rfl
  rw [undefinition, hlines]
  simp only [bind, Except.bind, hblocks]
  rfl

theorem length_undefinitionsOf (range : ArityRange) (names : Nat → String) :
    (undefinitionsOf range names).length = range.max + 1 := by
  rw [undefinitionsOf, List.length_map, range.length_ascending]

theorem length_flatMap_undefinitionsOf :
    (xs.flatMap fun x => undefinitionsOf range (names x)).length = xs.length * (range.max + 1) :=
  Traversal.length_flatMap_of_length fun x _ => length_undefinitionsOf range (names x)

theorem getElem?_flatMap_undefinitionsOf {i n : Nat} {x : α} (hx : xs[i]? = some x)
    (hn : n ≤ range.max) :
    (xs.flatMap fun x => undefinitionsOf range (names x))[i * (range.max + 1) + n]? =
      some ("#undef " ++ names x n) := by
  rw [Traversal.getElem?_flatMap_of_length (fun x _ => length_undefinitionsOf range (names x))
    (Nat.lt_succ_of_le hn), hx, Option.bind_some, undefinitionsOf, List.getElem?_map,
    ArityRange.getElem?_ascending hn]
  rfl

end Directives

/-- Every line that is not blank has its directives, one for each arity, and those of a line with a
place in it are pairwise different. -/
theorem undefinition_complete (fileName : String) {template : Template}
    (h : template.Synthesizable) (N : Nat) :
    ∃ lines artifact, template.lines = .ok lines ∧
      undefinition fileName template ⟨N⟩ = .ok artifact ∧
      artifact.lines.length = template.filledLines.length * (N + 1) ∧
      ∀ i chars, template.filledLines[i]? = some chars →
        ∃ (line : Template) (names : Nat → String), lines[i]? = some line ∧
          line.text = String.ofList (Text.trim chars) ∧
          (∀ n ≤ N, line.expand (synthesize n) = .ok (names n) ∧
            artifact.lines[i * (N + 1) + n]? = some ("#undef " ++ names n)) ∧
          (line.placeholders ≠ [] → ∀ n ≤ N, ∀ m ≤ N, n ≠ m →
            artifact.lines[i * (N + 1) + n]? ≠ artifact.lines[i * (N + 1) + m]?) := by
  obtain ⟨lines, hlines, hplaces⟩ := template.exists_lines_places
  have hsynthesizable : ∀ line ∈ lines, line.Synthesizable := by
    intro line hline key hkey
    apply h key
    rw [← hplaces]
    exact List.mem_flatMap.2 ⟨line, hline, hkey⟩
  have hexpand : ∀ line ∈ lines, ∀ n, ∃ text, line.expand (synthesize n) = .ok text :=
    fun line hline => (hsynthesizable line hline).exists_expand
  choose! names hnames using hexpand
  have hok := undefinition_eq_ok fileName ⟨N⟩ hlines (List.forall₂_same.2 hnames)
  -- the lines that are read are those that are not blank, in the same order
  have htexts := Template.texts_of_lines hlines
  rw [Template.lineTexts_eq] at htexts
  have hlength : lines.length = template.filledLines.length := by
    simpa using congrArg List.length htexts
  refine ⟨lines, _, hlines, hok, hlength ▸ length_flatMap_undefinitionsOf, fun i chars hi => ?_⟩
  have htext : (lines.map (·.text))[i]? = some (String.ofList (Text.trim chars)) := by
    rw [htexts, List.getElem?_map, hi]
    rfl
  rw [List.getElem?_map, Option.map_eq_some_iff] at htext
  obtain ⟨line, hline, htext⟩ := htext
  have hmem := List.mem_of_getElem? hline
  have hentry : ∀ n ≤ N, (lines.flatMap fun line => undefinitionsOf ⟨N⟩ (names line))[
      i * (N + 1) + n]? = some ("#undef " ++ names line n) :=
    fun n hn => getElem?_flatMap_undefinitionsOf hline hn
  refine ⟨line, names line, hline, htext, fun n hn => ⟨hnames line hmem n, hentry n hn⟩, ?_⟩
  intro hne n hn m hm hnm heq
  rw [hentry n hn, hentry m hm, Option.some.injEq, String.append_right_inj] at heq
  have hother := hnames line hmem m
  rw [← heq] at hother
  exact hnm ((hsynthesizable line hmem).eq_of_expand_eq hne (hnames line hmem n) hother)

/-- Two lines around a blank one, the first with two places of the arity next to a digit. -/
def digitUndefinitions : Template where
  name := "u"
  text := "A%\x7barity\x7d1%\x7barity\x7d\n\n  B%\x7bargs\x7d\n"
  segments := [.literal ['A'], .placeholder "arity" ⟨1, 9⟩, .literal ['1'],
    .placeholder "arity" ⟨10, 18⟩, .literal "\n\n  B".toList, .placeholder "args" ⟨23, 30⟩,
    .literal ['\n']]
  segments_eq := by cbv

theorem undefinition_complete_digitUndefinitions :
    digitUndefinitions.Synthesizable ∧
      ∃ artifact, undefinition "u" digitUndefinitions ⟨11⟩ = .ok artifact ∧
        artifact.lines.length = 24 ∧ artifact.lines[1]? ≠ artifact.lines[11]? ∧
        ∃ (line : Template) (names : Nat → String), line.text = "B%\x7bargs\x7d" ∧
          artifact.lines[14]? = some ("#undef " ++ names 2) := by
  have hsynthesizable : digitUndefinitions.Synthesizable := by
    unfold Template.Synthesizable
    decide
  have hfilled : digitUndefinitions.filledLines =
      ["A%\x7barity\x7d1%\x7barity\x7d".toList, "  B%\x7bargs\x7d".toList] := by decide +kernel
  obtain ⟨lines, artifact, hlines, hok, hlength, hentries⟩ :=
    undefinition_complete "u" hsynthesizable 11
  rw [hfilled] at hlength hentries
  have hplaces : digitUndefinitions.lines.map (fun ls => ls.map (·.placeholders)) =
      .ok [["arity", "arity"], ["args"]] := by decide +kernel
  rw [hlines] at hplaces
  obtain ⟨line, names, hline, -, -, hdistinct⟩ := hentries 0 _ rfl
  obtain ⟨other, others, -, htext, hnames, -⟩ := hentries 1 _ rfl
  have hne : line.placeholders ≠ [] := by
    have hfirst := congrArg (·[0]?) (Except.ok.inj hplaces)
    simp only [List.getElem?_map, hline, Option.map_some, List.getElem?_cons_zero,
      Option.some.injEq] at hfirst
    simp [hfirst]
  exact ⟨hsynthesizable, artifact, hok, hlength,
    hdistinct hne 1 (by decide) 11 (by decide) (by decide), other, others,
    htext.trans (by decide +kernel), (hnames 2 (by decide)).2⟩

end Emission

end MacroFamilies
