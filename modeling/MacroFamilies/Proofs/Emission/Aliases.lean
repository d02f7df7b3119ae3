import MacroFamilies.Emission.Alias
import MacroFamilies.Proofs.Traversal
/-!
# The entries of the alias file

An alias file holds a preamble of two lines and then, for each line of its template, one directive
for each arity. A directive is found by the number of its line and its arity, and it is the expansion
of the text that defines the alias of that line.
-/

namespace MacroFamilies

theorem ArityRange.length_ascending (range : ArityRange) :
    range.ascending.length = range.max + 1 := by
  rw [ascending, List.length_range, size]

theorem ArityRange.getElem?_ascending {range : ArityRange} {n : Nat} (hn : n ≤ range.max) :
    range.ascending[n]? = some n := by
  apply List.getElem?_range
  rw [size]
  omega

namespace Emission

variable {rules : List Abbreviation} {range : ArityRange}

theorem aliasLines_eq_ok_iff {line : Template} {block : List String} :
    aliasLines rules range line = .ok block ↔
      ∃ directive, Template.parse line.name (aliasText rules line.text) = .ok directive ∧
        List.Forall₂ (fun n text => directive.expand (synthesize n) = .ok text)
          range.ascending block := by
  rw [aliasLines, Traversal.bind_eq_ok_iff]
  simp only [Traversal.mapM_eq_ok_iff]

theorem length_aliasLines {line : Template} {block : List String}
    (h : aliasLines rules range line = .ok block) : block.length = range.max + 1 := by
  obtain ⟨directive, -, htexts⟩ := aliasLines_eq_ok_iff.1 h
  rw [← htexts.length_eq, range.length_ascending]

variable {template : Template} {fileName : String} {trailer : Option String} {artifact : Artifact}

theorem aliases_eq_ok_iff :
    aliases fileName template rules range trailer = .ok artifact ↔
      ∃ lines blocks, template.lines = .ok lines ∧
        List.Forall₂ (fun line block => aliasLines rules range line = .ok block) lines blocks ∧
        ⟨fileName, ["#pragma once", ""] ++ blocks.flatten ++ trailer.toList⟩ = artifact := by
  rw [aliases, Traversal.bind_eq_ok_iff]
  simp only [Traversal.bind_eq_ok_iff, Traversal.mapM_eq_ok_iff, pure, Except.pure,
    Except.ok.injEq]
  constructor
  · rintro ⟨lines, hlines, blocks, hblocks, hartifact⟩
    exact ⟨lines, blocks, hlines, hblocks, hartifact⟩
  · rintro ⟨lines, blocks, hlines, hblocks, hartifact⟩
    exact ⟨lines, hlines, blocks, hblocks, hartifact⟩

section Entries

variable {lines : List Template}

theorem length_of_aliases (hlines : template.lines = .ok lines)
    (hok : aliases fileName template rules range trailer = .ok artifact) :
    artifact.lines.length = 2 + lines.length * (range.max + 1) + trailer.toList.length := by
  obtain ⟨others, blocks, hothers, hblocks, rfl⟩ := aliases_eq_ok_iff.1 hok
  obtain rfl := Except.ok.inj (hothers.symm.trans hlines)
  have hflatten := Traversal.length_flatten_of_forall₂ hblocks fun _ _ => length_aliasLines
  rw [List.length_append, List.length_append, hflatten]
  rfl

theorem directive_of_aliases (hlines : template.lines = .ok lines)
    (hok : aliases fileName template rules range trailer = .ok artifact) {i n : Nat}
    {line : Template} (hline : lines[i]? = some line) (hn : n ≤ range.max) :
    ∃ directive text, Template.parse line.name (aliasText rules line.text) = .ok directive ∧
      directive.expand (synthesize n) = .ok text ∧
      artifact.lines[2 + i * (range.max + 1) + n]? = some text := by
  obtain ⟨others, blocks, hothers, hblocks, rfl⟩ := aliases_eq_ok_iff.1 hok
  obtain rfl := Except.ok.inj (hothers.symm.trans hlines)
  obtain ⟨block, hblock, hentry⟩ :=
    Traversal.exists_getElem?_flatten hblocks (fun _ _ => length_aliasLines) hline
  obtain ⟨directive, hparse, htexts⟩ := aliasLines_eq_ok_iff.1 hblock
  obtain ⟨text, htext, hexpand⟩ :=
    Traversal.exists_getElem?_of_forall₂ htexts (ArityRange.getElem?_ascending hn)
  have hflatten : blocks.flatten[i * (range.max + 1) + n]? = some text := by
    rw [hentry n (by omega), htext]
  obtain ⟨hlt, -⟩ := List.getElem?_eq_some_iff.1 hflatten
  have hpreamble : ["#pragma once", ""].length = 2 := rfl
  have hindex : 2 + i * (range.max + 1) + n - 2 = i * (range.max + 1) + n := by omega
  refine ⟨directive, text, hparse, hexpand, ?_⟩
  rw [List.append_assoc, List.getElem?_append_right (by rw [hpreamble]; omega), hpreamble, hindex,
    List.getElem?_append_left hlt]
  exact hflatten

end Entries

end Emission

end MacroFamilies
