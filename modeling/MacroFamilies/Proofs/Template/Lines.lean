import MacroFamilies.Proofs.Template.Reading
import MacroFamilies.Proofs.Text.Margins
import MacroFamilies.Proofs.Traversal
/-!
# The lines of a template

A template that describes several families is cut into its lines. `Template.lineTexts` are the texts
of those lines, without margins and without the blank ones.
-/

namespace MacroFamilies

namespace Text

def isFilled (line : List Char) : Bool := line.any fun c => !isBlank c

theorem isFilled_iff {line : List Char} : isFilled line = true ↔ trim line ≠ [] := by
  rw [ne_eq, trim_eq_nil_iff]
  simp [isFilled]

end Text

namespace Template

def lineTexts (t : Template) : List String :=
  (numberedLines 1 (Text.lines t.text.toList)).map fun line => String.ofList line.2

def filledLines (t : Template) : List (List Char) :=
  (Text.lines t.text.toList).filter Text.isFilled

theorem numberedLines_eq (first : Nat) (lines : List (List Char)) :
    numberedLines first lines =
      ((lines.zipIdx first).filter fun line => Text.isFilled line.1).map fun line =>
        (line.2, Text.trim line.1) := by
  induction lines generalizing first with
  | nil => rfl
  | cons line rest ih =>
    rw [numberedLines, List.zipIdx_cons]
    by_cases hblank : Text.trim line = []
    · have hnone : ¬ Text.isFilled line = true := fun h => Text.isFilled_iff.1 h hblank
      rw [if_pos hblank, ih, List.filter_cons, if_neg hnone]
    · rw [if_neg hblank, ih, List.filter_cons, if_pos (Text.isFilled_iff.2 hblank), List.map_cons]

theorem lineTexts_eq (t : Template) :
    t.lineTexts = t.filledLines.map fun line => String.ofList (Text.trim line) := by
  have hlines : t.filledLines = (((Text.lines t.text.toList).zipIdx 1).filter
      fun line => Text.isFilled line.1).map Prod.fst := by
    conv_lhs => rw [filledLines, ← List.zipIdx_map_fst 1 (Text.lines t.text.toList)]
    exact List.filter_map
  rw [lineTexts, numberedLines_eq, hlines, List.map_map, List.map_map]
  rfl

theorem texts_of_lines {t : Template} {lines : List Template} (h : t.lines = .ok lines) :
    lines.map (·.text) = t.lineTexts :=
  Traversal.map_eq_of_mapM_eq_ok h fun _ _ hparse => (name_text_of_parse hparse).2

end Template

end MacroFamilies
