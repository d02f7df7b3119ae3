import MacroFamilies.Proofs.Template.Separators
import MacroFamilies.Proofs.Text.Pieces
/-!
# Numbered lines

Cutting a template into its lines never fails. There is one template for each line of the text that
is not blank, named after its number, and together they have the placeholders of the whole, in the
same order. Lines are told apart by line feeds alone: what else belongs to a line break is blank and
goes with the margin of its line, and a last piece that is empty is no line.
-/

namespace MacroFamilies

namespace Text

theorem trim_dropReturn (cs : List Char) : trim (dropReturn cs) = trim cs := by
  unfold dropReturn
  split_ifs with hlast
  · obtain ⟨front, rfl⟩ := List.getLast?_eq_some_iff.1 hlast
    rw [List.dropLast_concat, trim_append_blank (List.forall_mem_singleton.2 rfl)]
  · rfl

theorem mem_of_mem_trim {cs : List Char} {c : Char} (h : c ∈ trim cs) : c ∈ cs := by
  obtain ⟨right, hcs, -⟩ := exists_margins cs
  rw [hcs]
  exact List.mem_append_left _ (List.mem_append_right _ h)

end Text

namespace Template

/-- Which lines are numbered, and how, can be read off the pieces between the line feeds. -/
theorem numberedLines_linesOfPieces (first : Nat) (pieces : List (List Char)) :
    numberedLines first (Text.linesOfPieces pieces) = numberedLines first pieces := by
  induction pieces using Text.linesOfPieces.induct generalizing first with
  | case1 => rfl
  | case2 => rfl
  | case3 last hlast => rw [Text.linesOfPieces, if_neg hlast]
  | case4 p q rest ih =>
    rw [Text.linesOfPieces, numberedLines, Text.trim_dropReturn, ih, ← numberedLines]

/-- The pieces of a text between its line feeds that are not blank, numbered from 1. -/
def filledPieces (text : String) : List (List Char × Nat) :=
  ((Text.pieces text.toList).zipIdx 1).filter fun piece => Text.isFilled piece.1

theorem numberedLines_lines (text : String) :
    numberedLines 1 (Text.lines text.toList) =
      (filledPieces text).map fun piece => (piece.2, Text.trim piece.1) := by
  rw [Text.lines, numberedLines_linesOfPieces, numberedLines_eq]
  rfl

theorem break_not_mem_of_mem_filledPieces {text : String} {piece : List Char × Nat}
    (h : piece ∈ filledPieces text) : '\n' ∉ piece.1 := by
  have hpiece := List.fst_mem_of_mem_zipIdx (List.mem_of_mem_filter h)
  exact Text.break_not_mem_of_mem_pieces hpiece

/-- A template is cut into one template for each line that is not blank. None of them is malformed,
and no placeholder is lost. -/
theorem lines_keep_placeholders {name text : String} {t : Template}
    (h : parse name text = .ok t) :
    ∃ lines, t.lines = .ok lines ∧
      (lines.map fun line => (line.name, line.text)) =
        (filledPieces text).map (fun piece =>
          (name ++ ":" ++ toString piece.2, String.ofList (Text.trim piece.1))) ∧
      (∀ line ∈ lines, '\n' ∉ line.text.toList) ∧
      lines.flatMap placeholders = t.placeholders := by
  obtain ⟨rfl, rfl⟩ := name_text_of_parse h
  obtain ⟨lines, hlines, hplaces⟩ := t.exists_lines_places
  have hcut : (lines.map fun line => (line.name, line.text)) =
      (filledPieces t.text).map fun piece =>
        (t.name ++ ":" ++ toString piece.2, String.ofList (Text.trim piece.1)) := by
    have hline (numbered : Nat × List Char) (line : Template)
        (hparse : parse (t.name ++ ":" ++ toString numbered.1) (String.ofList numbered.2) =
          .ok line) :
        (line.name, line.text) =
          (t.name ++ ":" ++ toString numbered.1, String.ofList numbered.2) := by
      obtain ⟨hname, htext⟩ := name_text_of_parse hparse
      rw [hname, htext]
    rw [Traversal.map_eq_of_mapM_eq_ok hlines hline, numberedLines_lines, List.map_map]
    rfl
  refine ⟨lines, hlines, hcut, fun line hline hbreak => ?_, hplaces⟩
  have hmem := List.mem_map_of_mem (f := fun line => (line.name, line.text)) hline
  rw [hcut] at hmem
  obtain ⟨piece, hpiece, heq⟩ := List.mem_map.1 hmem
  obtain ⟨-, htext⟩ := Prod.mk.inj heq
  rw [← htext, String.toList_ofList] at hbreak
  exact break_not_mem_of_mem_filledPieces hpiece (Text.mem_of_mem_trim hbreak)

/-- A text with both kinds of line breaks and a line of wide blanks, in which a percent sign at the
end of one line and a brace at the start of the next would make a placeholder. -/
def brokenLines : String :=
  "  A%\x7barity\x7d\r\n\u2003\u00a0\r\n%\n\x7barity\x7d%%\t\n\n%\x7bargs\x7d"

theorem lines_keep_placeholders_brokenLines :
    ∃ t lines, parse "t" brokenLines = .ok t ∧ t.lines = .ok lines ∧
      (lines.map fun line => (line.name, line.text)) =
        [("t:1", "A%\x7barity\x7d"), ("t:3", "%"), ("t:4", "\x7barity\x7d%%"),
          ("t:6", "%\x7bargs\x7d")] ∧
      lines.flatMap placeholders = ["arity", "args"] := by
  have hplaces : Segment.places brokenLines.toList = some ["arity", "args"] := by decide +kernel
  obtain ⟨t, ht, hnames⟩ := exists_parse_of_places hplaces "t"
  obtain ⟨lines, hlines, hcut, -, hkept⟩ := lines_keep_placeholders ht
  refine ⟨t, lines, ht, hlines, hcut.trans ?_, hkept.trans hnames⟩
  decide +kernel

end Template

end MacroFamilies
