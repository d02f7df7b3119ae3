import MacroFamilies.CommandLine.Session
import MacroFamilies.Proofs.LineDiff.Table
/-!
# What the report of a difference shows

A changed line starts with a plus or a minus sign, and other lines with a space. Every pair of
different texts has a hunk of changes, but a hunk that is a single empty piece is printed without a
line. So the report of a stale file shows a changed line exactly if there is another hunk of
changes, and always if the texts differ in more than empty lines; a final line feed that is missing
is not shown.
-/

namespace MacroFamilies.CommandLine

open LineDiff (Change Hunk)
open Terminal (Item)

/-- One of the lines starts with a plus or a minus sign. -/
def ShowsChange (report : List Item) : Prop :=
  ∃ line, Terminal.line ("+" ++ line) ∈ report ∨ Terminal.line ("-" ++ line) ∈ report

theorem line_inj {text other : String} :
    Terminal.line text = Terminal.line other ↔ text = other := by
  simp [Terminal.line]

theorem line_mem_hunkReport_iff {text : String} {hunk : Hunk} :
    Terminal.line text ∈ hunkReport hunk ↔
      ∃ line ∈ hunk.lines, text = (changeMark hunk.change).2 ++ String.ofList line := by
  have hlook : Terminal.line text ≠ (changeMark hunk.change).1 := by
    cases hunk.change <;> simp [changeMark, Terminal.line]
  unfold hunkReport
  simp only [List.mem_cons, hlook, false_or, List.mem_map, line_inj, eq_comm]

theorem line_mem_differenceReport_iff {text onDisk fresh : String} :
    Terminal.line text ∈ differenceReport onDisk fresh ↔
      ∃ hunk ∈ LineDiff.between onDisk.toList fresh.toList,
        Terminal.line text ∈ hunkReport hunk := by
  simp [differenceReport, Terminal.line]

theorem showsChange_hunkReport_iff {hunk : Hunk} :
    ShowsChange (hunkReport hunk) ↔ hunk.change ≠ .same ∧ hunk.lines ≠ [] := by
  unfold ShowsChange
  simp only [line_mem_hunkReport_iff]
  constructor
  · rintro ⟨text, ⟨line, hline, heq⟩ | ⟨line, hline, heq⟩⟩
    all_goals
      refine ⟨?_, List.ne_nil_of_mem hline⟩
      intro hsame
      have hhead := congrArg (·.toList.head?) heq
      simp [hsame, changeMark] at hhead
  · rintro ⟨hchange, hlines⟩
    obtain ⟨line, hline⟩ := List.exists_mem_of_ne_nil _ hlines
    refine ⟨String.ofList line, ?_⟩
    cases hkind : hunk.change with
    | same => exact absurd hkind hchange
    | removed => exact .inr ⟨line, hline, rfl⟩
    | added => exact .inl ⟨line, hline, rfl⟩

theorem showsChange_iff {onDisk fresh : String} :
    ShowsChange (differenceReport onDisk fresh) ↔
      ∃ hunk ∈ LineDiff.between onDisk.toList fresh.toList,
        hunk.change ≠ .same ∧ hunk.pieces ≠ [[]] := by
  have hlines {hunk : Hunk} (h : hunk ∈ LineDiff.between onDisk.toList fresh.toList) :
      hunk.lines ≠ [] ↔ hunk.pieces ≠ [[]] :=
    not_congr (LineDiff.lines_eq_nil_iff (LineDiff.pieces_ne_nil_of_mem_hunks h))
  constructor
  · rintro ⟨line, hline⟩
    simp only [line_mem_differenceReport_iff] at hline
    obtain ⟨hunk, hhunk, hshows⟩ : ∃ hunk ∈ LineDiff.between onDisk.toList fresh.toList,
        ShowsChange (hunkReport hunk) := by
      rcases hline with ⟨hunk, hhunk, hline⟩ | ⟨hunk, hhunk, hline⟩
      · exact ⟨hunk, hhunk, line, .inl hline⟩
      · exact ⟨hunk, hhunk, line, .inr hline⟩
    obtain ⟨hchange, hne⟩ := showsChange_hunkReport_iff.1 hshows
    exact ⟨hunk, hhunk, hchange, (hlines hhunk).1 hne⟩
  · rintro ⟨hunk, hhunk, hchange, hne⟩
    obtain ⟨line, hline⟩ := showsChange_hunkReport_iff.2 ⟨hchange, (hlines hhunk).2 hne⟩
    refine ⟨line, hline.imp ?_ ?_⟩
    · exact fun h => line_mem_differenceReport_iff.2 ⟨hunk, hhunk, h⟩
    · exact fun h => line_mem_differenceReport_iff.2 ⟨hunk, hhunk, h⟩

/-- The report of two different texts has a hunk of changes. It shows a changed line unless each of
these hunks is a single empty piece, so always if the texts differ in more than empty lines. -/
theorem difference_shows_changes {onDisk fresh : String} (h : onDisk ≠ fresh) :
    (∃ hunk ∈ LineDiff.between onDisk.toList fresh.toList, hunk.change ≠ .same) ∧
      (ShowsChange (differenceReport onDisk fresh) ↔
        ∃ hunk ∈ LineDiff.between onDisk.toList fresh.toList,
          hunk.change ≠ .same ∧ hunk.pieces ≠ [[]]) ∧
      (LineDiff.writtenPieces onDisk.toList ≠ LineDiff.writtenPieces fresh.toList →
        ShowsChange (differenceReport onDisk fresh)) := by
  have hne : onDisk.toList ≠ fresh.toList := fun heq => h (String.toList_inj.1 heq)
  refine ⟨LineDiff.exists_changed_hunk_of_ne hne, showsChange_iff, ?_⟩
  intro hwritten
  rw [← LineDiff.filter_piecesOf, ← LineDiff.filter_piecesOf] at hwritten
  obtain ⟨hunk, hhunk, hchange, piece, hpiece, hne⟩ := LineDiff.exists_changed_hunk hwritten
  refine showsChange_iff.2 ⟨hunk, hhunk, hchange, ?_⟩
  intro hblank
  rw [hblank, List.mem_singleton] at hpiece
  simp [hpiece] at hne

theorem difference_shows_changes_replaced :
    "#undef MSG_0\n" ≠ "#undef MSG_1\n" ∧
      ShowsChange (differenceReport "#undef MSG_0\n" "#undef MSG_1\n") ∧
      ∃ hunk ∈ LineDiff.between "#undef MSG_0\n".toList "#undef MSG_1\n".toList,
        hunk.change ≠ .same ∧ hunk.pieces ≠ [[]] := by
  have hne : "#undef MSG_0\n" ≠ "#undef MSG_1\n" := by decide
  obtain ⟨-, hiff, hwritten⟩ := difference_shows_changes hne
  have hshows := hwritten (by decide +kernel)
  exact ⟨hne, hshows, hiff.1 hshows⟩

theorem differenceReport_final_break {onDisk : String} (hne : onDisk ≠ "")
    (hlast : onDisk.toList.getLast? ≠ some '\n') :
    ¬ ShowsChange (differenceReport onDisk (onDisk ++ "\n")) := by
  have hbreak : (onDisk ++ "\n").toList = onDisk.toList ++ ['\n'] := String.toList_append
  rw [showsChange_iff, hbreak, LineDiff.between_final_break (by simpa using hne) hlast]
  simp

def undefinedOnce : Artifact := ⟨"u.ipp", ["#undef MSG_0"]⟩

theorem exists_difference_without_change : ∃ onDisk : String,
    onDisk ≠ undefinedOnce.render "" ∧
      ¬ ShowsChange (differenceReport onDisk (undefinedOnce.render "")) := by
  refine ⟨"#undef MSG_0", by decide +kernel, ?_⟩
  have hrender : undefinedOnce.render "" = "#undef MSG_0" ++ "\n" := by decide +kernel
  rw [hrender]
  exact differenceReport_final_break (by decide) (by decide)

end MacroFamilies.CommandLine
