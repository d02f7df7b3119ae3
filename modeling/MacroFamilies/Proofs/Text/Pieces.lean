import MacroFamilies.Text.Lines
import Mathlib
/-!
# Pieces between line feeds

A text is put together again from its pieces, and none of them holds a line feed.
-/

namespace MacroFamilies.Text

theorem flatMap_concat_eq_intercalate {lines : List (List Char)} (h : lines ≠ []) :
    lines.flatMap (· ++ ['\n']) = ['\n'].intercalate lines ++ ['\n'] := by
  induction lines with
  | nil => exact absurd rfl h
  | cons line rest ih =>
    cases rest with
    | nil => simp
    | cons next rest =>
      rw [List.flatMap_cons, ih (List.cons_ne_nil _ _), List.intercalate_cons_cons]
      simp

/-- The pieces of a text, each ended by a line feed, are the text with one more line feed. -/
theorem flatMap_pieces (cs : List Char) : (pieces cs).flatMap (· ++ ['\n']) = cs ++ ['\n'] := by
  rw [pieces, flatMap_concat_eq_intercalate (List.splitOn_ne_nil _ _), List.intercalate_splitOn]

theorem break_not_mem_of_mem_pieces {cs piece : List Char} (h : piece ∈ pieces cs) :
    '\n' ∉ piece := by
  unfold pieces at h
  induction cs generalizing piece with
  | nil =>
    obtain rfl := List.mem_singleton.1 (List.splitOn_nil '\n' ▸ h)
    exact List.not_mem_nil
  | cons c cs ih =>
    rw [List.splitOn_cons_eq_if_modifyHead] at h
    split_ifs at h with hc
    · rcases List.mem_cons.1 h with rfl | h
      · exact List.not_mem_nil
      · exact ih h
    · obtain ⟨first, rest, hpieces⟩ := List.exists_cons_of_ne_nil (List.splitOn_ne_nil '\n' cs)
      rw [hpieces, List.modifyHead_cons] at h
      rw [hpieces] at ih
      rcases List.mem_cons.1 h with rfl | h
      · have hfirst := ih List.mem_cons_self
        rw [List.mem_cons, not_or]
        exact ⟨fun heq => hc (by simp [← heq]), hfirst⟩
      · exact ih (List.mem_cons_of_mem _ h)

end MacroFamilies.Text
