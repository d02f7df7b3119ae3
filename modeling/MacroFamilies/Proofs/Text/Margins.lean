import MacroFamilies.Text.Blank
import Mathlib
/-!
# Margins

A text is its content between two blank margins. What is blank at either end belongs to a margin,
and the content neither starts nor ends in anything blank.
-/

namespace MacroFamilies.Text

variable {cs gap : List Char}

theorem trimEnd_eq_nil_iff : trimEnd cs = [] ↔ ∀ c ∈ cs, isBlank c = true := by
  rw [trimEnd, List.reverse_eq_nil_iff, List.dropWhile_eq_nil_iff]
  simp

theorem trim_eq_nil_iff : trim cs = [] ↔ ∀ c ∈ cs, isBlank c = true := by
  rw [trim, trimEnd_eq_nil_iff, ← List.dropWhile_eq_nil_iff, trimStart, List.dropWhile_idempotent,
    List.dropWhile_eq_nil_iff]

theorem trim_of_not_blank (h : ∀ c ∈ cs, isBlank c = false) : trim cs = cs := by
  have hstart {ds : List Char} (hds : ∀ c ∈ ds, isBlank c = false) :
      ds.dropWhile isBlank = ds := by
    cases ds with
    | nil => rfl
    | cons c ds => exact List.dropWhile_cons_of_neg (by simp [hds c])
  rw [trim, trimStart, hstart h, trimEnd, hstart (by simpa using h), List.reverse_reverse]

theorem trimEnd_append_blank (h : ∀ c ∈ gap, isBlank c = true) (cs : List Char) :
    trimEnd (cs ++ gap) = trimEnd cs := by
  have hreverse : ∀ c ∈ gap.reverse, isBlank c = true := by simpa using h
  rw [trimEnd, List.reverse_append, List.dropWhile_append_of_pos hreverse, trimEnd]

/-- A gap behind a text belongs to its margin. -/
theorem trim_append_blank (h : ∀ c ∈ gap, isBlank c = true) (cs : List Char) :
    trim (cs ++ gap) = trim cs := by
  by_cases hblank : ∀ c ∈ cs, isBlank c = true
  · have hall : ∀ c ∈ cs ++ gap, isBlank c = true := by
      intro c hc
      exact (List.mem_append.1 hc).elim (hblank c) (h c)
    rw [trim_eq_nil_iff.2 hall, trim_eq_nil_iff.2 hblank]
  · have hstart : (trimStart cs).isEmpty = false := by
      rw [List.isEmpty_eq_false_iff, trimStart, ne_eq, List.dropWhile_eq_nil_iff]
      exact hblank
    rw [trim, trimStart, List.dropWhile_append, ← trimStart, hstart, if_neg Bool.false_ne_true,
      trimEnd_append_blank h, trim]

theorem exists_margins (cs : List Char) :
    ∃ right, cs = cs.takeWhile isBlank ++ trim cs ++ right ∧ ∀ c ∈ right, isBlank c = true := by
  refine ⟨((trimStart cs).reverse.takeWhile isBlank).reverse, ?_, ?_⟩
  · calc cs
      _ = cs.takeWhile isBlank ++ trimStart cs := List.takeWhile_append_dropWhile.symm
      _ = cs.takeWhile isBlank ++ ((trimStart cs).reverse.takeWhile isBlank ++
            (trimStart cs).reverse.dropWhile isBlank).reverse := by
        rw [List.takeWhile_append_dropWhile, List.reverse_reverse]
      _ = cs.takeWhile isBlank ++ trim cs ++ ((trimStart cs).reverse.takeWhile isBlank).reverse := by
        rw [List.reverse_append, ← trimEnd, ← trim, List.append_assoc]
  · intro c hc
    exact List.mem_takeWhile_imp (List.mem_reverse.1 hc)

end MacroFamilies.Text
