import MacroFamilies.Text.Replace
import Mathlib
/-!
# Leftmost occurrences

A replacement changes the part of a text that is the leftmost occurrence of the pattern, and leaves a
text without one as it is. A pattern whose first character comes only once in it does not overlap
itself; the text in front of its leftmost occurrence is then the one that contains none.
-/

namespace MacroFamilies.Text

/-- A text cut around an occurrence of the pattern, with none that starts further to the left. -/
structure Leftmost (pattern text before after : List Char) : Prop where
  text_eq : text = before ++ (pattern ++ after)
  leftmost : ∀ earlier behind, text = earlier ++ (pattern ++ behind) →
    before.length ≤ earlier.length

variable {pattern text before after : List Char}

theorem Leftmost.tail {c : Char} (h : Leftmost pattern (c :: text) (c :: before) after) :
    Leftmost pattern text before after where
  text_eq := (List.cons.inj h.text_eq).2
  leftmost := by
    intro earlier behind heq
    have hle := h.leftmost (c :: earlier) behind (by rw [heq]; rfl)
    simpa using hle

theorem Leftmost.append (h : Leftmost pattern text before after) (rest : List Char) :
    Leftmost pattern (text ++ rest) before (after ++ rest) where
  text_eq := by simp [h.text_eq]
  leftmost := by
    intro earlier behind heq
    by_contra hlt
    rw [← List.append_assoc] at heq
    rcases List.append_eq_append_iff.1 heq with ⟨middle, hearlier, -⟩ | ⟨middle, htext, -⟩
    · have hlength := congrArg List.length hearlier
      rw [h.text_eq] at hlength
      simp only [List.length_append] at hlength
      omega
    · exact hlt (h.leftmost earlier middle (by rw [htext, List.append_assoc]))

theorem exists_leftmost (h : pattern <:+: text) :
    ∃ before after, Leftmost pattern text before after := by
  induction text with
  | nil =>
    obtain rfl := List.infix_nil.1 h
    exact ⟨[], [], rfl, fun _ _ _ => Nat.zero_le _⟩
  | cons c rest ih =>
    by_cases hprefix : pattern <+: c :: rest
    · obtain ⟨after, hafter⟩ := hprefix
      exact ⟨[], after, hafter.symm, fun _ _ _ => Nat.zero_le _⟩
    · have hrest : pattern <:+: rest := (List.infix_cons_iff.1 h).resolve_left hprefix
      obtain ⟨before, after, hleft⟩ := ih hrest
      refine ⟨c :: before, after, by rw [hleft.text_eq]; rfl, fun earlier behind heq => ?_⟩
      cases earlier with
      | nil => exact absurd ⟨behind, heq.symm⟩ hprefix
      | cons d earlier =>
        have hle := hleft.leftmost earlier behind (List.cons.inj heq).2
        simpa using hle

theorem replaceFirst_of_leftmost (h : Leftmost pattern text before after)
    (replacement : List Char) :
    replaceFirst pattern replacement text = before ++ (replacement ++ after) := by
  induction before generalizing text with
  | nil =>
    obtain rfl : text = pattern ++ after := h.text_eq
    cases hcs : pattern ++ after with
    | nil =>
      obtain ⟨rfl, rfl⟩ := List.append_eq_nil_iff.1 hcs
      simp [replaceFirst]
    | cons c rest =>
      rw [replaceFirst, List.isPrefixOf?_eq_some_iff_append_eq.2 hcs]
      rfl
  | cons c before ih =>
    have htext := h.text_eq
    rw [List.cons_append] at htext
    subst htext
    rw [replaceFirst, ih h.tail]
    cases hfound : List.isPrefixOf? pattern (c :: (before ++ (pattern ++ after))) with
    | none => rfl
    | some behind =>
      have heq := List.isPrefixOf?_eq_some_iff_append_eq.1 hfound
      have hle := h.leftmost [] behind heq.symm
      simp at hle

theorem replaceFirst_of_not_infix (h : ¬ pattern <:+: text) (replacement : List Char) :
    replaceFirst pattern replacement text = text := by
  induction text with
  | nil =>
    have hpattern : pattern ≠ [] := fun hnil => h (by rw [hnil])
    rw [replaceFirst, if_neg hpattern]
  | cons c rest ih =>
    rw [List.infix_cons_iff, not_or] at h
    rw [replaceFirst, ih h.2]
    cases hfound : List.isPrefixOf? pattern (c :: rest) with
    | none => rfl
    | some behind =>
      exact absurd ⟨behind, List.isPrefixOf?_eq_some_iff_append_eq.1 hfound⟩ h.1

/-! ## Patterns that do not overlap themselves -/

section Apart

variable {c : Char} {cs : List Char}

/-- Two occurrences, of which the second does not start in front of the first or has it behind. -/
theorem append_mark_cases (hcs : c ∉ cs) {earlier behind : List Char}
    (h : before ++ (c :: cs ++ after) = earlier ++ (c :: cs ++ behind)) :
    before.length ≤ earlier.length ∨ ∃ middle, before = earlier ++ (c :: cs ++ middle) := by
  rcases List.append_eq_append_iff.1 h with ⟨middle, rfl, -⟩ | ⟨middle, rfl, hmiddle⟩
  · exact .inl (by simp)
  · rcases List.append_eq_append_iff.1 hmiddle with ⟨rest, rfl, -⟩ | ⟨rest, hsplit, hrest⟩
    · exact .inr ⟨rest, rfl⟩
    · cases middle with
      | nil => exact .inl (by simp)
      | cons d middle =>
        -- the pattern would start again within itself
        obtain ⟨rfl, rfl⟩ := List.cons.inj hsplit
        cases rest with
        | nil => exact .inr ⟨[], by simp⟩
        | cons e rest =>
          obtain ⟨rfl, -⟩ := List.cons.inj hrest
          simp at hcs

theorem leftmost_of_not_infix (hcs : c ∉ cs) (h : ¬ c :: cs <:+: before) (after : List Char) :
    Leftmost (c :: cs) (before ++ (c :: cs ++ after)) before after where
  text_eq := rfl
  leftmost := by
    intro earlier behind heq
    refine (append_mark_cases hcs heq).resolve_right ?_
    rintro ⟨middle, rfl⟩
    exact h ⟨earlier, middle, by simp⟩

end Apart

end MacroFamilies.Text
