import MacroFamilies.Proofs.LineDiff
/-!
# A final line feed in a difference

No cell of a row counts more pieces than the old text has up to there, and a text that the new one
starts with has all its pieces in common with it. So where only the last line feed is missing, the
common pieces are those of the old text, and what is left of the new one is a single empty piece.
-/

namespace MacroFamilies.LineDiff

variable {old new : List (List Char)}

/-! ## The table of common pieces -/

def lastRow (new old : List (List Char)) : List Nat :=
  old.foldl (fun above piece => row piece new above 0 0) (List.replicate new.length 0)

theorem lastRow_concat (new old : List (List Char)) (piece : List Char) :
    lastRow new (old ++ [piece]) = row piece new (lastRow new old) 0 0 := by
  simp [lastRow]

theorem cells_concat (new old : List (List Char)) (piece : List Char) :
    cells new (old ++ [piece]) (List.replicate new.length 0) [] =
      (lastRow new (old ++ [piece])).reverse ++ cells new old (List.replicate new.length 0) [] := by
  have h : ∀ (old : List (List Char)) (above cellsAbove : List Nat),
      cells new (old ++ [piece]) above cellsAbove =
        (row piece new (old.foldl (fun above piece => row piece new above 0 0) above) 0 0).reverse
          ++ cells new old above cellsAbove := by
    intro old
    induction old with
    | nil => exact fun _ _ => rfl
    | cons first old ih => exact fun _ _ => ih _ _
  rw [h, lastRow_concat, lastRow]

theorem length_row (piece : List Char) {new : List (List Char)} {above : List Nat}
    (h : above.length = new.length) (corner left : Nat) :
    (row piece new above corner left).length = new.length := by
  induction new generalizing above corner left with
  | nil => simp [row]
  | cons first new ih =>
    cases above with
    | nil => simp at h
    | cons up above => simp [row, ih (by simpa using h)]

theorem length_lastRow (new old : List (List Char)) : (lastRow new old).length = new.length := by
  induction old using List.reverseRecOn with
  | nil => simp [lastRow]
  | append_singleton old piece ih => rw [lastRow_concat, length_row piece ih]

theorem row_le {piece : List Char} {new : List (List Char)} {above : List Nat}
    {corner left bound : Nat} (habove : ∀ cell ∈ above, cell ≤ bound) (hcorner : corner ≤ bound)
    (hleft : left ≤ bound + 1) : ∀ cell ∈ row piece new above corner left, cell ≤ bound + 1 := by
  induction new generalizing above corner left with
  | nil => simp [row]
  | cons first new ih =>
    cases above with
    | nil => simp [row]
    | cons up above =>
      obtain ⟨hup, habove⟩ := List.forall_mem_cons.1 habove
      have hcell : (if piece = first then corner + 1 else max left up) ≤ bound + 1 := by
        split_ifs <;> omega
      rw [row, List.forall_mem_cons]
      exact ⟨hcell, ih habove hup hcell⟩

theorem lastRow_le (new old : List (List Char)) : ∀ cell ∈ lastRow new old, cell ≤ old.length := by
  induction old using List.reverseRecOn with
  | nil => simp [lastRow]
  | append_singleton old piece ih =>
    rw [lastRow_concat, List.length_append]
    exact row_le ih (Nat.zero_le _) (Nat.zero_le _)

theorem getD_row {piece : List Char} {new : List (List Char)} {above : List Nat} {i : Nat}
    (h : above.length = new.length) (hpiece : new[i]? = some piece) (corner left : Nat) :
    (row piece new above corner left).getD i 0 = (corner :: above).getD i 0 + 1 := by
  induction i generalizing new above corner left with
  | zero =>
    cases new with
    | nil => simp at hpiece
    | cons first new =>
      cases above with
      | nil => simp at h
      | cons up above =>
        obtain rfl : first = piece := by simpa using hpiece
        simp [row]
  | succ i ih =>
    cases new with
    | nil => simp at hpiece
    | cons first new =>
      cases above with
      | nil => simp at h
      | cons up above =>
        rw [row, List.getD_cons_succ, List.getD_cons_succ]
        exact ih (by simpa using h) (by simpa using hpiece) up _

theorem length_le_lastRow {piece : List Char} (h : old ++ [piece] <+: new) :
    old.length + 1 ≤ (lastRow new (old ++ [piece])).getD old.length 0 := by
  induction old using List.reverseRecOn generalizing piece with
  | nil =>
    obtain ⟨rest, rfl⟩ := h
    rw [lastRow_concat, getD_row (length_lastRow _ _) (by simp)]
    simp
  | append_singleton old before ih =>
    have hbefore := ih ((List.prefix_append _ _).trans h)
    have hpiece : new[(old ++ [before]).length]? = some piece := by
      obtain ⟨rest, rfl⟩ := h
      simp
    rw [lastRow_concat, getD_row (length_lastRow _ _) hpiece, List.length_append,
      List.length_singleton, List.getD_cons_succ]
    omega

theorem trace_self (width : Nat) (pieces : List (List Char)) (cells : List Nat) :
    trace width pieces pieces cells = pieces := by
  induction pieces generalizing cells with
  | nil => rw [trace]
  | cons piece pieces ih => rw [trace, if_pos rfl, ih]

/-! ## A final line feed -/

theorem getD_le {cells : List Nat} {bound : Nat} (h : ∀ cell ∈ cells, cell ≤ bound) (i : Nat) :
    cells.getD i 0 ≤ bound := by
  rw [List.getD_eq_getElem?_getD]
  cases hcell : cells[i]? with
  | none => exact Nat.zero_le _
  | some cell => exact h cell (List.mem_of_getElem? hcell)

/-- At the end of a text that a longer one starts with, the way back goes over the pieces behind
it. -/
theorem cells_above_lt_left {front : List (List Char)} {piece : List Char} (hfront : front ≠ [])
    (h : front ++ [piece] <+: new) (hlength : new.length = front.length + 2) :
    (cells new (front ++ [piece]) (List.replicate new.length 0) []).getD new.length 0 <
      (cells new (front ++ [piece]) (List.replicate new.length 0) []).getD 1 0 := by
  have hrow : (lastRow new (front ++ [piece])).reverse.length = new.length := by
    rw [List.length_reverse, length_lastRow]
  have habove : (cells new front (List.replicate new.length 0) []).getD 0 0 ≤ front.length := by
    obtain rfl | ⟨start, before, rfl⟩ := List.eq_nil_or_concat' front
    · exact absurd rfl hfront
    · have hlast : (lastRow new (start ++ [before])).reverse.length = new.length := by
        rw [List.length_reverse, length_lastRow]
      rw [cells_concat, List.getD_append _ _ _ _ (by omega)]
      exact getD_le (fun cell hcell => lastRow_le new _ cell (List.mem_reverse.1 hcell)) 0
  have hleft : (lastRow new (front ++ [piece])).reverse.getD 1 0 =
      (lastRow new (front ++ [piece])).getD front.length 0 := by
    rw [List.getD_eq_getElem?_getD, List.getD_eq_getElem?_getD,
      List.getElem?_reverse (by rw [length_lastRow]; omega), length_lastRow, hlength]
    rfl
  have hprefix := length_le_lastRow h
  rw [cells_concat, List.getD_append_right _ _ _ _ hrow.le, hrow, Nat.sub_self,
    List.getD_append _ _ _ _ (by omega), hleft]
  omega

theorem common_eq (old new : List (List Char)) :
    common old new = (trace new.length old.reverse new.reverse
      (cells new old (List.replicate new.length 0) [])).reverse := rfl

/-- A text whose last piece is not empty is common with the text that has an empty one more. -/
theorem common_concat {piece : List Char} (h : piece ≠ []) (front : List (List Char)) :
    common (front ++ [piece]) (front ++ [piece] ++ [[]]) = front ++ [piece] := by
  have hold : (front ++ [piece]).reverse = piece :: front.reverse := by simp
  have hnew : (front ++ [piece] ++ [[]]).reverse = [] :: piece :: front.reverse := by simp
  rw [common_eq, hold, hnew, trace, if_neg h, if_pos, trace_self, ← hold, List.reverse_reverse]
  by_cases hfront : front = []
  · exact .inl (by simp [hfront])
  · exact .inr (cells_above_lt_left hfront (List.prefix_append _ _) (by simp))

theorem changes_append (shared added : List (List Char)) :
    changes shared shared (shared ++ added) =
      shared.map (.same, ·) ++ added.map (.added, ·) := by
  induction shared with
  | nil => simp [changes]
  | cons piece shared ih => simp [changes, ih]

theorem hunks_append_added (shared : List (List Char)) (piece : List Char) :
    hunks (shared.map (.same, ·) ++ [(.added, piece)]) =
      (if shared = [] then [] else [⟨.same, shared⟩]) ++ [⟨.added, [piece]⟩] := by
  induction shared with
  | nil => rfl
  | cons first shared ih =>
    rw [List.map_cons, List.cons_append, hunks, ih]
    by_cases hshared : shared = []
    · simp [hshared]
    · simp [hshared]

/-- What a text without a line feed at its end differs in from the text with it: one empty piece. -/
theorem between_final_break {text : List Char} (hne : text ≠ [])
    (hlast : text.getLast? ≠ some '\n') :
    between text (text ++ ['\n']) = [⟨.same, Text.pieces text⟩, ⟨.added, [[]]⟩] := by
  have hpieces : Text.pieces (text ++ ['\n']) = Text.pieces text ++ [[]] := by
    simp [Text.pieces, List.splitOn_append_cons_self]
  obtain ⟨front, piece, hfront, hpiece⟩ : ∃ front piece,
      Text.pieces text = front ++ [piece] ∧ piece ≠ [] := by
    obtain hnil | ⟨front, piece, hfront⟩ := List.eq_nil_or_concat' (Text.pieces text)
    · exact absurd hnil (List.splitOn_ne_nil _ _)
    · refine ⟨front, piece, hfront, ?_⟩
      -- a text whose last piece is empty ends in a line feed, or is empty
      rintro rfl
      have htext := Text.flatMap_pieces text
      rw [hfront, List.flatMap_append, List.flatMap_singleton, List.nil_append] at htext
      obtain rfl := List.append_cancel_right htext
      obtain rfl | ⟨start, last, rfl⟩ := List.eq_nil_or_concat' front
      · exact hne rfl
      · exact hlast (by simp)
  have hshared :
      rejoined (common (Text.pieces text) (Text.pieces text ++ [[]])) = Text.pieces text := by
    rw [hfront, common_concat hpiece, rejoined, if_neg]
    simp [List.append_eq_cons_iff, hpiece]
  have hold : piecesOf text = Text.pieces text := if_neg hne
  have hnew : piecesOf (text ++ ['\n']) = Text.pieces text ++ [[]] := by
    rw [piecesOf, if_neg (by simp), hpieces]
  rw [between_eq, changesBetween, hpieces, hshared, hold, hnew, changes_append,
    List.map_singleton, hunks_append_added, if_neg (by simp [hfront])]
  rfl

end MacroFamilies.LineDiff
