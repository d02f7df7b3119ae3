import MacroFamilies.LineDiff
import MacroFamilies.Proofs.Text.Pieces
/-!
# What a line difference keeps

The hunks of a difference hold every piece of both texts in order: those that are the same or were
removed are the old text, and those that are the same or were added are the new one. This rests on
the common pieces being in both texts, in their order, however they were found.
-/

namespace MacroFamilies.LineDiff

variable {old new shared : List (List Char)}

/-! ## Common pieces -/

theorem trace_sublist (width : Nat) (old new : List (List Char)) (cells : List Nat) :
    (trace width old new cells).Sublist old ∧ (trace width old new cells).Sublist new := by
  fun_induction trace width old new cells with
  | case1 old a new cells ih => exact ⟨ih.1.cons_cons _, ih.2.cons_cons _⟩
  | case2 a old b new cells hne hleft ih => exact ⟨ih.1, ih.2.cons _⟩
  | case3 a old b new cells hne habove ih => exact ⟨ih.1.cons _, ih.2⟩
  | case4 new cells => exact ⟨.refl _, List.nil_sublist _⟩
  | case5 old cells hold => exact ⟨List.nil_sublist _, .refl _⟩

theorem common_sublist (old new : List (List Char)) :
    (common old new).Sublist old ∧ (common old new).Sublist new := by
  have h := trace_sublist new.length old.reverse new.reverse
    (cells new old (List.replicate new.length 0) [])
  exact ⟨by simpa [common] using h.1.reverse, by simpa [common] using h.2.reverse⟩

theorem rejoined_sublist {text : List Char} (h : shared.Sublist (Text.pieces text)) :
    (rejoined shared).Sublist (piecesOf text) := by
  unfold rejoined piecesOf
  split_ifs with hblank hempty hempty
  · exact List.nil_sublist _
  · exact List.nil_sublist _
  · -- the only piece of an empty text is the one that was lost
    subst hempty
    rcases List.sublist_singleton.1 h with rfl | rfl
    · exact List.nil_sublist _
    · exact absurd rfl hblank
  · exact h

/-! ## Pieces of both texts -/

def oldPieces (changes : List (Change × List Char)) : List (List Char) :=
  changes.filterMap fun (change, piece) => if change = .added then none else some piece

def newPieces (changes : List (Change × List Char)) : List (List Char) :=
  changes.filterMap fun (change, piece) => if change = .removed then none else some piece

theorem exists_cut {piece : List Char} (h : (piece :: shared).Sublist old) :
    ∃ front back, old = front ++ piece :: back ∧ old.takeWhile (· ≠ piece) = front ∧
      (old.dropWhile (· ≠ piece)).tail = back ∧ shared.Sublist back := by
  induction old with
  | nil => cases h
  | cons first old ih =>
    by_cases hfirst : first = piece
    · subst hfirst
      exact ⟨[], old, rfl, by simp, by simp, List.cons_sublist_cons.1 h⟩
    · have hold : (piece :: shared).Sublist old := by
        cases h with
        | cons _ h => exact h
        | cons_cons _ h => exact absurd rfl hfirst
      obtain ⟨front, back, heq, hfront, hback, hshared⟩ := ih hold
      refine ⟨first :: front, back, by rw [heq, List.cons_append], ?_, ?_, hshared⟩
      · rw [List.takeWhile_cons_of_pos (by simpa using hfirst), hfront]
      · rw [List.dropWhile_cons_of_pos (by simpa using hfirst), hback]

theorem pieces_changes (hold : shared.Sublist old) (hnew : shared.Sublist new) :
    oldPieces (changes shared old new) = old ∧ newPieces (changes shared old new) = new := by
  induction shared generalizing old new with
  | nil => simp [changes, oldPieces, newPieces, List.filterMap_map]
  | cons piece shared ih =>
    obtain ⟨front, back, rfl, hfront, hback, hrest⟩ := exists_cut hold
    obtain ⟨front', back', rfl, hfront', hback', hrest'⟩ := exists_cut hnew
    obtain ⟨ihold, ihnew⟩ := ih hrest hrest'
    unfold oldPieces at ihold ⊢
    unfold newPieces at ihnew ⊢
    rw [changes, hfront, hback, hfront', hback']
    constructor
    · simp [List.filterMap_map, ihold]
    · simp [List.filterMap_map, ihnew]

/-! ## Hunks -/

def Hunk.changes (hunk : Hunk) : List (Change × List Char) := hunk.pieces.map (hunk.change, ·)

theorem flatMap_hunks (changes : List (Change × List Char)) :
    (hunks changes).flatMap Hunk.changes = changes := by
  induction changes with
  | nil => rfl
  | cons entry rest ih =>
    obtain ⟨change, piece⟩ := entry
    rw [hunks]
    cases hrest : hunks rest with
    | nil =>
      rw [hrest] at ih
      simp [← ih, Hunk.changes]
    | cons hunk later =>
      rw [hrest, List.flatMap_cons] at ih
      simp only
      split_ifs with hsame
      · subst hsame
        rw [← ih]
        rfl
      · rw [← ih]
        rfl

def changesBetween (old new : List Char) : List (Change × List Char) :=
  changes (rejoined (common (Text.pieces old) (Text.pieces new))) (piecesOf old) (piecesOf new)

theorem between_eq (old new : List Char) : between old new = hunks (changesBetween old new) := rfl

/-- The hunks between two texts hold all pieces of both. -/
theorem pieces_changesBetween (old new : List Char) :
    oldPieces (changesBetween old new) = piecesOf old ∧
      newPieces (changesBetween old new) = piecesOf new := by
  obtain ⟨hold, hnew⟩ := common_sublist (Text.pieces old) (Text.pieces new)
  exact pieces_changes (rejoined_sublist hold) (rejoined_sublist hnew)

/-- Two texts have the same pieces of a kind if no piece of this kind was removed or added. -/
theorem filter_pieces_eq {p : List Char → Bool} {changes : List (Change × List Char)}
    (h : ∀ entry ∈ changes, entry.1 ≠ .same → p entry.2 = false) :
    (oldPieces changes).filter p = (newPieces changes).filter p := by
  unfold oldPieces newPieces
  induction changes with
  | nil => rfl
  | cons entry changes ih =>
    obtain ⟨change, piece⟩ := entry
    obtain ⟨hentry, hchanges⟩ := List.forall_mem_cons.1 h
    cases change with
    | same =>
      have hcons := congrArg (fun l => if p piece then piece :: l else l) (ih hchanges)
      simpa [List.filter_cons] using hcons
    | removed => simpa [hentry (by simp)] using ih hchanges
    | added => simpa [hentry (by simp)] using ih hchanges

/-- Texts that differ in their pieces of a kind have such a piece in a hunk of changes. -/
theorem exists_changed_hunk {p : List Char → Bool} {old new : List Char}
    (h : (piecesOf old).filter p ≠ (piecesOf new).filter p) :
    ∃ hunk ∈ between old new, hunk.change ≠ .same ∧ ∃ piece ∈ hunk.pieces, p piece = true := by
  by_contra hnone
  push Not at hnone
  apply h
  obtain ⟨hold, hnew⟩ := pieces_changesBetween old new
  rw [← hold, ← hnew]
  apply filter_pieces_eq
  intro entry hentry hchange
  rw [← flatMap_hunks (changesBetween old new), ← between_eq, List.mem_flatMap] at hentry
  obtain ⟨hunk, hhunk, hentry⟩ := hentry
  obtain ⟨piece, hpiece, rfl⟩ := List.mem_map.1 hentry
  simpa using hnone hunk hhunk hchange piece hpiece

theorem pieces_ne_nil_of_mem_hunks {changes : List (Change × List Char)} {hunk : Hunk}
    (h : hunk ∈ hunks changes) : hunk.pieces ≠ [] := by
  induction changes generalizing hunk with
  | nil => cases h
  | cons entry rest ih =>
    obtain ⟨change, piece⟩ := entry
    rw [hunks] at h
    cases hrest : hunks rest with
    | nil =>
      rw [hrest, List.mem_singleton] at h
      simp [h]
    | cons first later =>
      rw [hrest] at ih h
      simp only at h
      split_ifs at h with hsame
      · rcases List.mem_cons.1 h with rfl | h
        · exact List.cons_ne_nil _ _
        · exact ih (List.mem_cons_of_mem _ h)
      · rcases List.mem_cons.1 h with rfl | h
        · exact List.cons_ne_nil _ _
        · exact ih h

theorem piecesOf_inj {old new : List Char} : piecesOf old = piecesOf new ↔ old = new := by
  refine ⟨fun h => ?_, fun h => h ▸ rfl⟩
  unfold piecesOf Text.pieces at h
  split_ifs at h with hold hnew hnew
  · rw [hold, hnew]
  · exact absurd h.symm (List.splitOn_ne_nil _ _)
  · exact absurd h (List.splitOn_ne_nil _ _)
  · calc
      old = ['\n'].intercalate (old.splitOn '\n') := (List.intercalate_splitOn _).symm
      _ = ['\n'].intercalate (new.splitOn '\n') := by rw [h]
      _ = new := List.intercalate_splitOn _

theorem exists_changed_hunk_of_ne {old new : List Char} (h : old ≠ new) :
    ∃ hunk ∈ between old new, hunk.change ≠ .same := by
  have hpieces : (piecesOf old).filter (fun _ => true) ≠ (piecesOf new).filter (fun _ => true) := by
    simpa [piecesOf_inj] using h
  obtain ⟨hunk, hhunk, hchange, -⟩ := exists_changed_hunk hpieces
  exact ⟨hunk, hhunk, hchange⟩

def writtenPieces (text : List Char) : List (List Char) := (Text.pieces text).filter (· ≠ [])

theorem filter_piecesOf (text : List Char) :
    (piecesOf text).filter (· ≠ []) = writtenPieces text := by
  unfold piecesOf writtenPieces
  split_ifs with h
  · subst h
    rfl
  · rfl

/-- A hunk is printed without a line if all it holds is one empty piece. -/
theorem lines_eq_nil_iff {hunk : Hunk} (h : hunk.pieces ≠ []) :
    hunk.lines = [] ↔ hunk.pieces = [[]] := by
  unfold Hunk.lines
  match hpieces : hunk.pieces with
  | [] => exact absurd hpieces h
  | [piece] => simp [Text.linesOfPieces]
  | piece :: next :: rest => simp [Text.linesOfPieces]

end MacroFamilies.LineDiff
