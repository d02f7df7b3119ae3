import MacroFamilies.Proofs.Template.Reading
import MacroFamilies.Proofs.Traversal
/-!
# Cutting a text

A scan takes percent signs in pairs, so a text falls apart at a place only if the signs in front of
it escape each other. There, what is in front and what is behind are scanned on their own, the
second from the byte at which it starts. In particular a text can be cut in front of each of its
placeholders, and the place that the scan noted is the number of bytes in front of the cut.
-/

namespace MacroFamilies

/-! ## Bytes -/

theorem byteLength_append (xs ys : List Char) :
    byteLength (xs ++ ys) = byteLength xs + byteLength ys := by
  induction xs with
  | nil => simp [byteLength]
  | cons c xs ih => rw [List.cons_append, byteLength, byteLength, ih, Nat.add_assoc]

theorem byteLength_escaped (rest : List Char) :
    byteLength ('%' :: '%' :: rest) = 2 + byteLength rest := by
  have hsign : '%'.utf8Size = 1 := rfl
  rw [byteLength, byteLength]
  omega

theorem byteLength_closed (name tail : List Char) :
    byteLength ('%' :: '{' :: (name ++ '}' :: tail)) = byteLength name + 3 + byteLength tail := by
  have hsizes : '%'.utf8Size = 1 ∧ '{'.utf8Size = 1 ∧ '}'.utf8Size = 1 := ⟨rfl, rfl, rfl⟩
  rw [byteLength, byteLength, byteLength_append, byteLength]
  omega

/-! ## Signs that escape each other -/

def trailingSigns (cs : List Char) : Nat := (cs.reverse.takeWhile (· == '%')).length

/-- The percent signs at the end of the text escape each other in pairs, so that none of them
escapes one that follows. -/
def Unescaped (cs : List Char) : Prop := trailingSigns cs % 2 = 0

instance : DecidablePred Unescaped := fun cs =>
  inferInstanceAs (Decidable (trailingSigns cs % 2 = 0))

theorem trailingSigns_le (cs : List Char) : trailingSigns cs ≤ cs.length := by
  have hle := (List.takeWhile_sublist (l := cs.reverse) (· == '%')).length_le
  rwa [List.length_reverse] at hle

theorem trailingSigns_cons (c : Char) (cs : List Char) :
    trailingSigns (c :: cs) =
      if trailingSigns cs = cs.length ∧ c = '%' then cs.length + 1 else trailingSigns cs := by
  unfold trailingSigns
  rw [List.reverse_cons, List.takeWhile_append, List.length_reverse]
  by_cases hall : (cs.reverse.takeWhile (· == '%')).length = cs.length
  · by_cases hc : c = '%' <;> simp [hall, hc]
  · simp [hall]

theorem trailingSigns_append_cons {c : Char} (hc : c ≠ '%') (before cs : List Char) :
    trailingSigns (before ++ c :: cs) = trailingSigns cs := by
  induction before with
  | nil => simp [trailingSigns_cons, hc]
  | cons d before ih =>
    have hshort : trailingSigns (before ++ c :: cs) ≠ (before ++ c :: cs).length := by
      have hle := trailingSigns_le cs
      simp only [ih, List.length_append, List.length_cons]
      omega
    rw [List.cons_append, trailingSigns_cons, if_neg fun h => hshort h.1, ih]

theorem trailingSigns_append_replicate (cs : List Char) (count : Nat) :
    trailingSigns (cs ++ List.replicate count '%') = trailingSigns cs + count := by
  unfold trailingSigns
  rw [List.reverse_append, List.reverse_replicate, List.takeWhile_append_of_pos (by simp),
    List.length_append, List.length_replicate, Nat.add_comm]

theorem trailingSigns_eq_zero {cs : List Char} (h : cs.getLast? ≠ some '%') :
    trailingSigns cs = 0 := by
  rcases List.eq_nil_or_concat cs with rfl | ⟨start, c, rfl⟩
  · rfl
  · have hc : c ≠ '%' := by simpa using h
    rw [List.concat_eq_append, trailingSigns_append_cons hc]
    rfl

theorem exists_trailingSigns (cs : List Char) :
    ∃ start, cs = start ++ List.replicate (trailingSigns cs) '%' ∧ start.getLast? ≠ some '%' := by
  have hsigns : cs.reverse.takeWhile (· == '%') = List.replicate (trailingSigns cs) '%' := by
    rw [trailingSigns, List.eq_replicate_length]
    intro c hc
    simpa using List.mem_takeWhile_imp hc
  refine ⟨(cs.reverse.dropWhile (· == '%')).reverse, ?_, ?_⟩
  · rw [← List.reverse_inj, List.reverse_append, List.reverse_reverse, List.reverse_replicate,
      ← hsigns, List.takeWhile_append_dropWhile]
  · rw [List.getLast?_reverse]
    intro h
    have hne := List.head?_dropWhile_not (· == '%') cs.reverse
    simp [h] at hne

theorem unescaped_nil : Unescaped [] := rfl

theorem unescaped_append_cons {c : Char} (hc : c ≠ '%') (before cs : List Char) :
    Unescaped (before ++ c :: cs) ↔ Unescaped cs := by
  rw [Unescaped, trailingSigns_append_cons hc, Unescaped]

theorem unescaped_escaped (cs : List Char) : Unescaped ('%' :: '%' :: cs) ↔ Unescaped cs := by
  have hle := trailingSigns_le cs
  unfold Unescaped
  rw [trailingSigns_cons, trailingSigns_cons, List.length_cons]
  simp only [and_true]
  split_ifs <;> omega

theorem unescaped_closed (name tail : List Char) :
    Unescaped ('%' :: '{' :: (name ++ '}' :: tail)) ↔ Unescaped tail :=
  unescaped_append_cons (by decide) ('%' :: '{' :: name) tail

/-- A character that is copied escapes nothing, unless it is a percent sign at the end. -/
theorem unescaped_copied {c : Char} {cs : List Char} (h : Segment.Copied c cs) :
    Unescaped (c :: cs) ↔ Unescaped cs ∧ (c = '%' → cs ≠ []) := by
  cases cs with
  | nil => by_cases hc : c = '%' <;> simp [Unescaped, trailingSigns, hc]
  | cons d cs =>
    by_cases hd : d = '%'
    · have hc : c ≠ '%' := fun hc => (h hc).1 (by rw [hd]; rfl)
      simpa [hc] using unescaped_append_cons hc [] (d :: cs)
    · have hcons := unescaped_append_cons hd [c] cs
      have htail := unescaped_append_cons hd [] cs
      rw [List.singleton_append] at hcons
      rw [hcons, ← htail, List.nil_append]
      simp

theorem exists_of_not_unescaped {cs : List Char} (h : ¬ Unescaped cs) :
    ∃ start, cs = start ++ ['%'] ∧ Unescaped start := by
  have hodd : trailingSigns cs = 2 * (trailingSigns cs / 2) + 1 := by
    unfold Unescaped at h
    omega
  obtain ⟨start, heq, hlast⟩ := exists_trailingSigns cs
  refine ⟨start ++ List.replicate (2 * (trailingSigns cs / 2)) '%', ?_, ?_⟩
  · rw [List.append_assoc, ← List.replicate_succ', ← hodd]
    exact heq
  · rw [Unescaped, trailingSigns_append_replicate, trailingSigns_eq_zero hlast]
    omega

namespace Segment

theorem Copied.of_append {c : Char} {cs rest : List Char} (h : Copied c (cs ++ rest)) :
    Copied c cs := by
  intro hc
  cases cs with
  | nil => simp
  | cons d cs => simpa using h hc

theorem Copied.append {c : Char} {cs : List Char} (h : Copied c cs) (hcs : c = '%' → cs ≠ [])
    (rest : List Char) : Copied c (cs ++ rest) := by
  intro hc
  obtain ⟨d, tail, rfl⟩ := List.exists_cons_of_ne_nil (hcs hc)
  simpa using h hc

/-! ## Scans of two parts -/

/-- Segments with further ones behind them; a literal at the border goes on. -/
def joined : List Segment → List Segment → List Segment
  | [], behind => behind
  | .literal text :: rest, behind => text.foldr prepend (joined rest behind)
  | .placeholder name span :: rest, behind => .placeholder name span :: joined rest behind

theorem joined_prepend (c : Char) (segments : List Segment) :
    joined (prepend c segments) = fun behind => prepend c (joined segments behind) := by
  cases segments with
  | nil => rfl
  | cons s rest => cases s <;> rfl

theorem atoms_joined (segments behind : List Segment) :
    atoms (joined segments behind) = atoms segments ++ atoms behind := by
  induction segments with
  | nil => rfl
  | cons s rest ih =>
    cases s with
    | literal text =>
      rw [joined, atoms, List.append_assoc, ← ih]
      generalize joined rest behind = segments
      induction text with
      | nil => rfl
      | cons c text ihtext => simp [ihtext]
    | placeholder name span => rw [joined, atoms, atoms, ih, List.cons_append]

/-- Behind a text whose last percent signs escape each other a scan starts anew. -/
theorem scan_append {before : List Char} (hunescaped : Unescaped before) {offset : Nat}
    {segments : List Segment} (h : scan offset before = .ok segments) (rest : List Char) :
    scan offset (before ++ rest) =
      (scan (offset + byteLength before) rest).map (joined segments) := by
  induction before using text_induction generalizing offset segments with
  | nil =>
    rw [scan.eq_1, Except.ok.injEq] at h
    subst h
    simp only [List.nil_append, byteLength, Nat.add_zero]
    cases scan offset rest <;> rfl
  | escaped tail ih =>
    rw [scan.eq_2, Traversal.map_eq_ok_iff] at h
    obtain ⟨behind, hscan, rfl⟩ := h
    rw [List.cons_append, List.cons_append, scan.eq_2, ih ((unescaped_escaped tail).1 hunescaped)
      hscan, byteLength_escaped, ← Nat.add_assoc, Traversal.map_map, joined_prepend]
  | unterminated tail hclose =>
    rw [scan_unterminated offset hclose] at h
    cases h
  | closed name tail hclose ih =>
    rw [scan_closed offset tail hclose] at h
    split at h
    · next hname =>
      rw [Traversal.map_eq_ok_iff] at h
      obtain ⟨behind, hscan, rfl⟩ := h
      have happend : '%' :: '{' :: (name ++ '}' :: tail) ++ rest =
          '%' :: '{' :: (name ++ '}' :: (tail ++ rest)) := by simp
      have hbyte : offset + byteLength name + 3 + byteLength tail =
          offset + byteLength ('%' :: '{' :: (name ++ '}' :: tail)) := by
        rw [byteLength_closed]
        omega
      rw [happend, scan_closed offset _ hclose, if_pos hname,
        ih ((unescaped_closed name tail).1 hunescaped) hscan, hbyte, Traversal.map_map]
      rfl
    · cases h
  | copied c tail hc ih =>
    obtain ⟨htail, hne⟩ := (unescaped_copied hc).1 hunescaped
    rw [scan_copied offset hc, Traversal.map_eq_ok_iff] at h
    obtain ⟨behind, hscan, rfl⟩ := h
    rw [List.cons_append, scan_copied offset (hc.append hne rest), ih htail hscan, byteLength,
      ← Nat.add_assoc, Traversal.map_map, joined_prepend]

theorem reading_append {before : List Char} (hunescaped : Unescaped before) {xs : List Atom}
    (h : reading before = some xs) (rest : List Char) :
    reading (before ++ rest) = (reading rest).map (xs ++ ·) := by
  cases hscan : scan 0 before with
  | error fault => simp [reading, hscan, Except.toOption] at h
  | ok segments =>
    obtain rfl : atoms segments = xs := by simpa [reading, hscan, Except.toOption] using h
    rw [reading, scan_append hunescaped hscan, toOption_map, ← atoms_scan (0 + byteLength before),
      Option.map_map, Option.map_map]
    exact congrArg (Option.map · _) (funext fun ts => atoms_joined segments ts)

/-- If a text can be read then so can each part of it that ends where no placeholder goes on. -/
theorem isSome_reading_of_append {c : Char} (hname : isNameChar c = false) (hclose : c ≠ '}')
    {before rest : List Char} (h : (reading (before ++ c :: rest)).isSome) :
    (reading before).isSome := by
  induction before using text_induction with
  | nil => simp
  | escaped tail ih =>
    rw [List.cons_append, List.cons_append, reading_escaped, Option.isSome_map] at h
    rw [reading_escaped, Option.isSome_map]
    exact ih h
  | unterminated tail htail =>
    rw [List.cons_append, List.cons_append] at h
    by_cases hrest : '}' ∈ rest
    · -- the name would have to contain the character
      obtain ⟨name, after, rfl, hne⟩ := List.eq_append_cons_of_mem hrest
      have hfirst : '}' ∉ tail ++ c :: name := by simp [htail, hne, hclose.symm]
      have hread := reading_closed after hfirst
      rw [if_neg (by simp [isName, hname]), List.append_assoc, List.cons_append] at hread
      simp [hread] at h
    · have hnone : '}' ∉ tail ++ c :: rest := by simp [htail, hrest, hclose.symm]
      simp [reading_unterminated hnone] at h
  | closed name tail htail ih =>
    have happend : '%' :: '{' :: (name ++ '}' :: tail) ++ c :: rest =
        '%' :: '{' :: (name ++ '}' :: (tail ++ c :: rest)) := by simp
    rw [happend, reading_closed _ htail] at h
    rw [reading_closed _ htail]
    split at h
    · next hvalid =>
      rw [Option.isSome_map] at h
      rw [if_pos hvalid, Option.isSome_map]
      exact ih h
    · simp at h
  | copied d tail hd ih =>
    rw [reading_copied hd, Option.isSome_map]
    by_cases htail : d = '%' → tail ≠ []
    · rw [List.cons_append, reading_copied (hd.append htail _), Option.isSome_map] at h
      exact ih h
    · obtain ⟨-, rfl⟩ : d = '%' ∧ tail = [] := by simpa using htail
      simp

/-! ## In front of a placeholder -/

theorem prepend_eq_append {c : Char} {segments front back : List Segment} {name : String}
    {span : Span} (h : prepend c segments = front ++ .placeholder name span :: back) :
    ∃ rest, segments = rest ++ .placeholder name span :: back ∧ prepend c rest = front := by
  cases front with
  | nil =>
    unfold prepend at h
    split at h <;> simp at h
  | cons s front =>
    cases segments with
    | nil => simp [prepend] at h
    | cons t segments =>
      cases t with
      | literal text =>
        obtain ⟨rfl, rfl⟩ : Segment.literal (c :: text) = s ∧
            segments = front ++ .placeholder name span :: back := by simpa [prepend] using h
        exact ⟨.literal text :: front, rfl, rfl⟩
      | placeholder other place =>
        obtain ⟨rfl, hrest⟩ : Segment.literal [c] = s ∧
            .placeholder other place :: segments = front ++ .placeholder name span :: back := by
          simpa [prepend] using h
        refine ⟨front, hrest, ?_⟩
        cases front with
        | nil => rfl
        | cons t front =>
          obtain ⟨rfl, -⟩ := List.cons.inj hrest
          rfl

structure CutAt (offset : Nat) (cs : List Char) (front : List Segment) (name : String) (span : Span)
    (back : List Segment) (before after : List Char) : Prop where
  text_eq : cs = before ++ '%' :: '{' :: (name.toList ++ '}' :: after)
  unescaped : Unescaped before
  start_eq : span.start = offset + byteLength before
  stop_eq : span.stop = offset + byteLength before + byteLength name.toList + 3
  scan_before : scan offset before = .ok front
  scan_after : scan span.stop after = .ok back

theorem CutAt.prepend {offset : Nat} {part cs before after : List Char}
    {front segments back : List Segment} {name : String} {span : Span}
    (cut : CutAt (offset + byteLength part) cs front name span back before after)
    (hunescaped : Unescaped (part ++ before)) (hscan : scan offset (part ++ before) = .ok segments) :
    CutAt offset (part ++ cs) segments name span back (part ++ before) after where
  text_eq := by rw [cut.text_eq, List.append_assoc]
  unescaped := hunescaped
  start_eq := by rw [cut.start_eq, byteLength_append, Nat.add_assoc]
  stop_eq := by
    rw [cut.stop_eq, byteLength_append]
    omega
  scan_before := hscan
  scan_after := cut.scan_after

theorem exists_cutAt {offset : Nat} {cs : List Char} {front back : List Segment} {name : String}
    {span : Span} (h : scan offset cs = .ok (front ++ .placeholder name span :: back)) :
    ∃ before after, CutAt offset cs front name span back before after := by
  induction cs using text_induction generalizing offset front with
  | nil => simp [scan] at h
  | escaped rest ih =>
    rw [scan.eq_2, Traversal.map_eq_ok_iff] at h
    obtain ⟨segments, hscan, hsegments⟩ := h
    obtain ⟨front, rfl, rfl⟩ := prepend_eq_append hsegments
    obtain ⟨before, after, cut⟩ := ih hscan
    have hbefore : scan offset (['%', '%'] ++ before) = .ok (prepend '%' front) := by
      rw [List.cons_append, List.singleton_append, scan.eq_2, cut.scan_before]
      rfl
    exact ⟨_, after, CutAt.prepend cut ((unescaped_escaped before).2 cut.unescaped) hbefore⟩
  | unterminated rest hclose =>
    rw [scan_unterminated offset hclose] at h
    cases h
  | closed other tail hclose ih =>
    rw [scan_closed offset tail hclose] at h
    split at h
    · next hname =>
      rw [Traversal.map_eq_ok_iff] at h
      obtain ⟨segments, hscan, hsegments⟩ := h
      cases front with
      | nil =>
        obtain ⟨hhead, rfl⟩ := List.cons.inj hsegments
        obtain ⟨rfl, rfl⟩ : String.ofList other = name ∧
            ⟨offset, offset + byteLength other + 3⟩ = span := by simpa using hhead
        refine ⟨[], tail, ?_, unescaped_nil, rfl, ?_, scan.eq_1 offset, hscan⟩
        · rw [String.toList_ofList]
          rfl
        · rw [String.toList_ofList]
          rfl
      | cons s front =>
        obtain ⟨rfl, rfl⟩ := List.cons.inj hsegments
        obtain ⟨before, after, cut⟩ := ih hscan
        have hpart (behind : List Char) : '%' :: '{' :: (other ++ ['}']) ++ behind =
            '%' :: '{' :: (other ++ '}' :: behind) := by simp
        have hbyte : byteLength ('%' :: '{' :: (other ++ ['}'])) = byteLength other + 3 :=
          byteLength_closed other []
        rw [Nat.add_assoc, ← hbyte] at cut
        have hbefore : scan offset ('%' :: '{' :: (other ++ ['}']) ++ before) =
            .ok (.placeholder (String.ofList other) ⟨offset, offset + byteLength other + 3⟩ ::
              front) := by
          rw [hpart, scan_closed offset before hclose, if_pos hname, Nat.add_assoc, ← hbyte,
            cut.scan_before]
          rfl
        have hunescaped : Unescaped ('%' :: '{' :: (other ++ ['}']) ++ before) := by
          rw [hpart, unescaped_closed]
          exact cut.unescaped
        exact ⟨_, after, hpart tail ▸ cut.prepend hunescaped hbefore⟩
    · cases h
  | copied c rest hc ih =>
    rw [scan_copied offset hc, Traversal.map_eq_ok_iff] at h
    obtain ⟨segments, hscan, hsegments⟩ := h
    obtain ⟨front, rfl, rfl⟩ := prepend_eq_append hsegments
    obtain ⟨before, after, cut⟩ := ih hscan
    have hcopied : Copied c before := (cut.text_eq ▸ hc).of_append
    have hbefore : scan offset ([c] ++ before) = .ok (prepend c front) := by
      rw [List.singleton_append, scan_copied offset hcopied, cut.scan_before]
      rfl
    have hunescaped : Unescaped ([c] ++ before) := by
      refine (unescaped_copied hcopied).2 ⟨cut.unescaped, ?_⟩
      rintro rfl rfl
      exact (hc rfl).1 (by rw [cut.text_eq]; rfl)
    exact ⟨_, after, CutAt.prepend cut hunescaped hbefore⟩

end Segment

end MacroFamilies
