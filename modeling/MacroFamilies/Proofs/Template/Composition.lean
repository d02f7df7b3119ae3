import MacroFamilies.Proofs.Template.Places
/-!
# Texts put together

All that a scan knows of the bytes in front of a text is how many there are. So a text that stands
further to the right is read the same, with every place moved, and behind a template whose last
percent signs escape each other a text is read as if it stood alone. The main statement says what
this gives for the template of two texts, its expansions and its errors.
-/

namespace MacroFamilies

/-! ## Moved places -/

/-- The same failure, found in a text that has `count` further bytes in front. -/
def Diagnostic.moved (source : SourceText) (count : Nat) (d : Diagnostic) : Diagnostic :=
  { d with source := some source, span := d.span.map (Span.shift count) }

def PlaceholderFault.shift (count : Nat) : PlaceholderFault → PlaceholderFault
  | .unterminated span => .unterminated (span.shift count)
  | .invalidName name span => .invalidName name (span.shift count)

theorem PlaceholderFault.diagnostic_shift (source other : SourceText) (count : Nat)
    (fault : PlaceholderFault) :
    (fault.shift count).diagnostic source = (fault.diagnostic other).moved source count := by
  cases fault <;> rfl

namespace Segment

def shift (count : Nat) : Segment → Segment
  | .literal text => .literal text
  | .placeholder name span => .placeholder name (span.shift count)

def Unfilled.shift (count : Nat) (u : Unfilled) : Unfilled := ⟨u.name, u.span.shift count⟩

def shiftScan (count : Nat) :
    Except PlaceholderFault (List Segment) → Except PlaceholderFault (List Segment)
  | .ok segments => .ok (segments.map (shift count))
  | .error fault => .error (fault.shift count)

theorem map_shift_prepend (count : Nat) (c : Char) (segments : List Segment) :
    (prepend c segments).map (shift count) = prepend c (segments.map (shift count)) := by
  cases segments with
  | nil => rfl
  | cons s rest => cases s <;> rfl

theorem shiftScan_map_prepend (count : Nat) (c : Char)
    (found : Except PlaceholderFault (List Segment)) :
    shiftScan count (found.map (prepend c)) = (shiftScan count found).map (prepend c) := by
  cases found with
  | error fault => rfl
  | ok segments => exact congrArg Except.ok (map_shift_prepend count c segments)

/-- A text further to the right is read the same, with every place moved. -/
theorem scan_shift (offset count : Nat) (cs : List Char) :
    scan (offset + count) cs = shiftScan count (scan offset cs) := by
  -- a step adds its bytes to the offset, and the hypothesis is for the offset behind the step
  induction cs using text_induction generalizing offset with
  | nil => simp [scan, shiftScan]
  | escaped rest ih =>
    rw [scan.eq_2, scan.eq_2, shiftScan_map_prepend, ← ih, Nat.add_right_comm]
  | unterminated rest h =>
    rw [scan_unterminated _ h, scan_unterminated _ h, Nat.add_right_comm]
    rfl
  | closed name tail h ih =>
    have hstop : offset + count + byteLength name + 3 = offset + byteLength name + 3 + count := by
      omega
    rw [scan_closed _ tail h, scan_closed _ tail h, hstop, ih]
    split
    · cases scan (offset + byteLength name + 3) tail <;> rfl
    · rfl
  | copied c rest h ih =>
    rw [scan_copied _ h, scan_copied _ h, shiftScan_map_prepend, ← ih, Nat.add_right_comm]

/-! ## Two texts -/

/-- Behind a text whose last percent signs escape each other, the rest is read as if it stood
alone. -/
theorem scan_append_shift {before : List Char} (hunescaped : Unescaped before)
    {segments : List Segment} (h : scan 0 before = .ok segments) (rest : List Char) :
    scan 0 (before ++ rest) =
      (shiftScan (byteLength before) (scan 0 rest)).map (joined segments) :=
  calc scan 0 (before ++ rest)
      = (scan (0 + byteLength before) rest).map (joined segments) :=
        scan_append hunescaped h rest
    _ = (shiftScan (byteLength before) (scan 0 rest)).map (joined segments) := by rw [scan_shift]

def slots : List Segment → List (String × Span)
  | [] => []
  | .literal _ :: rest => slots rest
  | .placeholder name span :: rest => (name, span) :: slots rest

theorem map_fst_slots (segments : List Segment) :
    (slots segments).map Prod.fst = names segments := by
  induction segments with
  | nil => rfl
  | cons s rest ih => cases s <;> simp [slots, names, ih]

theorem slots_map_shift (count : Nat) (segments : List Segment) :
    slots (segments.map (shift count)) =
      (slots segments).map fun slot => (slot.1, slot.2.shift count) := by
  induction segments with
  | nil => rfl
  | cons s rest ih => cases s <;> simp [slots, shift, ih]

theorem slots_prepend (c : Char) (segments : List Segment) :
    slots (prepend c segments) = slots segments := by
  cases segments with
  | nil => rfl
  | cons s rest => cases s <;> rfl

theorem slots_foldr_prepend (text : List Char) (segments : List Segment) :
    slots (text.foldr prepend segments) = slots segments := by
  induction text with
  | nil => rfl
  | cons c text ih => rw [List.foldr_cons, slots_prepend, ih]

theorem slots_joined (segments behind : List Segment) :
    slots (joined segments behind) = slots segments ++ slots behind := by
  induction segments with
  | nil => rfl
  | cons s rest ih =>
    cases s with
    | literal text => rw [joined, slots_foldr_prepend, ih, slots]
    | placeholder name span => rw [joined, slots, slots, ih, List.cons_append]

/-! ## Filling two texts -/

theorem fill_map_shift (value : String → Option String) (count : Nat) (segments : List Segment) :
    fill value (segments.map (shift count)) =
      (fill value segments).mapError (Unfilled.shift count) := by
  induction segments with
  | nil => rfl
  | cons s rest ih =>
    cases s with
    | literal text => rw [List.map_cons, shift, fill, fill, ih, Traversal.mapError_map]
    | placeholder name span =>
      rw [List.map_cons, shift, fill, fill, ih]
      cases value name with
      | none => rfl
      | some v => exact Traversal.mapError_map _ _ _

theorem fill_prepend (value : String → Option String) (c : Char) (segments : List Segment) :
    fill value (prepend c segments) = (fill value segments).map (c :: ·) := by
  cases segments with
  | nil => rfl
  | cons s rest =>
    cases s with
    | literal text =>
      rw [prepend, fill, fill, Traversal.map_map]
      rfl
    | placeholder name span => rfl

theorem fill_foldr_prepend (value : String → Option String) (text : List Char)
    (segments : List Segment) :
    fill value (text.foldr prepend segments) = (fill value segments).map (text ++ ·) := by
  induction text with
  | nil => exact (congrFun Except.map_id (fill value segments)).symm
  | cons c text ih =>
    rw [List.foldr_cons, fill_prepend, ih, Traversal.map_map]
    rfl

/-- The two fillings one after the other; the first failure is the one that is found. -/
def fillBoth (left right : Except Unfilled (List Char)) : Except Unfilled (List Char) :=
  left.bind fun xs => right.map (xs ++ ·)

theorem fillBoth_map (text : List Char) (left right : Except Unfilled (List Char)) :
    fillBoth (left.map (text ++ ·)) right = (fillBoth left right).map (text ++ ·) := by
  cases left with
  | error u => rfl
  | ok xs => cases right <;> simp [fillBoth, Except.map, Except.bind]

theorem fill_joined (value : String → Option String) (segments behind : List Segment) :
    fill value (joined segments behind) = fillBoth (fill value segments) (fill value behind) := by
  induction segments with
  | nil => exact (congrFun Except.map_id (fill value behind)).symm
  | cons s rest ih =>
    cases s with
    | literal text => rw [joined, fill_foldr_prepend, ih, fill, fillBoth_map]
    | placeholder name span =>
      rw [joined, fill, fill, ih]
      cases value name with
      | none => rfl
      | some v => exact (fillBoth_map _ _ _).symm

end Segment

/-! ## Templates of two texts -/

namespace Template

def slots (t : Template) : List (String × Span) := Segment.slots t.segments

theorem map_fst_slots (t : Template) : t.slots.map Prod.fst = t.placeholders :=
  Segment.map_fst_slots t.segments

/-- What a template is whose text is that of `first` with that of `second` behind it. -/
structure Concatenates (first second whole : Template) : Prop where
  placeholders_eq : whole.placeholders = first.placeholders ++ second.placeholders
  slots_eq : whole.slots = first.slots ++
    second.slots.map fun slot => (slot.1, slot.2.shift first.text.utf8ByteSize)
  /-- The first placeholder without a value is that of the two expansions, one after the other. -/
  expand_eq : ∀ params : ParameterSet, whole.expand params =
    match first.expand params, second.expand params with
    | .error d, _ => .error { d with source := some whole.source }
    | .ok _, .error d => .error (d.moved whole.source first.text.utf8ByteSize)
    | .ok left, .ok right => .ok (left ++ right)

theorem byteLength_toList (text : String) : byteLength text.toList = text.utf8ByteSize := by
  rw [← utf8ByteSize_ofList, String.ofList_toList]

section Append

variable {first second whole : Template}

/-- The segments of two texts: behind the first text its last literal goes on, and all places are
further to the right. -/
theorem segments_append (htext : whole.text = first.text ++ second.text)
    (hunescaped : Unescaped first.text.toList) :
    whole.segments = Segment.joined first.segments
      (second.segments.map (Segment.shift first.text.utf8ByteSize)) := by
  have hscan := Segment.scan_append_shift hunescaped first.segments_eq second.text.toList
  rw [← String.toList_append, ← htext, whole.segments_eq, second.segments_eq, byteLength_toList]
    at hscan
  exact Except.ok.inj hscan

theorem concatenates_of_text (htext : whole.text = first.text ++ second.text)
    (hunescaped : Unescaped first.text.toList) : Concatenates first second whole := by
  have hsegments := segments_append htext hunescaped
  have hslots : whole.slots = first.slots ++
      second.slots.map fun slot => (slot.1, slot.2.shift first.text.utf8ByteSize) := by
    rw [slots, hsegments, Segment.slots_joined, Segment.slots_map_shift]
    rfl
  refine ⟨?_, hslots, fun params => ?_⟩
  · rw [← map_fst_slots, hslots, List.map_append, List.map_map, ← map_fst_slots, ← map_fst_slots]
    rfl
  · rw [expand, hsegments, Segment.fill_joined, Segment.fill_map_shift, expand, expand]
    cases Segment.fill params.get? first.segments with
    | error u => rfl
    | ok left =>
      cases Segment.fill params.get? second.segments with
      | error u => rfl
      | ok right => exact congrArg Except.ok String.ofList_append

theorem exists_parse_append (hunescaped : Unescaped first.text.toList) {label rest : String}
    (h : parse label rest = .ok second) (name : String) :
    ∃ whole, parse name (first.text ++ rest) = .ok whole := by
  obtain ⟨-, rfl⟩ := name_text_of_parse h
  have hscan := Segment.scan_append_shift hunescaped first.segments_eq second.text.toList
  rw [← String.toList_append, second.segments_eq] at hscan
  exact ⟨_, parse_of_scan name hscan⟩

/-- A text that is no template is none behind another one either, and its error is found there. -/
theorem parse_append_error (hunescaped : Unescaped first.text.toList) {label rest : String}
    {d : Diagnostic} (h : parse label rest = .error d) (name : String) :
    parse name (first.text ++ rest) =
      .error (d.moved ⟨name, first.text ++ rest⟩ first.text.utf8ByteSize) := by
  obtain ⟨fault, hfault, rfl⟩ := parse_eq_error_iff.1 h
  have hscan := Segment.scan_append_shift hunescaped first.segments_eq rest.toList
  rw [← String.toList_append, hfault, byteLength_toList] at hscan
  exact parse_eq_error_iff.2 ⟨_, hscan, PlaceholderFault.diagnostic_shift _ _ _ _⟩

/-- A template that ends in an unescaped percent sign does not go on with every text that is one. -/
theorem unescaped_iff_forall_parse_append (label : String) :
    Unescaped first.text.toList ↔ ∀ rest, (∃ second, parse label rest = .ok second) →
      ∃ whole, parse label (first.text ++ rest) = .ok whole := by
  refine ⟨fun h rest ⟨second, hsecond⟩ => exists_parse_append h hsecond label, fun h => ?_⟩
  by_contra hescaped
  obtain ⟨start, hstart, hunescaped⟩ := exists_of_not_unescaped hescaped
  have hfirst : (Segment.reading (start ++ ['%'])).isSome := by
    rw [← hstart, first.reading_text]
    rfl
  obtain ⟨atoms, hatoms⟩ := Option.isSome_iff_exists.1
    (Segment.isSome_reading_of_append (by decide) (by decide) hfirst)
  -- the sign and the brace open a placeholder that nothing closes
  have hopen : Segment.reading (start ++ ['%', '{']) = none := by
    rw [Segment.reading_append hunescaped hatoms, Segment.reading_unterminated (by simp)]
    rfl
  have htext : (first.text ++ "\x7b").toList = start ++ ['%', '{'] := by
    rw [String.toList_append, hstart]
    simp
  have hwhole := h "\x7b" ((exists_parse_iff label "\x7b").2 (by cbv))
  rw [exists_parse_iff, htext, hopen] at hwhole
  cases hwhole

end Append

/-- Behind a template whose last percent signs escape each other, a text is read as if it stood
alone. The two texts are a template exactly when the second one is. Then they have the placeholders
of both and are expanded one after the other; otherwise the error is that of the second text, at its
place in the two. -/
theorem parse_compositional {label text : String} {first : Template}
    (hparse : parse label text = .ok first) (hunescaped : Unescaped text.toList)
    (other rest name : String) :
    ((∃ whole, parse name (text ++ rest) = .ok whole) ↔ ∃ second, parse other rest = .ok second) ∧
      (∀ second whole, parse other rest = .ok second → parse name (text ++ rest) = .ok whole →
        Concatenates first second whole) ∧
      ∀ d, parse other rest = .error d →
        parse name (text ++ rest) = .error (d.moved ⟨name, text ++ rest⟩ text.utf8ByteSize) := by
  obtain ⟨-, rfl⟩ := name_text_of_parse hparse
  refine ⟨⟨?_, ?_⟩, ?_, fun d hd => parse_append_error hunescaped hd name⟩
  · rintro ⟨whole, hwhole⟩
    apply Traversal.exists_ok
    intro d hd
    rw [parse_append_error hunescaped hd name] at hwhole
    cases hwhole
  · rintro ⟨second, hsecond⟩
    exact exists_parse_append hunescaped hsecond name
  · intro second whole hsecond hwhole
    obtain ⟨-, rfl⟩ := name_text_of_parse hsecond
    exact concatenates_of_text (name_text_of_parse hwhole).2 hunescaped

/-- A template that ends in two percent signs, behind a letter of two bytes. -/
def signed : Template where
  name := "a"
  text := "é%\x7barity\x7d%%"
  segments := [.literal ['é'], .placeholder "arity" ⟨2, 10⟩, .literal ['%']]
  segments_eq := by cbv

def braced : Template where
  name := "b"
  text := "\x7b%\x7bnope\x7d"
  segments := [.literal ['\x7b'], .placeholder "nope" ⟨1, 8⟩]
  segments_eq := by cbv

theorem parse_compositional_signed :
    ∃ whole, parse "a" signed.text = .ok signed ∧ Unescaped signed.text.toList ∧
      parse "b" braced.text = .ok braced ∧
      parse "c" "é%\x7barity\x7d%%\x7b%\x7bnope\x7d" = .ok whole ∧
      whole.slots = [("arity", ⟨2, 10⟩), ("nope", ⟨13, 20⟩)] ∧
      whole.expand (.ofList [("arity", "7"), ("nope", "x")]) = .ok "é7%\x7bx" ∧
      whole.expand (.arityOnly "7") = .error
        { kind := .template
          message := "placeholder 'nope' has no value"
          source := some ⟨"c", "é%\x7barity\x7d%%\x7b%\x7bnope\x7d"⟩
          span := some ⟨13, 20⟩
          help := some "available keys: arity" } ∧
      parse "c" "é%\x7barity\x7d%%%\x7ba b\x7d" = .error
        { kind := .template
          message := "invalid placeholder name 'a b'"
          source := some ⟨"c", "é%\x7barity\x7d%%%\x7ba b\x7d"⟩
          span := some ⟨12, 18⟩
          help := some "placeholder names are made of letters, digits and '_'" } := by
  have hsigned : parse "a" signed.text = .ok signed := parse_of_scan "a" signed.segments_eq
  have hbraced : parse "b" braced.text = .ok braced := parse_of_scan "b" braced.segments_eq
  have hunescaped : Unescaped signed.text.toList := by decide
  have hfault : Segment.scan 0 "%\x7ba b\x7d".toList = .error (.invalidName "a b" ⟨0, 6⟩) := by
    decide +kernel
  have hrejected : parse "b" "%\x7ba b\x7d" = .error _ := parse_eq_error_iff.2 ⟨_, hfault, rfl⟩
  obtain ⟨hiff, htogether, -⟩ := parse_compositional hsigned hunescaped "b" braced.text "c"
  obtain ⟨-, -, herror⟩ := parse_compositional hsigned hunescaped "b" "%\x7ba b\x7d" "c"
  obtain ⟨whole, hwhole⟩ := hiff.2 ⟨_, hbraced⟩
  have hconcat := htogether _ _ hbraced hwhole
  obtain ⟨hname, htext⟩ := name_text_of_parse hwhole
  refine ⟨whole, hsigned, hunescaped, hbraced, hwhole, ?_, ?_, ?_, herror _ hrejected⟩
  · rw [hconcat.slots_eq]
    decide
  · rw [hconcat.expand_eq]
    rfl
  · rw [hconcat.expand_eq, source, hname, htext]
    rfl

end Template

end MacroFamilies
