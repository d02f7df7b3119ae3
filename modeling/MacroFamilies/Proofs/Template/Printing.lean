import MacroFamilies.Proofs.Template.Reading
/-!
# Printing templates

Any list of segments can be written as a text, with the percent signs of its literals doubled. A
scan gives it back in its normal form, in which no literal is empty and no two literals are next to
each other: the places apart, a list in normal form is determined by its atoms. The main statement
says that printing and parsing are inverse up to normal form.
-/

namespace MacroFamilies

namespace Segment

def isLiteral : Segment → Bool
  | .literal _ => true
  | .placeholder _ _ => false

/-- A segment with a name that a scan accepts, if it has one. -/
def WellNamed : Segment → Prop
  | .literal _ => True
  | .placeholder name _ => isName name.toList = true

def unplaced : Segment → Segment
  | .literal text => .literal text
  | .placeholder name _ => .placeholder name default

def filled (value : String → String) : Segment → List Char
  | .literal text => text
  | .placeholder name _ => (value name).toList

/-- No literal is empty, and no two literals are next to each other. -/
structure Normal (segments : List Segment) : Prop where
  nonempty : .literal [] ∉ segments
  apart : segments.IsChain fun s t => s.isLiteral = true → t.isLiteral = false

def prependText (text : List Char) (segments : List Segment) : List Segment :=
  if text = [] then segments
  else match segments with
    | .literal behind :: rest => .literal (text ++ behind) :: rest
    | _ => .literal text :: segments

def merged : List Segment → List Segment
  | [] => []
  | .literal text :: rest => prependText text (merged rest)
  | .placeholder name span :: rest => .placeholder name span :: merged rest

/-! ## Normal forms -/

theorem normal_nil : Normal [] := ⟨by simp, .nil⟩

theorem Normal.tail {s : Segment} {rest : List Segment} (h : Normal (s :: rest)) : Normal rest where
  nonempty := fun hmem => h.nonempty (List.mem_cons_of_mem s hmem)
  apart := h.apart.tail

theorem normal_placeholder {rest : List Segment} (name : String) (span : Span) (h : Normal rest) :
    Normal (.placeholder name span :: rest) where
  nonempty := by simpa using h.nonempty
  apart := by
    cases rest with
    | nil => exact .singleton _
    | cons t rest => exact List.isChain_cons_cons.2 ⟨by simp [isLiteral], h.apart⟩

theorem normal_prepend {segments : List Segment} (c : Char) (h : Normal segments) :
    Normal (prepend c segments) := by
  cases segments with
  | nil => exact ⟨by simp [prepend], .singleton _⟩
  | cons s rest =>
    cases s with
    | literal text =>
      refine ⟨by simpa [prepend] using h.tail.nonempty, ?_⟩
      cases rest with
      | nil => exact .singleton _
      | cons t rest =>
        obtain ⟨hhead, htail⟩ := List.isChain_cons_cons.1 h.apart
        exact List.isChain_cons_cons.2 ⟨fun _ => hhead rfl, htail⟩
    | placeholder name span =>
      refine ⟨by simpa [prepend] using h.nonempty, ?_⟩
      exact List.isChain_cons_cons.2 ⟨fun _ => rfl, h.apart⟩

/-! ## What a scan gives -/

/-- A property of scanned segments: a scan builds them by putting a character or a well-named
placeholder in front. -/
theorem scan_induction {motive : List Segment → Prop} (nil : motive [])
    (character : ∀ c segments, motive segments → motive (prepend c segments))
    (placeholder : ∀ name span segments, isName name = true → motive segments →
      motive (.placeholder (String.ofList name) span :: segments))
    {offset : Nat} {cs : List Char} {segments : List Segment}
    (h : scan offset cs = .ok segments) : motive segments := by
  have hmap {f : List Segment → List Segment} {x : Except PlaceholderFault (List Segment)}
      {segments : List Segment} (hx : x.map f = .ok segments) :
      ∃ rest, x = .ok rest ∧ f rest = segments := by
    cases x with
    | error fault => cases hx
    | ok rest => exact ⟨rest, rfl, by simpa [Except.map] using hx⟩
  induction cs using text_induction generalizing offset segments with
  | nil =>
    rw [scan.eq_1, Except.ok.injEq] at h
    exact h ▸ nil
  | escaped rest ih =>
    rw [scan.eq_2] at h
    obtain ⟨tail, hscan, rfl⟩ := hmap h
    exact character '%' tail (ih hscan)
  | unterminated rest hclose =>
    rw [scan_unterminated offset hclose] at h
    cases h
  | closed name rest hclose ih =>
    rw [scan_closed offset rest hclose] at h
    split at h
    · next hname =>
      obtain ⟨tail, hscan, rfl⟩ := hmap h
      exact placeholder name _ tail hname (ih hscan)
    · cases h
  | copied c rest hc ih =>
    rw [scan_copied offset hc] at h
    obtain ⟨tail, hscan, rfl⟩ := hmap h
    exact character c tail (ih hscan)

theorem normal_scan {offset : Nat} {cs : List Char} {segments : List Segment}
    (h : scan offset cs = .ok segments) : Normal segments :=
  scan_induction normal_nil (fun c _ => normal_prepend c)
    (fun _ span _ _ => normal_placeholder _ span) h

theorem mem_prepend {s : Segment} {c : Char} {segments : List Segment}
    (h : s ∈ prepend c segments) : (∃ text, s = .literal text) ∨ s ∈ segments := by
  unfold prepend at h
  split at h
  · next text rest =>
    rcases List.mem_cons.1 h with hs | hs
    · exact .inl ⟨_, hs⟩
    · exact .inr (List.mem_cons_of_mem _ hs)
  · rcases List.mem_cons.1 h with hs | hs
    · exact .inl ⟨_, hs⟩
    · exact .inr hs

theorem wellNamed_scan {offset : Nat} {cs : List Char} {segments : List Segment}
    (h : scan offset cs = .ok segments) : ∀ s ∈ segments, s.WellNamed := by
  refine scan_induction (motive := fun segments => ∀ s ∈ segments, s.WellNamed) (by simp) ?_ ?_ h
  · intro c segments ih s hs
    rcases mem_prepend hs with ⟨text, rfl⟩ | hs
    · trivial
    · exact ih s hs
  · intro name span segments hname ih s hs
    rcases List.mem_cons.1 hs with rfl | hs
    · change isName (String.ofList name).toList = true
      rwa [String.toList_ofList]
    · exact ih s hs

/-! ## Segments and their atoms -/

def ofAtoms : List Atom → List Segment
  | [] => []
  | .char c :: rest => prepend c (ofAtoms rest)
  | .value name :: rest => .placeholder name default :: ofAtoms rest

theorem foldr_prepend (text : List Char) (segments : List Segment) :
    text.foldr prepend segments = prependText text segments := by
  induction text with
  | nil => simp [prependText]
  | cons c text ih =>
    rw [List.foldr_cons, ih]
    unfold prependText
    cases segments with
    | nil => cases text <;> simp [prepend]
    | cons s rest => cases s <;> cases text <;> simp [prepend]

theorem ofAtoms_append_chars (text : List Char) (rest : List Atom) :
    ofAtoms (text.map .char ++ rest) = prependText text (ofAtoms rest) := by
  rw [← foldr_prepend]
  induction text with
  | nil => rfl
  | cons c text ih => rw [List.map_cons, List.cons_append, ofAtoms, ih, List.foldr_cons]

theorem map_unplaced_prependText (text : List Char) (segments : List Segment) :
    (prependText text segments).map unplaced = prependText text (segments.map unplaced) := by
  unfold prependText
  split
  · rfl
  · cases segments with
    | nil => rfl
    | cons s rest => cases s <;> rfl

theorem map_unplaced_merged (segments : List Segment) :
    (merged segments).map unplaced = ofAtoms (atoms segments) := by
  induction segments with
  | nil => rfl
  | cons s rest ih =>
    cases s with
    | literal text =>
      rw [merged, map_unplaced_prependText, ih, atoms, ofAtoms_append_chars]
    | placeholder name span =>
      rw [merged, List.map_cons, ih, atoms, ofAtoms, unplaced]

theorem Normal.merged_eq {segments : List Segment} (h : Normal segments) :
    merged segments = segments := by
  induction segments with
  | nil => rfl
  | cons s rest ih =>
    cases s with
    | placeholder name span => rw [merged, ih h.tail]
    | literal text =>
      have hne : text ≠ [] := by
        rintro rfl
        exact h.nonempty List.mem_cons_self
      rw [merged, ih h.tail]
      unfold prependText
      cases rest with
      | nil => simp [hne]
      | cons t rest =>
        cases t with
        | placeholder name span => simp [hne]
        | literal behind =>
          have hapart := (List.isChain_cons_cons.1 h.apart).1 rfl
          simp [isLiteral] at hapart

/-- Segments in normal form are determined by their atoms, up to places. -/
theorem Normal.map_unplaced_eq {segments others : List Segment} (h : Normal segments)
    (hatoms : atoms segments = atoms others) :
    segments.map unplaced = (merged others).map unplaced := by
  rw [map_unplaced_merged, ← hatoms, ← map_unplaced_merged, h.merged_eq]

/-! ## Reading what was printed -/

/-- A literal is read back: a doubled percent sign is one sign, and nothing else is one. -/
theorem reading_print_literal (text rest : List Char) :
    reading (print (.literal text) ++ rest) = (reading rest).map (text.map .char ++ ·) := by
  have hprint (text : List Char) :
      print (.literal text) = text.flatMap fun c => if c = '%' then ['%', '%'] else [c] := rfl
  rw [hprint]
  induction text with
  | nil => simp
  | cons c text ih =>
    rw [List.flatMap_cons, List.append_assoc]
    by_cases hc : c = '%'
    · rw [if_pos hc, List.cons_append, List.singleton_append, reading_escaped, ih, hc]
      simp [Function.comp_def]
    · rw [if_neg hc, List.singleton_append, reading_copied fun h => absurd h hc, ih]
      simp [Function.comp_def]

theorem reading_print_placeholder {name : String} (hname : isName name.toList = true) (span : Span)
    (rest : List Char) :
    reading (print (.placeholder name span) ++ rest) = (reading rest).map (.value name :: ·) := by
  have hprint : print (.placeholder name span) ++ rest =
      '%' :: '{' :: (name.toList ++ '}' :: rest) := by
    simp [print]
  rw [hprint, reading_closed rest (marks_not_mem_of_isName hname).1, if_pos hname,
    String.ofList_toList]

theorem reading_flatMap_print {segments : List Segment} (h : ∀ s ∈ segments, s.WellNamed) :
    reading (segments.flatMap print) = some (atoms segments) := by
  induction segments with
  | nil => simp [atoms]
  | cons s rest ih =>
    have hrest := ih fun t ht => h t (List.mem_cons_of_mem s ht)
    rw [List.flatMap_cons]
    cases s with
    | literal text => rw [reading_print_literal, hrest, atoms, Option.map_some]
    | placeholder name span =>
      have hname : isName name.toList = true := h _ List.mem_cons_self
      rw [reading_print_placeholder hname, hrest, atoms, Option.map_some]

theorem fill_atoms_segments {value : String → Option String} {segments : List Segment}
    (h : ∀ key ∈ names segments, (value key).isSome) :
    Atom.fill value (atoms segments) =
      some (segments.flatMap (filled fun key => (value key).getD "")) := by
  induction segments with
  | nil => rfl
  | cons s rest ih =>
    cases s with
    | literal text =>
      rw [atoms, Atom.fill_append, Atom.fill_map_char, ih h]
      rfl
    | placeholder name span =>
      have hrest := ih fun key hkey => h key (List.mem_cons_of_mem name hkey)
      obtain ⟨v, hv⟩ := Option.isSome_iff_exists.1 (h name List.mem_cons_self)
      rw [atoms, Atom.fill, hrest, hv, List.flatMap_cons, filled, hv]
      rfl

end Segment

namespace Template

theorem parse_print (name : String) {segments : List Segment}
    (h : ∀ s ∈ segments, s.WellNamed) :
    ∃ t, parse name (String.ofList (segments.flatMap Segment.print)) = .ok t ∧
      Segment.atoms t.segments = Segment.atoms segments ∧
      t.segments.map Segment.unplaced = (Segment.merged segments).map Segment.unplaced := by
  have hread := Segment.reading_flatMap_print h
  obtain ⟨t, ht⟩ := (exists_parse_iff name (String.ofList (segments.flatMap Segment.print))).2
    (by rw [String.toList_ofList, hread]; rfl)
  have hatoms := reading_of_parse ht
  rw [String.toList_ofList, hread, Option.some.injEq] at hatoms
  exact ⟨t, ht, hatoms.symm, (Segment.normal_scan t.segments_eq).map_unplaced_eq hatoms.symm⟩

/-- Printing and parsing are inverse up to normal form. Every list of segments can be printed and
parsed; this merges its literals, and an expansion copies them and puts in the values. The other way
round, every template is in normal form, and it is printed and parsed without change. -/
theorem parse_print_inverse (name : String) :
    (∀ segments : List Segment, (∀ s ∈ segments, s.WellNamed) →
      ∃ t, parse name (String.ofList (segments.flatMap Segment.print)) = .ok t ∧
        t.segments.map Segment.unplaced = (Segment.merged segments).map Segment.unplaced ∧
        ∀ params : ParameterSet, (∀ key ∈ Segment.names segments, (params.get? key).isSome) →
          t.expand params = .ok (String.ofList
            (segments.flatMap (Segment.filled fun key => (params.get? key).getD "")))) ∧
    ∀ text t, parse name text = .ok t →
      Segment.Normal t.segments ∧
        ∃ u, parse name (String.ofList (t.segments.flatMap Segment.print)) = .ok u ∧
          u.segments.map Segment.unplaced = t.segments.map Segment.unplaced := by
  constructor
  · intro segments hnamed
    obtain ⟨t, ht, hatoms, hmerged⟩ := parse_print name hnamed
    refine ⟨t, ht, hmerged, fun params hkeys => ?_⟩
    rw [expand_eq_ok_iff, hatoms, String.toList_ofList]
    exact Segment.fill_atoms_segments hkeys
  · intro text t _
    have hnormal := Segment.normal_scan t.segments_eq
    obtain ⟨u, hu, -, hmerged⟩ := parse_print name (Segment.wellNamed_scan t.segments_eq)
    exact ⟨hnormal, u, hu, by rw [hmerged, hnormal.merged_eq]⟩

theorem parse_print_braces :
    ∃ t, parse "t" "100%%\x7b%\x7barity\x7d\x7d%%" = .ok t ∧
      t.segments.map Segment.unplaced =
        [.literal "100%\x7b".toList, .placeholder "arity" default, .literal "\x7d%".toList] ∧
      Segment.Normal t.segments ∧ t.expand (.arityOnly "7") = .ok "100%\x7b7\x7d%" := by
  let segments : List Segment := [.literal "100%".toList, .literal [], .literal ['\x7b'],
    .placeholder "arity" default, .literal "\x7d%".toList]
  have hnamed : ∀ s ∈ segments, s.WellNamed := by simp [segments, Segment.WellNamed]; decide
  have htext : String.ofList (segments.flatMap Segment.print) =
      "100%%\x7b%\x7barity\x7d\x7d%%" := by decide
  obtain ⟨t, ht, hmerged, hexpand⟩ := (parse_print_inverse "t").1 segments hnamed
  rw [htext] at ht
  refine ⟨t, ht, hmerged.trans (by decide), ((parse_print_inverse "t").2 _ t ht).1, ?_⟩
  rw [hexpand (.arityOnly "7") (by decide)]
  decide

end Template

end MacroFamilies
