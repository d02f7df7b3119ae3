import MacroFamilies.Proofs.Template.Cuts
import MacroFamilies.Proofs.Template.PercentRuns
/-!
# What an error points at

Both kinds of template errors carry a range of bytes. A text that is no template is reported at its
leftmost malformed placeholder, which is where the part of it that can be read ends; an expansion is
reported at the first placeholder without a value. The main statement says which part of the text
these ranges mark.
-/

namespace MacroFamilies

/-! ## Ranges of bytes -/

/-- A range that starts and ends between characters of a text, and whose bytes are those of the given
part. -/
structure Span.Marks (span : Span) (text part : String) : Prop where
  start_valid : String.Pos.Raw.IsValid text ⟨span.start⟩
  stop_valid : String.Pos.Raw.IsValid text ⟨span.stop⟩
  bytes_eq : text.toUTF8.extract span.start span.stop = part.toUTF8

theorem utf8ByteSize_ofList (cs : List Char) :
    (String.ofList cs).utf8ByteSize = byteLength cs := by
  induction cs with
  | nil => rfl
  | cons c cs ih =>
    rw [← List.singleton_append, String.ofList_append, String.utf8ByteSize_append, ih,
      List.singleton_append, byteLength]
    simp

theorem size_toUTF8_ofList (cs : List Char) : (String.ofList cs).toUTF8.size = byteLength cs := by
  rw [String.toUTF8_eq_toByteArray, String.size_toByteArray, utf8ByteSize_ofList]

theorem isValid_byteLength (before after : List Char) :
    String.Pos.Raw.IsValid (String.ofList (before ++ after)) ⟨byteLength before⟩ := by
  rw [String.Pos.Raw.isValid_ofList]
  refine ⟨before.length, ?_⟩
  rw [List.take_left, utf8ByteSize_ofList]

theorem extract_middle (before part after : ByteArray) :
    (before ++ part ++ after).extract before.size (before.size + part.size) = part := by
  calc (before ++ part ++ after).extract before.size (before.size + part.size)
      = (before ++ (part ++ after)).extract (before.size + 0) (before.size + part.size) := by
        rw [ByteArray.append_assoc, Nat.add_zero]
    _ = (part ++ after).extract 0 part.size := ByteArray.extract_append_size_add
    _ = part := ByteArray.extract_append_eq_left rfl

theorem Span.marks_of_eq {text : String} {span : Span} (before part after : List Char)
    (h : text.toList = before ++ part ++ after) (hstart : span.start = byteLength before)
    (hstop : span.stop = byteLength before + byteLength part) :
    span.Marks text (String.ofList part) := by
  have htext : text = String.ofList (before ++ part ++ after) := by rw [← h, String.ofList_toList]
  refine ⟨?_, ?_, ?_⟩
  · rw [hstart, htext, List.append_assoc]
    exact isValid_byteLength _ _
  · rw [hstop, htext, ← byteLength_append]
    exact isValid_byteLength _ _
  · rw [hstart, hstop, htext, String.ofList_append, String.ofList_append, ← size_toUTF8_ofList,
      ← size_toUTF8_ofList, String.toUTF8_eq_toByteArray, String.toByteArray_append,
      String.toByteArray_append]
    exact extract_middle _ _ _

/-! ## Malformed placeholders -/

/-- Behind `before`, a percent sign that no other one escapes stands in front of an opening brace. -/
structure Opening (text before after : List Char) : Prop where
  text_eq : text = before ++ '%' :: '{' :: after
  unescaped : Unescaped before

def ClosesName (after : List Char) : Prop :=
  ∃ name tail, after = name ++ '}' :: tail ∧ Segment.isName name = true

/-- An opening that no name in braces follows. -/
structure Malformed (text before after : List Char) : Prop extends Opening text before after where
  not_closed : ¬ ClosesName after

/-- A name is closed in front of the next percent sign. -/
theorem ClosesName.of_append {after rest : List Char} (h : ClosesName (after ++ '%' :: rest)) :
    ClosesName after := by
  obtain ⟨name, tail, heq, hname⟩ := h
  have hclosed : '%' ∉ name ++ ['}'] := by
    simpa using (Segment.marks_not_mem_of_isName hname).2
  have hsplit : after ++ '%' :: rest = (name ++ ['}']) ++ tail := by simpa using heq
  rcases List.append_eq_append_iff.1 hsplit with ⟨middle, hmiddle, htail⟩ | ⟨middle, rfl, -⟩
  · cases middle with
    | nil => exact ⟨name, [], by simpa using hmiddle.symm, hname⟩
    | cons c middle =>
      obtain ⟨rfl, -⟩ := List.cons.inj htail
      exact absurd (by simp [hmiddle]) hclosed
  · exact ⟨name, middle, by simp, hname⟩

theorem runsClosed_iff {text : List Char} :
    RunsClosed text ↔ ∀ before after, Opening text before after → ClosesName after := by
  constructor
  · intro h before after hopening
    obtain ⟨start, hstart, hlast⟩ := exists_trailingSigns before
    refine h start (trailingSigns before + 1) after ?_ hlast ?_
    · rw [List.replicate_succ', ← List.append_assoc, ← hstart, hopening.text_eq]
      simp
    · have heven := hopening.unescaped
      unfold Unescaped at heven
      omega
  · intro h start count after htext hlast hodd
    obtain ⟨pairs, rfl⟩ : ∃ pairs, count = 2 * pairs + 1 := ⟨count / 2, by omega⟩
    refine h (start ++ List.replicate (2 * pairs) '%') after ⟨?_, ?_⟩
    · rw [htext, List.replicate_succ']
      simp
    · rw [Unescaped, trailingSigns_append_replicate, trailingSigns_eq_zero hlast]
      omega

/-- A malformed placeholder with none to the left of it. -/
structure LeftmostMalformed (text before after : List Char) : Prop
    extends Malformed text before after where
  leftmost : ∀ earlier behind, Malformed text earlier behind → before.length ≤ earlier.length

theorem exists_leftmostMalformed {text : List Char} (h : ¬ RunsClosed text) :
    ∃ before after, LeftmostMalformed text before after := by
  classical
  have hexists : ∃ n before after, Malformed text before after ∧ before.length = n := by
    simp only [runsClosed_iff, not_forall] at h
    obtain ⟨before, after, hopening, hopen⟩ := h
    exact ⟨_, before, after, ⟨hopening, hopen⟩, rfl⟩
  obtain ⟨before, after, hmalformed, hlength⟩ := Nat.find_spec hexists
  refine ⟨before, after, hmalformed, fun earlier behind hearlier => ?_⟩
  rw [hlength]
  exact Nat.find_min' hexists ⟨earlier, behind, hearlier, rfl⟩

namespace LeftmostMalformed

variable {text before after : List Char}

theorem runsClosed (h : LeftmostMalformed text before after) : RunsClosed before := by
  rw [runsClosed_iff]
  intro earlier behind hopening
  by_contra hopen
  have hmalformed : Malformed text earlier (behind ++ '%' :: '{' :: after) := by
    refine ⟨⟨?_, hopening.unescaped⟩, fun hclosed => hopen hclosed.of_append⟩
    rw [h.text_eq, hopening.text_eq]
    simp
  have hle := h.leftmost _ _ hmalformed
  have hlength := congrArg List.length hopening.text_eq
  simp only [List.length_append, List.length_cons] at hlength
  omega

theorem scan_eq (h : LeftmostMalformed text before after) :
    ('}' ∉ after ∧ Segment.scan 0 text = .error (.unterminated
        ⟨byteLength before, byteLength before + byteLength ('%' :: '{' :: after)⟩)) ∨
      ∃ name tail, '}' ∉ name ∧ after = name ++ '}' :: tail ∧
        Segment.scan 0 text = .error (.invalidName (String.ofList name)
          ⟨byteLength before, byteLength before + byteLength name + 3⟩) := by
  obtain ⟨segments, hscan⟩ : ∃ segments, Segment.scan 0 before = .ok segments := by
    have hread := (reading_of_runsClosed h.runsClosed).1
    cases hscan : Segment.scan 0 before with
    | error fault => simp [Segment.reading, hscan, Except.toOption] at hread
    | ok segments => exact ⟨segments, rfl⟩
  have htext := Segment.scan_append h.unescaped hscan ('%' :: '{' :: after)
  rw [← h.text_eq, Nat.zero_add] at htext
  by_cases hclose : '}' ∈ after
  · obtain ⟨name, tail, rfl, hname⟩ := List.eq_append_cons_of_mem hclose
    have hinvalid : ¬ Segment.isName name = true := fun hvalid =>
      h.not_closed ⟨name, tail, rfl, hvalid⟩
    rw [Segment.scan_closed _ tail hname, if_neg hinvalid] at htext
    exact .inr ⟨name, tail, hname, rfl, htext⟩
  · rw [Segment.scan_unterminated _ hclose] at htext
    exact .inl ⟨hclose, htext⟩

end LeftmostMalformed

/-! ## Placeholders without a value -/

namespace Segment

theorem names_append (front back : List Segment) :
    names (front ++ back) = names front ++ names back := by
  induction front with
  | nil => rfl
  | cons s front ih => cases s <;> simp [names, ih]

theorem exists_of_names_append {segments : List Segment} {name : String} {left right : List String}
    (h : names segments = left ++ name :: right) :
    ∃ front span back, segments = front ++ .placeholder name span :: back ∧ names front = left ∧
      names back = right := by
  induction segments generalizing left with
  | nil => simp [names] at h
  | cons s rest ih =>
    cases s with
    | literal text =>
      obtain ⟨front, span, back, rfl, hfront, hback⟩ := ih h
      exact ⟨.literal text :: front, span, back, rfl, hfront, hback⟩
    | placeholder other span =>
      cases left with
      | nil =>
        obtain ⟨rfl, rfl⟩ := List.cons.inj h
        exact ⟨[], span, rest, rfl, rfl, rfl⟩
      | cons first left =>
        obtain ⟨rfl, hrest⟩ := List.cons.inj h
        obtain ⟨front, place, back, rfl, rfl, hback⟩ := ih hrest
        exact ⟨.placeholder other span :: front, place, back, rfl, rfl, hback⟩

theorem fill_eq_error {value : String → Option String} {segments : List Segment} {u : Unfilled}
    (h : fill value segments = .error u) :
    ∃ front back, segments = front ++ .placeholder u.name u.span :: back ∧ value u.name = none ∧
      ∀ key ∈ names front, (value key).isSome := by
  have hbehind {f : List Char → List Char} {rest : List Segment}
      (h : (fill value rest).map f = .error u) : fill value rest = .error u := by
    cases hrest : fill value rest <;> simp_all [Except.map]
  induction segments with
  | nil => cases h
  | cons s rest ih =>
    cases s with
    | literal text =>
      obtain ⟨front, back, rfl, hnone, hfront⟩ := ih (hbehind h)
      exact ⟨.literal text :: front, back, rfl, hnone, hfront⟩
    | placeholder name span =>
      rw [fill] at h
      cases hvalue : value name with
      | none =>
        obtain rfl : ⟨name, span⟩ = u := by simpa [hvalue] using h
        exact ⟨[], rest, rfl, hvalue, by simp [names]⟩
      | some v =>
        rw [hvalue] at h
        obtain ⟨front, back, rfl, hnone, hfront⟩ := ih (hbehind h)
        refine ⟨.placeholder name span :: front, back, rfl, hnone, ?_⟩
        simpa [names, hvalue] using hfront

end Segment

namespace Template

theorem parse_eq_error_iff {name text : String} {d : Diagnostic} :
    parse name text = .error d ↔
      ∃ fault, Segment.scan 0 text.toList = .error fault ∧ fault.diagnostic ⟨name, text⟩ = d := by
  unfold parse
  split
  · next segments h => simp [h]
  · next fault h => simp [h]

theorem parse_of_scan (name : String) {text : String} {segments : List Segment}
    (h : Segment.scan 0 text.toList = .ok segments) :
    parse name text = .ok ⟨name, text, segments, h⟩ := by
  unfold parse
  split
  · next others hothers =>
    obtain rfl : others = segments := Except.ok.inj (hothers.symm.trans h)
    rfl
  · next fault hfault => simp [hfault] at h

theorem expand_eq_error_iff {t : Template} {params : ParameterSet} {d : Diagnostic} :
    t.expand params = .error d ↔
      ∃ u, Segment.fill params.get? t.segments = .error u ∧ t.unfilled params.keys u = d := by
  unfold expand
  cases Segment.fill params.get? t.segments with
  | error u => simp
  | ok cs => simp

theorem exists_expand_error_iff (t : Template) (params : ParameterSet) :
    (∃ d, t.expand params = .error d) ↔ ∃ key ∈ t.placeholders, params.get? key = none := by
  have hfill := Segment.toOption_fill params.get? t.segments
  have hsome : ((Segment.fill params.get? t.segments).toOption).isSome ↔
      ∀ key ∈ t.placeholders, (params.get? key).isSome := by
    rw [hfill, Atom.isSome_fill_iff, t.placeholders_eq]
  simp only [expand_eq_error_iff]
  cases h : Segment.fill params.get? t.segments with
  | error u => simpa [h, Except.toOption] using hsome
  | ok text => simpa [h, Except.toOption, Option.isSome_iff_ne_none] using hsome

/-- A template is cut around any of its placeholders into two parts with the placeholders in front
of it and behind it. -/
theorem exists_place {t : Template} {left right : List String} {name : String}
    (h : t.placeholders = left ++ name :: right) :
    ∃ before after xs ys, Opening t.text.toList before (name.toList ++ '}' :: after) ∧
      Segment.reading before = some xs ∧ Atom.names xs = left ∧
      Segment.reading after = some ys ∧ Atom.names ys = right := by
  obtain ⟨front, span, back, hsegments, rfl, rfl⟩ := Segment.exists_of_names_append h
  obtain ⟨before, after, cut⟩ := Segment.exists_cutAt (hsegments ▸ t.segments_eq)
  have hbefore : Segment.reading before = some (Segment.atoms front) := by
    rw [Segment.reading, cut.scan_before]
    rfl
  have hafter : Segment.reading after = some (Segment.atoms back) := by
    rw [← Segment.atoms_scan span.stop, cut.scan_after]
    rfl
  exact ⟨before, after, _, _, ⟨cut.text_eq, cut.unescaped⟩, hbefore,
    (Segment.names_eq front).symm, hafter, (Segment.names_eq back).symm⟩

/-! ## What is marked -/

/-- The error is about the leftmost malformed placeholder of the text: it marks the rest of the text
if no brace closes it, and all from the percent sign to the brace otherwise. -/
def MarksMalformed (label text : String) (d : Diagnostic) : Prop :=
  ∃ before after span part, LeftmostMalformed text.toList before after ∧
    d.kind = .template ∧ d.source = some ⟨label, text⟩ ∧ d.span = some span ∧
    span.start = byteLength before ∧ span.start < span.stop ∧ span.Marks text part ∧
    (('}' ∉ after ∧ d.message = "unterminated placeholder" ∧
        part = "%\x7b" ++ String.ofList after) ∨
      ∃ name tail, '}' ∉ name.toList ∧ after = name.toList ++ '}' :: tail ∧
        d.message = "invalid placeholder name '" ++ name ++ "'" ∧
        part = "%\x7b" ++ name ++ "\x7d")

/-- The error is about the first placeholder of the template without a value, and marks it. -/
def MarksUnfilled (t : Template) (params : ParameterSet) (d : Diagnostic) : Prop :=
  ∃ front key back before after span, t.placeholders = front ++ key :: back ∧
    (∀ other ∈ front, (params.get? other).isSome) ∧ params.get? key = none ∧
    Opening t.text.toList before (key.toList ++ '}' :: after) ∧
    (∃ u, parse t.name (String.ofList before) = .ok u ∧ u.placeholders = front) ∧
    d.kind = .template ∧ d.message = "placeholder '" ++ key ++ "' has no value" ∧
    d.source = some ⟨t.name, t.text⟩ ∧ d.span = some span ∧ span.start = byteLength before ∧
    span.Marks t.text ("%\x7b" ++ key ++ "\x7d")

theorem marksMalformed_of_parse {label text : String} {d : Diagnostic}
    (h : parse label text = .error d) : MarksMalformed label text d := by
  obtain ⟨fault, hfault, rfl⟩ := parse_eq_error_iff.1 h
  have hruns : ¬ RunsClosed text.toList := by
    intro hclosed
    have hread := (reading_of_runsClosed hclosed).1
    simp [Segment.reading, hfault, Except.toOption] at hread
  obtain ⟨before, after, hleft⟩ := exists_leftmostMalformed hruns
  rcases hleft.scan_eq with ⟨hclose, hscan⟩ | ⟨name, tail, hclose, rfl, hscan⟩
  · obtain rfl := Except.error.inj (hfault.symm.trans hscan)
    have hpart : String.ofList ('%' :: '{' :: after) = "%\x7b" ++ String.ofList after := by
      rw [← String.toList_inj]
      simp
    have hsize : 0 < byteLength ('%' :: '{' :: after) := by
      have hsign := Char.utf8Size_pos '%'
      rw [byteLength]
      omega
    refine ⟨before, after, _, _, hleft, rfl, rfl, rfl, rfl, Nat.lt_add_of_pos_right hsize, ?_,
      .inl ⟨hclose, rfl, hpart⟩⟩
    exact Span.marks_of_eq before _ [] (by rw [hleft.text_eq]; simp) rfl rfl
  · obtain rfl := Except.error.inj (hfault.symm.trans hscan)
    have hpart : String.ofList ('%' :: '{' :: (name ++ ['}'])) =
        "%\x7b" ++ String.ofList name ++ "\x7d" := by
      rw [← String.toList_inj]
      simp
    have hsize := byteLength_closed name []
    refine ⟨before, _, _, _, hleft, rfl, rfl, rfl, rfl, ?_, ?_,
      .inr ⟨String.ofList name, tail, ?_, ?_, rfl, hpart⟩⟩
    · show byteLength before < byteLength before + byteLength name + 3
      omega
    · refine Span.marks_of_eq before _ tail (by rw [hleft.text_eq]; simp) rfl ?_
      rw [hsize]
      rfl
    · rwa [String.toList_ofList]
    · rw [String.toList_ofList]

theorem marksUnfilled_of_expand {t : Template} {params : ParameterSet} {d : Diagnostic}
    (h : t.expand params = .error d) : MarksUnfilled t params d := by
  obtain ⟨u, hu, rfl⟩ := expand_eq_error_iff.1 h
  obtain ⟨front, back, hsegments, hnone, hfront⟩ := Segment.fill_eq_error hu
  obtain ⟨before, after, cut⟩ := Segment.exists_cutAt (hsegments ▸ t.segments_eq)
  have hnames : t.placeholders = Segment.names front ++ u.name :: Segment.names back := by
    rw [placeholders, hsegments, Segment.names_append]
    rfl
  have hbefore : parse t.name (String.ofList before) = .ok ⟨t.name, String.ofList before, front, _⟩ :=
    parse_of_scan t.name (by rw [String.toList_ofList]; exact cut.scan_before)
  have hpart : String.ofList ('%' :: '{' :: (u.name.toList ++ ['}'])) =
      "%\x7b" ++ u.name ++ "\x7d" := by
    rw [← String.toList_inj]
    simp
  have hsize := byteLength_closed u.name.toList []
  refine ⟨_, u.name, _, before, after, u.span, hnames, hfront, hnone, ⟨cut.text_eq, cut.unescaped⟩,
    ⟨_, hbefore, rfl⟩, rfl, rfl, rfl, rfl, by rw [cut.start_eq, Nat.zero_add], ?_⟩
  rw [← hpart]
  refine Span.marks_of_eq before _ after (by rw [cut.text_eq]; simp)
    (by rw [cut.start_eq, Nat.zero_add]) ?_
  rw [cut.stop_eq, hsize, byteLength]
  omega

/-- Every error of a template marks the placeholder that it is about. -/
theorem errors_point_at_placeholders (label text : String) :
    (∀ d, parse label text = .error d → MarksMalformed label text d) ∧
      ∀ t, parse label text = .ok t → t.name = label ∧ t.text = text ∧
        ∀ params : ParameterSet,
          ((∃ d, t.expand params = .error d) ↔ ∃ key ∈ t.placeholders, params.get? key = none) ∧
            ∀ d, t.expand params = .error d → MarksUnfilled t params d := by
  refine ⟨fun d h => marksMalformed_of_parse h, fun t ht => ?_⟩
  obtain ⟨hname, htext⟩ := name_text_of_parse ht
  refine ⟨hname, htext, fun params => ⟨exists_expand_error_iff t params, fun d h => ?_⟩⟩
  exact marksUnfilled_of_expand h

def accented : Template where
  name := "t"
  text := "é%\x7barity\x7d%\x7bnope\x7d"
  segments := [.literal ['é'], .placeholder "arity" ⟨2, 10⟩, .placeholder "nope" ⟨10, 17⟩]
  segments_eq := by cbv

theorem errors_point_behind_two_bytes :
    ∃ rejected unfilled, parse "t" "é%\x7ba b\x7d" = .error rejected ∧
      rejected.span = some ⟨2, 8⟩ ∧ MarksMalformed "t" "é%\x7ba b\x7d" rejected ∧
      parse "t" accented.text = .ok accented ∧
      accented.expand (.arityOnly "7") = .error unfilled ∧ unfilled.span = some ⟨10, 17⟩ ∧
      MarksUnfilled accented (.arityOnly "7") unfilled := by
  have hfault : Segment.scan 0 "é%\x7ba b\x7d".toList = .error (.invalidName "a b" ⟨2, 8⟩) := by
    decide +kernel
  have hrejected : parse "t" "é%\x7ba b\x7d" = .error _ := parse_eq_error_iff.2 ⟨_, hfault, rfl⟩
  have haccented := parse_of_scan "t" accented.segments_eq
  have hfill : Segment.fill (ParameterSet.arityOnly "7").get? accented.segments =
      .error ⟨"nope", ⟨10, 17⟩⟩ := by decide
  have hunfilled := expand_eq_error_iff.2 ⟨_, hfill, rfl⟩
  obtain ⟨hmalformed, -⟩ := errors_point_at_placeholders "t" "é%\x7ba b\x7d"
  obtain ⟨-, hparsed⟩ := errors_point_at_placeholders "t" accented.text
  obtain ⟨-, -, hexpand⟩ := hparsed accented haccented
  exact ⟨_, _, hrejected, rfl, hmalformed _ hrejected, haccented, hunfilled, rfl,
    (hexpand (.arityOnly "7")).2 _ hunfilled⟩

end Template

end MacroFamilies
