import MacroFamilies.Template.Basic
import Mathlib
/-!
# Reading a text without its places

A scan keeps the place of every placeholder, and no expansion depends on a place. `Segment.reading`
forgets the places and takes the literals apart: what is left of a text is a list of atoms, with one
equation for each way in which a text can start. A text that is cut at a character outside the
syntax of placeholders is read piece by piece.
-/

namespace MacroFamilies

/-- What one part of a template contributes to its expansions. -/
inductive Atom where
  | char (c : Char)
  | value (name : String)
  deriving DecidableEq, Repr

namespace Atom

def names : List Atom → List String
  | [] => []
  | .char _ :: rest => names rest
  | .value name :: rest => name :: names rest

/-- The characters of the atoms, with a value in place of each name; none if a name has no value. -/
def fill (value : String → Option String) : List Atom → Option (List Char)
  | [] => some []
  | .char c :: rest => (fill value rest).map (c :: ·)
  | .value name :: rest => (value name).bind fun v => (fill value rest).map (v.toList ++ ·)

@[simp] theorem names_map_char (cs : List Char) : names (cs.map .char) = [] := by
  induction cs with
  | nil => rfl
  | cons c cs ih => simpa [names] using ih

@[simp] theorem names_append (xs ys : List Atom) : names (xs ++ ys) = names xs ++ names ys := by
  induction xs with
  | nil => rfl
  | cons x xs ih => cases x <;> simp [names, ih]

@[simp] theorem fill_append (value : String → Option String) (xs ys : List Atom) :
    fill value (xs ++ ys) =
      (fill value xs).bind fun left => (fill value ys).map fun right => left ++ right := by
  induction xs with
  | nil => simp [fill]
  | cons x xs ih =>
    cases x with
    | char c => cases h : fill value xs <;> simp [fill, ih, h, Function.comp_def]
    | value name =>
      cases hv : value name <;> cases h : fill value xs <;>
        simp [fill, ih, h, hv, Function.comp_def]

@[simp] theorem fill_map_char (value : String → Option String) (cs : List Char) :
    fill value (cs.map .char) = some cs := by
  induction cs with
  | nil => rfl
  | cons c cs ih => simp [fill, ih]

theorem isSome_fill_iff {value : String → Option String} {atoms : List Atom} :
    (fill value atoms).isSome ↔ ∀ name ∈ names atoms, (value name).isSome := by
  induction atoms with
  | nil => simp [fill, names]
  | cons x atoms ih =>
    cases x with
    | char c => simpa [fill, names] using ih
    | value name => cases hv : value name <;> simp [fill, names, hv, ih]

/-- If no value of one filling is longer than that of another, then the fillings are the same only
if all the values are. -/
theorem fill_injective {v w : String → Option String} {atoms : List Atom} {xs ys : List Char}
    (hxs : fill v atoms = some xs) (hys : fill w atoms = some ys)
    (hle : ∀ name ∈ names atoms, ∀ a b, v name = some a → w name = some b → a.length ≤ b.length) :
    xs.length ≤ ys.length ∧ (xs = ys → ∀ name ∈ names atoms, v name = w name) := by
  induction atoms generalizing xs ys with
  | nil =>
    obtain rfl := Option.some.inj (hxs.symm.trans hys)
    simp [names]
  | cons x atoms ih =>
    cases x with
    | char c =>
      obtain ⟨left, hleft, rfl⟩ := Option.map_eq_some_iff.1 hxs
      obtain ⟨right, hright, rfl⟩ := Option.map_eq_some_iff.1 hys
      have hrest := ih hleft hright hle
      simpa [names] using hrest
    | value name =>
      obtain ⟨a, ha, hxs⟩ := Option.bind_eq_some_iff.1 hxs
      obtain ⟨b, hb, hys⟩ := Option.bind_eq_some_iff.1 hys
      obtain ⟨left, hleft, rfl⟩ := Option.map_eq_some_iff.1 hxs
      obtain ⟨right, hright, rfl⟩ := Option.map_eq_some_iff.1 hys
      have hfirst : a.toList.length ≤ b.toList.length := by
        rw [String.length_toList, String.length_toList]
        exact hle name (by simp [names]) a b ha hb
      obtain ⟨hlength, hrest⟩ := ih hleft hright fun other hother =>
        hle other (by simp [names, hother])
      simp only [List.length_append, names, List.mem_cons, forall_eq_or_imp]
      refine ⟨by omega, fun heq => ?_⟩
      have hsum := congrArg List.length heq
      simp only [List.length_append] at hsum
      obtain ⟨hab, hbehind⟩ := List.append_inj heq (by omega)
      exact ⟨by rw [ha, hb, String.toList_inj.1 hab], hrest hbehind⟩

end Atom

namespace Segment

def atoms : List Segment → List Atom
  | [] => []
  | .literal text :: rest => text.map .char ++ atoms rest
  | .placeholder name _ :: rest => .value name :: atoms rest

@[simp] theorem atoms_prepend (c : Char) (segments : List Segment) :
    atoms (prepend c segments) = .char c :: atoms segments := by
  unfold prepend
  split <;> simp [atoms]

theorem names_eq (segments : List Segment) : names segments = Atom.names (atoms segments) := by
  induction segments with
  | nil => rfl
  | cons s rest ih => cases s <;> simp [names, atoms, Atom.names, ih]

theorem toOption_map {ε α β : Type} (f : α → β) (x : Except ε α) :
    (x.map f).toOption = x.toOption.map f := by
  cases x <;> rfl

theorem toOption_fill (value : String → Option String) (segments : List Segment) :
    (fill value segments).toOption = Atom.fill value (atoms segments) := by
  induction segments with
  | nil => rfl
  | cons s rest ih =>
    cases s with
    | literal text =>
      rw [fill, toOption_map, ih, atoms, Atom.fill_append, Atom.fill_map_char]
      rfl
    | placeholder name span =>
      cases hv : value name with
      | none => simp [fill, atoms, Atom.fill, hv, Except.toOption]
      | some v => simp [fill, atoms, Atom.fill, hv, toOption_map, ih]

/-! ## How a text can start -/

/-- A character that a scan copies where it stands: it neither escapes a percent sign nor opens a
placeholder. -/
def Copied (c : Char) (rest : List Char) : Prop :=
  c = '%' → rest.head? ≠ some '%' ∧ rest.head? ≠ some '{'

theorem scan_copied (offset : Nat) {c : Char} {rest : List Char} (h : Copied c rest) :
    scan offset (c :: rest) = (scan (offset + c.utf8Size) rest).map (prepend c) := by
  apply scan.eq_4
  · rintro tail hc rfl
    exact (h hc).1 rfl
  · rintro tail hc rfl
    exact (h hc).2 rfl

theorem scan_unterminated (offset : Nat) {rest : List Char} (h : '}' ∉ rest) :
    scan offset ('%' :: '{' :: rest) =
      .error (.unterminated ⟨offset, offset + byteLength ('%' :: '{' :: rest)⟩) := by
  have hrest : rest.dropWhile (· != '}') = [] := by
    rw [List.dropWhile_eq_nil_iff]
    intro c hc
    exact bne_iff_ne.2 fun hce => h (hce ▸ hc)
  rw [scan.eq_3]
  split
  · rfl
  · simp_all

theorem scan_closed (offset : Nat) {name : List Char} (tail : List Char) (h : '}' ∉ name) :
    scan offset ('%' :: '{' :: (name ++ '}' :: tail)) =
      if isName name then
        (scan (offset + byteLength name + 3) tail).map
          (.placeholder (String.ofList name) ⟨offset, offset + byteLength name + 3⟩ :: ·)
      else .error (.invalidName (String.ofList name) ⟨offset, offset + byteLength name + 3⟩) := by
  have hname : ∀ c ∈ name, (c != '}') = true := fun c hc =>
    bne_iff_ne.2 fun hce => h (hce ▸ hc)
  have htake : (name ++ '}' :: tail).takeWhile (· != '}') = name := by
    rw [List.takeWhile_append_of_pos hname]
    simp
  have hdrop : (name ++ '}' :: tail).dropWhile (· != '}') = '}' :: tail := by
    rw [List.dropWhile_append_of_pos hname]
    simp
  rw [scan.eq_3]
  split
  · simp_all
  · next head rest heq =>
    rw [hdrop] at heq
    obtain ⟨-, rfl⟩ := List.cons.inj heq
    simp only [htake]

/-- Induction over a text along its scan. -/
@[elab_as_elim]
theorem text_induction {motive : List Char → Prop} (nil : motive [])
    (escaped : ∀ rest, motive rest → motive ('%' :: '%' :: rest))
    (unterminated : ∀ rest, '}' ∉ rest → motive ('%' :: '{' :: rest))
    (closed : ∀ name tail, '}' ∉ name → motive tail →
      motive ('%' :: '{' :: (name ++ '}' :: tail)))
    (copied : ∀ c rest, Copied c rest → motive rest → motive (c :: rest)) (cs : List Char) :
    motive cs := by
  induction hn : cs.length using Nat.strongRecOn generalizing cs with
  | ind n ih =>
    subst hn
    cases cs with
    | nil => exact nil
    | cons c rest =>
      by_cases hc : Copied c rest
      · exact copied c rest hc (ih _ (by simp) rest rfl)
      · obtain ⟨rfl, hrest⟩ : c = '%' ∧ (rest.head? = some '%' ∨ rest.head? = some '{') := by
          simpa only [Copied, ne_eq, Classical.not_imp, not_and_or, not_not] using hc
        rcases hrest with hrest | hrest
        · obtain ⟨tail, rfl⟩ := List.head?_eq_some_iff.1 hrest
          exact escaped tail (ih _ (by simp only [List.length_cons]; omega) tail rfl)
        · obtain ⟨tail, rfl⟩ := List.head?_eq_some_iff.1 hrest
          by_cases hclose : '}' ∈ tail
          · obtain ⟨name, after, rfl, hname⟩ := List.eq_append_cons_of_mem hclose
            have hlength : after.length < ('%' :: '{' :: (name ++ '}' :: after)).length := by
              simp only [List.length_cons, List.length_append]
              omega
            exact closed name after hname (ih _ hlength after rfl)
          · exact unterminated tail hclose

/-! ## Readings -/

/-- The atoms of a text; none if a placeholder of it is malformed. -/
def reading (cs : List Char) : Option (List Atom) := (scan 0 cs).toOption.map atoms

/-- Where a text starts makes no difference to its atoms. -/
theorem atoms_scan (offset : Nat) (cs : List Char) :
    (scan offset cs).toOption.map atoms = reading cs := by
  suffices h : ∀ other, (scan offset cs).toOption.map atoms =
      (scan other cs).toOption.map atoms from h 0
  induction cs using text_induction generalizing offset with
  | nil => simp [scan]
  | escaped rest ih =>
    intro other
    have h := congrArg (Option.map (Atom.char '%' :: ·)) (ih (offset + 2) (other + 2))
    simpa [scan, toOption_map, Function.comp_def] using h
  | unterminated rest h =>
    intro other
    rw [scan_unterminated offset h, scan_unterminated other h]
    rfl
  | closed name tail h ih =>
    intro other
    rw [scan_closed offset tail h, scan_closed other tail h]
    split
    · have h := congrArg (Option.map (Atom.value (String.ofList name) :: ·))
        (ih (offset + byteLength name + 3) (other + byteLength name + 3))
      simpa [toOption_map, atoms, Function.comp_def] using h
    · rfl
  | copied c rest h ih =>
    intro other
    rw [scan_copied offset h, scan_copied other h]
    have h := congrArg (Option.map (Atom.char c :: ·))
      (ih (offset + c.utf8Size) (other + c.utf8Size))
    simpa [toOption_map, Function.comp_def] using h

@[simp] theorem reading_nil : reading [] = some [] := by
  simp [reading, scan, Except.toOption, atoms]

@[simp] theorem reading_escaped (rest : List Char) :
    reading ('%' :: '%' :: rest) = (reading rest).map (.char '%' :: ·) := by
  rw [← atoms_scan (0 + 2) rest, reading, scan.eq_2]
  simp [toOption_map, Function.comp_def]

theorem reading_unterminated {rest : List Char} (h : '}' ∉ rest) :
    reading ('%' :: '{' :: rest) = none := by
  rw [reading, scan_unterminated 0 h]
  rfl

theorem reading_closed {name : List Char} (tail : List Char) (h : '}' ∉ name) :
    reading ('%' :: '{' :: (name ++ '}' :: tail)) =
      if isName name then (reading tail).map (.value (String.ofList name) :: ·) else none := by
  rw [reading, scan_closed 0 tail h]
  split
  · rw [← atoms_scan (0 + byteLength name + 3) tail]
    simp [toOption_map, Function.comp_def, atoms]
  · rfl

theorem reading_copied {c : Char} {rest : List Char} (h : Copied c rest) :
    reading (c :: rest) = (reading rest).map (.char c :: ·) := by
  rw [← atoms_scan (0 + c.utf8Size) rest, reading, scan_copied 0 h]
  simp [toOption_map, Function.comp_def]

theorem reading_append_plain {plain : List Char} (h : '%' ∉ plain) (rest : List Char) :
    reading (plain ++ rest) = (reading rest).map (plain.map .char ++ ·) := by
  induction plain with
  | nil => simp
  | cons c plain ih =>
    simp only [List.mem_cons, not_or] at h
    rw [List.cons_append, reading_copied (fun hc => absurd hc.symm h.1), ih h.2]
    simp [Function.comp_def]

theorem reading_plain {plain : List Char} (h : '%' ∉ plain) :
    reading plain = some (plain.map .char) := by
  simpa using reading_append_plain h []

theorem marks_not_mem_of_isName {name : List Char} (h : isName name = true) :
    '}' ∉ name ∧ '%' ∉ name := by
  simp only [isName, Bool.and_eq_true, List.all_eq_true] at h
  exact ⟨fun hc => absurd (h.2 _ hc) (by decide), fun hc => absurd (h.2 _ hc) (by decide)⟩

theorem reading_placeholder {name : List Char} (h : isName name = true) (rest : List Char) :
    reading ('%' :: '{' :: (name ++ '}' :: rest)) =
      (reading rest).map (.value (String.ofList name) :: ·) := by
  rw [reading_closed rest (marks_not_mem_of_isName h).1, if_pos h]

theorem reading_between {before name after : List Char} (hbefore : '%' ∉ before)
    (hname : isName name = true) (hafter : '%' ∉ after) :
    reading (before ++ '%' :: '{' :: (name ++ '}' :: after)) =
      some (before.map .char ++ .value (String.ofList name) :: after.map .char) := by
  rw [reading_append_plain hbefore, reading_placeholder hname, reading_plain hafter]
  rfl

/-- A character that no placeholder contains and that does not follow a percent sign to form
anything. -/
def isSeparator (c : Char) : Bool := !isNameChar c && c != '%' && c != '{' && c != '}'

private theorem isName_append_cons {c : Char} (hc : isNameChar c = false) (xs ys : List Char) :
    isName (xs ++ c :: ys) = false := by
  simp [isName, hc]

theorem reading_append_separator {c : Char} (hc : isSeparator c = true)
    (before after : List Char) :
    reading (before ++ c :: after) =
      (reading before).bind fun xs => (reading after).map fun ys => xs ++ .char c :: ys := by
  obtain ⟨hname, hpercent, hopen, hclose⟩ :
      isNameChar c = false ∧ c ≠ '%' ∧ c ≠ '{' ∧ c ≠ '}' := by
    simpa [isSeparator, and_assoc] using hc
  induction before using text_induction with
  | nil => simp [reading_copied (fun h => absurd h hpercent : Copied c after)]
  | escaped rest ih =>
    rw [List.cons_append, List.cons_append, reading_escaped, reading_escaped, ih]
    cases reading rest <;> simp [Function.comp_def]
  | unterminated rest h =>
    rw [reading_unterminated h, List.cons_append, List.cons_append, Option.bind_none]
    by_cases hafter : '}' ∈ after
    · obtain ⟨name, tail, rfl, hne⟩ := List.eq_append_cons_of_mem hafter
      have hclosed : '}' ∉ rest ++ c :: name := by simp [h, hne, hclose.symm]
      have hread := reading_closed tail hclosed
      rw [isName_append_cons hname] at hread
      simpa using hread
    · exact reading_unterminated (by simp [h, hafter, hclose.symm])
  | closed name tail h ih =>
    simp only [List.cons_append, List.append_assoc]
    rw [reading_closed _ h, reading_closed _ h]
    split
    · rw [ih]
      cases reading tail <;> simp [Function.comp_def]
    · rfl
  | copied d rest h ih =>
    have hcopied : Copied d (rest ++ c :: after) := by
      intro hd
      cases rest with
      | nil => simp [hpercent, hopen]
      | cons e rest => simpa using h hd
    rw [List.cons_append, reading_copied hcopied, reading_copied h, ih]
    cases reading rest <;> simp [Function.comp_def]

end Segment

/-! ## Templates -/

namespace Template

theorem exists_parse_iff (name text : String) :
    (∃ t, parse name text = .ok t) ↔ (Segment.reading text.toList).isSome := by
  unfold parse Segment.reading
  split
  · next segments h => simp [h, Except.toOption]
  · next fault h => simp [h, Except.toOption]

theorem name_text_of_parse {name text : String} {t : Template} (h : parse name text = .ok t) :
    t.name = name ∧ t.text = text := by
  unfold parse at h
  split at h
  · cases h
    exact ⟨rfl, rfl⟩
  · cases h

theorem reading_text (t : Template) :
    Segment.reading t.text.toList = some (Segment.atoms t.segments) := by
  rw [Segment.reading, t.segments_eq]
  rfl

theorem reading_of_parse {name text : String} {t : Template} (h : parse name text = .ok t) :
    Segment.reading text.toList = some (Segment.atoms t.segments) := by
  rw [← (name_text_of_parse h).2]
  exact t.reading_text

theorem placeholders_eq (t : Template) :
    t.placeholders = Atom.names (Segment.atoms t.segments) :=
  Segment.names_eq t.segments

theorem expand_eq_ok_iff (t : Template) (params : ParameterSet) (text : String) :
    t.expand params = .ok text ↔
      Atom.fill params.get? (Segment.atoms t.segments) = some text.toList := by
  rw [← Segment.toOption_fill]
  unfold expand
  cases h : Segment.fill params.get? t.segments with
  | error u => simp [Except.toOption]
  | ok cs =>
    simp only [Except.toOption, Except.ok.injEq, Option.some.injEq]
    constructor
    · rintro rfl
      simp
    · rintro rfl
      simp

theorem expand_append_separator {t : Template} {c : Char} (hc : Segment.isSeparator c = true)
    {before after : List Char} (htext : t.text.toList = before ++ c :: after)
    {params : ParameterSet} {text : String} (h : t.expand params = .ok text) :
    ∃ atoms left right, Segment.reading after = some atoms ∧
      Atom.fill params.get? atoms = some right ∧ text.toList = left ++ c :: right := by
  have hread := t.reading_text
  rw [htext, Segment.reading_append_separator hc] at hread
  obtain ⟨xs, -, hread⟩ := Option.bind_eq_some_iff.1 hread
  obtain ⟨ys, hys, hatoms⟩ := Option.map_eq_some_iff.1 hread
  rw [expand_eq_ok_iff, ← hatoms, Atom.fill_append] at h
  obtain ⟨left, -, h⟩ := Option.bind_eq_some_iff.1 h
  obtain ⟨rest, hrest, hleft⟩ := Option.map_eq_some_iff.1 h
  obtain ⟨right, hright, rfl⟩ := Option.map_eq_some_iff.1 hrest
  exact ⟨ys, left, right, hys, hright, hleft.symm⟩

end Template

end MacroFamilies
