import MacroFamilies.Emission.Dispatch
import MacroFamilies.Proofs.ParameterSet.Entries
import MacroFamilies.Proofs.Template.Separators
/-!
# Family lines made of identifiers

A family is usually named by identifiers: a stem, the place of the arity and an ending, with
identifiers as fixed parameters. Such a line is read as a family, and the family spells its names
and lists in the expected way.
-/

namespace MacroFamilies

/-- The name of a family of macros, without the arity: identifier text around its place. -/
structure FamilyName where
  stem : String
  ending : String
  stem_ne_empty : stem ≠ ""
  stem_chars : ∀ c ∈ stem.toList, Segment.isNameChar c = true
  ending_chars : ∀ c ∈ ending.toList, Segment.isNameChar c = true

structure FamilyLine extends FamilyName where
  fixed : List String
  fixed_ne_nil : fixed ≠ []
  fixed_names : ∀ p ∈ fixed, Segment.isName p.toList = true

namespace FamilyName

def marked (f : FamilyName) : String := f.stem ++ "%\x7barity\x7d" ++ f.ending

def base (f : FamilyName) : String := f.stem ++ f.ending

def spelled (f : FamilyName) (n : Nat) : String := f.stem ++ "_" ++ toString n ++ f.ending

/-- The names of all arities from the largest down, each followed by a marker. -/
def descending (f : FamilyName) (max : Nat) (marker : String) : List String :=
  (List.range (max + 1)).reverse.flatMap fun n => [f.spelled n, marker]

end FamilyName

namespace FamilyLine

/-- The parameters of the family, with the place of the arity's arguments. -/
def params (l : FamilyLine) : String := "(" ++ commaList l.fixed ++ ", %\x7bargs\x7d)"

def text (l : FamilyLine) : String := l.marked ++ l.params

/-- The entries of the selector: the fixed parameters, a type and a name for each parameter of the
largest arity, the selected entry and the rest. -/
def selectorEntries (l : FamilyLine) (max : Nat) : List String :=
  l.fixed ++ (List.range max).flatMap (fun i => [Parameter.type i, Parameter.name i]) ++
    ["MACRO", "..."]

def dispatchBlock (l : FamilyLine) (range : ArityRange) (style : DispatchStyle) : List String :=
  let selector := style.selectorHead ++ l.base ++ style.selectorTail
  [ "#define " ++ l.base ++ "(...) \\",
    "   " ++ style.proxyMacro ++ "(" ++ selector ++ ", (__VA_ARGS__, " ++
      commaList (l.descending range.max style.errorMarker) ++ "))(__VA_ARGS__)",
    "#define " ++ selector ++ ("(" ++ commaList (l.selectorEntries range.max) ++ ")") ++ " MACRO"]

end FamilyLine

def messageLine : FamilyLine where
  stem := "MSG"
  ending := ""
  stem_ne_empty := by decide
  stem_chars := List.all_eq_true.1 (by decide)
  ending_chars := List.all_eq_true.1 (by decide)
  fixed := ["name"]
  fixed_ne_nil := by decide
  fixed_names := by decide

/-! ## Characters of names -/

theorem not_mem_of_isNameChar {cs : List Char} {c : Char}
    (h : ∀ d ∈ cs, Segment.isNameChar d = true) (hc : Segment.isNameChar c = false) : c ∉ cs :=
  fun hmem => by simp [h c hmem] at hc

theorem isNameChar_of_isName {cs : List Char} (h : Segment.isName cs = true) :
    cs ≠ [] ∧ ∀ c ∈ cs, Segment.isNameChar c = true := by
  simpa [Segment.isName] using h

theorem isNameChar_of_mem_toDigits {n : Nat} {c : Char} (h : c ∈ Nat.toDigits 10 n) :
    Segment.isNameChar c = true := by
  have hdigit := Nat.isDigit_of_mem_toDigits (by decide) (by decide) h
  simp [Segment.isNameChar, Char.isAlphanum, hdigit]

theorem ArityRange.getElem?_descending (range : ArityRange) {i : Nat} (hi : i ≤ range.max) :
    range.descending[i]? = some (range.max - i) := by
  unfold descending ascending size
  rw [List.getElem?_reverse (by rw [List.length_range]; omega), List.length_range,
    List.getElem?_range (by omega)]
  congr 1

namespace FamilyName

theorem stem_not_mem (f : FamilyName) {c : Char} (hc : Segment.isNameChar c = false) :
    c ∉ f.stem.toList :=
  not_mem_of_isNameChar f.stem_chars hc

theorem ending_not_mem (f : FamilyName) {c : Char} (hc : Segment.isNameChar c = false) :
    c ∉ f.ending.toList :=
  not_mem_of_isNameChar f.ending_chars hc

theorem toList_marked (f : FamilyName) :
    f.marked.toList =
      f.stem.toList ++ '%' :: '{' :: ("arity".toList ++ '}' :: f.ending.toList) := by
  simp [marked]

theorem reading_marked (f : FamilyName) :
    Segment.reading f.marked.toList =
      some (f.stem.toList.map .char ++ .value "arity" :: f.ending.toList.map .char) := by
  rw [toList_marked, Segment.reading_between (f.stem_not_mem (by decide)) (by decide)
    (f.ending_not_mem (by decide)), String.ofList_toList]

theorem not_blank_of_mem_marked (f : FamilyName) {c : Char} (h : c ∈ f.marked.toList) :
    Text.isBlank c = false ∧ c ≠ '(' := by
  have hname {c : Char} (hc : Segment.isNameChar c = true) : Text.isBlank c = false ∧ c ≠ '(' :=
    ⟨isBlank_of_isNameChar hc, by rintro rfl; exact absurd hc (by decide)⟩
  rw [toList_marked] at h
  simp only [List.mem_append, List.mem_cons] at h
  rcases h with h | rfl | rfl | h | rfl | h
  · exact hname (f.stem_chars c h)
  · decide
  · decide
  · have harity : "arity".toList.all Segment.isNameChar = true := by decide
    exact hname (List.all_eq_true.1 harity c h)
  · decide
  · exact hname (f.ending_chars c h)

theorem length_descending (f : FamilyName) (max : Nat) (marker : String) :
    (f.descending max marker).length = 2 * max + 2 := by
  simp [descending, List.length_flatMap]
  omega

theorem getElem?_descending (f : FamilyName) {max i : Nat} (marker : String) (hi : i ≤ max) :
    (f.descending max marker)[2 * i]? = some (f.spelled (max - i)) ∧
      (f.descending max marker)[2 * i + 1]? = some marker := by
  have hindex : (List.range (max + 1)).reverse[i]? = some (max - i) :=
    ArityRange.getElem?_descending ⟨max⟩ hi
  have hentry (j : Nat) (hj : j < 2) :
      (f.descending max marker)[i * 2 + j]? = [f.spelled (max - i), marker][j]? := by
    rw [descending, Traversal.getElem?_flatMap_of_length (by simp) hj, hindex]
    rfl
  rw [Nat.mul_comm 2 i]
  exact ⟨hentry 0 (by decide), hentry 1 (by decide)⟩

end FamilyName

/-! ## Reading a family line -/

namespace FamilyLine

theorem mem_commaList_fixed (l : FamilyLine) {c : Char} (h : c ∈ (commaList l.fixed).toList) :
    c = ',' ∨ c = ' ' ∨ Segment.isNameChar c = true := by
  rcases mem_commaList h with h | ⟨p, hp, h⟩
  · rw [show separator.toList = [',', ' '] by decide] at h
    simp only [List.mem_cons, List.not_mem_nil, or_false] at h
    rcases h with h | h
    · exact .inl h
    · exact .inr (.inl h)
  · exact .inr (.inr ((isNameChar_of_isName (l.fixed_names p hp)).2 c h))

theorem fixed_not_mem (l : FamilyLine) {c : Char} (hc : Segment.isNameChar c = false)
    (hcomma : c ≠ ',') (hblank : c ≠ ' ') : c ∉ (commaList l.fixed).toList := by
  intro h
  rcases l.mem_commaList_fixed h with rfl | rfl | hname
  · exact hcomma rfl
  · exact hblank rfl
  · simp [hc] at hname

theorem toList_params (l : FamilyLine) :
    l.params.toList =
      ('(' :: ((commaList l.fixed).toList ++ [',', ' '])) ++
        '%' :: '{' :: ("args".toList ++ ['}', ')']) := by
  simp [params]

theorem reading_params (l : FamilyLine) :
    Segment.reading l.params.toList =
      some (('(' :: ((commaList l.fixed).toList ++ [',', ' '])).map .char ++
        [.value "args", .char ')']) := by
  have hplain : '%' ∉ '(' :: ((commaList l.fixed).toList ++ [',', ' ']) := by
    simpa using l.fixed_not_mem (c := '%') (by decide) (by decide) (by decide)
  rw [toList_params]
  exact Segment.reading_between hplain (by decide) (by decide)

theorem isSome_reading_text (l : FamilyLine) : (Segment.reading l.text.toList).isSome := by
  have hparams := l.reading_params
  rw [toList_params, List.cons_append, Segment.reading_copied (by simp [Segment.Copied])] at hparams
  obtain ⟨atoms, hatoms, -⟩ := Option.map_eq_some_iff.1 hparams
  rw [text, String.toList_append, toList_params, List.cons_append,
    Segment.reading_append_separator (by decide), l.reading_marked, hatoms]
  rfl

theorem split_text (l : FamilyLine) :
    Family.split l.text.toList = some (l.marked.toList, l.params.toList) := by
  have hname : ∀ c ∈ l.marked.toList, (c != '(') = true := fun c hc =>
    bne_iff_ne.2 (l.not_blank_of_mem_marked hc).2
  have hhead : l.params.toList = '(' :: l.params.toList.tail := by
    rw [toList_params]
    rfl
  have htake : l.text.toList.takeWhile (· != '(') = l.marked.toList := by
    rw [text, String.toList_append, hhead, List.takeWhile_append_of_pos hname]
    simp
  have hdrop : l.text.toList.dropWhile (· != '(') = l.params.toList := by
    rw [text, String.toList_append, hhead, List.dropWhile_append_of_pos hname]
    simp
  have hne : l.marked.toList ≠ [] := by
    rw [FamilyName.toList_marked]
    simp
  have hlast : l.params.toList.getLast? = some ')' := by
    rw [toList_params]
    simp [List.getLast?_cons, List.getLast?_append]
  have hline : '\n' ∉ l.params.toList := by
    have hfixed := l.fixed_not_mem (c := '\n') (by decide) (by decide) (by decide)
    rw [toList_params]
    simp [hfixed]
  rw [Family.split, htake, hdrop]
  simp only [hlast, hline, not_false_eq_true, and_true, ne_eq, hne, if_true]
  rw [Text.trim_of_not_blank fun c hc => (l.not_blank_of_mem_marked hc).1]

/-- The list does not start with the place of the arguments, since an identifier stands there. -/
theorem argumentsLead_params (l : FamilyLine) : Family.argumentsLead l.params.toList = false := by
  obtain ⟨p, rest, hfixed⟩ := List.exists_cons_of_ne_nil l.fixed_ne_nil
  obtain ⟨hne, hchars⟩ := isNameChar_of_isName (l.fixed_names p (by simp [hfixed]))
  obtain ⟨c, cs, hp⟩ := List.exists_cons_of_ne_nil hne
  have hc : Segment.isNameChar c = true := hchars c (by simp [hp])
  have hpercent : '%' ≠ c := by
    rintro rfl
    exact absurd hc (by decide)
  obtain ⟨tail, htail⟩ : ∃ tail, l.params.toList.drop 1 = c :: tail := by
    rw [toList_params, hfixed]
    cases rest with
    | nil => simp [commaList, hp]
    | cons q rest => simp [commaList, hp]
  rw [Family.argumentsLead, htail, Text.trimStart,
    List.dropWhile_cons_of_neg (by simp [isBlank_of_isNameChar hc]),
    show Family.argumentsMark = '%' :: Family.argumentsMark.tail by decide]
  simp [List.isPrefixOf, hpercent]

/-- What a family that was read from a line spells: its templates are those of the line's parts. -/
structure Describes (l : FamilyLine) (f : Family) : Prop where
  name_atoms : Segment.atoms f.name.segments =
    l.stem.toList.map .char ++ .value "arity" :: l.ending.toList.map .char
  params_atoms : Segment.atoms f.params.segments =
    ('(' :: ((commaList l.fixed).toList ++ [',', ' '])).map .char ++ [.value "args", .char ')']

private theorem exists_parse {text : String} {atoms : List Atom}
    (h : Segment.reading text.toList = some atoms) (name : String) :
    ∃ t, Template.parse name text = .ok t ∧ Segment.atoms t.segments = atoms := by
  obtain ⟨t, ht⟩ := (Template.exists_parse_iff name text).2 (by simp [h])
  have hatoms := Template.reading_of_parse ht
  rw [h, Option.some.injEq] at hatoms
  exact ⟨t, ht, hatoms.symm⟩

/-- Every template with the text of the line is read as a family that the line describes. -/
theorem exists_family (l : FamilyLine) {line : Template} (h : line.text = l.text) :
    ∃ f, Family.parse line = .ok f ∧ l.Describes f := by
  obtain ⟨name, hname, hnameAtoms⟩ := exists_parse l.reading_marked line.name
  obtain ⟨params, hparams, hparamsAtoms⟩ := exists_parse l.reading_params line.name
  have hargs : "args" ∈ params.placeholders := by
    rw [params.placeholders_eq, hparamsAtoms, Atom.names_append]
    simp [Atom.names]
  refine ⟨⟨name, params⟩, ?_, hnameAtoms, hparamsAtoms⟩
  rw [Family.parse, h, l.split_text]
  simp only [String.ofList_toList, hname, hparams, bind, Except.bind]
  rw [if_neg (not_not_intro hargs), l.argumentsLead_params]
  rfl

/-! ## What the family spells -/

theorem Describes.expand_name {l : FamilyLine} {f : Family} (h : l.Describes f) (arity : String) :
    f.name.expand (.arityOnly arity) = .ok (l.stem ++ arity ++ l.ending) := by
  rw [Template.expand_eq_ok_iff, h.name_atoms, Atom.fill_append]
  simp [Atom.fill, ParameterSet.get?_arityOnly]

theorem Describes.baseName {l : FamilyLine} {f : Family} (h : l.Describes f) :
    f.baseName = .ok l.base := by
  rw [Family.baseName, h.expand_name, String.append_empty, FamilyName.base]

theorem Describes.arityName {l : FamilyLine} {f : Family} (h : l.Describes f) (n : Nat) :
    f.arityName n = .ok (l.spelled n) := by
  rw [Family.arityName, h.expand_name, FamilyName.spelled, ← String.append_assoc]

theorem Describes.selectorName {l : FamilyLine} {f : Family} (h : l.Describes f)
    (style : DispatchStyle) :
    f.selectorName style = .ok (style.selectorHead ++ l.base ++ style.selectorTail) := by
  rw [Family.selectorName, h.baseName]
  rfl

theorem Describes.descendingList {l : FamilyLine} {f : Family} (h : l.Describes f)
    (range : ArityRange) (style : DispatchStyle) :
    f.descendingList range style = .ok (l.descending range.max style.errorMarker) := by
  rw [Family.descendingList, Traversal.mapM_eq_ok_map fun n _ => h.arityName n]
  simp only [bind, Except.bind, pure, Except.pure, List.flatMap_map]
  rfl

theorem commaList_selectorSlots (range : ArityRange) :
    commaList (Family.selectorSlots range) =
      commaList ((List.range range.max).flatMap (fun i => [Parameter.type i, Parameter.name i]) ++
        ["MACRO", "..."]) := by
  let groups : List (List String) :=
    (List.range range.max).map (fun i => [Parameter.type i, Parameter.name i]) ++
      [["MACRO"], ["..."]]
  have hgroups : ∀ g ∈ groups, g ≠ [] := by
    intro g hg
    simp only [groups, List.mem_append, List.mem_map, List.mem_cons, List.not_mem_nil,
      or_false] at hg
    rcases hg with ⟨i, -, rfl⟩ | rfl | rfl <;> simp
  have hslots : Family.selectorSlots range = groups.map commaList := by
    simp [groups, Family.selectorSlots, commaList, Parameter.slot, separator]
  rw [hslots, commaList_map_commaList hgroups]
  simp [groups, List.flatMap]

theorem selectorParams_of_atoms (l : FamilyLine) {f : Family}
    (h : Segment.atoms f.params.segments =
      ('(' :: ((commaList l.fixed).toList ++ [',', ' '])).map .char ++ [.value "args", .char ')'])
    (range : ArityRange) :
    f.selectorParams range = .ok ("(" ++ commaList (l.selectorEntries range.max) ++ ")") := by
  rw [Family.selectorParams, Template.expand_eq_ok_iff, h, Atom.fill_append,
    Atom.fill_map_char, selectorEntries, List.append_assoc,
    commaList_append l.fixed_ne_nil (by simp), commaList_selectorSlots]
  simp [Atom.fill, separator]

theorem Describes.selectorParams {l : FamilyLine} {f : Family} (h : l.Describes f)
    (range : ArityRange) :
    f.selectorParams range = .ok ("(" ++ commaList (l.selectorEntries range.max) ++ ")") :=
  l.selectorParams_of_atoms h.params_atoms range

theorem Describes.dispatchLines {l : FamilyLine} {f : Family} (h : l.Describes f)
    (range : ArityRange) (style : DispatchStyle) :
    f.dispatchLines range style = .ok (l.dispatchBlock range style) := by
  rw [Family.dispatchLines, h.baseName, h.selectorName, h.descendingList, h.selectorParams]
  rfl

end FamilyLine

end MacroFamilies
