import MacroFamilies.Proofs.ParameterSet.Entries
/-!
# The lists of an arity

The parameter set of an arity is a table of ten keys. Four of them hold a list with one entry for
each parameter, four hold the tail that continues another list by these entries, and `args_coma`
holds such a tail with two entries for each parameter. The main statement says which entries are
read from each of these texts, and from a list that one of the tails is put behind.
-/

namespace MacroFamilies

/-! ## Reading a list -/

/-- The entries of a list; where nothing is written there is no entry. -/
def entriesOf (text : String) : List String := if text = "" then [] else listEntries text

theorem separated_ne_nil (cs : List Char) : separated cs ≠ [] := by
  induction cs using separated.induct with
  | case1 => simp [separated]
  | case2 rest ih => simp [separated]
  | case3 c rest hc ih =>
    rw [separated.eq_3 c rest hc]
    simpa using ih

/-- A separator cuts a text wherever it stands, since none starts within another. -/
theorem separated_append_separator (left right : List Char) :
    separated (left ++ ',' :: ' ' :: right) = separated left ++ separated right := by
  induction left using separated.induct with
  | case1 => rfl
  | case2 rest ih =>
    rw [List.cons_append, List.cons_append, separated, separated, ih, List.cons_append]
  | case3 c rest hc ih =>
    have hborder : ∀ tail, c = ',' → rest ++ ',' :: ' ' :: right = ' ' :: tail → False := by
      rintro tail rfl hrest
      cases rest with
      | nil => cases hrest
      | cons d rest =>
        obtain ⟨rfl, -⟩ := List.cons.inj hrest
        exact hc rest rfl rfl
    obtain ⟨first, others, hrest⟩ := List.exists_cons_of_ne_nil (separated_ne_nil rest)
    rw [List.cons_append, separated.eq_3 c _ hborder, ih, separated.eq_3 c rest hc, hrest]
    rfl

theorem entriesOf_append_commaTail {fixed : String} (h : fixed ≠ "") (list : String) :
    entriesOf (fixed ++ commaTail list) = entriesOf fixed ++ entriesOf list := by
  by_cases hlist : list = ""
  · simp [hlist, commaTail, entriesOf]
  · have htail : commaTail list = separator ++ list := by rw [commaTail, if_neg hlist]
    have htext : (fixed ++ (separator ++ list)).toList =
        fixed.toList ++ ',' :: ' ' :: list.toList := by
      simp [separator]
    have hne : fixed ++ (separator ++ list) ≠ "" := by simp [h]
    rw [htail, entriesOf, if_neg hne, listEntries, htext, separated_append_separator,
      List.map_append, entriesOf, if_neg h, entriesOf, if_neg hlist]
    rfl

theorem entriesOf_commaList {items : List String} (hcomma : ∀ item ∈ items, ',' ∉ item.toList)
    (hne : ∀ item ∈ items, item ≠ "") : entriesOf (commaList items) = items := by
  by_cases hitems : items = []
  · simp [hitems, commaList, entriesOf]
  · rw [entriesOf, if_neg fun h => hitems ((commaList_eq_empty_iff hne).1 h),
      listEntries_commaList hitems hcomma]

theorem commaTail_eq_empty_iff (list : String) : commaTail list = "" ↔ list = "" := by
  by_cases hlist : list = ""
  · simp [hlist, commaTail]
  · simp [hlist, commaTail, separator]

/-! ## Entries of one parameter -/

/-- An entry for each parameter that is not empty and holds no comma. -/
structure EntryText (entry : Nat → String) : Prop where
  ne_empty : ∀ i, entry i ≠ ""
  comma_not_mem : ∀ i, ',' ∉ (entry i).toList

theorem entryText_name : EntryText Parameter.name :=
  ⟨name_ne_empty, fun i => (comma_not_mem_slot i).2⟩

theorem entryText_type : EntryText Parameter.type :=
  ⟨type_ne_empty, fun i => (comma_not_mem_slot i).1⟩

theorem entryText_declaration : EntryText Parameter.declaration where
  ne_empty i := by simp [Parameter.declaration]
  comma_not_mem i := by
    obtain ⟨htype, hname⟩ := comma_not_mem_slot i
    simp [Parameter.declaration, htype, hname]

theorem entryText_forward : EntryText Parameter.forward := by
  have hforward (i : Nat) : Parameter.forward i =
      "std::forward<" ++ Parameter.type i ++ ">(" ++ Parameter.name i ++ ")" := rfl
  constructor
  · intro i
    simp [hforward]
  · intro i
    obtain ⟨htype, hname⟩ := comma_not_mem_slot i
    simp [hforward, htype, hname]

namespace EntryText

variable {entry : Nat → String}

theorem entriesOf_parameterList (h : EntryText entry) (n : Nat) :
    entriesOf (parameterList entry n) = (List.range n).map entry := by
  apply entriesOf_commaList
  · simpa using fun i _ => h.comma_not_mem i
  · simpa using fun i _ => h.ne_empty i

theorem parameterList_eq_empty_iff (h : EntryText entry) (n : Nat) :
    parameterList entry n = "" ↔ n = 0 := by
  rw [parameterList, commaList_eq_empty_iff (by simpa using fun i _ => h.ne_empty i)]
  simp

end EntryText

theorem entriesOf_slots (n : Nat) :
    entriesOf (parameterList Parameter.slot n) = slotEntries n := by
  rw [commaList_slots]
  exact entriesOf_commaList (comma_not_mem_slotEntries n) (slotEntries_ne_empty n)

theorem slots_eq_empty_iff (n : Nat) : parameterList Parameter.slot n = "" ↔ n = 0 := by
  have hne : ∀ item ∈ (List.range n).map Parameter.slot, item ≠ "" := by
    simp [Parameter.slot, separator]
  rw [parameterList, commaList_eq_empty_iff hne]
  simp

/-! ### Different slots -/

theorem type_injective : Function.Injective Parameter.type := by
  intro i j h
  have hdigits : toString i = toString j := by simpa [Parameter.type] using h
  exact Nat.repr_injective hdigits

theorem name_injective : Function.Injective Parameter.name := by
  intro i j h
  have hdigits : toString i = toString j := by simpa [Parameter.name] using h
  exact Nat.repr_injective hdigits

/-- The second character of a type is a letter, and that of a name is a digit. -/
theorem type_ne_name (i j : Nat) : Parameter.type i ≠ Parameter.name j := by
  intro h
  have hdigits : 'r' ∈ Nat.toDigits 10 j := by
    have hbehind : Nat.toDigits 10 j = 'r' :: 'g' :: (toString i ++ "_type").toList := by
      simpa [Parameter.type, Parameter.name] using
        (congrArg (fun s : String => s.toList.tail) h).symm
    rw [hbehind]
    exact List.mem_cons_self
  exact absurd (Nat.isDigit_of_mem_toDigits (by decide) (by decide) hdigits) (by decide)

theorem nodup_slotEntries (n : Nat) : (slotEntries n).Nodup := by
  rw [slotEntries_eq, List.nodup_flatMap]
  refine ⟨fun i _ => by simpa using type_ne_name i i, ?_⟩
  refine List.nodup_range.imp fun {i j} hij => ?_
  simp only [Function.onFun, List.disjoint_cons_left, List.mem_cons, List.not_mem_nil, or_false,
    not_or, List.disjoint_nil_left, and_true]
  exact ⟨⟨fun h => hij (type_injective h), type_ne_name i j⟩,
    (type_ne_name j i).symm, fun h => hij (name_injective h)⟩

/-! ## The table of an arity -/

namespace ParameterSet

theorem get?_foldl_insert_of_not_mem {entries : List (String × String)} {key : String}
    (h : key ∉ entries.map (·.1)) (p : ParameterSet) :
    (entries.foldl (fun p e => p.insert e.1 e.2) p).get? key = p.get? key := by
  induction entries generalizing p with
  | nil => rfl
  | cons e entries ih =>
    simp only [List.map_cons, List.mem_cons, not_or] at h
    rw [List.foldl_cons, ih h.2, get?_insert, if_neg h.1]

theorem get?_ofList {entries : List (String × String)} (hnodup : (entries.map (·.1)).Nodup)
    {key value : String} (h : (key, value) ∈ entries) :
    (ofList entries).get? key = some value := by
  suffices hfold : ∀ p : ParameterSet,
      (entries.foldl (fun p e => p.insert e.1 e.2) p).get? key = some value from hfold empty
  induction entries with
  | nil => cases h
  | cons e entries ih =>
    intro p
    rw [List.map_cons, List.nodup_cons] at hnodup
    rw [List.foldl_cons]
    rcases List.mem_cons.1 h with rfl | h
    · rw [get?_foldl_insert_of_not_mem hnodup.1, get?_insert, if_pos rfl]
    · exact ih hnodup.2 h _

end ParameterSet

/-- The keys of the lists with one entry for each parameter, and these entries. -/
def entryLists : List (String × (Nat → String)) := [
  ("args", fun i => "a" ++ toString i),
  ("arg_types", fun i => "arg" ++ toString i ++ "_type"),
  ("args_signature", fun i => "arg" ++ toString i ++ "_type a" ++ toString i),
  ("fwd_args", fun i => "std::forward<arg" ++ toString i ++ "_type>(a" ++ toString i ++ ")")]

theorem entryLists_eq : entryLists = [
    ("args", Parameter.name), ("arg_types", Parameter.type),
    ("args_signature", Parameter.declaration), ("fwd_args", Parameter.forward)] := by
  have hdeclaration : (fun i : Nat => "arg" ++ toString i ++ "_type a" ++ toString i) =
      Parameter.declaration := by
    funext i
    simp [Parameter.declaration, Parameter.type, Parameter.name, ← String.toList_inj]
  have hforward :
      (fun i : Nat => "std::forward<arg" ++ toString i ++ "_type>(a" ++ toString i ++ ")") =
        Parameter.forward := by
    funext i
    simp [Parameter.forward, Parameter.type, Parameter.name, ← String.toList_inj]
  rw [entryLists, hdeclaration, hforward]
  rfl

def synthesized : List (String × (Nat → String)) :=
  ("arity", toString) :: (entryLists.map fun l => (l.1, parameterList l.2)) ++
    ("args_coma", fun n => commaTail (parameterList Parameter.slot n)) ::
      entryLists.map fun l => ("coma_" ++ l.1, fun n => commaTail (parameterList l.2 n))

def synthesizedKeys : List String := [
  "arg_types", "args", "args_coma", "args_signature", "arity", "coma_arg_types", "coma_args",
  "coma_args_signature", "coma_fwd_args", "fwd_args"]

theorem synthesize_eq (n : Nat) :
    synthesize n = .ofList (synthesized.map fun e => (e.1, e.2 n)) := by
  rw [synthesized, entryLists_eq]
  rfl

theorem keys_synthesize_eq (n : Nat) : (synthesize n).keys = synthesizedKeys := by
  have hzero : (synthesize 0).keys = synthesizedKeys := by decide +kernel
  rw [ParameterSet.keys_synthesize n 0, hzero]

theorem get?_synthesize {key : String} {value : Nat → String} (h : (key, value) ∈ synthesized)
    (n : Nat) : (synthesize n).get? key = some (value n) := by
  have hnodup : ((synthesized.map fun e => (e.1, e.2 n)).map (·.1)).Nodup := by
    rw [List.map_map]
    exact (by decide : (synthesized.map (·.1)).Nodup)
  rw [synthesize_eq]
  exact ParameterSet.get?_ofList hnodup (List.mem_map.2 ⟨_, h, rfl⟩)

theorem exists_of_mem_synthesizedKeys {key : String} (h : key ∈ synthesizedKeys) :
    ∃ value, (key, value) ∈ synthesized := by
  have hperm : (synthesized.map (·.1)).Perm synthesizedKeys := by decide
  obtain ⟨e, he, rfl⟩ := List.mem_map.1 (hperm.mem_iff.2 h)
  exact ⟨e.2, he⟩

theorem entryText_of_mem {l : String × (Nat → String)} (h : l ∈ entryLists) : EntryText l.2 := by
  simp only [entryLists_eq, List.mem_cons, List.not_mem_nil, or_false] at h
  rcases h with rfl | rfl | rfl | rfl
  · exact entryText_name
  · exact entryText_type
  · exact entryText_declaration
  · exact entryText_forward

/-! ## Tails -/

/-- What a list of an arity and its tail hold: the entries, with the separator in front unless there
are none, so that the tail continues any other list. -/
structure Continues (n : Nat) (list tail : String) (entries : List String) : Prop where
  entries_eq : entriesOf list = entries
  eq_empty_iff : tail = "" ↔ n = 0
  eq_separated : n ≠ 0 → tail = ", " ++ list
  behind : ∀ fixed, fixed ≠ "" → entriesOf (fixed ++ tail) = entriesOf fixed ++ entries

theorem continues_commaTail {n : Nat} {list : String} {entries : List String}
    (hempty : list = "" ↔ n = 0) (hentries : entriesOf list = entries) :
    Continues n list (commaTail list) entries where
  entries_eq := hentries
  eq_empty_iff := (commaTail_eq_empty_iff list).trans hempty
  eq_separated h := if_neg (mt hempty.1 h)
  behind fixed h := by rw [entriesOf_append_commaTail h, hentries]

theorem Continues.length_behind {n : Nat} {list tail : String} {entries : List String}
    (h : Continues n list tail entries) {fixed : String} (hfixed : entriesOf fixed ≠ []) :
    (entriesOf (fixed ++ tail)).length = (entriesOf fixed).length + entries.length := by
  have hne : fixed ≠ "" := by
    rintro rfl
    exact hfixed rfl
  rw [h.behind fixed hne, List.length_append]

theorem entryList_continues {l : String × (Nat → String)} (h : l ∈ entryLists) (n : Nat) :
    ∃ list tail, (synthesize n).get? l.1 = some list ∧
      (synthesize n).get? ("coma_" ++ l.1) = some tail ∧
      Continues n list tail ((List.range n).map l.2) := by
  have hlist : (l.1, parameterList l.2) ∈ synthesized := by
    apply List.mem_append_left
    exact List.mem_cons_of_mem _ (List.mem_map.2 ⟨l, h, rfl⟩)
  have htail : ("coma_" ++ l.1, fun n => commaTail (parameterList l.2 n)) ∈ synthesized := by
    apply List.mem_append_right
    exact List.mem_cons_of_mem _ (List.mem_map.2 ⟨l, h, rfl⟩)
  have htext := entryText_of_mem h
  exact ⟨_, _, get?_synthesize hlist n, get?_synthesize htail n,
    continues_commaTail (htext.parameterList_eq_empty_iff n) (htext.entriesOf_parameterList n)⟩

theorem slots_continue (n : Nat) :
    ∃ list tail, (synthesize n).get? "args_coma" = some tail ∧
      Continues n list tail (slotEntries n) := by
  have htail : ("args_coma", fun n => commaTail (parameterList Parameter.slot n)) ∈ synthesized :=
    List.mem_append_right _ List.mem_cons_self
  exact ⟨_, _, get?_synthesize htail n,
    continues_commaTail (slots_eq_empty_iff n) (entriesOf_slots n)⟩

/-- Every arity has the same ten keys. A plain list has one entry for each parameter, its tail
continues any list by these entries, and `args_coma` continues a list by the types and names in
turn, which are all different. -/
theorem synthesized_lists (n : Nat) :
    (synthesize n).keys = synthesizedKeys ∧
    (∀ l ∈ entryLists, ∃ list tail, (synthesize n).get? l.1 = some list ∧
      (synthesize n).get? ("coma_" ++ l.1) = some tail ∧
      Continues n list tail ((List.range n).map l.2)) ∧
    (∃ list tail, (synthesize n).get? "args_coma" = some tail ∧
      Continues n list tail (slotEntries n)) ∧
    (slotEntries n).length = 2 * n ∧ (slotEntries n).Nodup ∧
    ∀ fixed k, 1 ≤ k → (entriesOf fixed).length = k →
      (∀ l ∈ entryLists, ∀ tail, (synthesize n).get? ("coma_" ++ l.1) = some tail →
        (entriesOf (fixed ++ tail)).length = k + n) ∧
      ∀ tail, (synthesize n).get? "args_coma" = some tail →
        (entriesOf (fixed ++ tail)).length = k + 2 * n := by
  refine ⟨keys_synthesize_eq n, fun l hl => entryList_continues hl n, slots_continue n,
    length_slotEntries n, nodup_slotEntries n, ?_⟩
  rintro fixed k hk rfl
  have hfixed : entriesOf fixed ≠ [] := List.ne_nil_of_length_pos hk
  constructor
  · intro l hl tail htail
    obtain ⟨list, other, -, hother, hcontinues⟩ := entryList_continues hl n
    obtain rfl := Option.some.inj (htail.symm.trans hother)
    rw [hcontinues.length_behind hfixed, List.length_map, List.length_range]
  · intro tail htail
    obtain ⟨list, other, hother, hcontinues⟩ := slots_continue n
    obtain rfl := Option.some.inj (htail.symm.trans hother)
    rw [hcontinues.length_behind hfixed, length_slotEntries]

theorem synthesized_lists_behind_name :
    1 ≤ 1 ∧ (entriesOf "name").length = 1 ∧
      ∃ forwards slots,
        (synthesize 2).get? "coma_fwd_args" = some forwards ∧
        (synthesize 2).get? "args_coma" = some slots ∧
        entriesOf ("name" ++ forwards) =
          ["name", "std::forward<arg0_type>(a0)", "std::forward<arg1_type>(a1)"] ∧
        entriesOf ("name" ++ slots) = ["name", "arg0_type", "a0", "arg1_type", "a1"] ∧
        (entriesOf ("name" ++ slots)).length = 5 := by
  have hk : 1 ≤ 1 := le_rfl
  have hname : (entriesOf "name").length = 1 := by decide +kernel
  obtain ⟨-, hlists, ⟨list, slots, hslots, hbehind⟩, -, -, hcounts⟩ := synthesized_lists 2
  obtain ⟨forwardList, forwards, -, hforwards, hcontinues⟩ :=
    hlists ("fwd_args", fun i =>
      "std::forward<arg" ++ toString i ++ "_type>(a" ++ toString i ++ ")") (by simp [entryLists])
  refine ⟨hk, hname, forwards, slots, hforwards, hslots, ?_, ?_, ?_⟩
  · rw [hcontinues.behind "name" (by decide)]
    decide +kernel
  · rw [hbehind.behind "name" (by decide)]
    decide +kernel
  · exact (hcounts "name" 1 hk hname).2 slots hslots

end MacroFamilies
