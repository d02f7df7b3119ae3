import MacroFamilies.ParameterSet.Synthesis
import Mathlib
/-!
# Entries of lists and parameter sets

A list is written with a separator between its entries; `listEntries` cuts a text at the separators
and so gives the entries of a written list back. A parameter set answers a key with the value that
was put there last.
-/

namespace MacroFamilies

/-! ## Lists -/

def separated : List Char → List (List Char)
  | [] => [[]]
  | ',' :: ' ' :: rest => [] :: separated rest
  | c :: rest => (separated rest).modifyHead (c :: ·)

def listEntries (text : String) : List String := (separated text.toList).map String.ofList

theorem separated_of_not_mem {entry : List Char} (h : ',' ∉ entry) : separated entry = [entry] := by
  induction entry with
  | nil => rfl
  | cons c entry ih =>
    simp only [List.mem_cons, not_or] at h
    rw [separated.eq_3 c entry (fun rest hc => absurd hc.symm h.1), ih h.2]
    rfl

theorem separated_append {entry : List Char} (h : ',' ∉ entry) (rest : List Char) :
    separated (entry ++ ',' :: ' ' :: rest) = entry :: separated rest := by
  induction entry with
  | nil => rfl
  | cons c entry ih =>
    simp only [List.mem_cons, not_or] at h
    rw [List.cons_append, separated.eq_3 c _ (fun rest hc => absurd hc.symm h.1), ih h.2]
    rfl

theorem commaList_cons {items : List String} (item : String) (h : items ≠ []) :
    commaList (item :: items) = item ++ separator ++ commaList items :=
  String.intercalate_cons_of_ne_nil h

theorem commaList_append {left right : List String} (hl : left ≠ []) (hr : right ≠ []) :
    commaList (left ++ right) = commaList left ++ separator ++ commaList right :=
  String.intercalate_append_of_ne_nil hl hr

theorem listEntries_commaList {items : List String} (hne : items ≠ [])
    (h : ∀ item ∈ items, ',' ∉ item.toList) : listEntries (commaList items) = items := by
  unfold listEntries
  induction items with
  | nil => exact absurd rfl hne
  | cons item items ih =>
    by_cases hitems : items = []
    · subst hitems
      rw [commaList, String.intercalate_singleton, separated_of_not_mem (h item (by simp))]
      simp
    · rw [commaList_cons item hitems, String.toList_append, String.toList_append, List.append_assoc,
        show separator.toList = [',', ' '] by decide, List.cons_append, List.singleton_append,
        separated_append (h item (by simp)), List.map_cons,
        ih hitems fun other hother => h other (by simp [hother])]
      simp

theorem commaList_map_commaList {groups : List (List String)} (h : ∀ g ∈ groups, g ≠ []) :
    commaList (groups.map commaList) = commaList groups.flatten := by
  induction groups with
  | nil => rfl
  | cons g groups ih =>
    have hg : g ≠ [] := h g (by simp)
    have hrest : ∀ g ∈ groups, g ≠ [] := fun g hg => h g (by simp [hg])
    by_cases hgroups : groups = []
    · simp [hgroups, commaList]
    · have hflatten : groups.flatten ≠ [] := by
        obtain ⟨first, groups, rfl⟩ := List.exists_cons_of_ne_nil hgroups
        simp [hrest first (by simp)]
      rw [List.map_cons, commaList_cons _ (by simpa using hgroups), ih hrest, List.flatten_cons,
        commaList_append hg hflatten]

theorem mem_commaList {items : List String} {c : Char} (h : c ∈ (commaList items).toList) :
    c ∈ separator.toList ∨ ∃ item ∈ items, c ∈ item.toList := by
  induction items with
  | nil => simp [commaList] at h
  | cons item items ih =>
    by_cases hitems : items = []
    · subst hitems
      exact .inr ⟨item, by simp, by simpa [commaList] using h⟩
    · rw [commaList_cons item hitems] at h
      simp only [String.toList_append, List.mem_append] at h
      rcases h with (h | h) | h
      · exact .inr ⟨item, by simp, h⟩
      · exact .inl h
      · rcases ih h with h | ⟨other, hother, h⟩
        · exact .inl h
        · exact .inr ⟨other, by simp [hother], h⟩

theorem commaList_eq_empty_iff {items : List String} (h : ∀ item ∈ items, item ≠ "") :
    commaList items = "" ↔ items = [] := by
  cases items with
  | nil => simp [commaList]
  | cons item items =>
    have hitem : item ≠ "" := h item List.mem_cons_self
    by_cases hitems : items = []
    · simp [hitems, commaList, hitem]
    · simp [commaList_cons item hitems, hitem]

theorem commaList_append_commaTail {left right : List String} (hl : left ≠ [])
    (hr : ∀ item ∈ right, item ≠ "") :
    commaList left ++ commaTail (commaList right) = commaList (left ++ right) := by
  by_cases hright : right = []
  · simp [hright, commaList, commaTail]
  · have hlist : commaList right ≠ "" := fun h => hright ((commaList_eq_empty_iff hr).1 h)
    rw [commaTail, if_neg hlist, commaList_append hl hright, String.append_assoc]

/-! ## Slots -/

theorem type_ne_empty (i : Nat) : Parameter.type i ≠ "" := by
  simp [Parameter.type]

theorem name_ne_empty (i : Nat) : Parameter.name i ≠ "" := by
  simp [Parameter.name]

theorem comma_not_mem_slot (i : Nat) :
    ',' ∉ (Parameter.type i).toList ∧ ',' ∉ (Parameter.name i).toList := by
  have hdigits : ',' ∉ Nat.toDigits 10 i := fun h =>
    absurd (Nat.isDigit_of_mem_toDigits (by decide) (by decide) h) (by decide)
  constructor <;> simp [Parameter.type, Parameter.name, hdigits]

/-- The types and names of the first parameters, one after another. -/
def slotEntries (n : Nat) : List String :=
  (List.range n).flatMap fun i => ["arg" ++ toString i ++ "_type", "a" ++ toString i]

theorem slotEntries_eq (n : Nat) :
    slotEntries n = (List.range n).flatMap fun i => [Parameter.type i, Parameter.name i] :=
  rfl

theorem slotEntries_succ (n : Nat) :
    slotEntries (n + 1) = slotEntries n ++ [Parameter.type n, Parameter.name n] := by
  simp [slotEntries_eq, List.range_succ]

theorem mem_slotEntries {n : Nat} {entry : String} (h : entry ∈ slotEntries n) :
    ∃ i < n, entry = Parameter.type i ∨ entry = Parameter.name i := by
  simpa [slotEntries_eq] using h

theorem slotEntries_ne_empty (n : Nat) : ∀ entry ∈ slotEntries n, entry ≠ "" := by
  intro entry hentry
  obtain ⟨i, -, rfl | rfl⟩ := mem_slotEntries hentry
  · exact type_ne_empty i
  · exact name_ne_empty i

theorem comma_not_mem_slotEntries (n : Nat) : ∀ entry ∈ slotEntries n, ',' ∉ entry.toList := by
  intro entry hentry
  obtain ⟨i, -, rfl | rfl⟩ := mem_slotEntries hentry
  · exact (comma_not_mem_slot i).1
  · exact (comma_not_mem_slot i).2

theorem length_slotEntries (n : Nat) : (slotEntries n).length = 2 * n := by
  induction n with
  | zero => rfl
  | succ n ih => rw [slotEntries_succ, List.length_append, ih]; rfl

theorem slotEntries_prefix_of_le {n m : Nat} (h : n ≤ m) : slotEntries n <+: slotEntries m := by
  induction h with
  | refl => exact List.prefix_refl _
  | step _ ih => exact ih.trans (slotEntries_succ _ ▸ List.prefix_append _ _)

theorem commaList_slots (n : Nat) : parameterList Parameter.slot n = commaList (slotEntries n) := by
  let groups := (List.range n).map fun i => [Parameter.type i, Parameter.name i]
  have hgroups : ∀ g ∈ groups, g ≠ [] := by simp [groups]
  have hslots : (List.range n).map Parameter.slot = groups.map commaList := by
    simp [groups, commaList, Parameter.slot, separator]
  rw [parameterList, hslots, commaList_map_commaList hgroups, slotEntries_eq, List.flatMap_def]

/-! ## Parameter sets -/

namespace ParameterSet

private theorem lookup_cons_eq (other k v : String) (entries : List (String × String)) :
    ((k, v) :: entries).lookup other = if other = k then some v else entries.lookup other := by
  rw [List.lookup_cons]
  by_cases h : other = k
  · simp [h]
  · simp [h, beq_eq_false_iff_ne.2 h]

theorem lookup_insertEntry (key value other : String) (entries : List (String × String)) :
    (insertEntry key value entries).lookup other =
      if other = key then some value else entries.lookup other := by
  induction entries with
  | nil => rw [insertEntry, lookup_cons_eq]
  | cons e entries ih =>
    obtain ⟨k, v⟩ := e
    rw [insertEntry]
    by_cases hkey : key = k
    · subst hkey
      rw [if_pos rfl, lookup_cons_eq, lookup_cons_eq]
      split_ifs <;> rfl
    · rw [if_neg hkey]
      by_cases hlt : key < k
      · rw [if_pos hlt, lookup_cons_eq]
      · rw [if_neg hlt, lookup_cons_eq, lookup_cons_eq, ih]
        -- the new key and the first one differ, so that the two tests can change places
        by_cases hother : other = key
        · rw [if_neg (fun hk => hkey (hother.symm.trans hk)), if_pos hother, if_pos hother]
        · rw [if_neg hother, if_neg hother]

@[simp] theorem get?_insert (p : ParameterSet) (key value other : String) :
    (p.insert key value).get? other = if other = key then some value else p.get? other :=
  lookup_insertEntry key value other p.entries

@[simp] theorem get?_empty (key : String) : empty.get? key = none := rfl

theorem get?_arityOnly (arity : String) : (arityOnly arity).get? "arity" = some arity := by
  simp [arityOnly]

theorem get?_synthesize_arity (n : Nat) : (synthesize n).get? "arity" = some (toString n) := by
  simp [synthesize, ofList]

theorem get?_synthesize_args_coma (n : Nat) :
    (synthesize n).get? "args_coma" = some (commaTail (commaList (slotEntries n))) := by
  rw [← commaList_slots]
  simp [synthesize, ofList]

/-! ### Keys -/

def insertKey (key : String) : List String → List String
  | [] => [key]
  | k :: rest =>
    if key = k then key :: rest else if key < k then key :: k :: rest else k :: insertKey key rest

/-- The keys of a set do not depend on the values that are put in. -/
@[simp] theorem keys_insert (p : ParameterSet) (key value : String) :
    (p.insert key value).keys = insertKey key p.keys := by
  suffices h : ∀ entries, (insertEntry key value entries).map (·.1) =
      insertKey key (entries.map (·.1)) from h p.entries
  intro entries
  induction entries with
  | nil => rfl
  | cons e entries ih =>
    rw [insertEntry, List.map_cons, insertKey]
    split_ifs
    · rfl
    · rfl
    · rw [List.map_cons, ih]

theorem keys_ofList (entries : List (String × String)) :
    (ofList entries).keys = (entries.map (·.1)).foldl (fun keys key => insertKey key keys) [] := by
  suffices h : ∀ p : ParameterSet, (entries.foldl (fun p e => p.insert e.1 e.2) p).keys =
      (entries.map (·.1)).foldl (fun keys key => insertKey key keys) p.keys from h empty
  induction entries with
  | nil => exact fun p => rfl
  | cons e entries ih =>
    intro p
    rw [List.foldl_cons, ih, keys_insert, List.map_cons, List.foldl_cons]

theorem keys_synthesize (n m : Nat) : (synthesize n).keys = (synthesize m).keys := by
  rw [synthesize, synthesize, keys_ofList, keys_ofList]
  rfl

theorem keys_arityOnly (arity other : String) : (arityOnly arity).keys = (arityOnly other).keys := by
  rw [arityOnly, arityOnly, keys_insert, keys_insert]

theorem isSome_get?_iff (p : ParameterSet) (name : String) :
    (p.get? name).isSome ↔ name ∈ p.keys := by
  rw [get?, keys, List.lookup_isSome_iff, List.mem_map]
  constructor
  · rintro ⟨e, he, hkey⟩
    exact ⟨e, he, (beq_iff_eq.1 hkey).symm⟩
  · rintro ⟨e, he, hkey⟩
    exact ⟨e, he, beq_iff_eq.2 hkey.symm⟩

end ParameterSet

end MacroFamilies
