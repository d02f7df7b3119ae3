import MacroFamilies.Proofs.FileSystem.Kinds
/-!
# Directory trees

In a file system each location is held once, every name is one that the system takes, and what is
at a location is in a directory. So the names from a directory down to what is below it can be
followed, and listing a directory gives each file below it once. Names are only ever added to the
end of a location, so no path leads to a location behind a name that it does not hold.
-/

namespace MacroFamilies.FileSystem

variable {fs : FileSystem}

/-- A name that the system takes for a file or directory. -/
structure IsName (name : String) : Prop where
  isFileName : Path.IsFileName name
  no_nul : '\x00' ∉ name.toList
  short : name.utf8ByteSize ≤ maxNameBytes

instance (name : String) : Decidable (IsName name) :=
  decidable_of_iff (Path.IsFileName name ∧ '\x00' ∉ name.toList ∧ name.utf8ByteSize ≤ maxNameBytes)
    ⟨fun ⟨hname, hnul, hshort⟩ => ⟨hname, hnul, hshort⟩,
      fun h => ⟨h.isFileName, h.no_nul, h.short⟩⟩

/-- Every location is held once and in a directory, under names that the system takes. -/
structure IsTree (fs : FileSystem) : Prop where
  nodup : (fs.entries.map (·.1)).Nodup
  names : ∀ entry ∈ fs.entries, ∀ name ∈ entry.1, IsName name
  parents : ∀ entry ∈ fs.entries, fs.lookup? entry.1.dropLast = some .directory

theorem contents?_eq_some_iff {location : Location} {contents : ByteArray} :
    fs.contents? location = some contents ↔ fs.lookup? location = some (.file contents) := by
  unfold contents?
  cases fs.lookup? location with
  | none => simp
  | some entry => cases entry <;> simp

theorem exists_mem_of_lookup? {location : Location} {entry : Entry} (hne : location ≠ [])
    (h : fs.lookup? location = some entry) : (location, entry) ∈ fs.entries := by
  rw [lookup?, if_neg hne] at h
  obtain ⟨front, back, hentries, -⟩ := List.lookup_eq_some_iff.1 h
  rw [hentries]
  simp

namespace IsTree

theorem of_kinds (hnodup : (fs.entries.map (·.1)).Nodup)
    (hnames : ∀ entry ∈ fs.entries, ∀ name ∈ entry.1, IsName name)
    (hkinds : ∀ entry ∈ fs.entries, fs.kind? entry.1.dropLast = some true) : fs.IsTree where
  nodup := hnodup
  names := hnames
  parents entry hentry := (lookup?_eq_directory_iff _).2 (hkinds entry hentry)

theorem isName_of_lookup? (h : fs.IsTree) {location : Location} {entry : Entry}
    (hl : fs.lookup? location = some entry) : ∀ name ∈ location, IsName name := by
  intro name hname
  have hne : location ≠ [] := List.ne_nil_of_mem hname
  exact h.names _ (exists_mem_of_lookup? hne hl) name hname

theorem lookup?_parent (h : fs.IsTree) {location : Location} {name : String} {entry : Entry}
    (hl : fs.lookup? (location ++ [name]) = some entry) :
    fs.lookup? location = some .directory := by
  simpa using h.parents _ (exists_mem_of_lookup? (by simp) hl)

theorem lookup?_above (h : fs.IsTree) {location names : Location} {entry : Entry}
    (hne : names ≠ []) (hl : fs.lookup? (location ++ names) = some entry) :
    fs.lookup? location = some .directory := by
  induction names using List.reverseRecOn generalizing entry with
  | nil => exact absurd rfl hne
  | append_singleton names name ih =>
    rw [← List.append_assoc] at hl
    have hparent := h.lookup?_parent hl
    by_cases hnames : names = []
    · simpa [hnames] using hparent
    · exact ih hnames hparent

theorem walk_down (h : fs.IsTree) {location names : Location} {entry : Entry}
    (hl : fs.lookup? (location ++ names) = some entry) :
    fs.walk location names = .ok (location ++ names) := by
  induction names generalizing location with
  | nil => simp [walk_nil]
  | cons name names ih =>
    have hname : IsName name := h.isName_of_lookup? hl name (by simp)
    rw [List.append_cons] at hl ⊢
    have hnext : (fs.lookup? (location ++ [name])).isSome := by
      by_cases hnames : names = []
      · simp only [hnames, List.append_nil] at hl
        simp [hl]
      · simp [h.lookup?_above hnames hl]
    have hdirectory : fs.lookup? location = some .directory := by
      obtain ⟨next, hnext⟩ := Option.isSome_iff_exists.1 hnext
      exact h.lookup?_parent hnext
    refine walk_cons_eq_ok_iff.2 ⟨location ++ [name], step_eq_ok_iff.2 ⟨hdirectory, ?_⟩, ih hl⟩
    exact .inr (.inr ⟨hname.isFileName.ne_dot, hname.isFileName.ne_dots, hname.short, hnext, rfl⟩)

end IsTree

/-! ## Listing -/

/-- What a location adds to the one of a directory above it. -/
theorem cut_eq_some_iff {location held names : Location} {e entry : Entry} :
    (match List.isPrefixOf? location held with
      | some (name :: names) => some (name :: names, e)
      | _ => none) = some (names, entry) ↔
        names ≠ [] ∧ location ++ names = held ∧ e = entry := by
  rw [← List.isPrefixOf?_eq_some_iff_append_eq]
  rcases List.isPrefixOf? location held with _ | _ | ⟨name, rest⟩
  · simp
  · simp +contextual [eq_comm]
  · simp +contextual [eq_comm]

theorem mem_below_iff {location names : Location} {entry : Entry} :
    (names, entry) ∈ fs.below location ↔ names ≠ [] ∧ (location ++ names, entry) ∈ fs.entries := by
  unfold below
  rw [List.mem_mergeSort, List.mem_filterMap]
  constructor
  · rintro ⟨⟨held, e⟩, hheld, hcut⟩
    obtain ⟨hne, rfl, rfl⟩ := cut_eq_some_iff.1 hcut
    exact ⟨hne, hheld⟩
  · rintro ⟨hne, hheld⟩
    exact ⟨_, hheld, cut_eq_some_iff.2 ⟨hne, rfl, rfl⟩⟩

theorem IsTree.eq_of_mem (h : fs.IsTree) {location : Location} {entry other : Entry}
    (hentry : (location, entry) ∈ fs.entries) (hother : (location, other) ∈ fs.entries) :
    entry = other := by
  have heq := List.inj_on_of_nodup_map h.nodup hentry hother rfl
  exact (Prod.ext_iff.1 heq).2

theorem IsTree.pairwise_below (h : fs.IsTree) (location : Location) :
    (fs.below location).Pairwise fun a b => a.1 ≠ b.1 := by
  have hnodup : (fs.below location).Nodup := by
    unfold below
    rw [(List.mergeSort_perm _ _).nodup_iff]
    refine (h.nodup.of_map _).filterMap ?_
    rintro ⟨held, e⟩ ⟨held', e'⟩ ⟨names, entry⟩ hcut hcut'
    obtain ⟨-, rfl, rfl⟩ := cut_eq_some_iff.1 hcut
    obtain ⟨-, rfl, rfl⟩ := cut_eq_some_iff.1 hcut'
    rfl
  refine hnodup.imp_of_mem ?_
  rintro ⟨names, entry⟩ ⟨names', entry'⟩ hmem hmem' hne rfl
  exact hne (by rw [h.eq_of_mem (mem_below_iff.1 hmem).2 (mem_below_iff.1 hmem').2])

theorem IsTree.contents?_eq_some_iff_mem (h : fs.IsTree) {location : Location}
    {contents : ByteArray} : fs.contents? location = some contents ↔
      location ≠ [] ∧ (location, .file contents) ∈ fs.entries := by
  rw [contents?_eq_some_iff]
  constructor
  · intro hlookup
    have hne : location ≠ [] := by
      rintro rfl
      cases hlookup
    exact ⟨hne, exists_mem_of_lookup? hne hlookup⟩
  · rintro ⟨hne, hmem⟩
    have hsome : (fs.entries.lookup location).isSome := by
      by_contra hnone
      rw [Option.not_isSome_iff_eq_none, List.lookup_eq_none_iff] at hnone
      simpa using hnone _ hmem
    obtain ⟨entry, hentry⟩ := Option.isSome_iff_exists.1 hsome
    have hlookup : fs.lookup? location = some entry := by rw [lookup?, if_neg hne, hentry]
    obtain rfl := h.eq_of_mem hmem (exists_mem_of_lookup? hne hlookup)
    exact hlookup

/-- Listing a directory gives each file below it, by the names that lead there. -/
theorem IsTree.exists_listFiles (h : fs.IsTree) {path : String} {root : Location}
    (hresolve : fs.resolve path = .ok root) (hroot : fs.lookup? root = some .directory) :
    ∃ files, fs.listFiles path = .ok files ∧ files.Nodup ∧
      ∀ names, names ∈ files ↔ ∃ contents, fs.contents? (root ++ names) = some contents := by
  have hfile (names found : Location) (entry : Entry) :
      (if entry.isDirectory = true then none else some names) = some found ↔
        names = found ∧ ∃ contents, entry = .file contents := by
    cases entry <;> simp [Entry.isDirectory]
  refine ⟨_, by rw [listFiles, hresolve]; simp only [bind, Except.bind, hroot]; rfl, ?_, ?_⟩
  · refine (h.pairwise_below root).filterMap _ ?_
    rintro ⟨names, entry⟩ ⟨names', entry'⟩ hne found hfound found' hfound'
    obtain ⟨rfl, -⟩ := (hfile _ _ _).1 hfound
    obtain ⟨rfl, -⟩ := (hfile _ _ _).1 hfound'
    exact hne
  · intro names
    simp only [List.mem_filterMap, Prod.exists, mem_below_iff, hfile, h.contents?_eq_some_iff_mem]
    constructor
    · rintro ⟨_, _, ⟨hne, hmem⟩, rfl, contents, rfl⟩
      exact ⟨contents, by simp [hne], hmem⟩
    · rintro ⟨contents, hne, hmem⟩
      have hnames : names ≠ [] := by
        rintro rfl
        have hlookup := contents?_eq_some_iff.1 (h.contents?_eq_some_iff_mem.2 ⟨hne, hmem⟩)
        rw [List.append_nil, hroot] at hlookup
        cases hlookup
      exact ⟨names, _, ⟨hnames, hmem⟩, rfl, contents, rfl⟩

/-! ## Where a path can lead -/

theorem walk_append_eq_ok_iff {location target : Location} {names more : List String} :
    fs.walk location (names ++ more) = .ok target ↔
      ∃ middle, fs.walk location names = .ok middle ∧ fs.walk middle more = .ok target := by
  unfold walk
  rw [List.foldlM_append]
  cases List.foldlM fs.step location names with
  | error fault => simp [bind, Except.bind]
  | ok middle => simp [bind, Except.bind]

/-- Following names takes some away from the end of a location and adds others of them there. -/
theorem exists_of_walk {location target : Location} {names : List String}
    (h : fs.walk location names = .ok target) :
    ∃ front added, front <+: location ∧ added ⊆ names ∧ target = front ++ added := by
  induction names generalizing location with
  | nil =>
    rw [walk_nil, Except.ok.injEq] at h
    exact ⟨location, [], List.prefix_refl _, List.nil_subset _, by simp [h]⟩
  | cons name names ih =>
    obtain ⟨next, hstep, hwalk⟩ := walk_cons_eq_ok_iff.1 h
    obtain ⟨front, added, hfront, hadded, rfl⟩ := ih hwalk
    have hadded' : added ⊆ name :: names := List.subset_cons_of_subset name hadded
    rcases (step_eq_ok_iff.1 hstep).2 with ⟨-, rfl⟩ | ⟨-, rfl⟩ | ⟨-, -, -, -, rfl⟩
    · exact ⟨front, added, hfront, hadded', rfl⟩
    · exact ⟨front, added, hfront.trans (List.dropLast_prefix _), hadded', rfl⟩
    · rcases List.prefix_concat_iff.1 hfront with rfl | hfront
      · refine ⟨location, name :: added, List.prefix_refl _, ?_, by simp⟩
        exact List.cons_subset_cons _ hadded
      · exact ⟨front, added, hfront, hadded', rfl⟩

end MacroFamilies.FileSystem
