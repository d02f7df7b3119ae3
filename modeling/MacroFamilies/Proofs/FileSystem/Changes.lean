import MacroFamilies.Proofs.FileSystem.Kinds
/-!
# Changes to a file system

What each operation of a delivery does to the locations: making directories adds nothing but
directories, a temporary file takes a location of its own, and moving a file empties the one
location and fills the other.
-/

namespace MacroFamilies.FileSystem

variable {fs fs' fs'' : FileSystem}

theorem contents?_put {location : Location} (hne : location ≠ []) (contents : ByteArray)
    (other : Location) :
    (fs.put location (.file contents)).contents? other =
      if other = location then some contents else fs.contents? other := by
  unfold contents?
  rw [lookup?_put hne]
  split_ifs <;> rfl

theorem kind?_put {location : Location} (hne : location ≠ []) (entry : Entry) (other : Location) :
    (fs.put location entry).kind? other =
      if other = location then some entry.isDirectory else fs.kind? other := by
  unfold kind?
  rw [lookup?_put hne]
  split_ifs <;> rfl

theorem SameDirectories.put {location : Location} (hne : location ≠ [])
    (hkind : fs.kind? location ≠ some true) (contents : ByteArray) :
    SameDirectories fs (fs.put location (.file contents)) where
  workingDirectory := rfl
  directory := by
    intro other
    rw [kind?_put hne]
    split_ifs with hother
    · subst hother
      simp [hkind, Entry.isDirectory]
    · rfl

theorem contents?_of_lookup?_none {location : Location} (h : fs.lookup? location = none) :
    fs.contents? location = none := by
  unfold contents?
  rw [h]

/-! ## Making directories -/

/-- Some directories were added, and no file was touched. -/
structure AddsDirectories (fs fs' : FileSystem) : Prop extends Extends fs fs' where
  contents : ∀ location, fs'.contents? location = fs.contents? location

theorem AddsDirectories.refl (fs : FileSystem) : AddsDirectories fs fs where
  toExtends := .refl fs
  contents := fun _ => rfl

theorem AddsDirectories.trans (h : AddsDirectories fs fs') (h' : AddsDirectories fs' fs'') :
    AddsDirectories fs fs'' where
  toExtends := h.toExtends.trans h'.toExtends
  contents := fun location => (h'.contents location).trans (h.contents location)

theorem makeDirectory_eq_ok_iff {path : String} : fs.makeDirectory path = .ok fs' ↔
    ∃ parent name, fs.resolveNew path = .ok (parent, some name) ∧
      name.utf8ByteSize ≤ maxNameBytes ∧ fs.lookup? (parent ++ [name]) = none ∧
      fs' = fs.put (parent ++ [name]) .directory := by
  unfold makeDirectory
  cases fs.resolveNew path with
  | error fault => simp [bind, Except.bind]
  | ok place =>
    obtain ⟨parent, name?⟩ := place
    cases name? with
    | none => simp [bind, Except.bind]
    | some name =>
      simp only [bind, Except.bind, Except.ok.injEq, Prod.mk.injEq, Option.some.injEq]
      constructor
      · intro h
        split_ifs at h with hlong hthere
        refine ⟨parent, name, ⟨rfl, rfl⟩, by omega, ?_, by simpa [pure, Except.pure] using h.symm⟩
        simpa using hthere
      · rintro ⟨_, _, ⟨rfl, rfl⟩, hlong, hfree, rfl⟩
        rw [if_neg (by omega), if_neg (by simp [hfree])]
        rfl

theorem addsDirectories_of_makeDirectory {path : String} (h : fs.makeDirectory path = .ok fs') :
    AddsDirectories fs fs' := by
  obtain ⟨parent, name, -, -, hfree, rfl⟩ := makeDirectory_eq_ok_iff.1 h
  have hne : parent ++ [name] ≠ [] := by simp
  refine ⟨.put hne hfree .directory, fun location => ?_⟩
  by_cases hl : location = parent ++ [name]
  · rw [hl, contents?_of_lookup?_none hfree, contents?, lookup?_put hne, if_pos rfl]
  · unfold contents?
    rw [lookup?_put hne, if_neg hl]

theorem addsDirectories_makeDirectoriesUpTo (depth : Nat) (fs : FileSystem) (path : String) :
    AddsDirectories fs (makeDirectoriesUpTo depth fs path).1 := by
  induction depth generalizing fs path with
  | zero => exact .refl fs
  | succ depth ih =>
    unfold makeDirectoriesUpTo
    split
    · exact .refl fs
    · split
      · next hmade => exact addsDirectories_of_makeDirectory hmade
      · next parent _ _ =>
        have hparents := ih fs parent
        split
        · next hparent =>
          rw [hparent] at hparents
          exact hparents
        · next hparent =>
          rw [hparent] at hparents
          split
          · next hmade => exact hparents.trans (addsDirectories_of_makeDirectory hmade)
          · exact hparents
      · exact .refl fs

theorem addsDirectories_makeDirectories (fs : FileSystem) (path : String) :
    AddsDirectories fs (fs.makeDirectories path).1 :=
  addsDirectories_makeDirectoriesUpTo (path.length + 1) fs path

/-! ## Temporary files -/

/-- The directory that temporary files of a path are made in. -/
structure StagesIn (fs : FileSystem) (path : String) (parent : Location) : Prop where
  resolves : fs.temporaryDirectory path = .ok parent
  directory : fs.lookup? parent = some .directory

theorem makeTemporary_eq_ok_iff {naming : Naming} {directory : String} {contents : ByteArray}
    {location : Location} :
    fs.makeTemporary naming directory contents = .ok (fs', location) ↔
      ∃ parent, fs.StagesIn directory parent ∧ location = parent ++ [naming fs parent] ∧
        fs.lookup? location = none ∧ fs' = fs.put location (.file contents) := by
  constructor
  · intro h
    unfold makeTemporary at h
    cases hparent : fs.temporaryDirectory directory with
    | error fault => simp [hparent, bind, Except.bind] at h
    | ok parent =>
      simp only [hparent, bind, Except.bind] at h
      cases hl : fs.lookup? parent with
      | none => simp [hl] at h
      | some entry =>
        cases entry with
        | file _ => simp [hl] at h
        | directory =>
          simp only [hl, pure, Except.pure] at h
          split_ifs at h with htaken
          obtain ⟨hfs, rfl⟩ := Prod.mk.inj (Except.ok.inj h)
          exact ⟨parent, ⟨hparent, hl⟩, rfl, by simpa using htaken, hfs.symm⟩
  · rintro ⟨parent, hstages, rfl, hfree, rfl⟩
    unfold makeTemporary
    simp [hstages.resolves, hstages.directory, hfree, bind, Except.bind, pure, Except.pure]

/-- A temporary file takes a location where nothing is, under a name that is not avoided. -/
theorem makeTemporary_spec {naming : Naming} {avoided : List String} {directory : String}
    {contents : ByteArray} {location : Location} (havoids : naming.Avoids avoided)
    (h : fs.makeTemporary naming directory contents = .ok (fs', location)) :
    (∃ parent name, location = parent ++ [name] ∧ name ∉ avoided) ∧
      fs.lookup? location = none ∧ fs' = fs.put location (.file contents) := by
  obtain ⟨parent, -, rfl, hfree, hfs⟩ := makeTemporary_eq_ok_iff.1 h
  exact ⟨⟨parent, _, rfl, havoids fs parent⟩, hfree, hfs⟩

theorem sameDirectories_of_makeTemporary {naming : Naming} {directory : String}
    {contents : ByteArray} {location : Location}
    (h : fs.makeTemporary naming directory contents = .ok (fs', location)) :
    SameDirectories fs fs' := by
  obtain ⟨parent, -, rfl, hfree, rfl⟩ := makeTemporary_eq_ok_iff.1 h
  exact .put (by simp) (by simp [kind?, hfree]) contents

/-! ## Moving a file -/

theorem checkPath_eq_ok_iff {path : String} : checkPath path = .ok () ↔
    '\x00' ∉ path.toList ∧ path ≠ "" ∧ path.utf8ByteSize ≤ maxPathBytes := by
  unfold checkPath
  split_ifs with hnul hempty hsize <;> simp_all

theorem nul_not_mem_of_checkPath {path : String} (h : checkPath path = .ok ()) :
    '\x00' ∉ path.toList :=
  (checkPath_eq_ok_iff.1 h).1

/-- A file that is moved leaves its location and goes where its path is received, but not to where
its own directory is. -/
theorem moveFile_eq_ok_iff {source : Location} {path : String} :
    fs.moveFile source path = .ok fs' ↔
      ∃ target contents, fs.Receives path target ∧ fs.contents? source = some contents ∧
        ¬ (target <+: source ∧ target ≠ source) ∧
        fs' = (fs.erase source).put target (.file contents) := by
  constructor
  · intro h
    unfold moveFile at h
    simp only [bind, Except.bind, pure, Except.pure] at h
    by_cases hnul : '\x00' ∈ path.toList
    · rw [if_pos hnul] at h
      cases h
    · rw [if_neg hnul] at h
      cases hnew : fs.resolveNew path with
      | error fault => simp [hnew] at h
      | ok place =>
        obtain ⟨parent, name?⟩ := place
        simp only [hnew] at h
        cases name? with
        | none => cases h
        | some name =>
          cases hsource : fs.contents? source with
          | none => simp [hsource] at h
          | some contents =>
            simp only [hsource] at h
            split_ifs at h with hlong hslash hinside hdirectory
            simp only [Except.ok.injEq] at h
            refine ⟨parent ++ [name], contents,
              ⟨⟨parent, name, hnew, rfl, by omega⟩, ?_, ?_⟩, rfl, ?_, h.symm⟩
            · simpa using hslash
            · rwa [ne_eq, ← hasDirectory_iff]
            · simpa using hinside
  · rintro ⟨target, contents, hreceives, hsource, hinside, rfl⟩
    obtain ⟨parent, name, hnew, rfl, hlong⟩ := hreceives.place
    have hnul := nul_not_mem_of_checkPath (resolveNew_eq_ok_iff.1 hnew).1
    have hkind := hreceives.kind
    rw [ne_eq, ← hasDirectory_iff] at hkind
    unfold moveFile
    simp only [bind, Except.bind, pure, Except.pure, hnew, hsource]
    rw [if_neg hnul, if_neg (by omega), if_neg (by simp [hreceives.slash]),
      if_neg (by simpa using hinside), if_neg hkind]

/-! ## Writing where a path is received -/

theorem Receives.extends_put {path : String} {target : Location} (h : fs.Receives path target)
    (contents : ByteArray) : Extends fs (fs.put target (.file contents)) where
  workingDirectory := rfl
  kind := by
    intro location k hk
    rw [kind?_put h.ne_nil]
    split_ifs with hl
    · subst hl
      cases k with
      | false => rfl
      | true => exact absurd hk h.kind
    · exact hk

theorem Receives.sameDirectories_put {path : String} {target : Location}
    (h : fs.Receives path target) (contents : ByteArray) :
    SameDirectories fs (fs.put target (.file contents)) :=
  .put h.ne_nil h.kind contents

end MacroFamilies.FileSystem
