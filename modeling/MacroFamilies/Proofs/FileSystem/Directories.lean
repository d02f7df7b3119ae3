import MacroFamilies.Proofs.FileSystem.Changes
/-!
# Directories that are there

Directories are made as far as they are missing. Once that has succeeded the directory is there, and
making it again changes nothing. Whether files can be staged in a directory, and whether they can be
moved from there to a path, depends on the directories alone.
-/

namespace MacroFamilies.FileSystem

variable {fs fs' : FileSystem} {path : String}

theorem isDirectory_iff : fs.isDirectory path = true ↔
    ∃ location, fs.resolve path = .ok location ∧ fs.kind? location = some true := by
  unfold isDirectory
  cases fs.resolve path with
  | error fault => simp
  | ok location => simp [hasDirectory_iff]

theorem SameDirectories.resolve_directory (h : SameDirectories fs fs') {location : Location}
    (hpath : fs.resolve path = .ok location) (hkind : fs.kind? location = some true) :
    fs'.resolve path = .ok location ∧ fs'.kind? location = some true := by
  obtain ⟨hcheck, hwalk, -⟩ := resolve_eq_ok_iff.1 hpath
  have hkind' : fs'.kind? location = some true := (h.directory location).1 hkind
  refine ⟨resolve_eq_ok_iff.2 ⟨hcheck, ?_, by simp [hkind']⟩, hkind'⟩
  rw [origin_eq h.workingDirectory]
  exact h.walk hwalk ((lookup?_eq_directory_iff location).2 hkind)

theorem SameDirectories.isDirectory (h : SameDirectories fs fs')
    (hpath : fs.isDirectory path = true) : fs'.isDirectory path = true := by
  obtain ⟨location, hresolve, hkind⟩ := isDirectory_iff.1 hpath
  exact isDirectory_iff.2 ⟨location, h.resolve_directory hresolve hkind⟩

/-! ## Making a directory -/

theorem isDirectory_of_makeDirectory (h : fs.makeDirectory path = .ok fs') :
    fs'.isDirectory path = true := by
  obtain ⟨parent, name, hnew, hlong, hfree, rfl⟩ := makeDirectory_eq_ok_iff.1 h
  have hne : parent ++ [name] ≠ [] := by simp
  have hextends := Extends.put hne hfree .directory
  have hkind : (fs.put (parent ++ [name]) .directory).kind? (parent ++ [name]) = some true := by
    rw [kind?_put hne, if_pos rfl]
    rfl
  have hnew' : (fs.put (parent ++ [name]) .directory).resolveNew path =
      .ok (parent, some name) := by
    obtain ⟨hcheck, hwalk, hparent, hname⟩ := resolveNew_eq_ok_iff.1 hnew
    refine resolveNew_eq_ok_iff.2 ⟨hcheck, ?_, hextends.lookup?_directory hparent, hname⟩
    exact hextends.walk hwalk
  refine isDirectory_iff.2 ⟨parent ++ [name], ?_, hkind⟩
  exact resolve_of_resolveNew hnew' hlong ((isSome_lookup?_iff _).2 ⟨true, hkind⟩) (by simp [hkind])

theorem makeDirectory_of_isDirectory (h : fs.isDirectory path = true) :
    fs.makeDirectory path = .error .alreadyExists := by
  obtain ⟨location, hresolve, hkind⟩ := isDirectory_iff.1 h
  obtain ⟨hcheck, hwalk, -⟩ := resolve_eq_ok_iff.1 hresolve
  -- a path without a last name, or with dots for one, has no place for something new
  rcases List.eq_nil_or_concat (Path.names path) with hnames | ⟨names, name, hnames⟩
  · rw [hnames, walk_nil, Except.ok.injEq] at hwalk
    have hnew : fs.resolveNew path = .ok (fs.origin path, none) := by
      refine resolveNew_eq_ok_iff.2 ⟨hcheck, ?_, ?_, ?_⟩
      · rw [hnames]
        rfl
      · rw [hwalk]
        exact (lookup?_eq_directory_iff location).2 hkind
      · rw [hnames]
        rfl
    unfold makeDirectory
    rw [hnew]
    rfl
  · rw [List.concat_eq_append] at hnames
    rw [hnames, walk_append_singleton_eq_ok_iff] at hwalk
    obtain ⟨parent, hparent, hstep⟩ := hwalk
    have hnew : fs.resolveNew path =
        .ok (parent, (some name).filter fun name => name ≠ "." ∧ name ≠ "..") := by
      refine resolveNew_eq_ok_iff.2 ⟨hcheck, ?_, lookup?_of_step hstep, ?_⟩
      · simpa [hnames] using hparent
      · simp [hnames]
    unfold makeDirectory
    rw [hnew]
    rcases (step_eq_ok_iff.1 hstep).2 with ⟨rfl, -⟩ | ⟨rfl, -⟩ | ⟨hdot, hdots, hlong, hsome, -⟩
    · rfl
    · rfl
    · have hfilter : (some name).filter (fun name => decide (name ≠ "." ∧ name ≠ "..")) =
          some name := by
        simp [hdot, hdots]
      simp only [hfilter, bind, Except.bind]
      rw [if_neg (by omega), if_pos hsome]

/-! ## Making directories -/

theorem makeDirectoriesUpTo_of_isDirectory (depth : Nat) (h : fs.isDirectory path = true) :
    makeDirectoriesUpTo (depth + 1) fs path = (fs, .ok ()) := by
  rw [makeDirectoriesUpTo, makeDirectory_of_isDirectory h]
  simp [h]

theorem makeDirectories_of_isDirectory (h : fs.isDirectory path = true) :
    fs.makeDirectories path = (fs, .ok ()) :=
  makeDirectoriesUpTo_of_isDirectory path.length h

theorem isDirectory_of_makeDirectoriesUpTo {depth : Nat} (hne : path ≠ "")
    (h : makeDirectoriesUpTo depth fs path = (fs', .ok ())) : fs'.isDirectory path = true := by
  cases depth with
  | zero => cases h
  | succ depth =>
    rw [makeDirectoriesUpTo, if_neg hne] at h
    split at h
    · next hmade =>
      cases h
      exact isDirectory_of_makeDirectory hmade
    · split at h
      · cases h
      · split at h
        · next hmade =>
          cases h
          exact isDirectory_of_makeDirectory hmade
        · split at h
          · next hthere =>
            cases h
            exact hthere
          · cases h
    · split at h
      · next hthere =>
        cases h
        exact hthere
      · cases h

theorem isDirectory_of_makeDirectories (hne : path ≠ "")
    (h : fs.makeDirectories path = (fs', .ok ())) : fs'.isDirectory path = true :=
  isDirectory_of_makeDirectoriesUpTo hne h

/-- Making directories again changes nothing, whatever happened to the files in between. -/
theorem makeDirectories_again {after : FileSystem} (h : fs.makeDirectories path = (fs', .ok ()))
    (hsame : SameDirectories fs' after) : after.makeDirectories path = (after, .ok ()) := by
  by_cases hne : path = ""
  · subst hne
    rfl
  · exact makeDirectories_of_isDirectory (hsame.isDirectory (isDirectory_of_makeDirectories hne h))

/-! ## What a delivery needs -/

theorem SameDirectories.stagesIn (h : SameDirectories fs fs') {parent : Location}
    (hstages : fs.StagesIn path parent) : fs'.StagesIn path parent where
  resolves := by
    have hresolves := hstages.resolves
    unfold temporaryDirectory at hresolves ⊢
    split_ifs at hresolves ⊢ with hempty
    · rw [h.workingDirectory]
      exact hresolves
    · have hkind := (lookup?_eq_directory_iff parent).1 hstages.directory
      exact (h.resolve_directory hresolves hkind).1
  directory := by
    rw [lookup?_eq_directory_iff, ← h.directory, ← lookup?_eq_directory_iff]
    exact hstages.directory

/-- A file that is staged in a directory can be moved to a path. -/
def Accepts (fs : FileSystem) (parent : Location) (path : String) : Prop :=
  ∃ target, fs.Receives path target ∧ ¬ target <+: parent

theorem SameDirectories.accepts (h : SameDirectories fs fs') {parent : Location}
    (haccepts : fs.Accepts parent path) : fs'.Accepts parent path := by
  obtain ⟨target, hreceives, hinside⟩ := haccepts
  exact ⟨target, hreceives.of_sameDirectories h, hinside⟩

theorem prefix_append_singleton_ne_iff {target parent : Location} (name : String) :
    target <+: parent ++ [name] ∧ target ≠ parent ++ [name] ↔ target <+: parent := by
  rw [List.prefix_concat_iff]
  constructor
  · rintro ⟨heq | hprefix, hne⟩
    · exact absurd heq hne
    · exact hprefix
  · intro hprefix
    refine ⟨.inr hprefix, ?_⟩
    rintro rfl
    have hlength := hprefix.length_le
    simp at hlength

/-- A staged file can be moved to the paths that its directory's files can be moved to. -/
theorem exists_moveFile_iff {parent : Location} {name : String}
    (hsource : fs.contents? (parent ++ [name]) ≠ none) :
    (∃ fs', fs.moveFile (parent ++ [name]) path = .ok fs') ↔ fs.Accepts parent path := by
  obtain ⟨contents, hcontents⟩ := Option.ne_none_iff_exists'.1 hsource
  constructor
  · rintro ⟨fs', hmove⟩
    obtain ⟨target, _, hreceives, -, hinside, -⟩ := moveFile_eq_ok_iff.1 hmove
    rw [prefix_append_singleton_ne_iff] at hinside
    exact ⟨target, hreceives, hinside⟩
  · rintro ⟨target, hreceives, hinside⟩
    rw [← prefix_append_singleton_ne_iff name] at hinside
    exact ⟨_, moveFile_eq_ok_iff.2 ⟨target, contents, hreceives, hcontents, hinside, rfl⟩⟩

/-- A file can be staged in a directory and moved from there to a path. -/
def Takes (fs : FileSystem) (directory path : String) : Prop :=
  ∃ parent, fs.StagesIn directory parent ∧ fs.Accepts parent path

theorem SameDirectories.takes (h : SameDirectories fs fs') {directory : String}
    (htakes : fs.Takes directory path) : fs'.Takes directory path := by
  obtain ⟨parent, hstages, haccepts⟩ := htakes
  exact ⟨parent, h.stagesIn hstages, h.accepts haccepts⟩

end MacroFamilies.FileSystem
