import MacroFamilies.FileSystem.Basic
import MacroFamilies.Proofs.Path
/-!
# Paths and kinds

Where a path leads depends only on where there are files and where there are directories. A file
system `Extends` another when nothing of that has changed and something may have been added; every
path that led somewhere then still leads there. The place that a new file of a path has depends on
the directories alone.
-/

namespace MacroFamilies.FileSystem

variable {fs fs' fs'' : FileSystem}

/-- Whether there is a directory at a location, if anything is there. -/
def kind? (fs : FileSystem) (location : Location) : Option Bool :=
  (fs.lookup? location).map Entry.isDirectory

/-- Everything is where it was, and directories are directories still. -/
structure Extends (fs fs' : FileSystem) : Prop where
  workingDirectory : fs'.workingDirectory = fs.workingDirectory
  kind : ∀ location k, fs.kind? location = some k → fs'.kind? location = some k

/-- The same locations have directories. -/
structure SameDirectories (fs fs' : FileSystem) : Prop where
  workingDirectory : fs'.workingDirectory = fs.workingDirectory
  directory : ∀ location, fs.kind? location = some true ↔ fs'.kind? location = some true

/-- The same is at every location. -/
structure Agrees (fs fs' : FileSystem) : Prop where
  workingDirectory : fs'.workingDirectory = fs.workingDirectory
  lookup : ∀ location, fs'.lookup? location = fs.lookup? location

theorem lookup?_eq_directory_iff (location : Location) :
    fs.lookup? location = some .directory ↔ fs.kind? location = some true := by
  unfold kind?
  cases h : fs.lookup? location with
  | none => simp
  | some entry => cases entry <;> simp [Entry.isDirectory]

theorem hasDirectory_iff (location : Location) :
    fs.hasDirectory location = true ↔ fs.kind? location = some true := by
  unfold hasDirectory kind?
  cases fs.lookup? location <;> simp

theorem kind?_eq_false_iff (location : Location) :
    fs.kind? location = some false ↔ ∃ contents, fs.contents? location = some contents := by
  unfold kind? contents?
  cases h : fs.lookup? location with
  | none => simp
  | some entry => cases entry <;> simp [Entry.isDirectory]

theorem lookup?_eq_of_kind?_contents? {location : Location}
    (hkind : fs'.kind? location = fs.kind? location)
    (hcontents : fs'.contents? location = fs.contents? location) :
    fs'.lookup? location = fs.lookup? location := by
  unfold kind? at hkind
  unfold contents? at hcontents
  cases h : fs.lookup? location with
  | none =>
    rw [h] at hkind
    simpa using hkind
  | some entry =>
    cases h' : fs'.lookup? location with
    | none => simp [h, h'] at hkind
    | some entry' => cases entry <;> cases entry' <;> simp_all [Entry.isDirectory]

theorem isSome_lookup?_iff (location : Location) :
    (fs.lookup? location).isSome ↔ ∃ k, fs.kind? location = some k := by
  unfold kind?
  cases fs.lookup? location <;> simp

namespace Extends

theorem refl (fs : FileSystem) : Extends fs fs := ⟨rfl, fun _ _ h => h⟩

theorem trans (h : Extends fs fs') (h' : Extends fs' fs'') : Extends fs fs'' where
  workingDirectory := h'.workingDirectory.trans h.workingDirectory
  kind := fun location k hk => h'.kind location k (h.kind location k hk)

theorem isSome_lookup? (h : Extends fs fs') {location : Location}
    (hl : (fs.lookup? location).isSome) : (fs'.lookup? location).isSome := by
  obtain ⟨k, hk⟩ := (isSome_lookup?_iff location).1 hl
  exact (isSome_lookup?_iff location).2 ⟨k, h.kind location k hk⟩

theorem lookup?_directory (h : Extends fs fs') {location : Location}
    (hl : fs.lookup? location = some .directory) : fs'.lookup? location = some .directory := by
  rw [lookup?_eq_directory_iff] at hl ⊢
  exact h.kind location true hl

theorem put {location : Location} (hne : location ≠ []) (hnone : fs.lookup? location = none)
    (entry : Entry) : Extends fs (fs.put location entry) where
  workingDirectory := rfl
  kind := by
    intro other k hk
    have hother : other ≠ location := by
      rintro rfl
      simp [kind?, hnone] at hk
    unfold kind? at hk ⊢
    rwa [lookup?_put hne, if_neg hother]

end Extends

theorem Agrees.refl (fs : FileSystem) : Agrees fs fs := ⟨rfl, fun _ => rfl⟩

theorem Agrees.contents? (h : Agrees fs fs') (location : Location) :
    fs'.contents? location = fs.contents? location := by
  unfold FileSystem.contents?
  rw [h.lookup]

theorem Agrees.extends (h : Agrees fs fs') : Extends fs fs' where
  workingDirectory := h.workingDirectory
  kind := fun location k hk => by rwa [kind?, h.lookup, ← kind?]

theorem Agrees.sameDirectories (h : Agrees fs fs') : SameDirectories fs fs' where
  workingDirectory := h.workingDirectory
  directory := fun location => by rw [kind?, kind?, h.lookup]

theorem SameDirectories.symm (h : SameDirectories fs fs') : SameDirectories fs' fs where
  workingDirectory := h.workingDirectory.symm
  directory := fun location => (h.directory location).symm

theorem SameDirectories.trans (h : SameDirectories fs fs') (h' : SameDirectories fs' fs'') :
    SameDirectories fs fs'' where
  workingDirectory := h'.workingDirectory.trans h.workingDirectory
  directory := fun location => (h.directory location).trans (h'.directory location)

/-! ## Following a path -/

theorem lookup?_of_step {location target : Location} {name : String}
    (h : fs.step location name = .ok target) : fs.lookup? location = some .directory := by
  unfold step at h
  cases hl : fs.lookup? location with
  | none => simp [hl] at h
  | some entry =>
    cases entry with
    | file contents => simp [hl] at h
    | directory => rfl

theorem step_eq_ok_iff {location target : Location} {name : String} :
    fs.step location name = .ok target ↔ fs.lookup? location = some .directory ∧
      (name = "." ∧ target = location ∨ name = ".." ∧ target = location.dropLast ∨
        name ≠ "." ∧ name ≠ ".." ∧ name.utf8ByteSize ≤ maxNameBytes ∧
          (fs.lookup? (location ++ [name])).isSome ∧ target = location ++ [name]) := by
  constructor
  · intro h
    have hl := lookup?_of_step h
    refine ⟨hl, ?_⟩
    unfold step at h
    rw [hl] at h
    simp only at h
    split at h
    · next hdot => exact .inl ⟨hdot, by simpa using h.symm⟩
    · next hdot =>
      split at h
      · next hdots => exact .inr (.inl ⟨hdots, by simpa using h.symm⟩)
      · next hdots =>
        split at h
        · cases h
        · next hlong =>
          split at h
          · next hsome =>
            exact .inr (.inr ⟨hdot, hdots, by omega, hsome, by simpa using h.symm⟩)
          · cases h
  · rintro ⟨hl, ⟨rfl, rfl⟩ | ⟨rfl, rfl⟩ | ⟨hdot, hdots, hlong, hsome, rfl⟩⟩
    · simp [step, hl]
    · simp [step, hl]
    · rw [step, hl]
      simp only
      rw [if_neg hdot, if_neg hdots, if_neg (by omega), if_pos hsome]

theorem walk_nil (location : Location) : fs.walk location [] = .ok location := rfl

theorem walk_cons_eq_ok_iff {location target : Location} {name : String} {names : List String} :
    fs.walk location (name :: names) = .ok target ↔
      ∃ next, fs.step location name = .ok next ∧ fs.walk next names = .ok target := by
  unfold walk
  rw [List.foldlM_cons]
  cases fs.step location name with
  | error fault => simp [bind, Except.bind]
  | ok next => simp [bind, Except.bind]

theorem walk_append_singleton_eq_ok_iff {location target : Location} {names : List String}
    {name : String} : fs.walk location (names ++ [name]) = .ok target ↔
      ∃ parent, fs.walk location names = .ok parent ∧ fs.step parent name = .ok target := by
  unfold walk
  rw [List.foldlM_append]
  cases List.foldlM fs.step location names with
  | error fault => simp [bind, Except.bind]
  | ok parent => cases h : fs.step parent name <;> simp [bind, Except.bind, pure, Except.pure, h]

theorem Extends.walk (h : Extends fs fs') {location target : Location} {names : List String}
    (hw : fs.walk location names = .ok target) : fs'.walk location names = .ok target := by
  induction names generalizing location with
  | nil => exact hw
  | cons name names ih =>
    obtain ⟨next, hstep, hrest⟩ := walk_cons_eq_ok_iff.1 hw
    refine walk_cons_eq_ok_iff.2 ⟨next, ?_, ih hrest⟩
    rw [step_eq_ok_iff] at hstep ⊢
    refine ⟨h.lookup?_directory hstep.1, ?_⟩
    rcases hstep.2 with hdot | hdots | ⟨hdot, hdots, hlong, hsome, htarget⟩
    · exact .inl hdot
    · exact .inr (.inl hdots)
    · exact .inr (.inr ⟨hdot, hdots, hlong, h.isSome_lookup? hsome, htarget⟩)

/-- On the way to a directory there are only directories. -/
theorem SameDirectories.walk (h : SameDirectories fs fs') {location target : Location}
    {names : List String} (hw : fs.walk location names = .ok target)
    (htarget : fs.lookup? target = some .directory) :
    fs'.walk location names = .ok target := by
  have hdirectory {location : Location} (hl : fs.lookup? location = some .directory) :
      fs'.lookup? location = some .directory := by
    rw [lookup?_eq_directory_iff] at hl ⊢
    exact (h.directory location).1 hl
  induction names generalizing location with
  | nil => exact hw
  | cons name names ih =>
    obtain ⟨next, hstep, hrest⟩ := walk_cons_eq_ok_iff.1 hw
    have hnext : fs.lookup? next = some .directory := by
      cases names with
      | nil =>
        rw [walk_nil, Except.ok.injEq] at hrest
        rwa [hrest]
      | cons second names =>
        obtain ⟨_, hsecond, -⟩ := walk_cons_eq_ok_iff.1 hrest
        exact lookup?_of_step hsecond
    refine walk_cons_eq_ok_iff.2 ⟨next, ?_, ih hrest⟩
    rw [step_eq_ok_iff] at hstep ⊢
    refine ⟨hdirectory hstep.1, ?_⟩
    rcases hstep.2 with hdot | hdots | ⟨hdot, hdots, hlong, -, rfl⟩
    · exact .inl hdot
    · exact .inr (.inl hdots)
    · refine .inr (.inr ⟨hdot, hdots, hlong, ?_, rfl⟩)
      rw [hdirectory hnext]
      rfl

theorem origin_eq (h : fs'.workingDirectory = fs.workingDirectory) (path : String) :
    fs'.origin path = fs.origin path := by
  unfold origin
  rw [h]

theorem resolve_eq_ok_iff {path : String} {location : Location} :
    fs.resolve path = .ok location ↔ checkPath path = .ok () ∧
      fs.walk (fs.origin path) (Path.names path) = .ok location ∧
      (Path.endsInSlash path = true → fs.kind? location ≠ some false) := by
  unfold resolve kind?
  cases checkPath path with
  | error fault => simp [bind, Except.bind]
  | ok _ =>
    simp only [bind, Except.bind]
    cases fs.walk (fs.origin path) (Path.names path) with
    | error fault => simp
    | ok target =>
      simp only [true_and, Except.ok.injEq]
      cases Path.endsInSlash path with
      | false => simp [pure, Except.pure]
      | true =>
        by_cases htarget : target = location
        · subst htarget
          cases fs.lookup? target with
          | none => simp [pure, Except.pure]
          | some entry => cases entry <;> simp [pure, Except.pure, Entry.isDirectory]
        · cases fs.lookup? target with
          | none => simp [pure, Except.pure, htarget]
          | some entry => cases entry <;> simp [pure, Except.pure, htarget]

theorem Extends.resolve (h : Extends fs fs') {path : String} {location : Location}
    (hslash : Path.endsInSlash path = false) (hpath : fs.resolve path = .ok location) :
    fs'.resolve path = .ok location := by
  rw [resolve_eq_ok_iff] at hpath ⊢
  refine ⟨hpath.1, ?_, by simp [hslash]⟩
  rw [origin_eq h.workingDirectory]
  exact h.walk hpath.2.1

theorem resolveNew_eq_ok_iff {path : String} {parent : Location} {name? : Option String} :
    fs.resolveNew path = .ok (parent, name?) ↔ checkPath path = .ok () ∧
      fs.walk (fs.origin path) (Path.names path).dropLast = .ok parent ∧
      fs.lookup? parent = some .directory ∧
      name? = (Path.names path).getLast?.filter fun name => name ≠ "." ∧ name ≠ ".." := by
  unfold resolveNew
  cases checkPath path with
  | error fault => simp [bind, Except.bind]
  | ok _ =>
    simp only [bind, Except.bind, true_and]
    cases fs.walk (fs.origin path) (Path.names path).dropLast with
    | error fault => simp
    | ok target =>
      simp only [Except.ok.injEq]
      by_cases htarget : target = parent
      · subst htarget
        cases fs.lookup? target with
        | none => simp
        | some entry => cases entry <;> simp [pure, Except.pure, eq_comm]
      · cases fs.lookup? target with
        | none => simp [htarget]
        | some entry => cases entry <;> simp [pure, Except.pure, htarget]

theorem SameDirectories.resolveNew (h : SameDirectories fs fs') {path : String}
    {parent : Location} {name? : Option String} (hpath : fs.resolveNew path = .ok (parent, name?)) :
    fs'.resolveNew path = .ok (parent, name?) := by
  rw [resolveNew_eq_ok_iff] at hpath ⊢
  obtain ⟨hcheck, hwalk, hparent, hname⟩ := hpath
  refine ⟨hcheck, ?_, ?_, hname⟩
  · rw [origin_eq h.workingDirectory]
    exact h.walk hwalk hparent
  · rw [lookup?_eq_directory_iff] at hparent ⊢
    exact (h.directory parent).1 hparent

/-- There is something at the end of a path. -/
def Exists (fs : FileSystem) (path : String) : Prop :=
  ∃ location, fs.resolve path = .ok location ∧ (fs.lookup? location).isSome

theorem Extends.exists (h : Extends fs fs') {path : String} (hpath : fs.Exists path) :
    fs'.Exists path := by
  obtain ⟨location, hresolve, hsome⟩ := hpath
  obtain ⟨k, hk⟩ := (isSome_lookup?_iff location).1 hsome
  refine ⟨location, ?_, h.isSome_lookup? hsome⟩
  rw [resolve_eq_ok_iff] at hresolve ⊢
  obtain ⟨hcheck, hwalk, hslash⟩ := hresolve
  refine ⟨hcheck, ?_, ?_⟩
  · rw [origin_eq h.workingDirectory]
    exact h.walk hwalk
  · rw [h.kind location k hk, ← hk]
    exact hslash

theorem read_eq_ok_iff {path : String} {contents : ByteArray} :
    fs.read path = .ok contents ↔
      ∃ location, fs.resolve path = .ok location ∧ fs.contents? location = some contents := by
  unfold read contents?
  cases fs.resolve path with
  | error fault => simp [bind, Except.bind]
  | ok location =>
    simp only [bind, Except.bind, Except.ok.injEq, exists_eq_left']
    cases fs.lookup? location with
    | none => simp
    | some entry => cases entry <;> simp [pure, Except.pure]

theorem readText_eq_ok_iff {path text : String} :
    fs.readText path = .ok text ↔ fs.read path = .ok text.toUTF8 := by
  unfold readText
  cases fs.read path with
  | error fault => simp [bind, Except.bind]
  | ok contents =>
    simp only [bind, Except.bind, Except.ok.injEq]
    by_cases hvalid : contents.IsValidUTF8
    · have hread : String.fromUTF8? contents = some (String.fromUTF8 contents hvalid) := by
        simp [String.fromUTF8?, hvalid]
      simp only [hread, pure, Except.pure, Except.ok.injEq]
      rw [← String.toByteArray_inj]
      rfl
    · have hread : String.fromUTF8? contents = none := by
        simp [String.fromUTF8?, hvalid]
      simp only [hread, reduceCtorEq, false_iff]
      rintro rfl
      exact hvalid text.isValidUTF8

theorem readText_eq_notFound_iff {path : String} :
    fs.readText path = .error .notFound ↔ fs.read path = .error .notFound := by
  unfold readText
  cases fs.read path with
  | error fault => simp [bind, Except.bind]
  | ok contents =>
    simp only [bind, Except.bind, reduceCtorEq, iff_false]
    cases String.fromUTF8? contents <;> simp [pure, Except.pure]

/-- The texts of some files are still there. -/
def KeepsTexts (fs fs' : FileSystem) (paths : List String) : Prop :=
  ∀ path ∈ paths, ∀ text, fs.readText path = .ok text → fs'.readText path = .ok text

/-- Two paths lead to one file or directory. -/
def SamePlace (fs : FileSystem) (path other : String) : Prop :=
  ∃ location, fs.resolve path = .ok location ∧ fs.resolve other = .ok location

instance (fs : FileSystem) (path other : String) : Decidable (fs.SamePlace path other) :=
  match h : fs.resolve path with
  | .ok location =>
    decidable_of_iff (fs.resolve other = .ok location) (by simp [SamePlace, h])
  | .error _ => .isFalse (by simp [SamePlace, h])

theorem SamePlace.symm {path other : String} (h : fs.SamePlace path other) :
    fs.SamePlace other path := by
  obtain ⟨location, hpath, hother⟩ := h
  exact ⟨location, hother, hpath⟩

theorem SamePlace.trans {path other last : String} (h : fs.SamePlace path other)
    (h' : fs.SamePlace other last) : fs.SamePlace path last := by
  obtain ⟨location, hpath, hother⟩ := h
  obtain ⟨place, hother', hlast⟩ := h'
  rw [hother, Except.ok.injEq] at hother'
  exact ⟨location, hpath, hother' ▸ hlast⟩

theorem SamePlace.read_eq {path other : String} (h : fs.SamePlace path other) :
    fs.read path = fs.read other := by
  obtain ⟨location, hpath, hother⟩ := h
  unfold read
  rw [hpath, hother]

/-- A file name that is joined to a base leads to a place in the directory of the base. -/
theorem parent_of_resolve_join {base name : String} {location : Location}
    (hname : Path.IsFileName name) (h : fs.resolve (Path.join base name) = .ok location) :
    ∃ parent, fs.walk (fs.origin base) (Path.names base) = .ok parent ∧
      location = parent ++ [name] := by
  have horigin : fs.origin (Path.join base name) = fs.origin base := by
    unfold origin
    rw [Path.isAbsolute_join base hname.isAbsolute_eq]
  obtain ⟨-, hwalk, -⟩ := resolve_eq_ok_iff.1 h
  rw [horigin, Path.names_join base hname.isAbsolute_eq, hname.names_eq,
    walk_append_singleton_eq_ok_iff] at hwalk
  obtain ⟨parent, hparent, hstep⟩ := hwalk
  rcases (step_eq_ok_iff.1 hstep).2 with ⟨hdot, -⟩ | ⟨hdots, -⟩ | ⟨-, -, -, -, hlocation⟩
  · exact absurd hdot hname.ne_dot
  · exact absurd hdots hname.ne_dots
  · exact ⟨parent, hparent, hlocation⟩

theorem SamePlace.eq_of_join {base name other : String} (hname : Path.IsFileName name)
    (hother : Path.IsFileName other)
    (h : fs.SamePlace (Path.join base name) (Path.join base other)) : name = other := by
  obtain ⟨location, hlocation, hsame⟩ := h
  obtain ⟨parent, hparent, rfl⟩ := parent_of_resolve_join hname hlocation
  obtain ⟨parent', hparent', heq⟩ := parent_of_resolve_join hother hsame
  rw [hparent, Except.ok.injEq] at hparent'
  subst hparent'
  simpa using heq

/-! ## Where a file goes -/

/-- A file delivered to a path goes to a location in a directory, where no directory is. -/
structure Receives (fs : FileSystem) (path : String) (target : Location) : Prop where
  place : ∃ parent name, fs.resolveNew path = .ok (parent, some name) ∧ target = parent ++ [name] ∧
    name.utf8ByteSize ≤ maxNameBytes
  slash : Path.endsInSlash path = false
  kind : fs.kind? target ≠ some true

theorem Receives.ne_nil {path : String} {target : Location} (h : fs.Receives path target) :
    target ≠ [] := by
  obtain ⟨parent, name, -, rfl, -⟩ := h.place
  simp

theorem Receives.of_sameDirectories (h : SameDirectories fs fs') {path : String}
    {target : Location} (hpath : fs.Receives path target) : fs'.Receives path target where
  place := by
    obtain ⟨parent, name, hnew, htarget, hlong⟩ := hpath.place
    exact ⟨parent, name, h.resolveNew hnew, htarget, hlong⟩
  slash := hpath.slash
  kind := by
    rw [ne_eq, ← h.directory]
    exact hpath.kind

theorem names_of_resolveNew {path name : String} {parent : Location}
    (h : fs.resolveNew path = .ok (parent, some name)) :
    Path.names path = (Path.names path).dropLast ++ [name] ∧ name ≠ "." ∧ name ≠ ".." := by
  obtain ⟨-, -, -, hname⟩ := resolveNew_eq_ok_iff.1 h
  obtain ⟨hlast, hdots⟩ := Option.filter_eq_some_iff.1 hname.symm
  refine ⟨?_, by simpa using hdots⟩
  have hne : Path.names path ≠ [] := by
    intro hnil
    simp [hnil] at hlast
  rw [List.getLast?_eq_some_getLast hne, Option.some.injEq] at hlast
  conv_lhs => rw [← List.dropLast_append_getLast hne, hlast]

theorem resolve_of_resolveNew {path name : String} {parent : Location}
    (hnew : fs.resolveNew path = .ok (parent, some name)) (hlong : name.utf8ByteSize ≤ maxNameBytes)
    (hsome : (fs.lookup? (parent ++ [name])).isSome)
    (hslash : Path.endsInSlash path = true → fs.kind? (parent ++ [name]) ≠ some false) :
    fs.resolve path = .ok (parent ++ [name]) := by
  obtain ⟨hnames, hdot, hdots⟩ := names_of_resolveNew hnew
  obtain ⟨hcheck, hwalk, hparent, -⟩ := resolveNew_eq_ok_iff.1 hnew
  refine resolve_eq_ok_iff.2 ⟨hcheck, ?_, hslash⟩
  rw [hnames, walk_append_singleton_eq_ok_iff]
  exact ⟨parent, hwalk, step_eq_ok_iff.2 ⟨hparent, .inr (.inr ⟨hdot, hdots, hlong, hsome, rfl⟩)⟩⟩

theorem Receives.resolve {path : String} {target : Location} (h : fs.Receives path target)
    (hsome : (fs.lookup? target).isSome) : fs.resolve path = .ok target := by
  obtain ⟨parent, name, hnew, rfl, hlong⟩ := h.place
  exact resolve_of_resolveNew hnew hlong hsome (by simp [h.slash])

end MacroFamilies.FileSystem
