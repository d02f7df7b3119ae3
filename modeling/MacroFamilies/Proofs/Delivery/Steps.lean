import MacroFamilies.Delivery
import MacroFamilies.Proofs.FileSystem.Changes
/-!
# The steps of a delivery

While files are staged the file system holds temporary files besides its own. `Staged` relates it to
the one without them: staging makes this relation, moving a staged file to its place keeps it while
the file is written in the file system without temporary files, and discarding ends it. So a whole
delivery comes to writing some of its files, the first ones, one after another.
-/

namespace MacroFamilies.Delivery

open FileSystem

/-- A file system is another one with staged files, each under a name that is not avoided. -/
structure Staged (base fs : FileSystem) (avoid : List String)
    (staged : List (Location × RenderedFile)) : Prop where
  workingDirectory : fs.workingDirectory = base.workingDirectory
  nodup : (staged.map (·.1)).Nodup
  named : ∀ s ∈ staged, ∃ parent name, s.1 = parent ++ [name] ∧ name ∉ avoid
  free : ∀ s ∈ staged, base.lookup? s.1 = none
  held : ∀ s ∈ staged, fs.lookup? s.1 = some (.file s.2.contents.toUTF8)
  elsewhere : ∀ location, location ∉ staged.map (·.1) → fs.lookup? location = base.lookup? location

/-- Writing files to their paths one after another. -/
inductive Written : FileSystem → List RenderedFile → FileSystem → Prop
  | nil {fs after : FileSystem} (hagrees : Agrees fs after) : Written fs [] after
  | cons {fs after : FileSystem} {file : RenderedFile} {files : List RenderedFile}
      {target : Location} (hreceives : fs.Receives file.path target)
      (hrest : Written (fs.put target (.file file.contents.toUTF8)) files after) :
      Written fs (file :: files) after

variable {base fs fs' : FileSystem} {avoid : List String}
  {staged : List (Location × RenderedFile)}

theorem Staged.ne_nil (h : Staged base fs avoid staged) {s : Location × RenderedFile}
    (hs : s ∈ staged) : s.1 ≠ [] := by
  obtain ⟨parent, name, hlocation, -⟩ := h.named s hs
  rw [hlocation]
  simp

theorem Staged.nil (fs : FileSystem) (avoid : List String) : Staged fs fs avoid [] where
  workingDirectory := rfl
  nodup := List.nodup_nil
  named := by simp
  free := by simp
  held := by simp
  elsewhere := fun _ _ => rfl

theorem Staged.agrees (h : Staged base fs avoid []) : Agrees base fs where
  workingDirectory := h.workingDirectory
  lookup := fun location => h.elsewhere location (by simp)

theorem Staged.sameDirectories (h : Staged base fs avoid staged) : SameDirectories base fs where
  workingDirectory := h.workingDirectory
  directory := by
    intro location
    rw [← lookup?_eq_directory_iff, ← lookup?_eq_directory_iff]
    by_cases hmem : location ∈ staged.map (·.1)
    · obtain ⟨s, hs, rfl⟩ := List.mem_map.1 hmem
      simp [h.free s hs, h.held s hs]
    · rw [h.elsewhere location hmem]

/-! ## Staging -/

theorem lookup?_discard (fs : FileSystem) {locations : List Location} (hne : [] ∉ locations)
    (other : Location) :
    (discard fs locations).lookup? other =
      if other ∈ locations then none else fs.lookup? other := by
  induction locations generalizing fs with
  | nil => simp [discard]
  | cons location locations ih =>
    simp only [List.mem_cons, not_or] at hne
    have hrest := ih (fs.erase location) hne.2
    unfold discard at hrest ⊢
    rw [List.foldl_cons, hrest, lookup?_erase (Ne.symm hne.1)]
    by_cases hother : other = location
    · simp [hother]
    · simp [hother]

theorem workingDirectory_discard (fs : FileSystem) (locations : List Location) :
    (discard fs locations).workingDirectory = fs.workingDirectory := by
  unfold discard
  induction locations generalizing fs with
  | nil => rfl
  | cons location locations ih =>
    rw [List.foldl_cons, ih]
    rfl

theorem Staged.discard (h : Staged base fs avoid staged) :
    Agrees base (Delivery.discard fs (staged.map (·.1))) where
  workingDirectory := (workingDirectory_discard fs _).trans h.workingDirectory
  lookup := by
    intro location
    have hne : [] ∉ staged.map (·.1) := by
      intro hmem
      obtain ⟨s, hs, hnil⟩ := List.mem_map.1 hmem
      exact h.ne_nil hs hnil
    rw [lookup?_discard fs hne]
    split_ifs with hmem
    · obtain ⟨s, hs, rfl⟩ := List.mem_map.1 hmem
      exact (h.free s hs).symm
    · exact h.elsewhere location hmem

theorem Staged.cons {location : Location} {file : RenderedFile}
    (hnamed : ∃ parent name, location = parent ++ [name] ∧ name ∉ avoid)
    (hfree : base.lookup? location = none)
    (h : Staged (base.put location (.file file.contents.toUTF8)) fs avoid staged) :
    Staged base fs avoid ((location, file) :: staged) := by
  have hne : location ≠ [] := by
    obtain ⟨parent, name, rfl, -⟩ := hnamed
    simp
  have hother : ∀ s ∈ staged, s.1 ≠ location := by
    intro s hs heq
    have hnone := h.free s hs
    rw [lookup?_put hne, if_pos heq] at hnone
    cases hnone
  have hmem : location ∉ staged.map (·.1) := by
    intro hmem
    obtain ⟨s, hs, heq⟩ := List.mem_map.1 hmem
    exact hother s hs heq
  constructor
  · exact h.workingDirectory
  · exact List.nodup_cons.2 ⟨hmem, h.nodup⟩
  · intro s hs
    rcases List.mem_cons.1 hs with rfl | hs
    · exact hnamed
    · exact h.named s hs
  · intro s hs
    rcases List.mem_cons.1 hs with rfl | hs
    · exact hfree
    · have hnone := h.free s hs
      rwa [lookup?_put hne, if_neg (hother s hs)] at hnone
  · intro s hs
    rcases List.mem_cons.1 hs with rfl | hs
    · rw [h.elsewhere location hmem, lookup?_put hne, if_pos rfl]
    · exact h.held s hs
  · intro other hnot
    simp only [List.map_cons, List.mem_cons, not_or] at hnot
    rw [h.elsewhere other hnot.2, lookup?_put hne, if_neg hnot.1]

theorem stage_spec {naming : Naming} (havoids : naming.Avoids avoid) (directory : String)
    (fs : FileSystem) (files : List RenderedFile) :
    (∃ fs' locations, stage naming directory fs files = (fs', .ok locations) ∧
      locations.length = files.length ∧ Staged fs fs' avoid (locations.zip files)) ∨
    ∃ fs' e, stage naming directory fs files = (fs', .error e) ∧ Agrees fs fs' := by
  induction files generalizing fs with
  | nil => exact .inl ⟨fs, [], rfl, rfl, .nil fs avoid⟩
  | cons file files ih =>
    unfold stage
    cases htemporary : fs.makeTemporary naming directory file.contents.toUTF8 with
    | error fault => exact .inr ⟨fs, _, rfl, .refl fs⟩
    | ok made =>
      obtain ⟨made, location⟩ := made
      obtain ⟨hnamed, hfree, rfl⟩ := makeTemporary_spec havoids htemporary
      have hne : location ≠ [] := by
        obtain ⟨parent, name, rfl, -⟩ := hnamed
        simp
      simp only
      rcases ih (fs.put location (.file file.contents.toUTF8)) with
        ⟨fs', locations, hstage, hlength, hstaged⟩ | ⟨fs', e, hstage, hagrees⟩
      · rw [hstage]
        refine .inl ⟨fs', location :: locations, rfl, by simp [hlength], ?_⟩
        exact .cons hnamed hfree hstaged
      · rw [hstage]
        refine .inr ⟨_, e, rfl, hagrees.workingDirectory, fun other => ?_⟩
        rw [lookup?_erase hne, hagrees.lookup, lookup?_put hne]
        split_ifs with hother
        · rw [hother, hfree]
        · rfl

/-! ## Placing -/

/-- A file whose name is not avoided is not the target of a file with avoided names. -/
theorem Staged.ne_target (h : Staged base fs avoid staged) {path : String} {target : Location}
    (hnames : ∀ name ∈ Path.names path, name ∈ avoid) (hpath : fs.Receives path target)
    {s : Location × RenderedFile} (hs : s ∈ staged) : s.1 ≠ target := by
  obtain ⟨parent, name, hlocation, hname⟩ := h.named s hs
  obtain ⟨targetParent, targetName, hnew, rfl, -⟩ := hpath.place
  rw [hlocation]
  intro heq
  have hlast := congrArg List.getLast? heq
  simp only [List.getLast?_append, List.getLast?_singleton, Option.some_or,
    Option.some.injEq] at hlast
  apply hname
  rw [hlast]
  apply hnames
  rw [(names_of_resolveNew hnew).1]
  simp

/-- Moving the first staged file is writing it where no temporary files are. -/
theorem Staged.move {location : Location} {file : RenderedFile}
    (h : Staged base fs avoid ((location, file) :: staged))
    (hnames : ∀ name ∈ Path.names file.path, name ∈ avoid)
    (hmove : fs.moveFile location file.path = .ok fs') :
    ∃ target, base.Receives file.path target ∧
      Staged (base.put target (.file file.contents.toUTF8)) fs' avoid staged := by
  obtain ⟨target, contents, hreceives, hsource, -, rfl⟩ := moveFile_eq_ok_iff.1 hmove
  have hlocation : location ≠ [] := h.ne_nil (s := (location, file)) (by simp)
  have htarget : target ≠ [] := hreceives.ne_nil
  have hheld : fs.lookup? location = some (.file file.contents.toUTF8) :=
    h.held (location, file) (by simp)
  have hcontents : contents = file.contents.toUTF8 := by
    rw [contents?, hheld] at hsource
    simpa using hsource.symm
  have hmoved (other : Location) :
      ((fs.erase location).put target (.file contents)).lookup? other =
        if other = target then some (.file file.contents.toUTF8)
        else if other = location then none else fs.lookup? other := by
    rw [lookup?_put htarget, lookup?_erase hlocation, hcontents]
  obtain ⟨hnot, hnodup⟩ : location ∉ staged.map (·.1) ∧ (staged.map (·.1)).Nodup :=
    List.nodup_cons.1 h.nodup
  have hrest : ∀ s ∈ staged, s.1 ≠ target ∧ s.1 ≠ location := by
    intro s hs
    refine ⟨h.ne_target hnames hreceives (List.mem_cons_of_mem _ hs), ?_⟩
    intro heq
    apply hnot
    rw [← heq]
    exact List.mem_map_of_mem hs
  refine ⟨target, hreceives.of_sameDirectories h.sameDirectories.symm, ?_⟩
  constructor
  · exact h.workingDirectory
  · exact hnodup
  · exact fun s hs => h.named s (List.mem_cons_of_mem _ hs)
  · intro s hs
    rw [lookup?_put htarget, if_neg (hrest s hs).1]
    exact h.free s (List.mem_cons_of_mem _ hs)
  · intro s hs
    rw [hmoved, if_neg (hrest s hs).1, if_neg (hrest s hs).2]
    exact h.held s (List.mem_cons_of_mem _ hs)
  · intro other hother
    rw [hmoved, lookup?_put htarget]
    split_ifs with heq hsame
    · rfl
    · rw [hsame]
      exact (h.free (location, file) (by simp)).symm
    · apply h.elsewhere
      simp [hsame, hother]

theorem place_cons_of_move {location : Location} {file : RenderedFile}
    (h : fs.moveFile location file.path = .ok fs') :
    place fs ((location, file) :: staged) =
      ((place fs' staged).1, (place fs' staged).2.map (file.path :: ·)) := by
  rw [place, h]
  simp only
  cases place fs' staged with
  | mk last result => cases result <;> rfl

theorem place_spec {files : List RenderedFile} (h : Staged base fs avoid staged)
    (hfiles : staged.map (·.2) = files)
    (hnames : ∀ file ∈ files, ∀ name ∈ Path.names file.path, name ∈ avoid) :
    ∃ moved rest, files = moved ++ rest ∧ Written base moved (place fs staged).1 ∧
      (rest = [] ∧ (place fs staged).2 = .ok (files.map (·.path)) ∨
        ∃ refused behind fault, rest = refused :: behind ∧
          (place fs staged).2 = .error (failure "replace" refused.path fault)) := by
  induction staged generalizing base fs files with
  | nil =>
    subst hfiles
    exact ⟨[], [], rfl, .nil h.agrees, .inl ⟨rfl, rfl⟩⟩
  | cons s staged ih =>
    obtain ⟨location, file⟩ := s
    subst hfiles
    cases hmove : fs.moveFile location file.path with
    | error fault =>
      rw [place, hmove]
      refine ⟨[], file :: staged.map (·.2), rfl, .nil h.discard, .inr ?_⟩
      exact ⟨file, staged.map (·.2), fault, rfl, rfl⟩
    | ok next =>
      have hfile : ∀ name ∈ Path.names file.path, name ∈ avoid := hnames file (by simp)
      obtain ⟨target, hreceives, hnext⟩ := h.move hfile hmove
      obtain ⟨moved, rest, hsplit, hwritten, hresult⟩ :=
        ih hnext rfl fun other hother => hnames other (List.mem_cons_of_mem _ hother)
      rw [place_cons_of_move hmove]
      refine ⟨file :: moved, rest, ?_, .cons hreceives hwritten, ?_⟩
      · rw [List.map_cons, hsplit]
        rfl
      · rcases hresult with ⟨hrest, hok⟩ | ⟨refused, behind, fault, hrest, herror⟩
        · exact .inl ⟨hrest, by rw [hok]; rfl⟩
        · exact .inr ⟨refused, behind, fault, hrest, by rw [herror]; rfl⟩

theorem names_subset {d : Delivery} {file : RenderedFile} (hfile : file ∈ d.files) :
    ∀ name ∈ Path.names file.path, name ∈ d.names := by
  intro name hname
  exact List.mem_flatMap.2 ⟨file.path, List.mem_map_of_mem hfile, hname⟩

/-- A delivery makes its directory and writes its first files: all of them, or, when it fails, those
in front of the one that is refused. -/
theorem perform_spec (d : Delivery) (fs : FileSystem) {naming : Naming}
    (havoids : naming.Avoids d.names) :
    ∃ moved rest, d.files = moved ++ rest ∧
      Written (fs.makeDirectories d.directory).1 moved (d.perform fs naming).1 ∧
      (rest = [] ∧ (d.perform fs naming).2 = .ok d.paths ∨
        moved = [] ∧ (∃ e, (d.perform fs naming).2 = .error e) ∨
        ∃ refused behind fault, rest = refused :: behind ∧
          (d.perform fs naming).2 = .error (failure "replace" refused.path fault)) := by
  unfold perform
  cases hmade : fs.makeDirectories d.directory with
  | mk made result =>
    cases result with
    | error fault => exact ⟨[], d.files, rfl, .nil (.refl made), .inr (.inl ⟨rfl, _, rfl⟩)⟩
    | ok _ =>
      simp only
      rcases stage_spec havoids d.directory made d.files with
        ⟨staged, locations, hstage, hlength, hstaged⟩ | ⟨staged, e, hstage, hagrees⟩
      · rw [hstage]
        have hfiles : (locations.zip d.files).map (·.2) = d.files :=
          List.map_snd_zip (by omega)
        obtain ⟨moved, rest, hsplit, hwritten, hresult⟩ :=
          place_spec hstaged hfiles fun file => names_subset
        refine ⟨moved, rest, hsplit, hwritten, ?_⟩
        rcases hresult with hok | herror
        · exact .inl hok
        · exact .inr (.inr herror)
      · rw [hstage]
        exact ⟨[], d.files, rfl, .nil hagrees, .inr (.inl ⟨rfl, e, rfl⟩)⟩

end MacroFamilies.Delivery
