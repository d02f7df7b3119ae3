import MacroFamilies.Proofs.Delivery.Written
import MacroFamilies.Proofs.FileSystem.Directories
/-!
# Successful deliveries

A delivery succeeds only when its directory can be made and takes every file from there to its
place, and this is enough where fresh names are drawn for what is staged. It depends on the
directories alone, which writing files does not change; so a delivery that has succeeded succeeds
again, and then it changes nothing.
-/

namespace MacroFamilies.Delivery

open FileSystem

variable {base fs fs' : FileSystem} {naming : Naming} {avoid : List String} {directory : String}
  {parent : Location}

/-! ## Staging -/

theorem locations_of_stage (h : fs.StagesIn directory parent) {files : List RenderedFile}
    {locations : List Location}
    (hstage : stage naming directory fs files = (fs', .ok locations)) :
    ∀ location ∈ locations, ∃ name, location = parent ++ [name] := by
  induction files generalizing fs fs' locations with
  | nil =>
    cases hstage
    simp
  | cons file files ih =>
    rw [stage] at hstage
    cases hmade : fs.makeTemporary naming directory file.contents.toUTF8 with
    | error fault =>
      rw [hmade] at hstage
      cases hstage
    | ok made =>
      obtain ⟨made, location⟩ := made
      obtain ⟨other, hother, hlocation, -⟩ := makeTemporary_eq_ok_iff.1 hmade
      obtain rfl : other = parent := Except.ok.inj (hother.resolves.symm.trans h.resolves)
      have hstages := (sameDirectories_of_makeTemporary hmade).stagesIn h
      rw [hmade] at hstage
      simp only at hstage
      split at hstage
      · next hrest =>
        cases hstage
        simpa using ⟨⟨_, hlocation⟩, ih hstages hrest⟩
      · cases hstage

theorem stagesIn_of_stage {files : List RenderedFile} {locations : List Location}
    (hne : files ≠ []) (h : stage naming directory fs files = (fs', .ok locations)) :
    ∃ parent, fs.StagesIn directory parent := by
  obtain ⟨file, files, rfl⟩ := List.exists_cons_of_ne_nil hne
  rw [stage] at h
  cases hmade : fs.makeTemporary naming directory file.contents.toUTF8 with
  | error fault =>
    rw [hmade] at h
    cases h
  | ok made =>
    obtain ⟨parent, hstages, -⟩ := makeTemporary_eq_ok_iff.1 hmade
    exact ⟨parent, hstages⟩

theorem exists_stage (hfresh : naming.Fresh) (h : fs.StagesIn directory parent)
    (files : List RenderedFile) :
    ∃ fs' locations, stage naming directory fs files = (fs', .ok locations) := by
  induction files generalizing fs with
  | nil => exact ⟨fs, [], rfl⟩
  | cons file files ih =>
    obtain ⟨location, hlocation⟩ : ∃ location, location = parent ++ [naming fs parent] := ⟨_, rfl⟩
    have hmade : fs.makeTemporary naming directory file.contents.toUTF8 =
        .ok (fs.put location (.file file.contents.toUTF8), location) :=
      makeTemporary_eq_ok_iff.2 ⟨parent, h, hlocation, hlocation ▸ hfresh fs parent, rfl⟩
    obtain ⟨fs', locations, hstage⟩ := ih ((sameDirectories_of_makeTemporary hmade).stagesIn h)
    refine ⟨fs', location :: locations, ?_⟩
    rw [stage, hmade]
    simp only [hstage]

/-! ## Placing -/

theorem place_succeeds_iff {staged : List (Location × RenderedFile)}
    (h : Staged base fs avoid staged)
    (hparent : ∀ s ∈ staged, ∃ name, s.1 = parent ++ [name])
    (hnames : ∀ s ∈ staged, ∀ name ∈ Path.names s.2.path, name ∈ avoid) :
    (∃ paths, (place fs staged).2 = .ok paths) ↔ ∀ s ∈ staged, base.Accepts parent s.2.path := by
  induction staged generalizing base fs with
  | nil => simp [place]
  | cons s staged ih =>
    obtain ⟨location, file⟩ := s
    obtain ⟨name, rfl⟩ := hparent (location, file) (by simp)
    have hheld : fs.contents? (parent ++ [name]) ≠ none := by
      simp [contents?, h.held (parent ++ [name], file) (by simp)]
    -- moving looks at the directories only, and staged files are none
    have hmoves : (∃ fs', fs.moveFile (parent ++ [name]) file.path = .ok fs') ↔
        base.Accepts parent file.path := by
      rw [exists_moveFile_iff hheld]
      exact ⟨h.sameDirectories.symm.accepts, h.sameDirectories.accepts⟩
    rw [List.forall_mem_cons]
    cases hmove : fs.moveFile (parent ++ [name]) file.path with
    | error fault =>
      have hrefuses : ¬ base.Accepts parent file.path := by simp [← hmoves, hmove]
      rw [place, hmove]
      simp [hrefuses]
    | ok next =>
      have haccepts : base.Accepts parent file.path := hmoves.1 ⟨next, hmove⟩
      obtain ⟨target, hreceives, hnext⟩ := h.move (hnames (parent ++ [name], file) (by simp)) hmove
      have hsame := hreceives.sameDirectories_put file.contents.toUTF8
      have hrest := ih hnext (fun s hs => hparent s (List.mem_cons_of_mem _ hs))
        (fun s hs => hnames s (List.mem_cons_of_mem _ hs))
      have hresult : (∃ paths, (place fs ((parent ++ [name], file) :: staged)).2 = .ok paths) ↔
          ∃ paths, (place next staged).2 = .ok paths := by
        rw [place_cons_of_move hmove]
        cases (place next staged).2 with
        | error e => simp [Except.map]
        | ok paths => simp [Except.map]
      rw [hresult, hrest]
      exact ⟨fun hall => ⟨haccepts, fun s hs => hsame.symm.accepts (hall s hs)⟩,
        fun hall s hs => hsame.accepts (hall.2 s hs)⟩

theorem paths_of_place {staged : List (Location × RenderedFile)} {paths : List String}
    (h : place fs staged = (fs', .ok paths)) : paths = staged.map (·.2.path) := by
  induction staged generalizing fs fs' paths with
  | nil =>
    cases h
    rfl
  | cons s staged ih =>
    obtain ⟨location, file⟩ := s
    cases hmove : fs.moveFile location file.path with
    | error fault =>
      rw [place, hmove] at h
      cases h
    | ok next =>
      rw [place_cons_of_move hmove] at h
      cases hrest : place next staged with
      | mk last result =>
        rw [hrest] at h
        cases result with
        | error e => cases h
        | ok moved =>
          cases h
          rw [ih hrest, List.map_cons]

/-! ## Delivering -/

variable {d : Delivery} {paths : List String}

theorem perform_eq_ok_iff : d.perform fs naming = (fs', .ok paths) ↔
    ∃ made staged locations, fs.makeDirectories d.directory = (made, .ok ()) ∧
      stage naming d.directory made d.files = (staged, .ok locations) ∧
      place staged (locations.zip d.files) = (fs', .ok paths) := by
  unfold perform
  cases hmade : fs.makeDirectories d.directory with
  | mk made result =>
    cases result with
    | error fault => simp
    | ok _ =>
      cases hstage : stage naming d.directory made d.files with
      | mk staged result => cases result <;> simp [hstage]

/-- However temporary files are named, a delivery that succeeds gives the paths of its files. -/
theorem paths_of_perform (h : d.perform fs naming = (fs', .ok paths)) : paths = d.paths := by
  obtain ⟨made, staged, locations, -, hstage, hplace⟩ := perform_eq_ok_iff.1 h
  -- there is a staged file for each path even if no name is avoided
  have hnone : naming.Avoids [] := fun _ _ => List.not_mem_nil
  rcases stage_spec hnone d.directory made d.files with
    ⟨_, _, hspec, hlength, -⟩ | ⟨_, e, hspec, -⟩
  · rw [hstage, Prod.mk.injEq, Except.ok.injEq] at hspec
    obtain ⟨-, rfl⟩ := hspec
    have hfiles : (locations.zip d.files).map (·.2) = d.files := List.map_snd_zip (by omega)
    calc paths
      _ = ((locations.zip d.files).map (·.2)).map (·.path) := by
        rw [paths_of_place hplace, List.map_map]
        rfl
      _ = d.paths := by rw [hfiles, Delivery.paths]
  · rw [hstage] at hspec
    cases hspec

/-- What is staged is moved to its places exactly when the directory takes every file. -/
theorem place_staged_succeeds_iff (havoids : naming.Avoids d.names) {made staged : FileSystem}
    {locations : List Location} (hparent : made.StagesIn d.directory parent)
    (hstage : stage naming d.directory made d.files = (staged, .ok locations)) :
    (∃ paths, (place staged (locations.zip d.files)).2 = .ok paths) ↔
      ∀ file ∈ d.files, made.Takes d.directory file.path := by
  have hlocations := locations_of_stage hparent hstage
  have hmem : ∀ s ∈ locations.zip d.files, s.2 ∈ d.files := fun s hs => (List.of_mem_zip hs).2
  rcases stage_spec havoids d.directory made d.files with
    ⟨_, _, hspec, hlength, hstaged⟩ | ⟨_, e, hspec, -⟩
  · rw [hstage, Prod.mk.injEq, Except.ok.injEq] at hspec
    obtain ⟨rfl, rfl⟩ := hspec
    have hfiles : (locations.zip d.files).map (·.2) = d.files := List.map_snd_zip (by omega)
    rw [place_succeeds_iff hstaged (fun s hs => hlocations s.1 (List.of_mem_zip hs).1)
      fun s hs => names_subset (hmem s hs)]
    constructor
    · intro hall file hfile
      rw [← hfiles] at hfile
      obtain ⟨s, hs, rfl⟩ := List.mem_map.1 hfile
      exact ⟨parent, hparent, hall s hs⟩
    · intro hall s hs
      obtain ⟨other, hother, haccepts⟩ := hall s.2 (hmem s hs)
      obtain rfl : other = parent := Except.ok.inj (hother.resolves.symm.trans hparent.resolves)
      exact haccepts
  · rw [hstage] at hspec
    cases hspec

/-- A delivery succeeds only if its directory is made and takes every file. -/
theorem takes_of_perform (havoids : naming.Avoids d.names)
    (h : d.perform fs naming = (fs', .ok paths)) :
    (fs.makeDirectories d.directory).2 = .ok () ∧
      ∀ file ∈ d.files, (fs.makeDirectories d.directory).1.Takes d.directory file.path := by
  obtain ⟨made, staged, locations, hmade, hstage, hplace⟩ := perform_eq_ok_iff.1 h
  rw [hmade]
  refine ⟨rfl, fun file hfile => ?_⟩
  obtain ⟨parent, hparent⟩ := stagesIn_of_stage (List.ne_nil_of_mem hfile) hstage
  exact (place_staged_succeeds_iff havoids hparent hstage).1 ⟨paths, by rw [hplace]⟩ file hfile

/-- If every name that is drawn is free, then this is enough. -/
theorem exists_perform (havoids : naming.Avoids d.names) (hfresh : naming.Fresh)
    (hmade : (fs.makeDirectories d.directory).2 = .ok ())
    (htakes : ∀ file ∈ d.files, (fs.makeDirectories d.directory).1.Takes d.directory file.path) :
    ∃ fs' paths, d.perform fs naming = (fs', .ok paths) := by
  have hmade' : fs.makeDirectories d.directory = ((fs.makeDirectories d.directory).1, .ok ()) :=
    Prod.ext rfl hmade
  cases hfiles : d.files with
  | nil => exact ⟨_, [], perform_eq_ok_iff.2 ⟨_, _, [], hmade', by rw [hfiles]; rfl, rfl⟩⟩
  | cons file files =>
    obtain ⟨parent, hparent, -⟩ := htakes file (by simp [hfiles])
    obtain ⟨staged, locations, hstage⟩ := exists_stage hfresh hparent d.files
    obtain ⟨paths, hplace⟩ := (place_staged_succeeds_iff havoids hparent hstage).2 htakes
    exact ⟨_, paths, perform_eq_ok_iff.2 ⟨_, staged, locations, hmade', hstage, Prod.ext rfl hplace⟩⟩

theorem written_of_perform (havoids : naming.Avoids d.names)
    (h : d.perform fs naming = (fs', .ok paths)) :
    paths = d.paths ∧ Written (fs.makeDirectories d.directory).1 d.files fs' := by
  obtain ⟨moved, rest, hsplit, hwritten, hresult⟩ := perform_spec d fs havoids
  rw [h] at hwritten hresult
  rcases hresult with ⟨rfl, hpaths⟩ | ⟨-, e, herror⟩ | ⟨_, _, _, -, herror⟩
  · rw [List.append_nil] at hsplit
    rw [hsplit]
    exact ⟨by simpa using hpaths, hwritten⟩
  · cases herror
  · cases herror

/-- Texts at paths that no file was written to are still there. -/
theorem keepsTexts_of_perform {inputs : List String} (havoids : naming.Avoids d.names)
    (h : d.perform fs naming = (fs', .ok paths))
    (hapart : ∀ path ∈ paths, ∀ input ∈ inputs, ¬ fs'.SamePlace path input) :
    fs.KeepsTexts fs' inputs := by
  obtain ⟨rfl, hwritten⟩ := written_of_perform havoids h
  intro input hinput text hread
  rw [readText_eq_ok_iff] at hread ⊢
  refine hwritten.read_apart (addsDirectories_makeDirectories fs d.directory) hread ?_
  exact fun file hfile => hapart file.path (List.mem_map_of_mem hfile) input hinput

theorem read_of_perform (havoids : naming.Avoids d.names)
    (h : d.perform fs naming = (fs', .ok paths))
    (hdistinct : paths.Pairwise fun path later => ¬ fs'.SamePlace path later) :
    ∀ file ∈ d.files, fs'.read file.path = .ok file.contents.toUTF8 := by
  obtain ⟨rfl, hwritten⟩ := written_of_perform havoids h
  exact hwritten.read_of_pairwise (List.pairwise_map.1 hdistinct)

/-- A delivery that has succeeded succeeds again, and then it changes nothing. -/
theorem perform_again (havoids : naming.Avoids d.names) (hfresh : naming.Fresh)
    (h : d.perform fs naming = (fs', .ok paths)) :
    ∃ fs'', d.perform fs' naming = (fs'', .ok paths) ∧ Agrees fs' fs'' := by
  obtain ⟨hpaths, hwritten⟩ := written_of_perform havoids h
  obtain ⟨hmade, htakes⟩ := takes_of_perform havoids h
  have hmade' : fs'.makeDirectories d.directory = (fs', .ok ()) :=
    makeDirectories_again (Prod.ext rfl hmade) hwritten.sameDirectories
  obtain ⟨fs'', again, hagain⟩ : ∃ fs'' again, d.perform fs' naming = (fs'', .ok again) := by
    refine exists_perform havoids hfresh (by rw [hmade']) ?_
    rw [hmade']
    exact fun file hfile => hwritten.sameDirectories.takes (htakes file hfile)
  obtain ⟨hpaths', hwritten'⟩ := written_of_perform havoids hagain
  rw [hmade'] at hwritten'
  refine ⟨fs'', ?_, hwritten.again hwritten'⟩
  rw [hpaths, ← hpaths', hagain]

end MacroFamilies.Delivery
