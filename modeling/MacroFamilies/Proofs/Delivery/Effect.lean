import MacroFamilies.Proofs.Delivery.Success
import MacroFamilies.Proofs.FileSystem.Naming
/-!
# What a successful delivery leaves behind

A delivery that succeeds leaves every file of its artifacts with the text of the last artifact that
goes there, and the output directory; it leaves all other files as they were, and no more of them.
-/

namespace MacroFamilies.Delivery

open FileSystem

theorem exists_last {α : Type} {p : α → Prop} {xs : List α} (h : ∃ x ∈ xs, p x) :
    ∃ before last later, xs = before ++ last :: later ∧ p last ∧ ∀ x ∈ later, ¬ p x := by
  induction xs with
  | nil => simp at h
  | cons x xs ih =>
    by_cases hrest : ∃ y ∈ xs, p y
    · obtain ⟨before, last, later, rfl, hlast, hlater⟩ := ih hrest
      exact ⟨x :: before, last, later, rfl, hlast, hlater⟩
    · obtain ⟨y, hy, hpy⟩ := h
      rcases List.mem_cons.1 hy with rfl | hy
      · exact ⟨[], y, xs, rfl, hpy, fun z hz hpz => hrest ⟨z, hz, hpz⟩⟩
      · exact absurd ⟨y, hy, hpy⟩ hrest

variable {fs fs' base after : FileSystem} {naming : Naming} {directory banner : String}
  {artifacts : List Artifact}

/-! ## The files -/

/-- The file of an artifact is read with the text of the last artifact that goes there. -/
theorem Written.read_last (h : Written base (ofArtifacts directory banner artifacts).files after)
    {a : Artifact} (ha : a ∈ artifacts) :
    ∃ before last later, artifacts = before ++ last :: later ∧
      after.SamePlace (Path.join directory a.fileName) (Path.join directory last.fileName) ∧
      (∀ b ∈ later,
        ¬ after.SamePlace (Path.join directory a.fileName) (Path.join directory b.fileName)) ∧
      after.read (Path.join directory a.fileName) = .ok (last.render banner).toUTF8 := by
  obtain ⟨-, target, htarget, -⟩ := h.resolve (a.file directory banner) (List.mem_map_of_mem ha)
  obtain ⟨before, last, later, rfl, hlast, hlater⟩ :=
    exists_last (p := fun b : Artifact =>
      after.SamePlace (Path.join directory a.fileName) (Path.join directory b.fileName))
      ⟨a, ha, target, htarget, htarget⟩
  refine ⟨before, last, later, rfl, hlast, hlater, hlast.read_eq.trans ?_⟩
  have hfiles : (ofArtifacts directory banner (before ++ last :: later)).files =
      (ofArtifacts directory banner before).files ++
        last.file directory banner :: (ofArtifacts directory banner later).files := by
    simp [ofArtifacts]
  rw [hfiles] at h
  apply h.read
  intro other hother hsame
  obtain ⟨b, hb, rfl⟩ := List.mem_map.1 hother
  exact hlater b hb (hlast.trans hsame)

/-- Where no file goes, there is the file that was there, if there was one. -/
theorem Written.contents_apart {files : List RenderedFile} (hadds : AddsDirectories fs base)
    (h : Written base files after) {location : Location}
    (hapart : ∀ file ∈ files, after.resolve file.path ≠ .ok location) :
    after.contents? location = fs.contents? location := by
  have hlast : lastWritten files after location = none := by
    by_contra hsome
    obtain ⟨contents, hcontents⟩ := Option.ne_none_iff_exists'.1 hsome
    obtain ⟨file, hfile, hresolve⟩ := exists_of_lastWritten hcontents
    exact hapart file hfile hresolve
  rw [h.contents, hlast, Option.none_or, hadds.contents]

/-! ## The directory -/

/-- The output directory is there after a delivery. Only where nothing is delivered to the working
directory is nothing known of it. -/
theorem stagesIn_of_perform {d : Delivery} {paths : List String}
    (havoids : naming.Avoids d.names) (h : d.perform fs naming = (fs', .ok paths))
    (hworking : d.directory = "" → d.files = [] → fs.hasDirectory fs.workingDirectory = true) :
    ∃ parent, fs'.StagesIn d.directory parent := by
  obtain ⟨-, hwritten⟩ := written_of_perform havoids h
  obtain ⟨hmade, htakes⟩ := takes_of_perform havoids h
  by_cases hempty : d.directory = ""
  -- nothing was made, but what is staged is staged in the working directory
  · cases hfiles : d.files with
    | nil =>
      have hthere := (hasDirectory_iff _).1 (hworking hempty hfiles)
      rw [hempty] at hwritten ⊢
      refine ⟨fs.workingDirectory, hwritten.sameDirectories.stagesIn ⟨rfl, ?_⟩⟩
      exact (lookup?_eq_directory_iff _).2 hthere
    | cons file files =>
      obtain ⟨parent, hstages, -⟩ := htakes file (by simp [hfiles])
      exact ⟨parent, hwritten.sameDirectories.stagesIn hstages⟩
  · have hthere := isDirectory_of_makeDirectories hempty (Prod.ext rfl hmade)
    obtain ⟨location, hresolve, hkind⟩ :=
      isDirectory_iff.1 (hwritten.sameDirectories.isDirectory hthere)
    refine ⟨location, ?_, (lookup?_eq_directory_iff _).2 hkind⟩
    rw [temporaryDirectory, if_neg hempty]
    exact hresolve

/-! ## The whole effect -/

/-- A delivery that succeeds gives the paths of its artifacts, in their order. Each of these files
has the text of the last artifact that goes there, the output directory is there, and every file
apart from these is as it was: none is lost or changed, and none is new. Temporary files are named
apart from the destinations, and the file system has no links, under which a destination could be a
file elsewhere, and no permissions. -/
theorem successful_perform (directory banner : String) (artifacts : List Artifact)
    {fs fs' : FileSystem} {naming : Naming} {paths : List String}
    (havoids : naming.Avoids (ofArtifacts directory banner artifacts).names)
    (h : (ofArtifacts directory banner artifacts).perform fs naming = (fs', .ok paths)) :
    paths = artifacts.map (fun a => Path.join directory a.fileName) ∧
      (∀ a ∈ artifacts, ∃ before last later, artifacts = before ++ last :: later ∧
        fs'.SamePlace (Path.join directory a.fileName) (Path.join directory last.fileName) ∧
        (∀ b ∈ later,
          ¬ fs'.SamePlace (Path.join directory a.fileName) (Path.join directory b.fileName)) ∧
        fs'.read (Path.join directory a.fileName) =
          .ok (banner ++ String.join (last.lines.map (· ++ "\n"))).toUTF8) ∧
      ((directory = "" → artifacts = [] → fs.hasDirectory fs.workingDirectory = true) →
        ∃ parent, fs'.StagesIn directory parent) ∧
      (∀ path contents, fs.read path = .ok contents →
        (∀ a ∈ artifacts, ¬ fs'.SamePlace (Path.join directory a.fileName) path) →
          fs'.read path = .ok contents) ∧
      ∀ location, (∀ a ∈ artifacts,
          fs'.resolve (Path.join directory a.fileName) ≠ .ok location) →
        fs'.contents? location = fs.contents? location := by
  obtain ⟨hpaths, hwritten⟩ := written_of_perform havoids h
  have hadds := addsDirectories_makeDirectories fs directory
  refine ⟨?_, fun a ha => hwritten.read_last ha, fun hworking => ?_, ?_, ?_⟩
  · rw [hpaths]
    simp [ofArtifacts, Delivery.paths, Artifact.file]
  · apply stagesIn_of_perform havoids h
    exact fun hempty hfiles => hworking hempty (List.map_eq_nil_iff.1 hfiles)
  · intro path contents hread hapart
    apply hwritten.read_apart hadds hread
    intro file hfile
    obtain ⟨a, ha, rfl⟩ := List.mem_map.1 hfile
    exact hapart a ha
  · intro location hapart
    apply hwritten.contents_apart hadds
    intro file hfile
    obtain ⟨a, ha, rfl⟩ := List.mem_map.1 hfile
    exact hapart a ha

def earlierRun : FileSystem where
  entries := [(["out"], .directory), (["out", "a"], .file "old".toUTF8),
    (["out", "notes"], .file "kept".toUTF8)]

def sharedFile : List Artifact := [⟨"a", ["first"]⟩, ⟨"./a", ["last"]⟩]

theorem successful_perform_sharedFile :
    (Naming.numbered (ofArtifacts "out" "//\n" sharedFile).names).Avoids
        (ofArtifacts "out" "//\n" sharedFile).names ∧
      ∃ fs', (ofArtifacts "out" "//\n" sharedFile).perform earlierRun =
          (fs', .ok ["out/a", "out/./a"]) ∧
        fs'.read "out/a" = .ok "//\nlast\n".toUTF8 ∧
        fs'.read "out/notes" = .ok "kept".toUTF8 ∧
        fs'.contents? ["out", ".tmp0"] = none := by
  have havoids := Naming.avoids_numbered (ofArtifacts "out" "//\n" sharedFile).names
  have hpaths : ((ofArtifacts "out" "//\n" sharedFile).perform earlierRun).2 =
      .ok ["out/a", "out/./a"] := by decide +kernel
  have hperform : (ofArtifacts "out" "//\n" sharedFile).perform earlierRun =
      (((ofArtifacts "out" "//\n" sharedFile).perform earlierRun).1,
        .ok ["out/a", "out/./a"]) := Prod.ext rfl hpaths
  obtain ⟨-, hfiles, -, hkept, hnone⟩ :=
    successful_perform "out" "//\n" sharedFile havoids hperform
  refine ⟨havoids, _, hperform, ?_, hkept "out/notes" _ (by decide +kernel) (by decide +kernel), ?_⟩
  · obtain ⟨before, last, later, hsplit, -, hlater, hread⟩ := hfiles ⟨"a", ["first"]⟩ (by decide)
    -- the first of the two is not the last one that goes there
    rcases before with _ | ⟨first, _ | ⟨second, before⟩⟩
    · obtain ⟨rfl, rfl⟩ := List.cons.inj hsplit
      exact absurd (by decide +kernel) (hlater ⟨"./a", ["last"]⟩ (by decide))
    · obtain ⟨-, hrest⟩ := List.cons.inj hsplit
      obtain ⟨rfl, -⟩ := List.cons.inj hrest
      exact hread
    · simp [sharedFile] at hsplit
  · rw [hnone ["out", ".tmp0"] (by decide +kernel)]
    decide +kernel

end MacroFamilies.Delivery
