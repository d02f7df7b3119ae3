import MacroFamilies.Proofs.Delivery.Steps
/-!
# What was written

After files were written one after another a location holds what was written to it last, or what was
there before if nothing was. So a file that no later one takes the place of is read back, and one
that leads to none of the places written to is read as before.
-/

namespace MacroFamilies.Delivery

open FileSystem

/-- The contents of the last file that was written to a location. -/
def lastWritten (files : List RenderedFile) (fs : FileSystem) (location : Location) :
    Option ByteArray :=
  (files.reverse.find? fun file => fs.resolve file.path = .ok location).map (·.contents.toUTF8)

variable {fs after : FileSystem} {files : List RenderedFile}

theorem exists_of_lastWritten {location : Location} {contents : ByteArray}
    (h : lastWritten files fs location = some contents) :
    ∃ file ∈ files, fs.resolve file.path = .ok location := by
  obtain ⟨file, hfind, -⟩ := Option.map_eq_some_iff.1 h
  refine ⟨file, List.mem_reverse.1 (List.mem_of_find?_eq_some hfind), ?_⟩
  simpa using List.find?_some hfind

theorem lastWritten_congr {fs' : FileSystem}
    (h : ∀ file ∈ files, fs'.resolve file.path = fs.resolve file.path) (location : Location) :
    lastWritten files fs' location = lastWritten files fs location := by
  unfold lastWritten
  congr 1
  apply List.find?_congr
  intro file hfile
  rw [h file (List.mem_reverse.1 hfile)]

theorem Written.extends (h : Written fs files after) : Extends fs after := by
  induction h with
  | nil hagrees => exact hagrees.extends
  | cons hreceives _ ih => exact (hreceives.extends_put _).trans ih

theorem Written.sameDirectories (h : Written fs files after) : SameDirectories fs after := by
  induction h with
  | nil hagrees => exact hagrees.sameDirectories
  | cons hreceives _ ih => exact (hreceives.sameDirectories_put _).trans ih

/-- The path of a file that was put where it is received leads there as long as files are added. -/
theorem Written.resolve_head {file : RenderedFile} {target : Location}
    (hreceives : fs.Receives file.path target)
    (h : Written (fs.put target (.file file.contents.toUTF8)) files after) :
    after.resolve file.path = .ok target ∧ after.kind? target = some false := by
  have hkind : after.kind? target = some false := by
    apply h.extends.kind
    rw [kind?_put hreceives.ne_nil, if_pos rfl]
    rfl
  have hdirectories := (hreceives.sameDirectories_put file.contents.toUTF8).trans h.sameDirectories
  refine ⟨(hreceives.of_sameDirectories hdirectories).resolve ?_, hkind⟩
  exact (isSome_lookup?_iff target).2 ⟨false, hkind⟩

theorem Written.resolve (h : Written fs files after) :
    ∀ file ∈ files, Path.endsInSlash file.path = false ∧
      ∃ target, after.resolve file.path = .ok target ∧ after.kind? target = some false := by
  induction h with
  | nil _ => simp
  | @cons fs after file files target hreceives hrest ih =>
    intro other hother
    rcases List.mem_cons.1 hother with rfl | hother
    · exact ⟨hreceives.slash, target, Written.resolve_head hreceives hrest⟩
    · exact ih other hother

theorem Written.contents (h : Written fs files after) (location : Location) :
    after.contents? location = (lastWritten files after location).or (fs.contents? location) := by
  induction h with
  | nil hagrees => exact hagrees.contents? location
  | @cons fs after file files target hreceives hrest ih =>
    have hpath := (Written.resolve_head hreceives hrest).1
    rw [ih, contents?_put hreceives.ne_nil]
    unfold lastWritten
    rw [List.reverse_cons, List.find?_append, Option.map_or, Option.or_assoc]
    congr 1
    by_cases hlocation : location = target
    · simp [hlocation, hpath]
    · simp [hlocation, hpath, Ne.symm hlocation]

/-- What was added to the kinds are the files that were written. -/
theorem Written.kind_eq (h : Written fs files after) {location : Location}
    (hlocation : lastWritten files after location = none ∨ ∃ k, fs.kind? location = some k) :
    after.kind? location = fs.kind? location := by
  cases hk : fs.kind? location with
  | some k => exact h.extends.kind location k hk
  | none =>
    have hlast : lastWritten files after location = none := by
      rcases hlocation with hlast | ⟨k, hsome⟩
      · exact hlast
      · simp [hk] at hsome
    have hfile : after.contents? location = fs.contents? location := by
      rw [h.contents, hlast]
      rfl
    cases hafter : after.kind? location with
    | none => rfl
    | some k =>
      cases k with
      | false =>
        obtain ⟨contents, hcontents⟩ := (kind?_eq_false_iff location).1 hafter
        rw [hfile] at hcontents
        have hfalse := (kind?_eq_false_iff location).2 ⟨contents, hcontents⟩
        rw [hk] at hfalse
        cases hfalse
      | true =>
        have htrue := (h.sameDirectories.directory location).2 hafter
        rw [hk] at htrue
        cases htrue

/-! ## Reading back -/

/-- A file is read back if none that is written behind it goes to its place. -/
theorem Written.read {before later : List RenderedFile} {file : RenderedFile}
    (h : Written fs (before ++ file :: later) after)
    (hlater : ∀ other ∈ later, ¬ after.SamePlace file.path other.path) :
    after.read file.path = .ok file.contents.toUTF8 := by
  obtain ⟨-, target, hresolve, -⟩ := h.resolve file (by simp)
  have hnone : later.reverse.find? (fun other => after.resolve other.path = .ok target) = none := by
    rw [List.find?_eq_none]
    intro other hother
    have hapart := hlater other (List.mem_reverse.1 hother)
    simpa using fun hsame => hapart ⟨target, hresolve, hsame⟩
  have hlast : lastWritten (before ++ file :: later) after target =
      some file.contents.toUTF8 := by
    unfold lastWritten
    simp [hnone, hresolve]
  refine read_eq_ok_iff.2 ⟨target, hresolve, ?_⟩
  rw [h.contents, hlast]
  rfl

theorem Written.read_of_pairwise (h : Written fs files after)
    (hplaces : files.Pairwise fun file later => ¬ after.SamePlace file.path later.path) :
    ∀ file ∈ files, after.read file.path = .ok file.contents.toUTF8 := by
  intro file hfile
  obtain ⟨before, later, rfl⟩ := List.append_of_mem hfile
  exact h.read (List.pairwise_cons.1 (List.pairwise_append.1 hplaces).2.1).1

/-- Files that are written once more to where they are leave everything as it is. -/
theorem Written.again {last : FileSystem} (h : Written fs files after)
    (hagain : Written after files last) : Agrees after last where
  workingDirectory := hagain.extends.workingDirectory
  lookup := by
    intro location
    -- the paths still lead where they led, so the same file is the last one for a location
    have hlast : lastWritten files last location = lastWritten files after location := by
      apply lastWritten_congr
      intro file hfile
      obtain ⟨hslash, target, hresolve, -⟩ := h.resolve file hfile
      rw [hresolve]
      exact hagain.extends.resolve hslash hresolve
    apply lookup?_eq_of_kind?_contents?
    · apply hagain.kind_eq
      rw [hlast]
      cases hwritten : lastWritten files after location with
      | none => exact .inl rfl
      | some contents =>
        refine .inr ⟨false, (kind?_eq_false_iff location).2 ⟨contents, ?_⟩⟩
        rw [h.contents, hwritten]
        rfl
    · rw [hagain.contents, hlast, h.contents]
      cases lastWritten files after location <;> rfl

theorem Written.read_apart {base : FileSystem} (hadds : AddsDirectories fs base)
    (h : Written base files after) {path : String} {contents : ByteArray}
    (hread : fs.read path = .ok contents)
    (hapart : ∀ file ∈ files, ¬ after.SamePlace file.path path) :
    after.read path = .ok contents := by
  obtain ⟨location, hresolve, hcontents⟩ := read_eq_ok_iff.1 hread
  have hkind : fs.kind? location = some false :=
    (kind?_eq_false_iff location).2 ⟨contents, hcontents⟩
  have hslash : Path.endsInSlash path = false := by
    by_contra hslash
    exact (resolve_eq_ok_iff.1 hresolve).2.2 (by simpa using hslash) hkind
  have hafter : after.resolve path = .ok location :=
    (hadds.toExtends.trans h.extends).resolve hslash hresolve
  have hlast : lastWritten files after location = none := by
    cases hlast : lastWritten files after location with
    | none => rfl
    | some written =>
      obtain ⟨file, hfile, hsame⟩ := exists_of_lastWritten hlast
      exact absurd ⟨location, hsame, hafter⟩ (hapart file hfile)
  refine read_eq_ok_iff.2 ⟨location, hafter, ?_⟩
  rw [h.contents, hlast, Option.none_or, hadds.contents, hcontents]

end MacroFamilies.Delivery
