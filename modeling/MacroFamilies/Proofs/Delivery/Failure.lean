import MacroFamilies.Proofs.Delivery.Written
import MacroFamilies.Proofs.FileSystem.Naming
/-!
# Failed deliveries

A delivery that fails has moved the files in front of the one that is refused, and those stay. The
main statement says what a failed delivery leaves behind, and exactly when that is what was there
before.
-/

namespace MacroFamilies.Delivery

open FileSystem

/-- Nothing of files that were to be delivered can be seen: every file is as it was, destinations
that were missing still are, and there is no other file that was not there. -/
structure Untouched (files : List RenderedFile) (before after : FileSystem) : Prop where
  kept : ∀ location contents, before.contents? location = some contents →
    after.contents? location = some contents
  missing : ∀ file ∈ files, ¬ before.Exists file.path → ¬ after.Exists file.path
  cleared : ∀ location contents, after.contents? location = some contents →
    before.contents? location ≠ none ∨ ∃ file ∈ files, after.resolve file.path = .ok location

section Failed

variable {fs after base : FileSystem} {files moved : List RenderedFile}

/-- A file with the contents that it was to get was there before. -/
theorem read_of_untouched (hadds : AddsDirectories fs base) (hwritten : Written base moved after)
    (huntouched : Untouched files fs after) {file : RenderedFile} (hmoved : file ∈ moved)
    (hfile : file ∈ files) : fs.read file.path = after.read file.path := by
  obtain ⟨hslash, target, hresolve, hkind⟩ := hwritten.resolve file hmoved
  have hextends := hadds.toExtends.trans hwritten.extends
  have hthere : after.Exists file.path :=
    ⟨target, hresolve, (isSome_lookup?_iff target).2 ⟨false, hkind⟩⟩
  obtain ⟨location, hbefore, hsome⟩ : fs.Exists file.path := by
    by_contra hmissing
    exact huntouched.missing file hfile hmissing hthere
  have hlocation : location = target := by
    have hafter := hextends.resolve hslash hbefore
    rw [hresolve, Except.ok.injEq] at hafter
    exact hafter.symm
  subst hlocation
  obtain ⟨k, hk⟩ := (isSome_lookup?_iff location).1 hsome
  have hfalse : k = false := by
    have hafter := hextends.kind location k hk
    rw [hkind, Option.some.injEq] at hafter
    exact hafter.symm
  obtain ⟨contents, hcontents⟩ := (kind?_eq_false_iff location).1 (hfalse ▸ hk)
  have hread : fs.read file.path = .ok contents := read_eq_ok_iff.2 ⟨location, hbefore, hcontents⟩
  have hkept := huntouched.kept location contents hcontents
  rw [hread, read_eq_ok_iff.2 ⟨location, hresolve, hkept⟩]

/-- Where a file was written, there was one with the same contents. -/
theorem contents?_of_read (hadds : AddsDirectories fs base) (hwritten : Written base moved after)
    (hread : ∀ file ∈ moved, fs.read file.path = after.read file.path) {location : Location}
    {contents : ByteArray} (hlast : lastWritten moved after location = some contents) :
    fs.contents? location = some contents := by
  obtain ⟨file, hmoved, hresolve⟩ := exists_of_lastWritten hlast
  have hafter : after.contents? location = some contents := by
    rw [hwritten.contents, hlast]
    rfl
  have hbefore := hread file hmoved
  rw [read_eq_ok_iff.2 ⟨location, hresolve, hafter⟩, read_eq_ok_iff] at hbefore
  obtain ⟨other, hother, hcontents⟩ := hbefore
  have hsame := (hadds.toExtends.trans hwritten.extends).resolve (hwritten.resolve file hmoved).1
    hother
  rw [hresolve, Except.ok.injEq] at hsame
  rw [hsame]
  exact hcontents

/-- Files that were there already with the same contents add nothing when they are written. -/
theorem extends_of_read (hadds : AddsDirectories fs base) (hwritten : Written base moved after)
    (hread : ∀ file ∈ moved, fs.read file.path = after.read file.path) : Extends after base where
  workingDirectory := hwritten.extends.workingDirectory.symm
  kind := by
    intro location k hk
    rw [← hk]
    symm
    apply hwritten.kind_eq
    cases hlast : lastWritten moved after location with
    | none => exact .inl rfl
    | some written =>
      have hfalse := (kind?_eq_false_iff location).2
        ⟨written, contents?_of_read hadds hwritten hread hlast⟩
      exact .inr ⟨false, hadds.kind location false hfalse⟩

theorem untouched_iff (hadds : AddsDirectories fs base) (hwritten : Written base moved after)
    (hfiles : ∀ file ∈ moved, file ∈ files) :
    Untouched files fs after ↔
      (∀ file ∈ moved, fs.read file.path = after.read file.path) ∧
        ∀ file ∈ files, base.Exists file.path → fs.Exists file.path := by
  constructor
  · intro huntouched
    refine ⟨fun file hmoved => ?_, fun file hfile hbase => ?_⟩
    · exact read_of_untouched hadds hwritten huntouched hmoved (hfiles file hmoved)
    · by_contra hmissing
      exact huntouched.missing file hfile hmissing (hwritten.extends.exists hbase)
  · rintro ⟨hread, hmade⟩
    constructor
    · intro location contents hbefore
      rw [hwritten.contents, hadds.contents, hbefore]
      cases hlast : lastWritten moved after location with
      | none => rfl
      | some written =>
        rw [← hbefore, contents?_of_read hadds hwritten hread hlast]
        rfl
    · intro file hfile hmissing hthere
      have hback := extends_of_read hadds hwritten hread
      exact hmissing (hmade file hfile (hback.exists hthere))
    · intro location contents hafter
      rw [hwritten.contents, hadds.contents] at hafter
      cases hlast : lastWritten moved after location with
      | none =>
        rw [hlast, Option.none_or] at hafter
        exact .inl (by simp [hafter])
      | some written =>
        obtain ⟨file, hmoved, hresolve⟩ := exists_of_lastWritten hlast
        exact .inr ⟨file, hfiles file hmoved, hresolve⟩

end Failed

/-- A failed delivery has written the files in front of the one that is refused. What was there is
untouched exactly when these files were there already, with the same contents, and the directories
that were made are no destinations. Temporary files are named apart from the destinations. -/
theorem failed_perform (directory banner : String) (artifacts : List Artifact)
    {fs fs' : FileSystem} {naming : Naming} {e : Diagnostic}
    (havoids : naming.Avoids (ofArtifacts directory banner artifacts).names)
    (h : (ofArtifacts directory banner artifacts).perform fs naming = (fs', .error e)) :
    ∃ moved rest, (ofArtifacts directory banner artifacts).files = moved ++ rest ∧
      (moved = [] ∨ ∃ refused behind fault, rest = refused :: behind ∧
        e = failure "replace" refused.path fault) ∧
      (∀ location, fs'.contents? location =
        (lastWritten moved fs' location).or (fs.contents? location)) ∧
      (Untouched (ofArtifacts directory banner artifacts).files fs fs' ↔
        (∀ file ∈ moved, fs.read file.path = fs'.read file.path) ∧
          ∀ file ∈ (ofArtifacts directory banner artifacts).files,
            (fs.makeDirectories directory).1.Exists file.path → fs.Exists file.path) := by
  obtain ⟨moved, rest, hsplit, hwritten, hresult⟩ :=
    perform_spec (ofArtifacts directory banner artifacts) fs havoids
  have hadds := addsDirectories_makeDirectories fs directory
  rw [h] at hwritten hresult
  refine ⟨moved, rest, hsplit, ?_, ?_, ?_⟩
  · rcases hresult with ⟨-, hok⟩ | ⟨hnil, -⟩ | ⟨refused, behind, fault, hrest, herror⟩
    · cases hok
    · exact .inl hnil
    · exact .inr ⟨refused, behind, fault, hrest, by simpa using herror⟩
  · intro location
    rw [hwritten.contents]
    exact congrArg _ (hadds.contents location)
  · apply untouched_iff hadds hwritten
    intro file hmoved
    rw [hsplit]
    exact List.mem_append_left rest hmoved

/-- An output directory with a file of an earlier run, and a directory where a file is to go. -/
def blocked : FileSystem where
  entries := [(["gen"], .directory), (["gen", "a"], .file "old".toUTF8), (["gen", "b"], .directory)]

def twoArtifacts : List Artifact := [⟨"a", ["new"]⟩, ⟨"b", []⟩]

theorem perform_blocked :
    ((ofArtifacts "gen" "" twoArtifacts).perform blocked).2 =
      .error (failure "replace" "gen/b" .isADirectory) := by
  decide +kernel

theorem failed_perform_overwrites :
    ∃ fs' e, (ofArtifacts "gen" "" twoArtifacts).perform blocked = (fs', .error e) ∧
      ¬ Untouched (ofArtifacts "gen" "" twoArtifacts).files blocked fs' := by
  refine ⟨_, _, Prod.ext rfl perform_blocked, fun huntouched => ?_⟩
  have hkept := huntouched.kept ["gen", "a"] "old".toUTF8 (by decide +kernel)
  revert hkept
  decide +kernel

theorem failed_perform_blocked :
    (Naming.numbered (ofArtifacts "gen" "" twoArtifacts).names).Avoids
        (ofArtifacts "gen" "" twoArtifacts).names ∧
      ∃ fs' moved rest, (ofArtifacts "gen" "" twoArtifacts).perform blocked =
          (fs', .error (failure "replace" "gen/b" .isADirectory)) ∧
        (ofArtifacts "gen" "" twoArtifacts).files = moved ++ rest ∧
        ∀ location, fs'.contents? location =
          (lastWritten moved fs' location).or (blocked.contents? location) := by
  have havoids := Naming.avoids_numbered (ofArtifacts "gen" "" twoArtifacts).names
  have hfails : (ofArtifacts "gen" "" twoArtifacts).perform blocked =
      (((ofArtifacts "gen" "" twoArtifacts).perform blocked).1,
        .error (failure "replace" "gen/b" .isADirectory)) := Prod.ext rfl perform_blocked
  obtain ⟨moved, rest, hsplit, -, hcontents, -⟩ :=
    failed_perform "gen" "" twoArtifacts havoids hfails
  exact ⟨havoids, _, moved, rest, hfails, hsplit, hcontents⟩

end MacroFamilies.Delivery
