import MacroFamilies.Proofs.CommandLine.Printed
import MacroFamilies.Proofs.CommandLine.Session
import MacroFamilies.Proofs.FileSystem.Kinds
/-!
# Checking

A check goes through the files that would be written and compares each of them with what is at its
path. It stops at the first path that holds something else than a text, and fails then. Otherwise it
reports every file, in their order, and counts those that are missing or stale; it ends well exactly
when there are none.
-/

namespace MacroFamilies.CommandLine

open FileSystem Inquiry

variable {fs : FileSystem} {namings : Namings} {a : Arguments} {g : Generator}
  {artifacts : List Artifact} {file : RenderedFile} {files : List RenderedFile}

/-! ## A single file -/

theorem compare_eq_upToDate_iff : file.compare (fs.readText file.path) = .ok .upToDate ↔
    fs.read file.path = .ok file.contents.toUTF8 := by
  rw [← readText_eq_ok_iff]
  unfold RenderedFile.compare
  cases fs.readText file.path with
  | ok onDisk => simp
  | error fault => cases fault <;> simp

theorem exists_compare_iff : (∃ status, file.compare (fs.readText file.path) = .ok status) ↔
    fs.read file.path = .error .notFound ∨
      ∃ text : String, fs.read file.path = .ok text.toUTF8 := by
  simp only [← readText_eq_ok_iff, ← readText_eq_notFound_iff]
  unfold RenderedFile.compare
  cases fs.readText file.path with
  | ok onDisk => simp
  | error fault => cases fault <;> simp

/-- What a check prints for a path that is to hold a text, by what is there. -/
inductive Reported (fs : FileSystem) (path contents : String) : Printed → Prop where
  | upToDate (present : fs.read path = .ok contents.toUTF8) :
    Reported fs path contents fun colored => bold "2" "      ok" colored ++ " " ++ path ++ "\n"
  | missing (absent : fs.read path = .error .notFound) :
    Reported fs path contents fun colored => bold "1" " missing" colored ++ " " ++ path ++ "\n"
  | stale {onDisk : String} (present : fs.read path = .ok onDisk.toUTF8)
      (differs : onDisk ≠ contents) :
    Reported fs path contents fun colored => bold "3" "   stale" colored ++ " " ++ path ++ "\n" ++
      differenceText onDisk contents colored

theorem reported_of_compare {status : FileStatus}
    (h : file.compare (fs.readText file.path) = .ok status) :
    Reported fs file.path file.contents fun colored =>
      Terminal.render colored (statusReport file status) := by
  simp only [render_statusReport]
  cases hread : fs.readText file.path with
  | ok onDisk =>
    rw [hread] at h
    have hpresent := readText_eq_ok_iff.1 hread
    by_cases hsame : onDisk = file.contents
    · obtain rfl : .upToDate = status := by simpa [RenderedFile.compare, hsame] using h
      exact .upToDate (hsame ▸ hpresent)
    · obtain rfl : .stale onDisk = status := by simpa [RenderedFile.compare, hsame] using h
      exact .stale hpresent hsame
  | error fault =>
    rw [hread] at h
    cases fault with
    | notFound =>
      obtain rfl : .missing = status := by simpa [RenderedFile.compare] using h
      exact .missing (readText_eq_notFound_iff.1 hread)
    | _ => cases h

/-! ## The survey -/

theorem run_survey_cons (file : RenderedFile) (files : List RenderedFile) :
    (survey (file :: files)).run fs = match file.compare (fs.readText file.path) with
      | .error d => ([], some d)
      | .ok status => ((file, status) :: ((survey files).run fs).1, ((survey files).run fs).2) := by
  have hstatus : file.status.run.run fs = file.compare (fs.readText file.path) := by
    show answer fs file.status = _
    unfold RenderedFile.status
    rw [answer_bind, answer_readText]
    rfl
  rw [survey, Query.run_bind, hstatus]
  cases file.compare (fs.readText file.path) with
  | error d => rfl
  | ok status =>
    simp only [Query.run_bind]
    rfl

theorem run_survey_eq_none_iff {findings : List Finding} :
    (survey files).run fs = (findings, none) ↔
      List.Forall₂ (fun file finding => finding.1 = file ∧
        file.compare (fs.readText file.path) = .ok finding.2) files findings := by
  induction files generalizing findings with
  | nil =>
    rw [List.forall₂_nil_left_iff]
    show (([], none) : List Finding × Option Diagnostic) = (findings, none) ↔ _
    simp [eq_comm]
  | cons file files ih =>
    rw [run_survey_cons, List.forall₂_cons_left_iff]
    cases hcompare : file.compare (fs.readText file.path) with
    | error d => simp
    | ok status =>
      simp only [Prod.mk.injEq, Except.ok.injEq]
      constructor
      · rintro ⟨rfl, hend⟩
        exact ⟨(file, status), _, ⟨rfl, rfl⟩, ih.1 (Prod.ext rfl hend), rfl⟩
      · rintro ⟨⟨_, _⟩, rest, ⟨rfl, rfl⟩, hrest, rfl⟩
        have hrun := ih.2 hrest
        exact ⟨by rw [hrun], by rw [hrun]⟩

theorem exists_survey (h : ∀ file ∈ files,
      fs.read file.path = .error .notFound ∨ ∃ text : String, fs.read file.path = .ok text.toUTF8) :
    ∃ findings, (survey files).run fs = (findings, none) := by
  induction files with
  | nil => exact ⟨[], rfl⟩
  | cons file files ih =>
    obtain ⟨status, hstatus⟩ := exists_compare_iff.2 (h file List.mem_cons_self)
    obtain ⟨findings, hfindings⟩ := ih fun file hfile => h file (List.mem_cons_of_mem _ hfile)
    refine ⟨(file, status) :: findings, ?_⟩
    rw [run_survey_cons, hstatus, hfindings]

theorem survey_upToDate (h : ∀ file ∈ files, fs.read file.path = .ok file.contents.toUTF8) :
    (survey files).run fs = (files.map (·, .upToDate), none) := by
  rw [run_survey_eq_none_iff, List.forall₂_map_right_iff, List.forall₂_same]
  intro file hfile
  exact ⟨rfl, compare_eq_upToDate_iff.2 (h file hfile)⟩

/-- The stale files of a survey are those whose path does not hold their contents. -/
theorem staleCount_of_survey {findings : List Finding}
    (h : (survey files).run fs = (findings, none)) :
    staleCount findings =
      files.countP fun file => fs.read file.path ≠ .ok file.contents.toUTF8 := by
  -- the induction is on the findings, side by side with the files
  have hfound := run_survey_eq_none_iff.1 h
  clear h
  unfold staleCount
  induction hfound with
  | nil => rfl
  | @cons file finding files findings hfinding _ ih =>
    have hfresh : finding.2 = .upToDate ↔ fs.read file.path = .ok file.contents.toUTF8 := by
      rw [← compare_eq_upToDate_iff, hfinding.2, Except.ok.injEq]
    rw [List.countP_cons, List.countP_cons, ih]
    simp only [ne_eq, hfresh]

theorem checkOutcome_upToDate (files : List RenderedFile) :
    checkOutcome (files.map (·, .upToDate)) none =
      .success (files.flatMap (statusReport · .upToDate) ++ summary 0 files.length) := by
  have hstale : staleCount (files.map (·, .upToDate)) = 0 := by
    simp [staleCount, List.countP_map]
  simp [checkOutcome, hstale, Outcome.success, List.flatMap_map]

/-! ## The session -/

/-- Whether the file at the destination of an artifact is what is made for it: the banner, then the
lines of the artifact, each ended by a line feed. -/
def IsCurrent (fs : FileSystem) (g : Generator) (artifact : Artifact) : Prop :=
  fs.read (Path.join g.outputDir artifact.fileName) =
    .ok (g.configuration.banner ++ String.join (artifact.lines.map (· ++ "\n"))).toUTF8

instance (fs : FileSystem) (g : Generator) (artifact : Artifact) :
    Decidable (IsCurrent fs g artifact) :=
  inferInstanceAs (Decidable (fs.read _ = .ok _))

theorem Arguments.Makes.session_survey (h : a.Makes fs g artifacts)
    (hcommand : a.chosenCommand = .check) :
    a.session fs namings = (fs, checkOutcome ((survey (g.delivery artifacts).files).run fs).1
      ((survey (g.delivery artifacts).files).run fs).2) := by
  have hplan : answer fs (a.chosenCommand.plan g artifacts) =
      .ok (.report (checkOutcome ((survey (g.delivery artifacts).files).run fs).1
        ((survey (g.delivery artifacts).files).run fs).2)) := by
    rw [hcommand]
    unfold Command.plan
    rw [answer_bind, answer_lift]
    rfl
  rw [h.session hplan]
  rfl

theorem checkOutcome_exitCode_eq_zero_iff :
    (checkOutcome ((survey files).run fs).1 ((survey files).run fs).2).exitCode = 0 ↔
      ∀ file ∈ files, fs.read file.path = .ok file.contents.toUTF8 := by
  constructor
  · intro hexit
    cases hsurvey : (survey files).run fs with
    | mk findings failure =>
      rw [hsurvey] at hexit
      cases failure with
      | some d => cases hexit
      | none =>
        have hstale : staleCount findings = 0 := by simpa [checkOutcome] using hexit
        rw [staleCount_of_survey hsurvey, List.countP_eq_zero] at hstale
        simpa using hstale
  · intro hread
    rw [survey_upToDate hread, checkOutcome_upToDate]
    rfl

theorem checkOutcome_of_readable (h : ∀ file ∈ files,
      fs.read file.path = .error .notFound ∨ ∃ text : String, fs.read file.path = .ok text.toUTF8) :
    ∃ reports, List.Forall₂ (fun file => Reported fs file.path file.contents) files reports ∧
      let stale := files.countP fun file => fs.read file.path ≠ .ok file.contents.toUTF8
      Prints fs (fs, checkOutcome ((survey files).run fs).1 ((survey files).run fs).2)
        (if stale = 0 then 0 else 1)
        fun colored => String.join (reports.map (· colored)) ++
          summaryText stale files.length colored := by
  obtain ⟨findings, hsurvey⟩ := exists_survey h
  have hfound := run_survey_eq_none_iff.1 hsurvey
  refine ⟨findings.map fun finding colored =>
    Terminal.render colored (statusReport finding.1 finding.2), ?_, ?_⟩
  · rw [List.forall₂_map_right_iff]
    apply hfound.imp
    rintro file ⟨_, status⟩ ⟨rfl, hcompare⟩
    exact reported_of_compare hcompare
  · rw [hsurvey]
    simp only [checkOutcome, staleCount_of_survey hsurvey]
    refine ⟨rfl, rfl, rfl, fun colored => ?_⟩
    rw [Terminal.render_append, Terminal.render_flatMap, render_summary, ← hfound.length_eq,
      List.map_map]
    rfl

theorem Arguments.Makes.check_exitCode_eq_zero_iff (h : a.Makes fs g artifacts)
    (hcommand : a.chosenCommand = .check) :
    (a.session fs namings).2.exitCode = 0 ↔ ∀ artifact ∈ artifacts, IsCurrent fs g artifact := by
  have hfiles : (g.delivery artifacts).files =
      artifacts.map (·.file g.outputDir g.configuration.banner) := rfl
  rw [h.session_survey hcommand, checkOutcome_exitCode_eq_zero_iff, hfiles, List.forall_mem_map]
  rfl

/-- A check ends well exactly when every artifact is at its destination. If every destination has
nothing or a text, then there is one report for each artifact, in their order, and the summary
counts those that are not at theirs. The file system has no permissions, which might keep a file
that is there from being read. -/
theorem check_sound_and_complete {args : List String} (hparse : Arguments.parse args = .ok a)
    (hcommand : a.chosenCommand = .check) (h : a.Makes fs g artifacts) :
    ((run fs args namings).2.exitCode = 0 ↔ ∀ artifact ∈ artifacts, IsCurrent fs g artifact) ∧
      ((∀ artifact ∈ artifacts,
          fs.read (Path.join g.outputDir artifact.fileName) = .error .notFound ∨
            ∃ text : String,
              fs.read (Path.join g.outputDir artifact.fileName) = .ok text.toUTF8) →
        ∃ reports,
          List.Forall₂ (fun artifact =>
              Reported fs (Path.join g.outputDir artifact.fileName)
                (g.configuration.banner ++ String.join (artifact.lines.map (· ++ "\n"))))
            artifacts reports ∧
          let stale := artifacts.countP fun artifact => ¬ IsCurrent fs g artifact
          Prints fs (run fs args namings) (if stale = 0 then 0 else 1)
            fun colored => String.join (reports.map (· colored)) ++
              (if stale = 0 then
                bold "2" ("all " ++ toString artifacts.length ++ " artifacts up to date\n")
              else
                bold "1" (toString stale ++ " of " ++ toString artifacts.length ++
                  " artifacts out of date; run `aritygen generate`\n")) colored) := by
  have hfiles : (g.delivery artifacts).files =
      artifacts.map (·.file g.outputDir g.configuration.banner) := rfl
  rw [run_of_parse hparse]
  constructor
  · exact h.check_exitCode_eq_zero_iff hcommand
  · intro hreadable
    have hfound : ∀ file ∈ (g.delivery artifacts).files, fs.read file.path = .error .notFound ∨
        ∃ text : String, fs.read file.path = .ok text.toUTF8 := by
      rw [hfiles, List.forall_mem_map]
      exact hreadable
    obtain ⟨reports, hreports, hprints⟩ := checkOutcome_of_readable hfound
    rw [hfiles, List.length_map, List.countP_map, ← hfiles] at hprints
    rw [h.session_survey hcommand]
    exact ⟨reports, List.forall₂_map_left_iff.1 hreports, hprints⟩

/-- The small project with one artifact that is current and another one that is not. -/
def outdatedProject : FileSystem where
  entries := messageProject.entries ++ [
    (["gen"], .directory),
    (["gen", "message_macros.ipp"], .file "#pragma once\n".toUTF8),
    (["gen", "undef_message_macros.ipp"],
      .file (defaultBanner ++ "#undef MSG_0\n#undef MSG_1\n").toUTF8)]

def checking : Arguments := { command := some .check }

def outdatedReport : String :=
  " missing ./gen/template_message_macros.ipp\n missing ./gen/arity_message_macros.ipp\n" ++
  " missing ./gen/no_arity_message_macros.ipp\n missing ./gen/short_message_macros.ipp\n" ++
  "      ok ./gen/undef_message_macros.ipp\n   stale ./gen/message_macros.ipp\n" ++
  "+//\n+// this file is automatically generated by aritygen\n" ++
  "+// edit the templates and regenerate instead of editing it by hand\n+//\n #pragma once\n" ++
  "+#include \"template_message_macros.ipp\"\n+#include \"arity_message_macros.ipp\"\n" ++
  "+#include \"no_arity_message_macros.ipp\"\n+#include \"short_message_macros.ipp\"\n" ++
  "5 of 6 artifacts out of date; run `aritygen generate`\n"

theorem check_sound_and_complete_outdated : ∃ artifacts reports,
    Arguments.parse ["check"] = .ok checking ∧
    checking.Makes outdatedProject messageGenerator artifacts ∧
    List.Forall₂ (fun artifact =>
        Reported outdatedProject (Path.join messageGenerator.outputDir artifact.fileName)
          (defaultBanner ++ String.join (artifact.lines.map (· ++ "\n"))))
      artifacts reports ∧
    Prints outdatedProject (run outdatedProject ["check"]) 1 (fun colored =>
      String.join (reports.map (· colored)) ++
        bold "1" "5 of 6 artifacts out of date; run `aritygen generate`\n" colored) ∧
    Terminal.render false (run outdatedProject ["check"]).2.output = outdatedReport := by
  obtain ⟨artifacts, hmade, hlength, hstale, hfound⟩ : ∃ artifacts : List Artifact,
      answer outdatedProject messageGenerator.run = .ok artifacts ∧ artifacts.length = 6 ∧
      (artifacts.countP fun artifact => ¬ IsCurrent outdatedProject messageGenerator artifact) = 5 ∧
      ∀ artifact ∈ artifacts,
        outdatedProject.read (Path.join messageGenerator.outputDir artifact.fileName) ∈
          [.error .notFound, .ok "#pragma once\n".toUTF8,
            .ok (defaultBanner ++ "#undef MSG_0\n#undef MSG_1\n").toUTF8] := by
    refine ⟨(answer outdatedProject messageGenerator.run).toOption.getD [], ?_⟩
    decide +kernel
  have hparse : Arguments.parse ["check"] = .ok checking := by decide +kernel
  have hmakes : checking.Makes outdatedProject messageGenerator artifacts :=
    ⟨by decide +kernel, hmade⟩
  have hreadable : ∀ artifact ∈ artifacts,
      outdatedProject.read (Path.join messageGenerator.outputDir artifact.fileName) =
          .error .notFound ∨
        ∃ text : String,
          outdatedProject.read (Path.join messageGenerator.outputDir artifact.fileName) =
            .ok text.toUTF8 := by
    intro artifact hartifact
    have hread := hfound artifact hartifact
    simp only [List.mem_cons, List.not_mem_nil, or_false] at hread
    rcases hread with habsent | hstale | hcurrent
    · exact .inl habsent
    · exact .inr ⟨_, hstale⟩
    · exact .inr ⟨_, hcurrent⟩
  obtain ⟨-, hreport⟩ := check_sound_and_complete hparse rfl hmakes
  obtain ⟨reports, hreports, hprints⟩ := hreport hreadable
  rw [hstale, hlength] at hprints
  exact ⟨artifacts, reports, hparse, hmakes, hreports, hprints, by decide +kernel⟩

end MacroFamilies.CommandLine
