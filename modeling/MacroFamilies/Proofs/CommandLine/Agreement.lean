import MacroFamilies.Proofs.CommandLine.Checking
import MacroFamilies.Proofs.Generator.Destinations
/-!
# Agreement of the commands

All commands read the same inputs and make the same artifacts of them; only then do they part. After
files were generated, and unless one of them took the place of another one or of an input, checking
finds every file up to date, printing gives what is on disk, listing gives the paths that were
written, and generating once more changes nothing.
-/

namespace MacroFamilies.CommandLine

open FileSystem Inquiry

variable {fs fs' : FileSystem} {namings : Namings} {a : Arguments} {g : Generator}
  {artifacts : List Artifact}

/-! ## What a session reads -/

theorem Arguments.reads_generator (h : answer fs a.generator = .ok g) :
    reads fs a.generator = [a.config] := by
  obtain ⟨c, hc, -⟩ := Arguments.answer_generator_eq_ok_iff.1 h
  unfold Arguments.generator Generator.ofFile
  rw [reads_bind (a := { configuration := c, baseDir := Path.directory a.config }),
    reads_bind hc, (Configuration.parsesFile_read a.config).reads_eq hc]
  · simp
  · rw [answer_bind, hc]
    rfl

/-- Generating asks for the configuration and for what a run reads, and for nothing else. -/
theorem Arguments.Makes.reads (h : a.Makes fs g artifacts)
    (hcommand : a.chosenCommand = .generate) :
    reads fs a.inquire = a.config :: g.inputPaths := by
  unfold Arguments.inquire
  rw [reads_bind h.generator, reads_bind h.artifacts, Arguments.reads_generator h.generator,
    Generator.reads_run h.artifacts, hcommand]
  simp [Command.plan]

theorem Arguments.Makes.of_keepsTexts (h : a.Makes fs g artifacts)
    (hkeeps : fs.KeepsTexts fs' (a.config :: g.inputPaths)) : a.Makes fs' g artifacts where
  generator := by
    obtain ⟨c, hc, hg⟩ := Arguments.answer_generator_eq_ok_iff.1 h.generator
    refine Arguments.answer_generator_eq_ok_iff.2 ⟨c, ?_, hg⟩
    refine (Configuration.parsesFile_read a.config).answer_of_keepsTexts ?_ hc
    intro path hpath
    rw [List.mem_singleton.1 hpath]
    exact hkeeps _ (by simp)
  artifacts :=
    Generator.answer_run_of_keepsTexts
      (fun path hpath => hkeeps path (List.mem_cons_of_mem _ hpath)) h.artifacts

/-! ## What each command finds -/

theorem printed_of_mem {artifact : Artifact} (banner : String) (h : artifact ∈ artifacts) :
    ∃ found ∈ artifacts, found.fileName = artifact.fileName ∧
      printed banner artifact.fileName artifacts = .ok [.text (found.render banner)] := by
  cases hfind : artifacts.find? (·.fileName = artifact.fileName) with
  | none =>
    rw [List.find?_eq_none] at hfind
    exact absurd (by simp) (hfind artifact h)
  | some found =>
    refine ⟨found, List.mem_of_find?_eq_some hfind, ?_, ?_⟩
    · simpa using List.find?_some hfind
    · unfold printed
      rw [hfind]

theorem Arguments.Makes.session_check (h : a.Makes fs g artifacts)
    (hread : ∀ file ∈ (g.delivery artifacts).files,
      fs.read file.path = .ok file.contents.toUTF8) :
    Prints fs ((a.withCommand .check).session fs namings) 0 fun colored =>
      String.join ((g.delivery artifacts).paths.map fun path =>
        bold "2" "      ok" colored ++ " " ++ path ++ "\n") ++
          summaryText 0 artifacts.length colored := by
  have hlength : (g.delivery artifacts).files.length = artifacts.length := List.length_map _
  rw [(h.withCommand .check).session_survey rfl, survey_upToDate hread, checkOutcome_upToDate,
    hlength]
  refine ⟨rfl, rfl, rfl, fun colored => ?_⟩
  show Terminal.render colored (_ ++ _) = _
  rw [Terminal.render_append, Terminal.render_flatMap, render_summary, Delivery.paths, List.map_map]
  simp only [render_statusReport]
  rfl

theorem Arguments.Makes.session_print (h : a.Makes fs g artifacts)
    (hread : ∀ file ∈ (g.delivery artifacts).files, fs.read file.path = .ok file.contents.toUTF8)
    {artifact : Artifact} (hartifact : artifact ∈ artifacts) :
    ∃ contents, Prints fs ((a.withCommand (.print artifact.fileName)).session fs namings) 0
        (fun _ => contents) ∧
      fs.read (Path.join g.outputDir artifact.fileName) = .ok contents.toUTF8 := by
  -- an artifact in front of this one may have the same name
  obtain ⟨found, hfound, hname, hprinted⟩ :=
    printed_of_mem g.configuration.banner hartifact
  refine ⟨found.render g.configuration.banner, ?_, ?_⟩
  · have hplan : answer fs ((Command.print artifact.fileName).plan g artifacts) =
        .ok (.report (.success [.text (found.render g.configuration.banner)])) := by
      unfold Command.plan
      rw [answer_bind, answer_ofExcept, hprinted]
      rfl
    rw [(h.withCommand (.print artifact.fileName)).session hplan, Plan.execute]
    refine ⟨rfl, rfl, rfl, fun colored => ?_⟩
    show Terminal.render colored [.text _] = _
    simp [Terminal.Item.render]
  · have hfile : found.file g.outputDir g.configuration.banner ∈ (g.delivery artifacts).files :=
      List.mem_map_of_mem hfound
    rw [← hname]
    exact hread (found.file g.outputDir g.configuration.banner) hfile

theorem Arguments.Makes.session_list (h : a.Makes fs g artifacts) :
    Prints fs ((a.withCommand .list).session fs namings) 0
      (fun _ => String.join ((g.delivery artifacts).paths.map (· ++ "\n"))) := by
  have hplan : answer fs (Command.list.plan g artifacts) =
      .ok (.report (.success ((g.delivery artifacts).paths.map Terminal.line))) := rfl
  rw [(h.withCommand .list).session hplan, Plan.execute]
  exact ⟨rfl, rfl, rfl, fun colored => Terminal.render_lines colored _⟩

theorem render_ofDelivery (colored : Bool) (directory : String) (written : List String) :
    Terminal.render colored (Outcome.ofDelivery directory (.ok written)).output =
      "wrote " ++ toString written.length ++ " artifacts to " ++ directory ++ "\n" := by
  show Terminal.render colored [Terminal.line _] = _
  simp

/-! ## After generating -/

/-- After files were generated, if their paths lead to different places and none of them to an
input, checking prints that each of them is up to date, printing gives what is on disk, listing
gives the paths that were written, and generating once more ends in the same way and changes
nothing. Temporary files are named apart from the destinations, and for the second time under names
that are free; the file system has no links and no permissions. -/
theorem commands_agree {outcome : Outcome} (hcommand : a.chosenCommand = .generate)
    (hsession : a.session fs namings = (fs', outcome)) (hsuccess : outcome.exitCode = 0) :
    ∃ g artifacts written, a.Makes fs g artifacts ∧
      (g.delivery artifacts).perform fs (namings (g.delivery artifacts)) = (fs', .ok written) ∧
      written = artifacts.map (fun artifact => Path.join g.outputDir artifact.fileName) ∧
      (∀ colored, Terminal.render colored outcome.output =
        "wrote " ++ toString written.length ++ " artifacts to " ++ g.outputDir ++ "\n") ∧
      ((namings (g.delivery artifacts)).Avoids (g.delivery artifacts).names →
        (written.Pairwise fun path later => ¬ fs'.SamePlace path later) →
        (∀ path ∈ written, ∀ input ∈ reads fs a.inquire, ¬ fs'.SamePlace path input) →
        Prints fs' ((a.withCommand .check).session fs' namings) 0 (fun colored =>
            String.join (written.map fun path =>
              bold "2" "      ok" colored ++ " " ++ path ++ "\n") ++
            bold "2" ("all " ++ toString written.length ++ " artifacts up to date\n") colored) ∧
          (∀ artifact ∈ artifacts, ∃ contents,
            Prints fs' ((a.withCommand (.print artifact.fileName)).session fs' namings) 0
                (fun _ => contents) ∧
              fs'.read (Path.join g.outputDir artifact.fileName) = .ok contents.toUTF8) ∧
          Prints fs' ((a.withCommand .list).session fs' namings) 0
            (fun _ => String.join (written.map (· ++ "\n"))) ∧
          ((namings (g.delivery artifacts)).Fresh →
            ∃ again, a.session fs' namings = (again, outcome) ∧
              ∀ location, again.lookup? location = fs'.lookup? location)) := by
  obtain ⟨g, artifacts, written, hmakes, hperform, rfl⟩ :=
    Arguments.exists_of_generate hcommand hsession hsuccess
  have hpaths := Delivery.paths_of_perform hperform
  have hwritten : written = artifacts.map fun artifact =>
      Path.join g.outputDir artifact.fileName := by
    rw [hpaths]
    exact List.map_map
  refine ⟨g, artifacts, written, hmakes, hperform, hwritten,
    fun colored => render_ofDelivery colored g.outputDir written,
    fun havoids hdistinct hapart => ?_⟩
  rw [hmakes.reads hcommand] at hapart
  have hagain := hmakes.of_keepsTexts (Delivery.keepsTexts_of_perform havoids hperform hapart)
  have hread := Delivery.read_of_perform havoids hperform hdistinct
  have hlength : written.length = artifacts.length := by rw [hwritten, List.length_map]
  refine ⟨?_, fun artifact => hagain.session_print hread, ?_, fun hfresh => ?_⟩
  · rw [hlength, hpaths]
    exact hagain.session_check hread
  · rw [hpaths]
    exact hagain.session_list
  · obtain ⟨again, hperform', hsame⟩ := Delivery.perform_again havoids hfresh hperform
    exact ⟨again, hagain.session_generate hcommand hperform', hsame.lookup⟩

def messagePaths : List String := [
  "./gen/template_message_macros.ipp", "./gen/arity_message_macros.ipp",
  "./gen/no_arity_message_macros.ipp", "./gen/short_message_macros.ipp",
  "./gen/undef_message_macros.ipp", "./gen/message_macros.ipp"]

/-- What listing them prints. -/
def messageListing : String :=
  "./gen/template_message_macros.ipp\n./gen/arity_message_macros.ipp\n" ++
  "./gen/no_arity_message_macros.ipp\n./gen/short_message_macros.ipp\n" ++
  "./gen/undef_message_macros.ipp\n./gen/message_macros.ipp\n"

/-- What checking them prints without colours. -/
def messageReport : String :=
  "      ok ./gen/template_message_macros.ipp\n      ok ./gen/arity_message_macros.ipp\n" ++
  "      ok ./gen/no_arity_message_macros.ipp\n      ok ./gen/short_message_macros.ipp\n" ++
  "      ok ./gen/undef_message_macros.ipp\n      ok ./gen/message_macros.ipp\n" ++
  "all 6 artifacts up to date\n"

/-- The last of them. -/
def messageUmbrella : String :=
  "//\n// this file is automatically generated by aritygen\n" ++
  "// edit the templates and regenerate instead of editing it by hand\n//\n\n#pragma once\n\n" ++
  "#include \"template_message_macros.ipp\"\n#include \"arity_message_macros.ipp\"\n" ++
  "#include \"no_arity_message_macros.ipp\"\n#include \"short_message_macros.ipp\"\n"

theorem commands_agree_messageProject :
    (∀ d, (Namings.numbered d).Avoids d.names ∧ (Namings.numbered d).Fresh) ∧
      ∃ fs' outcome again,
        run messageProject ["generate"] = (fs', outcome) ∧ outcome.exitCode = 0 ∧
        Terminal.render false outcome.output = "wrote 6 artifacts to ./gen\n" ∧
        (run fs' ["check"]).2.exitCode = 0 ∧
        Terminal.render false (run fs' ["check"]).2.output = messageReport ∧
        Terminal.render false (run fs' ["print", "message_macros.ipp"]).2.output =
          messageUmbrella ∧
        fs'.read "./gen/message_macros.ipp" = .ok messageUmbrella.toUTF8 ∧
        Terminal.render false (run fs' ["list"]).2.output = messageListing ∧
        run fs' ["generate"] = (again, outcome) ∧
        ∀ location, again.lookup? location = fs'.lookup? location := by
  have hnamings : ∀ d, (Namings.numbered d).Avoids d.names ∧ (Namings.numbered d).Fresh :=
    fun d => ⟨Naming.avoids_numbered d.names, Naming.fresh_numbered d.names⟩
  obtain ⟨hsuccess, hapart, hmade⟩ :
      (generating.session messageProject .numbered).2.exitCode = 0 ∧
        (∀ path ∈ messagePaths, ∀ input ∈ reads messageProject generating.inquire,
          ¬ (generating.session messageProject .numbered).1.SamePlace path input) ∧
        (generating.session messageProject .numbered).1.readText "./gen/message_macros.ipp" =
          .ok messageUmbrella := by
    decide +kernel
  have hsession : generating.session messageProject .numbered =
      ((generating.session messageProject .numbered).1,
        (generating.session messageProject .numbered).2) := rfl
  obtain ⟨g, artifacts, written, hmakes, -, hpaths, hwrote, hagree⟩ :=
    commands_agree rfl hsession hsuccess
  have hgenerator : answer messageProject generating.generator = .ok messageGenerator := by
    decide +kernel
  obtain rfl : g = messageGenerator := Except.ok.inj (hmakes.generator.symm.trans hgenerator)
  obtain ⟨havoids, hfresh⟩ := hnamings (messageGenerator.delivery artifacts)
  have houtputs : messageGenerator.configuration.outputs.map
      (Path.join messageGenerator.outputDir) = messagePaths := by decide
  have hwritten : written = messagePaths := by
    rw [← houtputs, ← Generator.fileNames_of_run hmakes.artifacts, List.map_map]
    exact hpaths
  have hdistinct := Generator.pairwise_paths_of_run hmakes.artifacts (by decide) (by decide)
    (generating.session messageProject .numbered).1
  rw [Generator.paths_of_run hmakes.artifacts, houtputs] at hdistinct
  subst hwritten
  obtain ⟨hcheck, hprint, hlist, hgenerate⟩ := hagree havoids hdistinct hapart
  obtain ⟨again, hagain, hsame⟩ := hgenerate hfresh
  obtain ⟨artifact, hartifact, hname⟩ : ∃ artifact ∈ artifacts,
      artifact.fileName = "message_macros.ipp" := by
    rw [← List.mem_map, Generator.fileNames_of_run hmakes.artifacts]
    decide
  obtain ⟨contents, hprinted, hread⟩ := hprint artifact hartifact
  rw [hname] at hprinted hread
  obtain rfl : contents = messageUmbrella :=
    Except.ok.inj ((readText_eq_ok_iff.2 hread).symm.trans hmade)
  exact ⟨hnamings, _, _, again, (run_of_parse rfl).trans hsession, hsuccess,
    (hwrote false).trans (by decide), hcheck.exitCode_eq,
    (hcheck.printed false).trans (by decide +kernel), hprinted.printed false, hread,
    (hlist.printed false).trans (by decide +kernel),
    (run_of_parse rfl).trans hagain, hsame⟩

end MacroFamilies.CommandLine
