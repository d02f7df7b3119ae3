import MacroFamilies.Proofs.CommandLine.Checking
import MacroFamilies.Proofs.Generator.Passes
/-!
# What a session changes

Only a delivery changes anything, and it comes last: the configuration is loaded, the inputs are
loaded and all passes are run before. So where any of that fails, and wherever a session is not
about to generate, everything is left as it was.
-/

namespace MacroFamilies.CommandLine

open FileSystem Inquiry

variable {fs : FileSystem} {namings : Namings} {a : Arguments} {g : Generator}
  {artifacts : List Artifact}

/-! ## Failing sessions -/

/-- A session fails before anything is delivered: something cannot be loaded, a pass fails, an
artifact that is asked for is not made, or a destination that is to be checked cannot be read. -/
inductive Arguments.Fails (a : Arguments) (fs : FileSystem) : Prop where
  | configuration {d : Diagnostic} (fails : answer fs (Configuration.read a.config) = .error d)
  | inputs {g : Generator} {d : Diagnostic} (generator : answer fs a.generator = .ok g)
      (fails : answer fs g.inputs = .error d)
  | pass {g : Generator} {inputs : Inputs} (generator : answer fs a.generator = .ok g)
      (loaded : answer fs g.inputs = .ok inputs) (fails : g.configuration.PassFails inputs)
  | unknownArtifact {g : Generator} {artifacts : List Artifact} {file : String}
      (makes : a.Makes fs g artifacts) (command : a.chosenCommand = .print file)
      (unknown : ∀ artifact ∈ artifacts, artifact.fileName ≠ file)
  | unreadable {g : Generator} {artifacts : List Artifact} {artifact : Artifact}
      (makes : a.Makes fs g artifacts) (command : a.chosenCommand = .check)
      (made : artifact ∈ artifacts)
      (present : fs.read (Path.join g.outputDir artifact.fileName) ≠ .error .notFound)
      (notText : ∀ text : String,
        fs.read (Path.join g.outputDir artifact.fileName) ≠ .ok text.toUTF8)

theorem answer_run_eq (g : Generator) (fs : FileSystem) :
    answer fs g.run = (answer fs g.inputs).bind g.configuration.generate := by
  unfold Generator.run
  rw [answer_bind]
  rfl

theorem Arguments.session_of_error {d : Diagnostic} (h : answer fs a.inquire = .error d) :
    a.session fs namings = (fs, .failed [] d) := by
  rw [Arguments.session, Arguments.run_plan, h]
  rfl

theorem Arguments.answer_inquire_of_generator (h : answer fs a.generator = .ok g) :
    answer fs a.inquire = (answer fs g.run).bind fun artifacts =>
      answer fs (a.chosenCommand.plan g artifacts) := by
  unfold Arguments.inquire
  rw [answer_bind, h]
  exact answer_bind fs _ _

theorem printed_of_unknown {file : String} (banner : String)
    (h : ∀ artifact ∈ artifacts, artifact.fileName ≠ file) :
    printed banner file artifacts = .error (unknownArtifact file artifacts) := by
  have hfind : artifacts.find? (·.fileName = file) = none := by
    rw [List.find?_eq_none]
    intro artifact hartifact
    simpa using h artifact hartifact
  rw [printed, hfind]

theorem Arguments.Fails.session (h : a.Fails fs) :
    (a.session fs namings).1 = fs ∧ (a.session fs namings).2.exitCode ≠ 0 := by
  -- all but an unreadable destination stop the session before there is a plan
  have hstop {d : Diagnostic} (hd : answer fs a.inquire = .error d) :
      (a.session fs namings).1 = fs ∧ (a.session fs namings).2.exitCode ≠ 0 := by
    rw [Arguments.session_of_error hd]
    exact ⟨rfl, Nat.one_ne_zero⟩
  cases h with
  | @configuration d fails =>
    have hgenerator : answer fs a.generator = .error d := by
      unfold Arguments.generator Generator.ofFile
      rw [answer_bind, answer_bind, fails]
      rfl
    apply hstop (d := d)
    rw [Arguments.inquire, answer_bind, hgenerator]
    rfl
  | @inputs g d generator fails =>
    apply hstop (d := d)
    rw [Arguments.answer_inquire_of_generator generator, answer_run_eq, fails]
    rfl
  | @pass g inputs generator loaded fails =>
    obtain ⟨d, hd⟩ := Configuration.generate_fails_iff.2 fails
    have hrun : answer fs g.run = .error d := by
      rw [answer_run_eq, loaded]
      exact hd
    apply hstop (d := d)
    rw [Arguments.answer_inquire_of_generator generator, hrun]
    rfl
  | @unknownArtifact g artifacts file makes command unknown =>
    apply hstop (d := CommandLine.unknownArtifact file artifacts)
    rw [Arguments.answer_inquire_of_generator makes.generator, makes.artifacts, command]
    show answer fs (Command.plan g artifacts (.print file)) = _
    rw [Command.plan, answer_bind, answer_ofExcept, printed_of_unknown _ unknown]
    rfl
  | @unreadable g artifacts artifact makes command made present notText =>
    refine ⟨by rw [makes.session_survey command], fun hexit => ?_⟩
    have hcurrent : IsCurrent fs g artifact :=
      (makes.check_exitCode_eq_zero_iff command).1 hexit artifact made
    exact notText _ hcurrent

/-- Unless a session fails, there are artifacts. -/
theorem Arguments.makes_or_fails (a : Arguments) (fs : FileSystem) :
    (∃ g artifacts, a.Makes fs g artifacts) ∨ a.Fails fs := by
  cases hconfiguration : answer fs (Configuration.read a.config) with
  | error d => exact .inr (.configuration hconfiguration)
  | ok c =>
    obtain ⟨g, hgenerator⟩ : ∃ g, answer fs a.generator = .ok g :=
      ⟨_, Arguments.answer_generator_eq_ok_iff.2 ⟨c, hconfiguration, rfl⟩⟩
    cases hinputs : answer fs g.inputs with
    | error d => exact .inr (.inputs hgenerator hinputs)
    | ok inputs =>
      have hrun : answer fs g.run = g.configuration.generate inputs := by
        rw [answer_run_eq, hinputs]
        rfl
      cases hgenerate : g.configuration.generate inputs with
      | error d =>
        exact .inr (.pass hgenerator hinputs (Configuration.generate_fails_iff.1 ⟨d, hgenerate⟩))
      | ok artifacts => exact .inl ⟨g, artifacts, hgenerator, hrun.trans hgenerate⟩

/-! ## Sessions that only report -/

theorem Command.plan_reports {c : Command} (h : c ≠ .generate) {plan : Plan}
    (hplan : answer fs (c.plan g artifacts) = .ok plan) : ∃ outcome, plan = .report outcome := by
  cases c with
  | generate => exact absurd rfl h
  | check =>
    obtain ⟨_, -, hreport⟩ := answer_bind_eq_ok_iff.1 hplan
    exact ⟨_, (Except.ok.inj hreport).symm⟩
  | print file =>
    obtain ⟨_, -, hreport⟩ := answer_bind_eq_ok_iff.1 hplan
    exact ⟨_, (Except.ok.inj hreport).symm⟩
  | list => exact ⟨_, (Except.ok.inj hplan).symm⟩

theorem Arguments.session_of_not_generate (h : a.chosenCommand ≠ .generate) :
    (a.session fs namings).1 = fs := by
  cases hinquire : answer fs a.inquire with
  | error d => rw [Arguments.session_of_error hinquire]
  | ok plan =>
    obtain ⟨g, artifacts, hmakes, hplan⟩ := Arguments.answer_inquire_eq_ok_iff.1 hinquire
    obtain ⟨outcome, rfl⟩ := Command.plan_reports h hplan
    rw [hmakes.session hplan, Plan.execute]

/-! ## What is written -/

/-- Nothing is written unless everything is loaded and every pass succeeds. Where something fails
before, and for all commands that do not generate, the file system is the same as before; where
something fails, the exit code says so. Otherwise the artifacts of all passes are delivered. -/
theorem nothing_written_unless_all_succeed {args : List String}
    (hparse : Arguments.parse args = .ok a) :
    (a.Fails fs → (run fs args namings).1 = fs ∧ (run fs args namings).2.exitCode ≠ 0) ∧
      (a.chosenCommand ≠ .generate → (run fs args namings).1 = fs) ∧
      (a.chosenCommand = .generate → ¬ a.Fails fs → ∃ g artifacts, a.Makes fs g artifacts ∧
        (run fs args namings).1 =
          ((g.delivery artifacts).perform fs (namings (g.delivery artifacts))).1) := by
  rw [run_of_parse hparse]
  refine ⟨Arguments.Fails.session, Arguments.session_of_not_generate, fun hcommand hfails => ?_⟩
  obtain ⟨g, artifacts, hmakes⟩ := (a.makes_or_fails fs).resolve_right hfails
  refine ⟨g, artifacts, hmakes, ?_⟩
  cases hperform : (g.delivery artifacts).perform fs (namings (g.delivery artifacts)) with
  | mk after result => rw [hmakes.session_generate hcommand hperform]

/-- The small project with a template that cannot be expanded: that of the last pass. -/
def brokenProject : FileSystem where
  entries := messageProject.entries.dropLast ++ [
    (["undef_message_macros_template"], .file "MSG_%\x7barities\x7d\n".toUTF8)]

theorem nothing_written_unless_all_succeed_broken :
    Arguments.parse ["generate"] = .ok generating ∧ generating.Fails brokenProject ∧
      (run brokenProject ["generate"]).1 = brokenProject ∧
      (run brokenProject ["generate"]).2.exitCode ≠ 0 ∧
      (run messageProject ["list"]).1 = messageProject := by
  have hparse : Arguments.parse ["generate"] = .ok generating := by decide +kernel
  have hfails : generating.Fails brokenProject := by
    refine (generating.makes_or_fails brokenProject).resolve_left ?_
    rintro ⟨g, artifacts, hmakes⟩
    have hgenerator : answer brokenProject generating.generator = .ok messageGenerator := by
      decide +kernel
    obtain rfl : g = messageGenerator := Except.ok.inj (hmakes.generator.symm.trans hgenerator)
    have hrun : (answer brokenProject messageGenerator.run).isOk = false := by decide +kernel
    rw [hmakes.artifacts] at hrun
    cases hrun
  obtain ⟨hsame, hexit⟩ := (nothing_written_unless_all_succeed hparse).1 hfails
  have hlist : Arguments.parse ["list"] = .ok { command := some .list } := by decide +kernel
  exact ⟨hparse, hfails, hsame, hexit,
    (nothing_written_unless_all_succeed hlist).2.1 (by decide)⟩

end MacroFamilies.CommandLine
