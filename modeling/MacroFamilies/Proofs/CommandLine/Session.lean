import MacroFamilies.CommandLine.Session
import MacroFamilies.Proofs.Query
/-!
# What sessions have in common

All commands read the configuration and the inputs and make the artifacts of them; only then do they
part. What a session comes to is what its command makes of the artifacts, or the report of what
failed before.
-/

namespace MacroFamilies.CommandLine

open Inquiry

variable {fs fs' : FileSystem} {namings : Namings} {a : Arguments} {g : Generator}
  {artifacts : List Artifact}

namespace Arguments

def withCommand (a : Arguments) (c : Command) : Arguments := { a with command := some c }

def session (a : Arguments) (fs : FileSystem) (namings : Namings) : FileSystem × Outcome :=
  (a.plan.run fs).execute fs namings

end Arguments

theorem run_of_parse {args : List String} (h : Arguments.parse args = .ok a) :
    run fs args namings = a.session fs namings := by
  rw [run, h]
  rfl

theorem Arguments.answer_generator_eq_ok_iff : answer fs a.generator = .ok g ↔
    ∃ c, answer fs (Configuration.read a.config) = .ok c ∧ g = {
      configuration := c
      baseDir := Path.directory a.config
      maxArityOverride := a.maxArity } := by
  unfold Arguments.generator Generator.ofFile Generator.withMaxArity
  simp only [answer_bind_eq_ok_iff, answer_pure, Except.ok.injEq]
  constructor
  · rintro ⟨_, ⟨c, hc, rfl⟩, rfl⟩
    exact ⟨c, hc, rfl⟩
  · rintro ⟨c, hc, rfl⟩
    exact ⟨_, ⟨c, hc, rfl⟩, rfl⟩

/-- Reading the inputs ends with these artifacts of this generator. -/
structure Arguments.Makes (a : Arguments) (fs : FileSystem) (g : Generator)
    (artifacts : List Artifact) : Prop where
  generator : answer fs a.generator = .ok g
  artifacts : answer fs g.run = .ok artifacts

theorem Arguments.run_plan (a : Arguments) (fs : FileSystem) :
    a.plan.run fs = match answer fs a.inquire with
      | .ok plan => plan
      | .error d => .report (.failed [] d) := by
  unfold Arguments.plan
  rw [Query.run_bind]
  show (match answer fs a.inquire with
    | .ok plan => pure plan
    | .error d => pure (.report (.failed [] d)) : Query Plan).run fs = _
  cases answer fs a.inquire <;> rfl

theorem Arguments.answer_inquire_eq_ok_iff {plan : Plan} : answer fs a.inquire = .ok plan ↔
    ∃ g artifacts, a.Makes fs g artifacts ∧
      answer fs (a.chosenCommand.plan g artifacts) = .ok plan := by
  unfold Arguments.inquire
  simp only [answer_bind_eq_ok_iff]
  constructor
  · rintro ⟨g, hg, artifacts, hartifacts, hplan⟩
    exact ⟨g, artifacts, ⟨hg, hartifacts⟩, hplan⟩
  · rintro ⟨g, artifacts, ⟨hg, hartifacts⟩, hplan⟩
    exact ⟨g, hg, artifacts, hartifacts, hplan⟩

theorem Arguments.Makes.session (h : a.Makes fs g artifacts) {plan : Plan}
    (hplan : answer fs (a.chosenCommand.plan g artifacts) = .ok plan) :
    a.session fs namings = plan.execute fs namings := by
  unfold Arguments.session
  rw [Arguments.run_plan, Arguments.answer_inquire_eq_ok_iff.2 ⟨g, artifacts, h, hplan⟩]

theorem Arguments.Makes.withCommand (h : a.Makes fs g artifacts) (c : Command) :
    (a.withCommand c).Makes fs g artifacts := ⟨h.generator, h.artifacts⟩

/-! ## Generating -/

theorem Arguments.Makes.session_generate (h : a.Makes fs g artifacts)
    (hcommand : a.chosenCommand = .generate) {result : Except Diagnostic (List String)}
    (hperform : (g.delivery artifacts).perform fs (namings (g.delivery artifacts)) =
      (fs', result)) :
    a.session fs namings = (fs', .ofDelivery g.outputDir result) := by
  have hplan : answer fs (a.chosenCommand.plan g artifacts) =
      .ok (.deliver (g.delivery artifacts)) := by
    rw [hcommand]
    rfl
  rw [h.session hplan, Plan.execute, hperform]
  rfl

theorem Arguments.exists_of_generate {outcome : Outcome} (hcommand : a.chosenCommand = .generate)
    (hsession : a.session fs namings = (fs', outcome)) (hsuccess : outcome.exitCode = 0) :
    ∃ g artifacts written, a.Makes fs g artifacts ∧
      (g.delivery artifacts).perform fs (namings (g.delivery artifacts)) = (fs', .ok written) ∧
      outcome = .ofDelivery g.outputDir (.ok written) := by
  cases hinquire : answer fs a.inquire with
  | error d =>
    rw [Arguments.session, Arguments.run_plan, hinquire] at hsession
    cases hsession
    cases hsuccess
  | ok plan =>
    obtain ⟨g, artifacts, hmakes, -⟩ := Arguments.answer_inquire_eq_ok_iff.1 hinquire
    cases hperform : (g.delivery artifacts).perform fs (namings (g.delivery artifacts)) with
    | mk after result =>
      rw [hmakes.session_generate hcommand hperform] at hsession
      cases hsession
      cases result with
      | error d => cases hsuccess
      | ok written => exact ⟨g, artifacts, written, hmakes, hperform, rfl⟩

/-! ## A small project -/

def messageProject : FileSystem where
  entries := [
    (["aritygen.yaml"], .file "".toUTF8),
    (["arity"], .file "1\n".toUTF8),
    (["message_macros_template"], .file "#define MSG_%\x7barity\x7d(n%\x7bargs_coma\x7d)\n".toUTF8),
    (["arity_message_macros_template"], .file "#define ARITY_%\x7barity\x7d\n".toUTF8),
    (["no_arity_message_macros_template"], .file "MSG%\x7barity\x7d(n, %\x7bargs\x7d)\n".toUTF8),
    (["short_message_macros_template"], .file "MSG%\x7barity\x7d\n".toUTF8),
    (["undef_message_macros_template"], .file "MSG_%\x7barity\x7d\n".toUTF8)]

def messageGenerator : Generator := { configuration := {}, baseDir := "." }

def generating : Arguments := { command := some .generate }

end MacroFamilies.CommandLine
