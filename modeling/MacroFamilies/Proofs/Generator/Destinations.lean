import MacroFamilies.Proofs.Delivery.Success
import MacroFamilies.Proofs.FileSystem.Naming
import MacroFamilies.Proofs.Generator.Inputs
import MacroFamilies.Proofs.Traversal
/-!
# Destinations

The artifacts of a run go to the outputs that the configuration gives its passes, each joined to the
output directory. Nothing keeps two passes from having one output, and then what is written first is
lost; where the outputs are different file names, every artifact stays.
-/

namespace MacroFamilies

open Inquiry Traversal

/-! ## The output of each pass -/

namespace Emission

/-- If an artifact is made, it goes to a file of this name. -/
def GoesTo (fileName : String) (emission : Except Diagnostic Artifact) : Prop :=
  ∀ artifact, emission = .ok artifact → artifact.fileName = fileName

variable {α : Type} {fileName : String}

theorem GoesTo.pure (fileName : String) (lines : List String) :
    GoesTo fileName (pure ⟨fileName, lines⟩) := by
  intro artifact h
  cases h
  rfl

theorem GoesTo.bind {x : Except Diagnostic α} {f : α → Except Diagnostic Artifact}
    (h : ∀ a, GoesTo fileName (f a)) : GoesTo fileName (x >>= f) := by
  intro artifact hbind
  obtain ⟨a, -, ha⟩ := bind_eq_ok_iff.1 hbind
  exact h a artifact ha

theorem goesTo_repetition (template : Template) (range : ArityRange) (preamble : List String)
    (included : Option String) :
    GoesTo fileName (repetition fileName template range preamble included) :=
  .bind fun _ => .pure fileName _

theorem goesTo_dispatch (template : Template) (range : ArityRange) (style : DispatchStyle) :
    GoesTo fileName (dispatch fileName template range style) :=
  .bind fun _ => .bind fun _ => .pure fileName _

theorem goesTo_aliases (template : Template) (rules : List Abbreviation) (range : ArityRange)
    (trailer : Option String) : GoesTo fileName (aliases fileName template rules range trailer) :=
  .bind fun _ => .bind fun _ => .pure fileName _

theorem goesTo_undefinition (template : Template) (range : ArityRange) :
    GoesTo fileName (undefinition fileName template range) :=
  .bind fun _ => .bind fun _ => .pure fileName _

end Emission

namespace Configuration

variable {c : Configuration} {artifacts : List Artifact}

/-- The outputs of all passes, in the order of their artifacts. -/
def outputs (c : Configuration) : List String :=
  c.arityPasses.map (·.output) ++ [c.dispatch.output, c.aliases.output, c.undef.output] ++
    c.umbrella.output.toList

theorem fileNames_of_generate {inputs : Inputs}
    (hlength : c.arityPasses.length = inputs.arityTemplates.length)
    (h : c.generate inputs = .ok artifacts) : artifacts.map (·.fileName) = c.outputs := by
  unfold generate at h
  simp only [bind_eq_ok_iff] at h
  obtain ⟨repeated, hrepeated, dispatch, hdispatch, aliases, haliases, undef, hundef, hpure⟩ := h
  cases hpure
  have hpasses : repeated.map (·.fileName) = c.arityPasses.map (·.output) := by
    calc repeated.map (·.fileName)
      _ = (c.arityPasses.zip inputs.arityTemplates).map fun entry => entry.1.output :=
        map_eq_of_mapM_eq_ok hrepeated fun entry artifact =>
          Emission.goesTo_repetition _ _ _ _ artifact
      _ = ((c.arityPasses.zip inputs.arityTemplates).map Prod.fst).map (·.output) := by
        rw [List.map_map]
        rfl
      _ = c.arityPasses.map (·.output) := by rw [List.map_fst_zip (by omega)]
  have humbrella (included : List Artifact) :
      (c.umbrellaArtifact? included undef).toList.map (·.fileName) = c.umbrella.output.toList := by
    unfold umbrellaArtifact?
    cases c.umbrella.output <;> rfl
  simp [outputs, hpasses, humbrella, Emission.goesTo_dispatch _ _ _ dispatch hdispatch,
    Emission.goesTo_aliases _ _ _ _ aliases haliases,
    Emission.goesTo_undefinition _ _ undef hundef]

end Configuration

namespace Generator

variable {g : Generator} {fs : FileSystem} {artifacts : List Artifact}

theorem fileNames_of_run (h : answer fs g.run = .ok artifacts) :
    artifacts.map (·.fileName) = g.configuration.outputs := by
  obtain ⟨inputs, hinputs, hgenerate⟩ := answer_run_eq_ok_iff.1 h
  obtain ⟨-, htemplates, -⟩ := answer_inputs_eq_ok_iff.1 hinputs
  exact Configuration.fileNames_of_generate htemplates.length_eq hgenerate

theorem paths_of_run (h : answer fs g.run = .ok artifacts) :
    (g.delivery artifacts).paths = g.configuration.outputs.map (Path.join g.outputDir) := by
  rw [← fileNames_of_run h]
  simp [delivery, Delivery.ofArtifacts, Delivery.paths, Artifact.file]

theorem pairwise_paths_of_run (h : answer fs g.run = .ok artifacts)
    (hnodup : g.configuration.outputs.Nodup)
    (hnames : ∀ output ∈ g.configuration.outputs, Path.IsFileName output) (disk : FileSystem) :
    (g.delivery artifacts).paths.Pairwise fun path later => ¬ disk.SamePlace path later := by
  rw [paths_of_run h, List.pairwise_map]
  refine hnodup.imp_of_mem fun {output later} houtput hlater hne hsame => hne ?_
  exact hsame.eq_of_join (hnames output houtput) (hnames later hlater)

/-- The destinations of a run are the outputs of the configuration, and they differ as these do.
What is written stays until something is written to the same place; so all of it stays where the
outputs are different file names. Temporary files are named apart from the destinations. -/
theorem destinations_of_run (g : Generator) {fs : FileSystem} {artifacts : List Artifact}
    (h : answer fs g.run = .ok artifacts) :
    (g.delivery artifacts).paths = g.configuration.outputs.map (Path.join g.outputDir) ∧
      ((∀ output ∈ g.configuration.outputs, ∀ other ∈ g.configuration.outputs,
          Path.isAbsolute output = Path.isAbsolute other) →
        ((g.delivery artifacts).paths.Nodup ↔ g.configuration.outputs.Nodup)) ∧
      ∀ naming disk after written, naming.Avoids (g.delivery artifacts).names →
        (g.delivery artifacts).perform disk naming = (after, .ok written) →
        (∀ before file later, (g.delivery artifacts).files = before ++ file :: later →
          (∀ other ∈ later, ¬ after.SamePlace file.path other.path) →
            after.read file.path = .ok file.contents.toUTF8) ∧
        (g.configuration.outputs.Nodup →
          (∀ output ∈ g.configuration.outputs, Path.IsFileName output) →
            ∀ file ∈ (g.delivery artifacts).files,
              after.read file.path = .ok file.contents.toUTF8) := by
  refine ⟨paths_of_run h, ?_, ?_⟩
  · intro halike
    rw [paths_of_run h]
    refine ⟨List.Nodup.of_map _, fun hnodup => hnodup.map_on ?_⟩
    intro output houtput other hother
    exact (Path.join_inj g.outputDir (halike output houtput other hother)).1
  · intro naming disk after written havoids hperform
    obtain ⟨hpaths, hwritten⟩ := Delivery.written_of_perform havoids hperform
    constructor
    · intro before file later hfiles hlater
      rw [hfiles] at hwritten
      exact hwritten.read hlater
    · intro hnodup hnames
      apply Delivery.read_of_perform havoids hperform
      rw [hpaths]
      exact pairwise_paths_of_run h hnodup hnames after

def messageFiles : FileSystem where
  entries := [
    (["d"], .file "MSG%\x7barity\x7d(n, %\x7bargs\x7d)\n".toUTF8),
    (["s"], .file "MSG%\x7barity\x7d\n".toUTF8),
    (["u"], .file "MSG_%\x7barity\x7d\n".toUTF8)]

def aliasesTo (output : String) : Generator where
  configuration := {
    maxArity := some 0
    banner := ""
    arityPasses := []
    dispatch := { template := "d", output := "d.ipp" }
    aliases := { template := "s", output := output, rules := [], trailer := none }
    undef := { template := "u", output := "u.ipp" }
    umbrella := { output := none } }
  baseDir := "."

def messageArtifacts (output : String) : List Artifact := [
  ⟨"d.ipp", ["#pragma once", "", "#define MSG(...) \\",
    "   I_DYNAMIX_VA_ARGS_PROXY(_GET_MSG_MACRO, (__VA_ARGS__, MSG_0, " ++
      "I_DYNAMIX_MESSAGE_ARG_ERROR))(__VA_ARGS__)",
    "#define _GET_MSG_MACRO(n, MACRO, ...) MACRO"]⟩,
  ⟨output, ["#pragma once", "", "#define MSG0 MSG_0"]⟩,
  ⟨"u.ipp", ["#undef MSG_0"]⟩]

/-- Where the aliases have the output of the dispatch layer, that layer is lost. -/
theorem destinations_collide :
    answer messageFiles (aliasesTo "d.ipp").run = .ok (messageArtifacts "d.ipp") ∧
      ¬ ((aliasesTo "d.ipp").delivery (messageArtifacts "d.ipp")).paths.Nodup ∧
      ∃ after written, ((aliasesTo "d.ipp").delivery (messageArtifacts "d.ipp")).perform
          messageFiles = (after, .ok written) ∧
        ∃ file ∈ ((aliasesTo "d.ipp").delivery (messageArtifacts "d.ipp")).files,
          after.read file.path ≠ .ok file.contents.toUTF8 := by
  have hwritten : (((aliasesTo "d.ipp").delivery (messageArtifacts "d.ipp")).perform
      messageFiles).2 = .ok ["./gen/d.ipp", "./gen/d.ipp", "./gen/u.ipp"] := by decide +kernel
  refine ⟨by decide +kernel, by decide +kernel, _, _, Prod.ext rfl hwritten, ?_⟩
  decide +kernel

/-- Where they have an output of their own, nothing is lost. -/
theorem destinations_of_run_aliases :
    answer messageFiles (aliasesTo "s.ipp").run = .ok (messageArtifacts "s.ipp") ∧
      (FileSystem.Naming.numbered
          ((aliasesTo "s.ipp").delivery (messageArtifacts "s.ipp")).names).Avoids
        ((aliasesTo "s.ipp").delivery (messageArtifacts "s.ipp")).names ∧
      ∃ after, ((aliasesTo "s.ipp").delivery (messageArtifacts "s.ipp")).perform messageFiles =
          (after, .ok ["./gen/d.ipp", "./gen/s.ipp", "./gen/u.ipp"]) ∧
        ∀ file ∈ ((aliasesTo "s.ipp").delivery (messageArtifacts "s.ipp")).files,
          after.read file.path = .ok file.contents.toUTF8 := by
  have hrun : answer messageFiles (aliasesTo "s.ipp").run = .ok (messageArtifacts "s.ipp") := by
    decide +kernel
  have hwritten : (((aliasesTo "s.ipp").delivery (messageArtifacts "s.ipp")).perform
      messageFiles).2 = .ok ["./gen/d.ipp", "./gen/s.ipp", "./gen/u.ipp"] := by decide +kernel
  have hperform : ((aliasesTo "s.ipp").delivery (messageArtifacts "s.ipp")).perform messageFiles =
      ((((aliasesTo "s.ipp").delivery (messageArtifacts "s.ipp")).perform messageFiles).1,
        .ok ["./gen/d.ipp", "./gen/s.ipp", "./gen/u.ipp"]) := by
    rw [← hwritten, Prod.mk.eta]
  obtain ⟨-, -, hkept⟩ := (aliasesTo "s.ipp").destinations_of_run hrun
  have havoids := FileSystem.Naming.avoids_numbered
    ((aliasesTo "s.ipp").delivery (messageArtifacts "s.ipp")).names
  exact ⟨hrun, havoids, _, hperform, (hkept _ _ _ _ havoids hperform).2 (by decide) (by decide)⟩

end Generator

end MacroFamilies
