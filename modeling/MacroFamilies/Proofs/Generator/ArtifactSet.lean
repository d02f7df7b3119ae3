import MacroFamilies.Proofs.Generator.Destinations
import MacroFamilies.Proofs.Generator.Passes
/-!
# The artifacts of a run

A run makes one artifact for each pass, in the order of the passes, and includes none but its own:
an arity artifact may end by including the dispatch artifact, and the umbrella includes what stands
in front of it.
-/

namespace MacroFamilies

open Inquiry Traversal

/-- The artifact has the output of the pass for its name. It holds the preamble and an expansion of
the template for every arity, and behind them, exactly if the pass asks for it, the line that
includes the dispatch artifact. -/
structure ArityPass.Makes (pass : ArityPass) (template : Template) (range : ArityRange)
    (dispatch artifact : Artifact) : Prop where
  fileName_eq : artifact.fileName = pass.output
  lines_eq : ∃ blocks,
    List.Forall₂ (fun n block => template.expand (synthesize n) = .ok block) range.ascending
      blocks ∧
    (artifact.lines =
        pass.preamble ++ blocks.flatMap blockLines ++
          ["#include \"" ++ dispatch.fileName ++ "\""] ↔
      pass.includeDispatch = true) ∧
    (artifact.lines = pass.preamble ++ blocks.flatMap blockLines ↔ pass.includeDispatch = false)

theorem ArityPass.makes_of_arityArtifact {c : Configuration} {pass : ArityPass}
    {template : Template} {range : ArityRange} {dispatch artifact : Artifact}
    (h : c.arityArtifact range pass template = .ok artifact)
    (hdispatch : dispatch.fileName = c.dispatch.output) :
    pass.Makes template range dispatch artifact := by
  unfold Configuration.arityArtifact Emission.repetition at h
  obtain ⟨blocks, hblocks, hpure⟩ := bind_eq_ok_iff.1 h
  cases hpure
  refine ⟨rfl, blocks, mapM_eq_ok_iff.1 hblocks, ?_, ?_⟩
  · cases pass.includeDispatch <;> simp [hdispatch, includeLine]
  · cases pass.includeDispatch <;> simp

namespace Configuration

variable {c : Configuration} {inputs : Inputs} {made : Generation}

/-- What the passes made, as far as the umbrella is to include it. -/
def included (c : Configuration) (made : Generation) : List Artifact :=
  made.repeated ++ [made.dispatch, made.aliases] ++
    if c.umbrella.includeUndef then [made.undef] else []

theorem umbrellaArtifact?_eq (c : Configuration) (made : Generation) :
    c.umbrellaArtifact? (made.repeated ++ [made.dispatch, made.aliases]) made.undef =
      c.umbrella.output.map fun output => Emission.umbrella output (c.included made) := by
  unfold umbrellaArtifact? included
  split_ifs <;> simp

theorem included_subset (c : Configuration) (made : Generation) :
    c.included made ⊆ made.artifacts := by
  unfold included Generation.artifacts
  split_ifs <;> simp

/-- No arity pass is dropped where there is a template for each. -/
theorem forall₂_makes_of_passes {R : ArityPass → Template → Prop}
    (htemplates : List.Forall₂ R c.arityPasses inputs.arityTemplates)
    (h : c.passes inputs = .ok made) :
    List.Forall₂ (fun pass artifact => ∃ template, R pass template ∧
      pass.Makes template inputs.range made.dispatch artifact) c.arityPasses made.repeated := by
  obtain ⟨hrepeated, hdispatch, -⟩ := passes_eq_ok_iff.1 h
  have hname := Emission.goesTo_dispatch _ _ _ made.dispatch hdispatch
  -- passes are zipped with their templates, and there are as many of these
  refine (forall₂_of_zip htemplates hrepeated).imp fun pass artifact => ?_
  rintro ⟨template, htemplate, hartifact⟩
  exact ⟨template, htemplate, ArityPass.makes_of_arityArtifact hartifact hname⟩

end Configuration

namespace Generator

/-- What a run makes: an artifact for each arity pass, in their order, then those of the dispatch
layer, of the aliases and of the undefines, and then, if it has an output, the umbrella, which has a
line for each artifact in front of it, for the undefines only if it is to have them. So nothing is
included that is not made. -/
theorem artifacts_of_run (g : Generator) {fs : FileSystem} {artifacts : List Artifact}
    (h : answer fs g.run = .ok artifacts) :
    ∃ (inputs : Inputs) (made : Generation) (umbrella : Option Artifact),
      answer fs g.inputs = .ok inputs ∧
      artifacts = made.repeated ++ [made.dispatch, made.aliases, made.undef] ++ umbrella.toList ∧
      List.Forall₂ (fun pass artifact => ∃ template,
          answer fs (g.store.load pass.template) = .ok template ∧
          pass.Makes template inputs.range made.dispatch artifact)
        g.configuration.arityPasses made.repeated ∧
      (Emission.dispatch g.configuration.dispatch.output inputs.dispatchTemplate inputs.range
          g.configuration.dispatch.style = .ok made.dispatch ∧
        made.dispatch.fileName = g.configuration.dispatch.output) ∧
      (Emission.aliases g.configuration.aliases.output inputs.aliasTemplate
          g.configuration.aliases.rules inputs.range g.configuration.aliases.trailer =
            .ok made.aliases ∧
        made.aliases.fileName = g.configuration.aliases.output) ∧
      (Emission.undefinition g.configuration.undef.output inputs.undefTemplate inputs.range =
          .ok made.undef ∧
        made.undef.fileName = g.configuration.undef.output) ∧
      umbrella.map (·.fileName) = g.configuration.umbrella.output ∧
      (∀ all ∈ umbrella, all.lines =
        ["#pragma once", ""] ++
          (g.configuration.included made).map fun a => "#include \"" ++ a.fileName ++ "\"") ∧
      g.configuration.included made ⊆ artifacts ∧ made.dispatch ∈ artifacts := by
  obtain ⟨inputs, hinputs, hgenerate⟩ := answer_run_eq_ok_iff.1 h
  obtain ⟨made, hmade, rfl⟩ := Configuration.generate_eq_ok_iff.1 hgenerate
  obtain ⟨-, htemplates, -⟩ := answer_inputs_eq_ok_iff.1 hinputs
  obtain ⟨-, hdispatch, haliases, hundef⟩ := Configuration.passes_eq_ok_iff.1 hmade
  have hincluded : g.configuration.included made ⊆ g.configuration.collect made :=
    List.Subset.trans (g.configuration.included_subset made) (List.subset_append_left _ _)
  refine ⟨inputs, made, _, hinputs, rfl, Configuration.forall₂_makes_of_passes htemplates hmade,
    ⟨hdispatch, Emission.goesTo_dispatch _ _ _ _ hdispatch⟩,
    ⟨haliases, Emission.goesTo_aliases _ _ _ _ _ haliases⟩,
    ⟨hundef, Emission.goesTo_undefinition _ _ _ hundef⟩, ?_, ?_, hincluded, ?_⟩
  · rw [Configuration.umbrellaArtifact?_eq, Option.map_map]
    cases g.configuration.umbrella.output <;> rfl
  · intro all hall
    rw [Configuration.umbrellaArtifact?_eq] at hall
    obtain ⟨output, -, rfl⟩ := Option.map_eq_some_iff.1 hall
    rfl
  · exact hincluded (by simp [Configuration.included])

def declaredFiles : FileSystem where
  entries := [
    (["decl"], .file "void f%\x7barity\x7d();\n".toUTF8),
    (["size"], .file "int n%\x7barity\x7d;\n".toUTF8)] ++ messageFiles.entries

/-- Two arity passes, of which one asks for the dispatch artifact. -/
def declaredGenerator : Generator where
  configuration := {
    maxArity := some 1
    arityPasses := [
      { template := "decl", output := "decl.ipp", includeDispatch := true },
      { template := "size", output := "size.ipp" }]
    dispatch := { template := "d", output := "d.ipp" }
    aliases := { template := "s", output := "s.ipp", rules := [], trailer := none }
    undef := { template := "u", output := "u.ipp" }
    umbrella := { output := some "all.ipp", includeUndef := true } }
  baseDir := "."

theorem artifacts_of_run_declared :
    ∃ artifacts, answer declaredFiles declaredGenerator.run = .ok artifacts ∧
      ∃ made : Generation, ∃ all, artifacts = made.artifacts ++ [all] ∧
        all.lines = ["#pragma once", "", "#include \"decl.ipp\"", "#include \"size.ipp\"",
          "#include \"d.ipp\"", "#include \"s.ipp\"", "#include \"u.ipp\""] ∧
        made.repeated.length = 2 := by
  have hnames : (answer declaredFiles declaredGenerator.run).map (·.map (·.fileName)) =
      .ok ["decl.ipp", "size.ipp", "d.ipp", "s.ipp", "u.ipp", "all.ipp"] := by decide +kernel
  obtain ⟨artifacts, hrun, hfiles⟩ := map_eq_ok_iff.1 hnames
  obtain ⟨inputs, made, umbrella, -, rfl, hpasses, -, -, -, houtput, hlines, -⟩ :=
    declaredGenerator.artifacts_of_run hrun
  obtain ⟨all, rfl, hall⟩ := Option.map_eq_some_iff.1 houtput
  have hincluded : (declaredGenerator.configuration.included made).map (·.fileName) =
      ["decl.ipp", "size.ipp", "d.ipp", "s.ipp", "u.ipp"] := by
    rw [List.map_append] at hfiles
    have hfront : (made.repeated ++ [made.dispatch, made.aliases, made.undef]).map (·.fileName) =
        ["decl.ipp", "size.ipp", "d.ipp", "s.ipp", "u.ipp"] := List.append_inj_left' hfiles rfl
    simpa [Configuration.included, declaredGenerator] using hfront
  refine ⟨_, hrun, made, all, rfl, ?_, hpasses.length_eq.symm⟩
  calc all.lines
    _ = ["#pragma once", ""] ++
        ((declaredGenerator.configuration.included made).map (·.fileName)).map includeLine := by
      rw [hlines all rfl, List.map_map]
      rfl
    _ = _ := by
      rw [hincluded]
      rfl

end Generator

end MacroFamilies
