import MacroFamilies.Generator
import MacroFamilies.Proofs.Traversal
/-!
# The passes of a generation

A generation runs its passes one after another, stops at the first one that fails, and then collects
what they made. So it fails exactly when one of its passes does.
-/

namespace MacroFamilies

open Traversal

structure Generation where
  repeated : List Artifact
  dispatch : Artifact
  aliases : Artifact
  undef : Artifact

def Generation.artifacts (made : Generation) : List Artifact :=
  made.repeated ++ [made.dispatch, made.aliases, made.undef]

namespace Configuration

variable {c : Configuration} {inputs : Inputs}

def repetitions (c : Configuration) (inputs : Inputs) : List (ArityPass × Template) :=
  c.arityPasses.zip inputs.arityTemplates

def passes (c : Configuration) (inputs : Inputs) : Except Diagnostic Generation := do
  let repeated ← (c.repetitions inputs).mapM fun entry =>
    c.arityArtifact inputs.range entry.1 entry.2
  let dispatch ← Emission.dispatch c.dispatch.output inputs.dispatchTemplate inputs.range
    c.dispatch.style
  let aliases ← Emission.aliases c.aliases.output inputs.aliasTemplate c.aliases.rules inputs.range
    c.aliases.trailer
  let undef ← Emission.undefinition c.undef.output inputs.undefTemplate inputs.range
  return { repeated, dispatch, aliases, undef }

def collect (c : Configuration) (made : Generation) : List Artifact :=
  made.artifacts ++
    (c.umbrellaArtifact? (made.repeated ++ [made.dispatch, made.aliases]) made.undef).toList

theorem generate_eq (c : Configuration) (inputs : Inputs) :
    c.generate inputs = do return c.collect (← c.passes inputs) := by
  simp only [generate, passes, bind_assoc, pure_bind]
  simp [collect, repetitions, Generation.artifacts]

theorem generate_eq_ok_iff {artifacts : List Artifact} : c.generate inputs = .ok artifacts ↔
    ∃ made, c.passes inputs = .ok made ∧ artifacts = c.collect made := by
  rw [generate_eq, bind_eq_ok_iff]
  simp [pure, Except.pure, eq_comm]

theorem passes_eq_ok_iff {made : Generation} : c.passes inputs = .ok made ↔
    List.Forall₂ (fun entry artifact =>
        c.arityArtifact inputs.range entry.1 entry.2 = .ok artifact)
      (c.repetitions inputs) made.repeated ∧
    Emission.dispatch c.dispatch.output inputs.dispatchTemplate inputs.range c.dispatch.style =
      .ok made.dispatch ∧
    Emission.aliases c.aliases.output inputs.aliasTemplate c.aliases.rules inputs.range
      c.aliases.trailer = .ok made.aliases ∧
    Emission.undefinition c.undef.output inputs.undefTemplate inputs.range = .ok made.undef := by
  unfold passes
  simp only [bind_eq_ok_iff, mapM_eq_ok_iff]
  constructor
  · rintro ⟨repeated, hrepeated, dispatch, hdispatch, aliases, haliases, undef, hundef, hmade⟩
    cases hmade
    exact ⟨hrepeated, hdispatch, haliases, hundef⟩
  · rintro ⟨hrepeated, hdispatch, haliases, hundef⟩
    exact ⟨_, hrepeated, _, hdispatch, _, haliases, _, hundef, rfl⟩

inductive PassFails (c : Configuration) (inputs : Inputs) : Prop where
  | repetition {pass : ArityPass} {template : Template} {d : Diagnostic}
      (entry : (pass, template) ∈ c.repetitions inputs)
      (fails : c.arityArtifact inputs.range pass template = .error d)
  | dispatch {d : Diagnostic}
      (fails : Emission.dispatch c.dispatch.output inputs.dispatchTemplate inputs.range
        c.dispatch.style = .error d)
  | aliases {d : Diagnostic}
      (fails : Emission.aliases c.aliases.output inputs.aliasTemplate c.aliases.rules inputs.range
        c.aliases.trailer = .error d)
  | undef {d : Diagnostic}
      (fails : Emission.undefinition c.undef.output inputs.undefTemplate inputs.range = .error d)

theorem generate_fails_iff : (∃ d, c.generate inputs = .error d) ↔ c.PassFails inputs := by
  constructor
  · rintro ⟨d, hd⟩
    by_contra hnone
    have hrepeated : ∀ entry ∈ c.repetitions inputs,
        ∃ artifact, c.arityArtifact inputs.range entry.1 entry.2 = .ok artifact :=
      fun entry hentry => exists_ok fun e he => hnone (.repetition hentry he)
    obtain ⟨repeated, hrepeated⟩ := exists_mapM_iff.2 hrepeated
    obtain ⟨dispatch, hdispatch⟩ := exists_ok fun e he => hnone (.dispatch he)
    obtain ⟨aliases, haliases⟩ := exists_ok fun e he => hnone (.aliases he)
    obtain ⟨undef, hundef⟩ := exists_ok fun e he => hnone (.undef he)
    have hmade : c.passes inputs = .ok ⟨repeated, dispatch, aliases, undef⟩ :=
      passes_eq_ok_iff.2 ⟨mapM_eq_ok_iff.1 hrepeated, hdispatch, haliases, hundef⟩
    have hgenerate := generate_eq_ok_iff.2 ⟨_, hmade, rfl⟩
    rw [hd] at hgenerate
    cases hgenerate
  · intro hfails
    by_contra hnone
    obtain ⟨artifacts, hgenerate⟩ := exists_ok fun d hd => hnone ⟨d, hd⟩
    obtain ⟨made, hmade, -⟩ := generate_eq_ok_iff.1 hgenerate
    obtain ⟨hrepeated, hdispatch, haliases, hundef⟩ := passes_eq_ok_iff.1 hmade
    cases hfails with
    | repetition entry fails =>
      obtain ⟨artifact, hartifact⟩ := exists_mapM_iff.1 ⟨_, mapM_eq_ok_iff.2 hrepeated⟩ _ entry
      rw [fails] at hartifact
      cases hartifact
    | dispatch fails => simp [fails] at hdispatch
    | aliases fails => simp [fails] at haliases
    | undef fails => simp [fails] at hundef

end Configuration

end MacroFamilies
