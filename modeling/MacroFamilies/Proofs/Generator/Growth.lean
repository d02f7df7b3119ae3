import MacroFamilies.Proofs.Emission.Growth
import MacroFamilies.Proofs.Emission.Spelling
import MacroFamilies.Proofs.Generator.Passes
/-!
# Generations over larger ranges

The maximum arity has no say in whether a generation succeeds, nor in how it fails. Where it
succeeds, raising the maximum only adds: every artifact keeps its lines in their order, and gets
more of them at the end of each of its blocks.
-/

namespace MacroFamilies

open Emission

def Inputs.upTo (inputs : Inputs) (max : Nat) : Inputs := { inputs with range := ⟨max⟩ }

namespace Configuration

variable {N M : Nat}

/-- What the artifact of an arity pass ends with: the line that includes the dispatch layer, where
the pass asks for it. -/
def ending (c : Configuration) (pass : ArityPass) : List String :=
  if pass.includeDispatch then [includeLine c.dispatch.output] else []

theorem alike_arityArtifact (c : Configuration) (pass : ArityPass) (template : Template)
    (h : N ≤ M) :
    Alike (Continued (c.ending pass))
      (c.arityArtifact ⟨N⟩ pass template) (c.arityArtifact ⟨M⟩ pass template) := by
  have hending : c.ending pass =
      (if pass.includeDispatch then some c.dispatch.output else none).toList.map includeLine := by
    unfold ending
    split_ifs <;> rfl
  rw [hending]
  exact alike_repetition pass.output template pass.preamble _ h

/-- What the passes make for some arities, and what they make for more. -/
structure Grows (c : Configuration) (inputs : Inputs) (N M : Nat) (few more : Generation) :
    Prop where
  repeated : Forall₃ (fun entry few more => Continued (c.ending entry.1) few more)
    (c.repetitions inputs) few.repeated more.repeated
  dispatch : few.dispatch.fileName = more.dispatch.fileName ∧
    ∃ fs, families inputs.dispatchTemplate = .ok fs ∧
      ∀ f ∈ fs, f.DescendingGrows c.dispatch.style N M
  aliases : BlocksGrow (aliasLines c.aliases.rules) N M inputs.aliasTemplate ["#pragma once", ""]
    c.aliases.trailer.toList few.aliases more.aliases
  undef : BlocksGrow undefinitionLines N M inputs.undefTemplate [] [] few.undef more.undef

theorem alike_passes (c : Configuration) (inputs : Inputs) (h : N ≤ M) :
    Alike (c.Grows inputs N M) (c.passes (inputs.upTo N)) (c.passes (inputs.upTo M)) := by
  apply (Alike.mapM fun entry _ => c.alike_arityArtifact entry.1 entry.2 h).bind
  intro repeated repeated' hrepeated
  apply (alike_dispatch c.dispatch.output inputs.dispatchTemplate c.dispatch.style h).bind
  intro dispatch dispatch' hdispatch
  apply (alike_aliases c.aliases.output inputs.aliasTemplate c.aliases.rules c.aliases.trailer
    h).bind
  intro aliases aliases' haliases
  apply (alike_undefinition c.undef.output inputs.undefTemplate h).bind
  intro undef undef' hundef
  exact .ok ⟨hrepeated, hdispatch, haliases, hundef⟩

theorem umbrellaArtifact?_congr (c : Configuration) {included others : List Artifact}
    {undef other : Artifact} (hincluded : included.map (·.fileName) = others.map (·.fileName))
    (hundef : undef.fileName = other.fileName) :
    c.umbrellaArtifact? included undef = c.umbrellaArtifact? others other := by
  have hlines : included.map (fun m => includeLine m.fileName) =
      others.map fun m => includeLine m.fileName := by
    simpa [Function.comp_def] using congrArg (List.map includeLine) hincluded
  unfold umbrellaArtifact? Emission.umbrella
  cases c.umbrella.output with
  | none => rfl
  | some output =>
    simp only [Option.map_some]
    split_ifs
    · simp [hlines, hundef]
    · rw [hlines]

theorem Grows.umbrella_eq {c : Configuration} {inputs : Inputs} {few more : Generation}
    (h : c.Grows inputs N M few more) :
    c.umbrellaArtifact? (few.repeated ++ [few.dispatch, few.aliases]) few.undef =
      c.umbrellaArtifact? (more.repeated ++ [more.dispatch, more.aliases]) more.undef := by
  have hrepeated : few.repeated.map (·.fileName) = more.repeated.map (·.fileName) := by
    rw [← List.forall₂_eq_eq_eq, List.forall₂_map_left_iff, List.forall₂_map_right_iff]
    exact h.repeated.forall₂ fun _ _ _ hcontinued => hcontinued.1
  apply c.umbrellaArtifact?_congr ?_ h.undef.1
  simp [hrepeated, h.dispatch.1, h.aliases.1]

/-- Whether a generation succeeds does not depend on the maximum arity, and if it fails, then it
does so in the same way for every maximum. -/
theorem failure_ignores_maximum (c : Configuration) (inputs : Inputs) (N M : Nat) :
    ((∃ artifacts, c.generate (inputs.upTo N) = .ok artifacts) ↔
        ∃ artifacts, c.generate (inputs.upTo M) = .ok artifacts) ∧
      ∀ d, c.generate (inputs.upTo N) = .error d ↔ c.generate (inputs.upTo M) = .error d := by
  -- passes are compared with those of a larger range, so the maxima are put in order first
  have hle {few more : Nat} (h : few ≤ more) : Alike (fun _ _ => True)
      (c.generate (inputs.upTo few)) (c.generate (inputs.upTo more)) := by
    rw [c.generate_eq, c.generate_eq]
    apply (c.alike_passes inputs h).bind
    intro _ _ _
    exact .ok trivial
  rcases Nat.le_total N M with h | h
  · exact ⟨(hle h).exists_ok_iff, (hle h).error_iff⟩
  · exact ⟨(hle h).exists_ok_iff.symm, fun d => ((hle h).error_iff d).symm⟩

/-- Raising the maximum arity only adds. What an arity pass makes is continued in front of its
ending, every block of aliases and of undefining directives is continued, and a descending list gets
new entries in front. Nothing else changes. -/
theorem raising_maximum_adds (c : Configuration) (inputs : Inputs) {N M : Nat} (hle : N ≤ M)
    {fewer : List Artifact} (h : c.generate (inputs.upTo N) = .ok fewer) :
    ∃ few more umbrella,
      fewer = few.artifacts ++ umbrella ∧
      c.generate (inputs.upTo M) = .ok (more.artifacts ++ umbrella) ∧
      c.Grows inputs N M few more ∧
      few.aliases.lines.Sublist more.aliases.lines ∧ few.undef.lines.Sublist more.undef.lines := by
  obtain ⟨few, hfew, rfl⟩ := generate_eq_ok_iff.1 h
  obtain ⟨more, hmore, hgrows⟩ := (c.alike_passes inputs hle).exists_ok hfew
  refine ⟨few, more, _, rfl, ?_, hgrows, hgrows.aliases.sublist, hgrows.undef.sublist⟩
  rw [generate_eq_ok_iff.2 ⟨more, hmore, rfl⟩, collect, hgrows.umbrella_eq]

def messageDispatch : Template where
  name := "dispatch"
  text := "MSG%\x7barity\x7d(n, %\x7bargs\x7d)"
  segments := [.literal "MSG".toList, .placeholder "arity" ⟨3, 11⟩, .literal "(n, ".toList,
    .placeholder "args" ⟨15, 22⟩, .literal [')']]
  segments_eq := by cbv

/-- An arity pass that repeats the names that are undefined. -/
def messageInputs : Inputs where
  range := ⟨0⟩
  arityTemplates := [messageUndefinitions]
  dispatchTemplate := messageDispatch
  aliasTemplate := messageAliases
  undefTemplate := messageUndefinitions

def messagePasses : Configuration where
  arityPasses := [{ template := "undef", output := "m.ipp", includeDispatch := true }]
  dispatch := { template := "dispatch", output := "d.ipp" }
  aliases := { template := "alias", output := "s.ipp", rules := [], trailer := some "// end" }
  undef := { template := "undef", output := "u.ipp" }
  umbrella := { output := none }

def messageMade : List Artifact := [
  ⟨"m.ipp", ["MSG_0", "#include \"d.ipp\""]⟩,
  ⟨"d.ipp", ["#pragma once", "", "#define MSG(...) \\",
    "   I_DYNAMIX_VA_ARGS_PROXY(_GET_MSG_MACRO, (__VA_ARGS__, MSG_0, " ++
      "I_DYNAMIX_MESSAGE_ARG_ERROR))(__VA_ARGS__)",
    "#define _GET_MSG_MACRO(n, MACRO, ...) MACRO"]⟩,
  ⟨"s.ipp", ["#pragma once", "", "#define MSG0 MSG_0", "// end"]⟩,
  ⟨"u.ipp", ["#undef MSG_0"]⟩]

theorem raising_maximum_adds_message :
    0 ≤ 1 ∧ messagePasses.generate (messageInputs.upTo 0) = .ok messageMade ∧
      ∃ few more umbrella,
        messageMade = few.artifacts ++ umbrella ∧
        messagePasses.generate (messageInputs.upTo 1) = .ok (more.artifacts ++ umbrella) ∧
        messagePasses.Grows messageInputs 0 1 few more ∧
        few.aliases.lines.Sublist more.aliases.lines ∧
        few.undef.lines.Sublist more.undef.lines := by
  have hle : 0 ≤ 1 := Nat.zero_le 1
  have h : messagePasses.generate (messageInputs.upTo 0) = .ok messageMade := by decide +kernel
  exact ⟨hle, h, messagePasses.raising_maximum_adds messageInputs hle h⟩

end Configuration

end MacroFamilies
