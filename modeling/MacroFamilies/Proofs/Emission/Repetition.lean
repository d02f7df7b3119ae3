import MacroFamilies.Emission.Repetition
import MacroFamilies.Proofs.Template.Arities
import MacroFamilies.Proofs.Text.Pieces
/-!
# Repetitions keep their text

A repetition cuts every expansion into lines, and its file is put together from these lines. The
main statement says that the cut leaves no trace: the file is the banner, the preamble, the
expansions in ascending order of the arity, each closed by a line feed if it has none, and the
inclusion.
-/

namespace MacroFamilies

/-! ## Blocks -/

/-- A text with a line feed at its end, which is added only if it has none. -/
def endedText (text : String) : String :=
  if text.toList.getLast? = some '\n' then text else text ++ "\n"

def joinedLines (lines : List String) : String := String.join (lines.map (· ++ "\n"))

theorem joinedLines_append (xs ys : List String) :
    joinedLines (xs ++ ys) = joinedLines xs ++ joinedLines ys := by
  rw [joinedLines, List.map_append, String.join_append]
  rfl

theorem joinedLines_blockLines (text : String) :
    joinedLines (blockLines text) = endedText text := by
  have hlines : (joinedLines (blockLines text)).toList =
      (Text.pieces (Text.dropFinalBreak text.toList)).flatMap (· ++ ['\n']) := by
    simp [joinedLines, blockLines, String.toList_join, List.flatMap_map]
  rw [← String.toList_inj, hlines, Text.flatMap_pieces, Text.dropFinalBreak, endedText]
  split_ifs with hlast
  -- the line feed that the cut drops is the one that ends the last piece
  · obtain ⟨front, hfront⟩ := List.getLast?_eq_some_iff.1 hlast
    rw [hfront, List.dropLast_concat]
  · simp

theorem joinedLines_flatMap_blockLines (texts : List String) :
    joinedLines (texts.flatMap blockLines) = String.join (texts.map endedText) := by
  induction texts with
  | nil => rfl
  | cons text texts ih =>
    rw [List.flatMap_cons, joinedLines_append, joinedLines_blockLines, ih, List.map_cons,
      String.join_cons]

theorem break_not_mem_of_mem_blockLines {text line : String} (h : line ∈ blockLines text) :
    '\n' ∉ line.toList := by
  obtain ⟨piece, hpiece, rfl⟩ := List.mem_map.1 h
  rw [String.toList_ofList]
  exact Text.break_not_mem_of_mem_pieces hpiece

/-! ## Repetitions -/

namespace Emission

theorem repetition_eq_ok {template : Template} {expansions : Nat → String} (fileName : String)
    (range : ArityRange) (preamble : List String) (included : Option String)
    (h : ∀ n, template.expand (synthesize n) = .ok (expansions n)) :
    repetition fileName template range preamble included =
      .ok ⟨fileName, preamble ++ (range.ascending.map expansions).flatMap blockLines ++
        included.toList.map includeLine⟩ := by
  have hblocks : (range.ascending.mapM fun n => template.expand (synthesize n)) =
      .ok (range.ascending.map expansions) :=
    Traversal.mapM_eq_ok_map fun n _ => h n
  rw [repetition, hblocks]
  rfl

/-- The file of a repetition has the whole preamble, every expansion and the inclusion, and nothing
else; its lines hold no line feed where they come from an expansion. -/
theorem render_repetition (fileName : String) {template : Template} (h : template.Synthesizable)
    (N : Nat) (preamble : List String) (included : Option String) :
    ∃ (artifact : Artifact) (expansions : Nat → String) (produced : List String),
      repetition fileName template ⟨N⟩ preamble included = .ok artifact ∧
      (∀ n, template.expand (synthesize n) = .ok (expansions n)) ∧
      (∀ banner, artifact.render banner =
        banner ++ String.join (preamble.map (· ++ "\n")) ++
          String.join ((List.range (N + 1)).map fun n => endedText (expansions n)) ++
            included.elim "" fun file => "#include \"" ++ file ++ "\"\n") ∧
      artifact.lines = preamble ++ produced ++ included.toList.map includeLine ∧
      ∀ line ∈ produced, '\n' ∉ line.toList := by
  choose expansions hexpansions using h.exists_expand
  refine ⟨_, expansions, _, repetition_eq_ok fileName ⟨N⟩ preamble included hexpansions,
    hexpansions, fun banner => ?_, rfl, fun line hline => ?_⟩
  · have hincluded : joinedLines (included.toList.map includeLine) =
        included.elim "" fun file => "#include \"" ++ file ++ "\"\n" := by
      cases included with
      | none => rfl
      | some file => simp [← String.toList_inj, joinedLines, includeLine]
    rw [Artifact.render, ← joinedLines, joinedLines_append, joinedLines_append,
      joinedLines_flatMap_blockLines, hincluded, List.map_map, joinedLines, ← String.append_assoc,
      ← String.append_assoc]
    rfl
  · obtain ⟨text, -, hline⟩ := List.mem_flatMap.1 hline
    exact break_not_mem_of_mem_blockLines hline

def endingArguments : Template where
  name := "t"
  text := "x%\x7barity\x7d\n%\x7bargs\x7d"
  segments := [.literal ['x'], .placeholder "arity" ⟨1, 9⟩, .literal ['\n'],
    .placeholder "args" ⟨10, 17⟩]
  segments_eq := by cbv

theorem render_repetition_endingArguments :
    endingArguments.Synthesizable ∧
      ∃ artifact, repetition "f" endingArguments ⟨1⟩ ["p"] (some "d") = .ok artifact ∧
        artifact.render "b\n" = "b\np\nx0\nx1\na0\n#include \"d\"\n" := by
  have hsynthesizable : endingArguments.Synthesizable := by
    unfold Template.Synthesizable
    decide
  obtain ⟨artifact, expansions, produced, hok, hexpansions, hrender, -, -⟩ :=
    render_repetition "f" hsynthesizable 1 ["p"] (some "d")
  have hzero : endingArguments.expand (synthesize 0) = .ok "x0\n" := by decide +kernel
  have hone : endingArguments.expand (synthesize 1) = .ok "x1\na0" := by decide +kernel
  rw [hexpansions, Except.ok.injEq] at hzero hone
  refine ⟨hsynthesizable, artifact, hok, ?_⟩
  rw [hrender]
  simp only [List.range_succ, List.range_zero, List.nil_append, List.map_append,
    List.map_singleton, hzero, hone]
  decide +kernel

end Emission

end MacroFamilies
