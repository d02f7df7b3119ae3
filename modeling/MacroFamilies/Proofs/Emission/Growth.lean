import MacroFamilies.Emission.Alias
import MacroFamilies.Emission.Dispatch
import MacroFamilies.Emission.Repetition
import MacroFamilies.Emission.Undefinition
import MacroFamilies.Proofs.Alike
import MacroFamilies.Proofs.ParameterSet.Entries
/-!
# Passes over larger ranges

Whether a placeholder has a value depends on the keys of the parameter set alone, and all arities
have the same keys. So a pass fails over a larger range exactly as it does over a smaller one.
Where it succeeds, the larger range only adds: to the end of a repetition, to the end of every
block of aliases and directives, and to the front of every descending list.
-/

namespace MacroFamilies

/-! ## Expansions -/

theorem Segment.alike_fill {value other : String → Option String}
    (h : ∀ name, (value name).isSome = (other name).isSome) (segments : List Segment) :
    Alike (fun _ _ => True) (fill value segments) (fill other segments) := by
  induction segments with
  | nil => exact .ok trivial
  | cons s rest ih =>
    cases s with
    | literal text => exact ih.map fun _ _ _ => trivial
    | placeholder name span =>
      have hname := h name
      rw [fill, fill]
      cases hvalue : value name with
      | none =>
        have hother : other name = none := by simpa [hvalue] using hname.symm
        rw [hother]
        exact .error _
      | some v =>
        obtain ⟨w, hother⟩ : ∃ w, other name = some w := by
          rw [← Option.isSome_iff_exists, ← hname, hvalue]
          rfl
        rw [hother]
        exact ih.map fun _ _ _ => trivial

namespace Template

theorem alike_expand (t : Template) {params other : ParameterSet} (h : params.keys = other.keys) :
    Alike (fun _ _ => True) (t.expand params) (t.expand other) := by
  have hvalues : ∀ name, (params.get? name).isSome = (other.get? name).isSome := by
    intro name
    rw [Bool.eq_iff_iff, ParameterSet.isSome_get?_iff, ParameterSet.isSome_get?_iff, h]
  have hfill := Segment.alike_fill hvalues t.segments
  -- the message of a failure lists the keys, and these are the same
  unfold expand
  rw [h]
  generalize Segment.fill params.get? t.segments = filled at hfill ⊢
  generalize Segment.fill other.get? t.segments = refilled at hfill ⊢
  cases hfill with
  | error u => exact .error _
  | ok _ => exact .ok trivial

theorem uniform_expand (t : Template) : Uniform fun n => t.expand (synthesize n) :=
  fun n m => t.alike_expand (ParameterSet.keys_synthesize n m)

end Template

/-! ## Dispatch -/

namespace Family

variable {N M : Nat}

theorem uniform_arityName (f : Family) : Uniform f.arityName :=
  fun _ _ => f.name.alike_expand (ParameterSet.keys_arityOnly _ _)

theorem uniform_selectorParams (f : Family) : Uniform f.selectorParams := by
  intro range other
  apply f.params.alike_expand
  rw [ParameterSet.keys_insert, ParameterSet.keys_insert]

/-- The descending list of fewer arities ends that of more. -/
theorem alike_descendingList (f : Family) (style : DispatchStyle) (h : N ≤ M) :
    Alike (· <:+ ·) (f.descendingList ⟨N⟩ style) (f.descendingList ⟨M⟩ style) := by
  apply (f.uniform_arityName.alike_descending h).bind
  intro names longer hsuffix
  exact .ok (hsuffix.flatMap _)

/-- The descending lists of a family for two ranges, of which the first ends the second. -/
def DescendingGrows (f : Family) (style : DispatchStyle) (N M : Nat) : Prop :=
  ∃ names longer, f.descendingList ⟨N⟩ style = .ok names ∧
    f.descendingList ⟨M⟩ style = .ok longer ∧ names <:+ longer

theorem alike_dispatchLines (f : Family) (style : DispatchStyle) (h : N ≤ M) :
    Alike (fun _ _ => f.DescendingGrows style N M)
      (f.dispatchLines ⟨N⟩ style) (f.dispatchLines ⟨M⟩ style) := by
  apply Alike.bind_same
  intro base _
  apply Alike.bind_same
  intro selector _
  apply (f.alike_descendingList style h).with_results.bind
  rintro names longer ⟨hnames, hlonger, hsuffix⟩
  apply (f.uniform_selectorParams ⟨N⟩ ⟨M⟩).bind
  intro params others _
  exact .ok ⟨names, longer, hnames, hlonger, hsuffix⟩

end Family

namespace Emission

variable {N M : Nat}

theorem alike_dispatch (fileName : String) (template : Template) (style : DispatchStyle)
    (h : N ≤ M) :
    Alike (fun few more => few.fileName = more.fileName ∧
        ∃ fs, families template = .ok fs ∧ ∀ f ∈ fs, f.DescendingGrows style N M)
      (dispatch fileName template ⟨N⟩ style) (dispatch fileName template ⟨M⟩ style) := by
  apply Alike.bind_same
  intro fs hfs
  apply (Alike.mapM fun f _ => f.alike_dispatchLines style h).bind
  intro blocks longer hgrow
  exact .ok ⟨rfl, fs, hfs, hgrow.forall_left fun _ _ _ hf => hf⟩

/-! ## Repetition -/

/-- Up to a tail that both have, the lines of an artifact are continued by those of another one. -/
def Continued (tail : List String) (few more : Artifact) : Prop :=
  few.fileName = more.fileName ∧ ∃ lines longer, lines <+: longer ∧
    few.lines = lines ++ tail ∧ more.lines = longer ++ tail

theorem alike_repetition (fileName : String) (template : Template) (preamble : List String)
    (included : Option String) (h : N ≤ M) :
    Alike (Continued (included.toList.map includeLine))
      (repetition fileName template ⟨N⟩ preamble included)
      (repetition fileName template ⟨M⟩ preamble included) := by
  apply (template.uniform_expand.alike_ascending h).bind
  intro blocks longer hblocks
  refine .ok ⟨rfl, _, _, ?_, rfl, rfl⟩
  exact (List.prefix_append_right_inj preamble).2 (hblocks.flatMap blockLines)

/-! ## Blocks -/

/-- What a pass makes of one line of a template for some arities and for more. -/
structure BlockGrows (emit : ArityRange → Template → Except Diagnostic (List String)) (N M : Nat)
    (line : Template) (block longer : List String) : Prop where
  block_eq : emit ⟨N⟩ line = .ok block
  longer_eq : emit ⟨M⟩ line = .ok longer
  continued : block <+: longer

/-- Both artifacts hold one block for every line of a template, and each block of the first is
continued by that of the second. -/
def BlocksGrow (emit : ArityRange → Template → Except Diagnostic (List String)) (N M : Nat)
    (template : Template) (head tail : List String) (few more : Artifact) : Prop :=
  few.fileName = more.fileName ∧ ∃ lines blocks longer, template.lines = .ok lines ∧
    Forall₃ (BlockGrows emit N M) lines blocks longer ∧
    few.lines = head ++ blocks.flatten ++ tail ∧ more.lines = head ++ longer.flatten ++ tail

theorem BlockGrows.of_alike {emit : ArityRange → Template → Except Diagnostic (List String)}
    {line : Template} (h : Alike (· <+: ·) (emit ⟨N⟩ line) (emit ⟨M⟩ line)) :
    Alike (BlockGrows emit N M line) (emit ⟨N⟩ line) (emit ⟨M⟩ line) :=
  h.with_results.imp fun _ _ ⟨hblock, hlonger, hcontinued⟩ => ⟨hblock, hlonger, hcontinued⟩

theorem BlocksGrow.sublist {emit : ArityRange → Template → Except Diagnostic (List String)}
    {template : Template} {head tail : List String} {few more : Artifact}
    (h : BlocksGrow emit N M template head tail few more) : few.lines.Sublist more.lines := by
  obtain ⟨-, lines, blocks, longer, -, hblocks, hfew, hmore⟩ := h
  have hprefixes : List.Forall₂ (· <+: ·) blocks longer :=
    hblocks.forall₂ fun _ _ _ hblock => hblock.continued
  rw [hfew, hmore]
  exact ((List.Sublist.refl head).append (flatten_sublist_of_prefixes hprefixes)).append
    (List.Sublist.refl tail)

theorem alike_aliasLines (rules : List Abbreviation) (line : Template) (h : N ≤ M) :
    Alike (BlockGrows (aliasLines rules) N M line)
      (aliasLines rules ⟨N⟩ line) (aliasLines rules ⟨M⟩ line) := by
  apply BlockGrows.of_alike
  apply Alike.bind_same
  intro directive _
  exact directive.uniform_expand.alike_ascending h

theorem alike_aliases (fileName : String) (template : Template) (rules : List Abbreviation)
    (trailer : Option String) (h : N ≤ M) :
    Alike (BlocksGrow (aliasLines rules) N M template ["#pragma once", ""] trailer.toList)
      (aliases fileName template rules ⟨N⟩ trailer)
      (aliases fileName template rules ⟨M⟩ trailer) := by
  apply Alike.bind_same
  intro lines hlines
  apply (Alike.mapM fun line _ => alike_aliasLines rules line h).bind
  intro blocks longer hgrow
  exact .ok ⟨rfl, lines, blocks, longer, hlines, hgrow, rfl, rfl⟩

theorem alike_undefinitionLines (line : Template) (h : N ≤ M) :
    Alike (BlockGrows undefinitionLines N M line)
      (undefinitionLines ⟨N⟩ line) (undefinitionLines ⟨M⟩ line) := by
  have huniform : Uniform fun n => do return "#undef " ++ (← line.expand (synthesize n)) := by
    intro n m
    apply (line.uniform_expand n m).bind
    intro _ _ _
    exact .ok trivial
  exact BlockGrows.of_alike (huniform.alike_ascending h)

theorem alike_undefinition (fileName : String) (template : Template) (h : N ≤ M) :
    Alike (BlocksGrow undefinitionLines N M template [] [])
      (undefinition fileName template ⟨N⟩) (undefinition fileName template ⟨M⟩) := by
  apply Alike.bind_same
  intro lines hlines
  apply (Alike.mapM fun line _ => alike_undefinitionLines line h).bind
  intro blocks longer hgrow
  refine .ok ⟨rfl, lines, blocks, longer, hlines, hgrow, ?_, ?_⟩
  · rw [List.nil_append, List.append_nil]
  · rw [List.nil_append, List.append_nil]

end Emission

end MacroFamilies
