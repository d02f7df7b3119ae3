import MacroFamilies.Proofs.Family.Selection
/-!
# The parameters of a selector and of the macros it selects

A selector spells its parameters itself, while the macro of an arity takes them from the parameter
set of the arity. The main statement says that both write the same list: the macro of arity `n` has
the first entries of the selector, as many as the calls have arguments that it is selected for.
-/

namespace MacroFamilies

/-- Entry `2 * (N - n)` of a descending list is the name of arity `n`. -/
theorem Family.getElem?_descendingList {f : Family} {N n : Nat} {style : DispatchStyle}
    {names : List String} (h : f.descendingList ⟨N⟩ style = .ok names) (hn : n ≤ N) :
    ∃ spelled, f.arityName n = .ok spelled ∧ names[2 * (N - n)]? = some spelled := by
  unfold Family.descendingList at h
  cases hspellings : (ArityRange.mk N).descending.mapM f.arityName with
  | error e => simp [hspellings, bind, Except.bind] at h
  | ok spellings =>
    simp only [hspellings, bind, Except.bind, pure, Except.pure, Except.ok.injEq] at h
    have hindex := ArityRange.getElem?_descending ⟨N⟩ (Nat.sub_le N n)
    obtain ⟨spelled, hspelled, hname⟩ :=
      Traversal.exists_getElem?_of_forall₂ (Traversal.mapM_eq_ok_iff.1 hspellings) hindex
    refine ⟨spelled, ?_, ?_⟩
    · rwa [Nat.sub_sub_self hn] at hname
    · have hentry : (spellings.flatMap fun name => [name, style.errorMarker])[(N - n) * 2 + 0]? =
          spellings[N - n]?.bind fun name => [name, style.errorMarker][0]? :=
        Traversal.getElem?_flatMap_of_length (by simp) (by decide)
      rw [Nat.add_zero, h, hspelled, Nat.mul_comm] at hentry
      exact hentry

namespace FamilyLine

/-- A parameter list with the tail of an arity's slots behind the fixed parameters. -/
def passParams (l : FamilyLine) : String := "(" ++ commaList l.fixed ++ "%\x7bargs_coma\x7d)"

theorem reading_passParams (l : FamilyLine) :
    Segment.reading l.passParams.toList =
      some (('(' :: (commaList l.fixed).toList).map .char ++
        [.value "args_coma", .char ')']) := by
  have hplain : '%' ∉ '(' :: (commaList l.fixed).toList := by
    simpa using l.fixed_not_mem (c := '%') (by decide) (by decide) (by decide)
  have htext : l.passParams.toList =
      '(' :: (commaList l.fixed).toList ++ '%' :: '{' :: ("args_coma".toList ++ '}' :: [')']) := by
    simp [passParams]
  rw [htext]
  exact Segment.reading_between hplain (by decide) (by decide)

def entries (l : FamilyLine) (n : Nat) : List String := l.fixed ++ slotEntries n

theorem comma_not_mem_entries (l : FamilyLine) (n : Nat) :
    ∀ entry ∈ l.entries n, ',' ∉ entry.toList := by
  intro entry hentry
  apply l.comma_not_mem_selectorEntries n
  exact List.mem_append_left _ hentry

theorem commaList_entries (l : FamilyLine) (n : Nat) :
    commaList (l.entries n) = commaList l.fixed ++ commaTail (commaList (slotEntries n)) :=
  (commaList_append_commaTail l.fixed_ne_nil (slotEntries_ne_empty n)).symm

theorem commaList_selectorEntries (l : FamilyLine) (n : Nat) :
    commaList (l.selectorEntries n) = commaList (l.entries n) ++ ", MACRO, ..." := by
  have hne : l.entries n ≠ [] := by simp [entries, l.fixed_ne_nil]
  have hsplit : l.selectorEntries n = l.entries n ++ ["MACRO", "..."] := rfl
  rw [hsplit, commaList_append hne (by simp), String.append_assoc]
  rfl

theorem expand_passParams (l : FamilyLine) {pass : Template} (h : pass.text = l.passParams)
    (n : Nat) : pass.expand (synthesize n) = .ok ("(" ++ commaList (l.entries n) ++ ")") := by
  have hatoms := pass.reading_text
  rw [h, l.reading_passParams, Option.some.injEq] at hatoms
  rw [Template.expand_eq_ok_iff, ← hatoms, Atom.fill_append, Atom.fill_map_char, Atom.fill,
    ParameterSet.get?_synthesize_args_coma, commaList_entries]
  simp [Atom.fill]

theorem entries_prefix (l : FamilyLine) {n N : Nat} (h : n ≤ N) :
    l.entries n <+: l.selectorEntries N :=
  ((List.prefix_append_right_inj l.fixed).2 (slotEntries_prefix_of_le h)).trans
    (List.prefix_append _ _)

/-- A call that fits an arity selects the name of that arity, for every family with the parameters
of the line. -/
theorem selected_of_fits (l : FamilyLine) (hmarker : "MACRO" ∉ l.fixed) {f : Family} {N n : Nat}
    {style : DispatchStyle} {names call : List String}
    (hnames : f.descendingList ⟨N⟩ style = .ok names) (hn : n ≤ N)
    (hcall : call.length = l.fixed.length + 2 * n) :
    ∃ spelled, f.arityName n = .ok spelled ∧
      (call ++ names)[selectedPlace ("(" ++ commaList (l.selectorEntries N) ++ ")")]? =
        some spelled := by
  obtain ⟨spelled, hspelled, hentry⟩ := Family.getElem?_descendingList hnames hn
  have hplace : selectedPlace ("(" ++ commaList (l.selectorEntries N) ++ ")") =
      call.length + 2 * (N - n) := by
    rw [selectedPlace, l.parameterEntries_selector, l.idxOf_selected hmarker]
    omega
  refine ⟨spelled, hspelled, ?_⟩
  rw [hplace, List.getElem?_append_right (by omega), Nat.add_sub_cancel_left, hentry]

end FamilyLine

/-- The selector of a family takes the slots of the largest arity behind the fixed parameters. The
macro of each arity takes the first of these entries, two for each parameter, and is selected for
calls with as many arguments. -/
theorem parameters_agree (fixed : List String) (hne : fixed ≠ [])
    (hfixed : ∀ p ∈ fixed, Segment.isName p.toList = true) (label : String) (name : Template)
    (N : Nat) :
    ∃ params pass tail selector,
      Template.parse label ("(" ++ commaList fixed ++ ", %\x7bargs\x7d)") = .ok params ∧
      Template.parse label ("(" ++ commaList fixed ++ "%\x7bargs_coma\x7d)") = .ok pass ∧
      (synthesize N).get? "args_coma" = some tail ∧
      (Family.mk name params).selectorParams ⟨N⟩ = .ok selector ∧
      selector = "(" ++ commaList fixed ++ tail ++ ", MACRO, ...)" ∧
      ∀ n ≤ N, ∃ list,
        pass.expand (synthesize n) = .ok list ∧
        (parameterEntries list).length = fixed.length + 2 * n ∧
        parameterEntries list <+: parameterEntries selector ∧
        ("MACRO" ∉ fixed → ∀ style names call,
          (Family.mk name params).descendingList ⟨N⟩ style = .ok names →
          call.length = (parameterEntries list).length →
          ∃ spelled, (Family.mk name params).arityName n = .ok spelled ∧
            (call ++ names)[selectedPlace selector]? = some spelled) := by
  -- the name of the family plays no part in its parameters
  let l : FamilyLine :=
    { messageLine with fixed := fixed, fixed_ne_nil := hne, fixed_names := hfixed }
  obtain ⟨params, hparams⟩ := (Template.exists_parse_iff label l.params).2
    (by rw [l.reading_params]; rfl)
  obtain ⟨pass, hpass⟩ := (Template.exists_parse_iff label l.passParams).2
    (by rw [l.reading_passParams]; rfl)
  have hatoms := Template.reading_of_parse hparams
  rw [l.reading_params, Option.some.injEq] at hatoms
  have hselector := l.selectorParams_of_atoms (f := ⟨name, params⟩) hatoms.symm ⟨N⟩
  refine ⟨params, pass, _, _, hparams, hpass, ParameterSet.get?_synthesize_args_coma N, hselector,
    ?_, fun n hn => ?_⟩
  · rw [l.commaList_selectorEntries, l.commaList_entries]
    simp [String.append_assoc, l]
  · have hentries : parameterEntries ("(" ++ commaList (l.entries n) ++ ")") = l.entries n :=
      parameterEntries_commaList (by simp [FamilyLine.entries, l.fixed_ne_nil])
        (l.comma_not_mem_entries n)
    have hlength : (l.entries n).length = fixed.length + 2 * n := by
      rw [FamilyLine.entries, List.length_append, length_slotEntries]
    refine ⟨_, l.expand_passParams (Template.name_text_of_parse hpass).2 n, ?_, ?_, ?_⟩
    · rw [hentries, hlength]
    · rw [hentries, l.parameterEntries_selector]
      exact l.entries_prefix hn
    · intro hmarker style names call hnames hcall
      rw [hentries, hlength] at hcall
      exact l.selected_of_fits hmarker hnames hn hcall

theorem parameters_agree_messageLine :
    messageLine.fixed ≠ [] ∧ (∀ p ∈ messageLine.fixed, Segment.isName p.toList = true) ∧
      ∃ (f : Family) (pass : Template) (list selector : String) (names : List String)
        (spelled : String),
        f.selectorParams ⟨2⟩ = .ok selector ∧ pass.text = messageLine.passParams ∧
        pass.expand (synthesize 1) = .ok list ∧ (parameterEntries list).length = 3 ∧
        parameterEntries list <+: parameterEntries selector ∧
        f.descendingList ⟨2⟩ {} = .ok names ∧ f.arityName 1 = .ok spelled ∧
        (["who", "int", "x"] ++ names)[selectedPlace selector]? = some spelled := by
  have hne : messageLine.fixed ≠ [] := by decide
  have hfixed : ∀ p ∈ messageLine.fixed, Segment.isName p.toList = true := by decide
  obtain ⟨name, hname⟩ := (Template.exists_parse_iff "t" messageLine.marked).2
    (by rw [messageLine.reading_marked]; rfl)
  obtain ⟨params, pass, tail, selector, hparams, hpass, -, hselector, -, hagree⟩ :=
    parameters_agree messageLine.fixed hne hfixed "t" name 2
  have hnameAtoms := Template.reading_of_parse hname
  rw [messageLine.reading_marked, Option.some.injEq] at hnameAtoms
  have hparamsAtoms : Segment.reading messageLine.params.toList =
      some (Segment.atoms params.segments) :=
    Template.reading_of_parse hparams
  rw [messageLine.reading_params, Option.some.injEq] at hparamsAtoms
  have hdescribes : messageLine.Describes ⟨name, params⟩ := ⟨hnameAtoms.symm, hparamsAtoms.symm⟩
  have hnames := hdescribes.descendingList ⟨2⟩ {}
  obtain ⟨list, hlist, hlength, hprefix, hselected⟩ := hagree 1 (by decide)
  obtain ⟨spelled, hspelled, hfits⟩ :=
    hselected (by decide) {} _ ["who", "int", "x"] hnames (by rw [hlength]; rfl)
  exact ⟨hne, hfixed, ⟨name, params⟩, pass, list, selector, _, spelled, hselector,
    (Template.name_text_of_parse hpass).2, hlist, hlength, hprefix, hnames, hspelled, hfits⟩

end MacroFamilies
