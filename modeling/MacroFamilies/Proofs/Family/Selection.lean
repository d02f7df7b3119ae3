import MacroFamilies.Proofs.Family.Line
/-!
# Selecting by the number of arguments

A call of a family's macro hands its arguments, and behind them the descending list of names, to the
selector, which takes out the argument at the place of its entry `MACRO`. The main statement says
which argument that is for every number of arguments.
-/

namespace MacroFamilies

def parameterEntries (params : String) : List String :=
  listEntries (String.ofList (params.toList.drop 1).dropLast)

def selectedPlace (params : String) : Nat := (parameterEntries params).idxOf "MACRO"

theorem parameterEntries_commaList {entries : List String} (hne : entries ≠ [])
    (h : ∀ entry ∈ entries, ',' ∉ entry.toList) :
    parameterEntries ("(" ++ commaList entries ++ ")") = entries := by
  have hinner : (("(" ++ commaList entries ++ ")").toList.drop 1).dropLast =
      (commaList entries).toList := by
    simp
  rw [parameterEntries, hinner, String.ofList_toList, listEntries_commaList hne h]

theorem slot_ne_selected (i : Nat) : Parameter.type i ≠ "MACRO" ∧ Parameter.name i ≠ "MACRO" := by
  constructor
  · intro h
    have hhead := congrArg (fun s => s.toList.head?) h
    simp [Parameter.type] at hhead
  · intro h
    have hhead := congrArg (fun s => s.toList.head?) h
    simp [Parameter.name] at hhead

namespace FamilyLine

theorem comma_not_mem_selectorEntries (l : FamilyLine) (max : Nat) :
    ∀ entry ∈ l.selectorEntries max, ',' ∉ entry.toList := by
  intro entry hentry
  rcases List.mem_append.1 hentry with hentry | hmark
  · rcases List.mem_append.1 hentry with hfixed | hslot
    · exact not_mem_of_isNameChar (isNameChar_of_isName (l.fixed_names entry hfixed)).2 (by decide)
    · exact comma_not_mem_slotEntries max entry hslot
  · have hmarks : ∀ mark ∈ ["MACRO", "..."], ',' ∉ mark.toList := by decide
    exact hmarks entry hmark

theorem parameterEntries_selector (l : FamilyLine) (max : Nat) :
    parameterEntries ("(" ++ commaList (l.selectorEntries max) ++ ")") = l.selectorEntries max := by
  apply parameterEntries_commaList
  · simp [selectorEntries]
  · exact l.comma_not_mem_selectorEntries max

theorem idxOf_selected (l : FamilyLine) (h : "MACRO" ∉ l.fixed) (max : Nat) :
    (l.selectorEntries max).idxOf "MACRO" = l.fixed.length + 2 * max := by
  have hslots : "MACRO" ∉ (List.range max).flatMap fun i =>
      [Parameter.type i, Parameter.name i] := by
    simp only [List.mem_flatMap, List.mem_cons, List.not_mem_nil, or_false, not_exists, not_and]
    rintro i - (heq | heq)
    · exact (slot_ne_selected i).1 heq.symm
    · exact (slot_ne_selected i).2 heq.symm
  rw [selectorEntries, List.append_assoc, List.idxOf_append_of_notMem h,
    List.idxOf_append_of_notMem hslots]
  simp [List.length_flatMap]
  omega

end FamilyLine

/-- A selector counts the arguments of a call: as many as the fixed parameters and `n` pairs select
the name of arity `n`, one more or one less select the error marker, too many select an argument of
the call, and too few select nothing. -/
theorem selected_argument (l : FamilyLine) (hfixed : "MACRO" ∉ l.fixed) (name : String)
    (style : DispatchStyle) (N : Nat) (call : List String) :
    ∃ line f base selector params names,
      Template.parse name l.text = .ok line ∧ Family.parse line = .ok f ∧
        f.selectorParams ⟨N⟩ = .ok params ∧ f.descendingList ⟨N⟩ style = .ok names ∧
        f.dispatchLines ⟨N⟩ style = .ok [
          "#define " ++ base ++ "(...) \\",
          "   " ++ style.proxyMacro ++ "(" ++ selector ++ ", (__VA_ARGS__, " ++ commaList names ++
            "))(__VA_ARGS__)",
          "#define " ++ selector ++ params ++ " MACRO"] ∧
        "MACRO" ∈ parameterEntries params ∧
        (∀ n ≤ N, call.length = l.fixed.length + 2 * n →
          f.arityName n = .ok (l.spelled n) ∧
            (call ++ names)[selectedPlace params]? = some (l.spelled n) ∧
            selectedPlace params + 1 < (call ++ names).length) ∧
        (call.length + 1 = l.fixed.length ∨
            (∃ n < N, call.length = l.fixed.length + 2 * n + 1) →
          (call ++ names)[selectedPlace params]? = some style.errorMarker) ∧
        (l.fixed.length + 2 * N < call.length →
          ∃ own, call[l.fixed.length + 2 * N]? = some own ∧
            (call ++ names)[selectedPlace params]? = some own) ∧
        (call.length + 1 < l.fixed.length → (call ++ names)[selectedPlace params]? = none) := by
  obtain ⟨line, hline⟩ := (Template.exists_parse_iff name l.text).2 l.isSome_reading_text
  obtain ⟨f, hf, hdescribes⟩ := l.exists_family (Template.name_text_of_parse hline).2
  let params := "(" ++ commaList (l.selectorEntries N) ++ ")"
  let names := l.descending N style.errorMarker
  have hentries : parameterEntries params = l.selectorEntries N := l.parameterEntries_selector N
  have hplace : selectedPlace params = l.fixed.length + 2 * N := by
    rw [selectedPlace, hentries, l.idxOf_selected hfixed]
  have hlength : (call ++ names).length = call.length + (2 * N + 2) := by
    rw [List.length_append, FamilyName.length_descending]
  refine ⟨line, f, l.base, style.selectorHead ++ l.base ++ style.selectorTail, params, names,
    hline, hf, hdescribes.selectorParams ⟨N⟩, hdescribes.descendingList ⟨N⟩ style,
    hdescribes.dispatchLines ⟨N⟩ style, ?_, ?_, ?_, ?_, ?_⟩
  · rw [hentries]
    simp [FamilyLine.selectorEntries]
  · intro n hn hcall
    refine ⟨hdescribes.arityName n, ?_, by omega⟩
    rw [hplace, List.getElem?_append_right (by omega),
      show l.fixed.length + 2 * N - call.length = 2 * (N - n) by omega,
      (l.getElem?_descending style.errorMarker (Nat.sub_le N n)).1, Nat.sub_sub_self hn]
  · intro hcall
    obtain ⟨i, hi, hoffset⟩ : ∃ i ≤ N, l.fixed.length + 2 * N = call.length + (2 * i + 1) := by
      rcases hcall with hcall | ⟨n, hn, hcall⟩
      · exact ⟨N, le_rfl, by omega⟩
      · exact ⟨N - n - 1, by omega, by omega⟩
    rw [hplace, hoffset, List.getElem?_append_right (by omega), Nat.add_sub_cancel_left,
      (l.getElem?_descending style.errorMarker hi).2]
  · intro hcall
    refine ⟨call[l.fixed.length + 2 * N], List.getElem?_eq_getElem hcall, ?_⟩
    rw [hplace, List.getElem?_append_left hcall, List.getElem?_eq_getElem hcall]
  · intro hcall
    rw [hplace, List.getElem?_eq_none]
    omega

theorem selected_argument_messageLine :
    "MACRO" ∉ messageLine.fixed ∧ ∃ line f params names,
      Template.parse "t" messageLine.text = .ok line ∧ Family.parse line = .ok f ∧
        f.selectorParams ⟨2⟩ = .ok params ∧ f.descendingList ⟨2⟩ {} = .ok names ∧
        f.arityName 1 = .ok "MSG_1" ∧
        (["who", "int", "x"] ++ names)[selectedPlace params]? = some "MSG_1" := by
  have hfixed : "MACRO" ∉ messageLine.fixed := by decide
  have hspelled : messageLine.spelled 1 = "MSG_1" := by decide
  obtain ⟨line, f, -, -, params, names, hline, hf, hparams, hnames, -, -, hfits, -⟩ :=
    selected_argument messageLine hfixed "t" {} 2 ["who", "int", "x"]
  obtain ⟨hname, hselected, -⟩ := hfits 1 (by decide) rfl
  rw [hspelled] at hname hselected
  exact ⟨hfixed, line, f, params, names, hline, hf, hparams, hnames, hname, hselected⟩

end MacroFamilies
