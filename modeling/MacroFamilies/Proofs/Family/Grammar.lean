import MacroFamilies.Family
import MacroFamilies.Proofs.Template.Separators
/-!
# The grammar of family lines

A line is a family if it is cut at its first opening parenthesis into a name and a parameter list
that goes to the end of the line and has a place for the arguments, but not in front of everything
else. There may be several ways to match a line with a name, a gap and a parameter list; they differ
in blanks only, so the halves do not depend on the way. Since no placeholder is cut, both halves can
be read whenever the line can, and a line that is refused is refused as a whole.
-/

namespace MacroFamilies

namespace Family

variable {line front rest : List Char}

/-! ## Cutting a line -/

/-- A line cut at its first opening parenthesis. -/
structure OpenedAt (line front rest : List Char) : Prop where
  text_eq : line = front ++ '(' :: rest
  open_not_mem : '(' ∉ front

/-- Something stands in front of that parenthesis, the line ends with a closing one, and there is no
line feed between them. -/
structure Formed (line front rest : List Char) : Prop extends OpenedAt line front rest where
  front_ne_nil : front ≠ []
  closed : line.getLast? = some ')'
  break_not_mem : '\n' ∉ rest

theorem OpenedAt.takeWhile_dropWhile (h : OpenedAt line front rest) :
    line.takeWhile (· != '(') = front ∧ line.dropWhile (· != '(') = '(' :: rest := by
  have hfront : ∀ c ∈ front, (c != '(') = true := by
    intro c hc
    rw [bne_iff_ne]
    rintro rfl
    exact h.open_not_mem hc
  rw [h.text_eq, List.takeWhile_append_of_pos hfront, List.dropWhile_append_of_pos hfront]
  simp

theorem exists_openedAt (h : line.dropWhile (· != '(') ≠ []) :
    ∃ front rest, OpenedAt line front rest := by
  have hopen : '(' ∈ line := by
    by_contra hnone
    apply h
    rw [List.dropWhile_eq_nil_iff]
    intro c hc
    rw [bne_iff_ne]
    rintro rfl
    exact hnone hc
  obtain ⟨front, rest, htext, hfront⟩ := List.eq_append_cons_of_mem hopen
  exact ⟨front, rest, htext, hfront⟩

theorem Formed.getLast?_list (h : Formed line front rest) :
    ('(' :: rest).getLast? = some ')' := by
  have hclosed := h.closed
  rw [h.text_eq, List.getLast?_append_of_ne_nil _ (List.cons_ne_nil _ _)] at hclosed
  exact hclosed

theorem split_eq_some_iff {nameText paramsText : List Char} :
    split line = some (nameText, paramsText) ↔
      ∃ front rest, Formed line front rest ∧ Text.trim front = nameText ∧
        '(' :: rest = paramsText := by
  constructor
  · intro h
    simp only [split] at h
    split_ifs at h with hline
    obtain ⟨hne, hlast, hbreak⟩ := hline
    obtain ⟨rfl, rfl⟩ := Prod.mk.inj (Option.some.inj h)
    have hlist : line.dropWhile (· != '(') ≠ [] := fun hnil => by simp [hnil] at hlast
    obtain ⟨front, rest, hcut⟩ := exists_openedAt hlist
    obtain ⟨hfront, hrest⟩ := hcut.takeWhile_dropWhile
    rw [hfront] at hne
    rw [hrest] at hlast hbreak
    have hclosed : line.getLast? = some ')' := by
      rw [hcut.text_eq, List.getLast?_append, hlast]
      rfl
    exact ⟨front, rest, ⟨hcut, hne, hclosed, fun h => hbreak (List.mem_cons_of_mem _ h)⟩,
      by rw [hfront], by rw [hrest]⟩
  · rintro ⟨front, rest, h, rfl, rfl⟩
    obtain ⟨hfront, hrest⟩ := h.takeWhile_dropWhile
    have hbreak : '\n' ∉ '(' :: rest := by simp [h.break_not_mem]
    simp only [split, hfront, hrest]
    rw [if_pos ⟨h.front_ne_nil, h.getLast?_list, hbreak⟩]

/-! ## Matching a line -/

/-- A way to match a line with a name, a gap and a parameter list: the name is not empty and opens
no parenthesis, the gap is blank, and the list is in parentheses and has no line feed. -/
structure LineMatch (line name params : List Char) : Prop where
  exists_gap : ∃ gap, line = name ++ (gap ++ params) ∧ ∀ c ∈ gap, Text.isBlank c = true
  name_ne_nil : name ≠ []
  open_not_mem : '(' ∉ name
  exists_list : ∃ list, params = '(' :: (list ++ [')']) ∧ '\n' ∉ list

theorem Formed.lineMatch (h : Formed line front rest) : LineMatch line front ('(' :: rest) where
  exists_gap := ⟨[], h.text_eq, by simp⟩
  name_ne_nil := h.front_ne_nil
  open_not_mem := h.open_not_mem
  exists_list := by
    have hlast := h.getLast?_list
    cases rest using List.reverseRecOn with
    | nil => cases hlast
    | append_singleton list c =>
      rw [← List.cons_append, List.getLast?_concat, Option.some.injEq] at hlast
      subst hlast
      exact ⟨list, rfl, fun hc => h.break_not_mem (List.mem_append_left _ hc)⟩

theorem LineMatch.exists_formed {name params : List Char} (h : LineMatch line name params) :
    ∃ front rest, Formed line front rest ∧ Text.trim front = Text.trim name ∧
      '(' :: rest = params := by
  obtain ⟨gap, hline, hgap⟩ := h.exists_gap
  obtain ⟨list, rfl, hlist⟩ := h.exists_list
  -- a blank gap opens no parenthesis, so that it can go to the name
  have hopen : '(' ∉ gap := fun hc => absurd (hgap _ hc) (by decide)
  refine ⟨name ++ gap, list ++ [')'], ⟨⟨?_, ?_⟩, ?_, ?_, ?_⟩, Text.trim_append_blank hgap name, rfl⟩
  · rw [hline, List.append_assoc]
  · simp [h.open_not_mem, hopen]
  · simp [h.name_ne_nil]
  · rw [hline, ← List.append_assoc, ← List.cons_append, ← List.append_assoc, List.getLast?_concat]
  · simp [hlist]

/-- A line is split along its matches, all of which have the same name up to a margin and the same
parameter list. -/
theorem split_eq_some_iff_lineMatch {nameText paramsText : List Char} :
    split line = some (nameText, paramsText) ↔
      ∃ name, LineMatch line name paramsText ∧ Text.trim name = nameText := by
  rw [split_eq_some_iff]
  constructor
  · rintro ⟨front, rest, h, hname, rfl⟩
    exact ⟨front, h.lineMatch, hname⟩
  · rintro ⟨name, h, rfl⟩
    exact h.exists_formed

/-! ## Reading the halves -/

/-- The halves of a line are templates again, and they share out its placeholders. -/
theorem OpenedAt.exists_halves {line : Template} (h : OpenedAt line.text.toList front rest)
    (label : String) :
    ∃ name params, Template.parse label (String.ofList (Text.trim front)) = .ok name ∧
      Template.parse label (String.ofList ('(' :: rest)) = .ok params ∧
      name.placeholders ++ params.placeholders = line.placeholders := by
  have hopen : Segment.isSeparator '(' = true := by decide
  have hplaces := line.places_text
  rw [h.text_eq, Segment.places_append_separator hopen] at hplaces
  obtain ⟨xs, hxs, hplaces⟩ := Option.bind_eq_some_iff.1 hplaces
  obtain ⟨ys, hys, hplaces⟩ := Option.map_eq_some_iff.1 hplaces
  rw [← Segment.places_trim, ← String.toList_ofList (l := Text.trim front)] at hxs
  rw [← Segment.places_cons_separator hopen, ← String.toList_ofList (l := '(' :: rest)] at hys
  obtain ⟨name, hname, rfl⟩ := Template.exists_parse_of_places hxs label
  obtain ⟨params, hparams, rfl⟩ := Template.exists_parse_of_places hys label
  exact ⟨name, params, hname, hparams, hplaces⟩

/-- What is asked of the halves of a line. -/
structure Accepted (line : Template) (front rest : List Char) : Prop
    extends Formed line.text.toList front rest where
  holds_args : ∃ params, Template.parse line.name (String.ofList ('(' :: rest)) = .ok params ∧
    "args" ∈ params.placeholders
  args_behind : ¬ argumentsMark <+: Text.trimStart rest

theorem Accepted.args_mem {line : Template} (h : Accepted line front rest) {t : Template}
    (ht : t.text = String.ofList ('(' :: rest)) : "args" ∈ t.placeholders := by
  obtain ⟨params, hparams, hargs⟩ := h.holds_args
  have hplaces := params.places_text
  rw [(Template.name_text_of_parse hparams).2, ← ht, t.places_text, Option.some.injEq] at hplaces
  rwa [hplaces]

theorem argumentsLead_iff (rest : List Char) :
    argumentsLead ('(' :: rest) = true ↔ argumentsMark <+: Text.trimStart rest := by
  rw [argumentsLead, List.drop_one, List.tail_cons, List.isPrefixOf_iff_prefix]

theorem exists_formed_or_parse_eq (line : Template) :
    (∃ front rest, Formed line.text.toList front rest) ∨
      parse line = .error (Fault.noParameterList.diagnostic line) := by
  cases hsplit : split line.text.toList with
  | none => exact .inr (by rw [parse, hsplit])
  | some halves =>
    obtain ⟨front, rest, hformed, -⟩ := split_eq_some_iff.1 hsplit
    exact .inl ⟨front, rest, hformed⟩

theorem Formed.exists_parse_eq {line : Template} (h : Formed line.text.toList front rest) :
    ∃ name params, Template.parse line.name (String.ofList (Text.trim front)) = .ok name ∧
      Template.parse line.name (String.ofList ('(' :: rest)) = .ok params ∧
      name.placeholders ++ params.placeholders = line.placeholders ∧
      parse line =
        if "args" ∉ params.placeholders then .error (Fault.noArguments.diagnostic line)
        else if argumentsLead ('(' :: rest) then .error (Fault.argumentsFirst.diagnostic line)
        else .ok ⟨name, params⟩ := by
  obtain ⟨name, params, hname, hparams, hplaces⟩ := h.exists_halves line.name
  have hsplit := split_eq_some_iff.2 ⟨front, rest, h, rfl, rfl⟩
  refine ⟨name, params, hname, hparams, hplaces, ?_⟩
  rw [parse, hsplit]
  simp only [hname, hparams]
  rfl

theorem parse_eq_error {line : Template} {d : Diagnostic} (h : parse line = .error d) :
    ∃ fault, d = Fault.diagnostic line fault := by
  rcases exists_formed_or_parse_eq line with ⟨front, rest, hformed⟩ | hparse
  · obtain ⟨name, params, -, -, -, hparse⟩ := hformed.exists_parse_eq
    rw [hparse] at h
    split_ifs at h
    · exact ⟨.argumentsFirst, (Except.error.inj h).symm⟩
    · exact ⟨.noArguments, (Except.error.inj h).symm⟩
  · rw [hparse] at h
    exact ⟨.noParameterList, (Except.error.inj h).symm⟩

theorem exists_accepted_of_parse {line : Template} {f : Family} (h : parse line = .ok f) :
    ∃ front rest, Accepted line front rest ∧
      f.name.text = String.ofList (Text.trim front) ∧
      f.params.text = String.ofList ('(' :: rest) ∧
      f.name.placeholders ++ f.params.placeholders = line.placeholders := by
  rcases exists_formed_or_parse_eq line with ⟨front, rest, hformed⟩ | hparse
  · obtain ⟨name, params, hname, hparams, hplaces, hparse⟩ := hformed.exists_parse_eq
    rw [hparse] at h
    split_ifs at h with hargs hlead
    obtain rfl := Except.ok.inj h
    have haccepted : Accepted line front rest :=
      ⟨hformed, ⟨params, hparams, by simpa using hargs⟩,
        fun hprefix => hlead ((argumentsLead_iff rest).2 hprefix)⟩
    exact ⟨front, rest, haccepted, (Template.name_text_of_parse hname).2,
      (Template.name_text_of_parse hparams).2, hplaces⟩
  · rw [hparse] at h
    cases h

theorem Accepted.exists_parse {line : Template} (h : Accepted line front rest) :
    ∃ f, parse line = .ok f := by
  obtain ⟨name, params, -, hparams, -, hparse⟩ := h.toFormed.exists_parse_eq
  obtain ⟨other, hother, hargs⟩ := h.holds_args
  obtain rfl := Except.ok.inj (hother.symm.trans hparams)
  have hlead : ¬ argumentsLead ('(' :: rest) = true := fun hlead =>
    h.args_behind ((argumentsLead_iff rest).1 hlead)
  rw [if_neg (not_not_intro hargs), if_neg hlead] at hparse
  exact ⟨_, hparse⟩

/-- A line is a family exactly if it has the form of one; then its halves are what stands in front
of the first opening parenthesis, without its margins, and the rest. A line is split exactly along
its matches. Any other line is reported as a whole, and no half of a line is ever at fault. -/
theorem parse_accepts_grammar (line : Template) :
    ((∃ f, parse line = .ok f) ↔ ∃ front rest, Accepted line front rest) ∧
    (∀ f, parse line = .ok f → ∃ front rest, Accepted line front rest ∧
      f.name.text = String.ofList (Text.trim front) ∧
      f.params.text = String.ofList ('(' :: rest) ∧
      f.name.placeholders ++ f.params.placeholders = line.placeholders) ∧
    (∀ d, parse line = .error d → d.kind = .template ∧ d.source = some line.source ∧
      d.span = some ⟨0, line.text.utf8ByteSize⟩) ∧
    (∀ nameText paramsText, split line.text.toList = some (nameText, paramsText) ↔
      ∃ name, LineMatch line.text.toList name paramsText ∧ Text.trim name = nameText) ∧
    ∀ name params, LineMatch line.text.toList name params →
      (∃ t, Template.parse line.name (String.ofList (Text.trim name)) = .ok t) ∧
      ∃ t, Template.parse line.name (String.ofList params) = .ok t := by
  refine ⟨⟨?_, ?_⟩, fun f => exists_accepted_of_parse, fun d hd => ?_,
    fun _ _ => split_eq_some_iff_lineMatch, fun name params h => ?_⟩
  · rintro ⟨f, hf⟩
    obtain ⟨front, rest, haccepted, -⟩ := exists_accepted_of_parse hf
    exact ⟨front, rest, haccepted⟩
  · rintro ⟨front, rest, h⟩
    exact h.exists_parse
  · obtain ⟨fault, rfl⟩ := parse_eq_error hd
    exact ⟨rfl, rfl, rfl⟩
  · obtain ⟨front, rest, hformed, hname, rfl⟩ := h.exists_formed
    obtain ⟨nameHalf, paramsHalf, hnameHalf, hparamsHalf, -⟩ := hformed.exists_halves line.name
    rw [← hname]
    exact ⟨⟨nameHalf, hnameHalf⟩, paramsHalf, hparamsHalf⟩

def marginLine : Template where
  name := "t:1"
  text := "\nMSG%\x7barity\x7d (n, %\x7bargs\x7d)"
  segments := [.literal "\nMSG".toList, .placeholder "arity" ⟨4, 12⟩, .literal " (n, ".toList,
    .placeholder "args" ⟨17, 24⟩, .literal [')']]
  segments_eq := by cbv

def argumentsLine : Template where
  name := "t:1"
  text := "M(%\x7bargs\x7d)"
  segments := [.literal "M(".toList, .placeholder "args" ⟨2, 9⟩, .literal [')']]
  segments_eq := by cbv

theorem accepted_marginLine :
    Accepted marginLine "\nMSG%\x7barity\x7d ".toList "n, %\x7bargs\x7d)".toList where
  text_eq := by decide
  open_not_mem := by decide
  front_ne_nil := by decide
  closed := by decide +kernel
  break_not_mem := by decide
  holds_args := by
    have hplaces : (Template.parse "t:1" "(n, %\x7bargs\x7d)").map (·.placeholders) =
        .ok ["args"] := by decide +kernel
    obtain ⟨params, hparams, hargs⟩ := Traversal.map_eq_ok_iff.1 hplaces
    exact ⟨params, hparams, by simp [hargs]⟩
  args_behind := by decide

theorem parse_accepts_grammar_marginLine :
    LineMatch marginLine.text.toList "\nMSG%\x7barity\x7d".toList "(n, %\x7bargs\x7d)".toList ∧
      split marginLine.text.toList =
        some ("MSG%\x7barity\x7d".toList, "(n, %\x7bargs\x7d)".toList) ∧
      ∃ f t d, parse marginLine = .ok f ∧
        f.name.placeholders ++ f.params.placeholders = ["arity", "args"] ∧
        Template.parse "t:1" "MSG%\x7barity\x7d" = .ok t ∧
        parse argumentsLine = .error d ∧ d.span = some ⟨0, 10⟩ := by
  have hmatch : LineMatch marginLine.text.toList "\nMSG%\x7barity\x7d".toList
      "(n, %\x7bargs\x7d)".toList :=
    ⟨⟨[' '], by decide, by simp [Text.isBlank]⟩, by decide, by decide,
      "n, %\x7bargs\x7d".toList, by decide, by decide⟩
  obtain ⟨haccepts, hhalves, -, hsplit, hmatches⟩ := parse_accepts_grammar marginLine
  obtain ⟨f, hf⟩ := haccepts.2 ⟨_, _, accepted_marginLine⟩
  obtain ⟨front, rest, -, -, -, hplaces⟩ := hhalves f hf
  obtain ⟨⟨t, ht⟩, -⟩ := hmatches _ _ hmatch
  have hrefused : (parse argumentsLine).toBool = false := by decide +kernel
  cases hd : parse argumentsLine with
  | ok other =>
    rw [hd] at hrefused
    cases hrefused
  | error d =>
    obtain ⟨-, -, hspan⟩ := (parse_accepts_grammar argumentsLine).2.2.1 d hd
    exact ⟨hmatch, (hsplit _ _).2 ⟨_, hmatch, by decide⟩, f, t, d, hf, hplaces.trans (by decide),
      ht, rfl,
      hspan.trans (by decide +kernel)⟩

end Family

end MacroFamilies
