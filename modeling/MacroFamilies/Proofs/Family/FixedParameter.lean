import MacroFamilies.Proofs.Family.Grammar
import MacroFamilies.Proofs.Template.Places
/-!
# Fixed parameters

The selector of a family needs an entry in front of the place of the arguments, for the empty
argument of a call without any. A line is refused if that place comes first in its parameter list;
what stands in front of it need not be an entry of its own. The main statement says what an accepted
list has there, and in which lists this is a fixed parameter.
-/

namespace MacroFamilies.Family

def holdsArguments (entry : List Char) : Bool :=
  (Segment.reading entry).any fun atoms => "args" ∈ Atom.names atoms

/-- The entries of a parameter list in front of the first one with the place of the arguments. -/
def leadingEntries (list : List Char) : List (List Char) :=
  (list.splitOn ',').takeWhile fun entry => !holdsArguments entry

def HasFixedParameter (list : List Char) : Prop :=
  ∃ entry ∈ leadingEntries list, ∃ c ∈ entry, Text.isBlank c = false

/-! ## Entries around the place of the arguments -/

theorem holdsArguments_of_reading {entry : List Char} {atoms : List Atom}
    (h : Segment.reading entry = some atoms) :
    holdsArguments entry = decide ("args" ∈ Atom.names atoms) := by
  rw [holdsArguments, h]
  rfl

theorem reading_argumentsMark (rest : List Char) :
    Segment.reading (argumentsMark ++ rest) =
      (Segment.reading rest).map (.value "args" :: ·) :=
  Segment.reading_placeholder (by decide : Segment.isName "args".toList = true) rest

theorem leadingEntries_append {entry : List Char} (hcomma : ',' ∉ entry)
    (hfree : holdsArguments entry = false) (rest : List Char) :
    leadingEntries (entry ++ ',' :: rest) = entry :: leadingEntries rest := by
  rw [leadingEntries, List.splitOn_append_cons_self_of_not_mem hcomma]
  simp [leadingEntries, hfree]

/-- A list cut around its first place of the arguments. -/
structure ArgumentsAt (list before after : List Char) : Prop where
  text_eq : list = before ++ (argumentsMark ++ after)
  unescaped : Unescaped before
  before_free : ∃ atoms, Segment.reading before = some atoms ∧ "args" ∉ Atom.names atoms
  after_read : (Segment.reading after).isSome

namespace ArgumentsAt

variable {list before after : List Char}

theorem holdsArguments_eq (h : ArgumentsAt list before after) : holdsArguments list = true := by
  obtain ⟨xs, hxs, -⟩ := h.before_free
  obtain ⟨ys, hys⟩ := Option.isSome_iff_exists.1 h.after_read
  have hread : Segment.reading list = some (xs ++ .value "args" :: ys) := by
    rw [h.text_eq, Segment.reading_append h.unescaped hxs, reading_argumentsMark, hys]
    rfl
  rw [holdsArguments_of_reading hread]
  simp [Atom.names]

theorem exists_first (h : ArgumentsAt list before after) (hcomma : ',' ∉ before) :
    ∃ entry entries, list.splitOn ',' = entry :: entries ∧ holdsArguments entry = true := by
  have hmark : ',' ∉ argumentsMark := by decide
  by_cases hafter : ',' ∈ after
  · obtain ⟨ending, rest, rfl, hending⟩ := List.eq_append_cons_of_mem hafter
    refine ⟨before ++ (argumentsMark ++ ending), rest.splitOn ',', ?_, ?_⟩
    · rw [h.text_eq, ← List.append_assoc, ← List.append_assoc, ← List.append_assoc]
      exact List.splitOn_append_cons_self_of_not_mem (by simp [hcomma, hmark, hending]) rest
    · have hread := h.after_read
      rw [Segment.reading_append_separator (by decide)] at hread
      have hentry : ArgumentsAt (before ++ (argumentsMark ++ ending)) before ending :=
        ⟨rfl, h.unescaped, h.before_free, Option.isSome_of_isSome_bind hread⟩
      exact hentry.holdsArguments_eq
  · refine ⟨list, [], List.splitOn_eq_singleton ?_, h.holdsArguments_eq⟩
    rw [h.text_eq]
    simp [hcomma, hmark, hafter]

/-- The leading entries are those that a comma closes in front of the place. -/
theorem leadingEntries_eq (h : ArgumentsAt list before after) :
    leadingEntries list = (before.splitOn ',').dropLast := by
  induction hn : before.length using Nat.strongRecOn generalizing list before with
  | ind n ih =>
    subst hn
    by_cases hcomma : ',' ∈ before
    · obtain ⟨entry, rest, rfl, hentry⟩ := List.eq_append_cons_of_mem hcomma
      obtain ⟨atoms, hread, hfree⟩ := h.before_free
      rw [Segment.reading_append_separator (by decide)] at hread
      obtain ⟨xs, hxs, hread⟩ := Option.bind_eq_some_iff.1 hread
      obtain ⟨ys, hys, rfl⟩ := Option.map_eq_some_iff.1 hread
      simp only [Atom.names_append, Atom.names, List.mem_append, not_or] at hfree
      have hrest : ArgumentsAt (rest ++ (argumentsMark ++ after)) rest after :=
        ⟨rfl, (unescaped_append_cons (by decide) _ _).1 h.unescaped, ⟨ys, hys, hfree.2⟩,
          h.after_read⟩
      have hfirst : holdsArguments entry = false := by
        rw [holdsArguments_of_reading hxs]
        simpa using hfree.1
      have hlength : rest.length < (entry ++ ',' :: rest).length := by
        simp only [List.length_append, List.length_cons]
        omega
      rw [h.text_eq, List.append_assoc, List.cons_append, leadingEntries_append hentry hfirst,
        ih _ hlength hrest rfl, List.splitOn_append_cons_self_of_not_mem hentry,
        List.dropLast_cons_of_ne_nil (List.splitOn_ne_nil _ _)]
    · obtain ⟨entry, entries, hsplit, hholds⟩ := h.exists_first hcomma
      rw [leadingEntries, hsplit, List.splitOn_eq_singleton hcomma]
      simp [hholds]

end ArgumentsAt

theorem exists_of_parentheses {list before after : List Char}
    (h : '(' :: (list ++ [')']) = before ++ (argumentsMark ++ after)) :
    ∃ front back, before = '(' :: front ∧ after = back ++ [')'] ∧
      list = front ++ (argumentsMark ++ back) := by
  cases before with
  | nil => cases h
  | cons c front =>
    rw [List.cons_append] at h
    obtain ⟨rfl, hlist⟩ := List.cons.inj h
    rcases List.eq_nil_or_concat' after with rfl | ⟨back, c, rfl⟩
    · have hclose : front ++ (argumentsMark ++ []) = front ++ argumentsMark.dropLast ++ ['}'] := by
        rw [List.append_assoc]
        rfl
      rw [hclose] at hlist
      obtain ⟨-, hlast⟩ := List.append_inj' hlist rfl
      cases hlast
    · rw [← List.append_assoc, ← List.append_assoc] at hlist
      obtain ⟨rfl, hlast⟩ := List.append_inj' hlist rfl
      obtain rfl := List.singleton_inj.1 hlast
      exact ⟨front, back, rfl, rfl, List.append_assoc _ _ _⟩

theorem exists_argumentsAt {params : Template} {list : List Char}
    (htext : params.text.toList = '(' :: (list ++ [')'])) (hargs : "args" ∈ params.placeholders) :
    ∃ before after, ArgumentsAt list before after := by
  obtain ⟨left, right, hplaces, hfirst⟩ := List.eq_append_cons_of_mem hargs
  obtain ⟨opened, closed, atoms, ys, hopening, hopened, rfl, hclosed, -⟩ :=
    Template.exists_place hplaces
  obtain ⟨before, after, rfl, rfl, hlist⟩ :=
    exists_of_parentheses (htext.symm.trans hopening.text_eq)
  rw [Segment.reading_copied (fun hc => absurd hc (by decide))] at hopened
  obtain ⟨xs, hxs, rfl⟩ := Option.map_eq_some_iff.1 hopened
  rw [Segment.reading_append_separator (by decide)] at hclosed
  refine ⟨before, after, hlist, (unescaped_append_cons (by decide) [] before).1 hopening.unescaped,
    ⟨xs, hxs, hfirst⟩, ?_⟩
  exact Option.isSome_of_isSome_bind (by rw [hclosed]; rfl)

theorem arguments_prefix_of_blank {before : List Char} (h : ∀ c ∈ before, Text.isBlank c = true)
    (after : List Char) :
    argumentsMark <+: Text.trimStart (before ++ (argumentsMark ++ after) ++ [')']) := by
  have hmark : Text.trimStart (argumentsMark ++ (after ++ [')'])) =
      argumentsMark ++ (after ++ [')']) := rfl
  rw [List.append_assoc, List.append_assoc, Text.trimStart, List.dropWhile_append_of_pos h,
    ← Text.trimStart, hmark]
  exact List.prefix_append _ _

/-- An accepted parameter list has something in front of the place of the arguments. That is a
fixed parameter exactly if some of it is in an entry that a comma closes there. -/
theorem fixed_parameter_iff {line : Template} {f : Family} (h : parse line = .ok f) :
    ∃ list before after, f.params.text.toList = '(' :: (list ++ [')']) ∧
      Opening list before ("args\x7d".toList ++ after) ∧
      (∃ atoms, Segment.reading before = some atoms ∧ "args" ∉ Atom.names atoms) ∧
      (∃ c ∈ before, Text.isBlank c = false) ∧
      (HasFixedParameter list ↔
        ∃ entry ∈ (before.splitOn ',').dropLast, ∃ c ∈ entry, Text.isBlank c = false) := by
  obtain ⟨front, rest, haccepted, -, hparams, -⟩ := exists_accepted_of_parse h
  obtain ⟨list, hlist, -⟩ := haccepted.toFormed.lineMatch.exists_list
  obtain rfl := (List.cons.inj hlist).2
  have htext : f.params.text.toList = '(' :: (list ++ [')']) := by
    rw [hparams, String.toList_ofList]
  obtain ⟨before, after, hat⟩ := exists_argumentsAt htext (haccepted.args_mem hparams)
  refine ⟨list, before, after, htext, ⟨hat.text_eq, hat.unescaped⟩, hat.before_free, ?_, ?_⟩
  · by_contra hblank
    apply haccepted.args_behind
    rw [hat.text_eq]
    exact arguments_prefix_of_blank (by simpa using hblank) after
  · rw [HasFixedParameter, hat.leadingEntries_eq]

def namedLine : Template where
  name := "t:1"
  text := "MSG%\x7barity\x7d(name, %\x7bargs\x7d)"
  segments := [.literal "MSG".toList, .placeholder "arity" ⟨3, 11⟩, .literal "(name, ".toList,
    .placeholder "args" ⟨18, 25⟩, .literal [')']]
  segments_eq := by cbv

theorem fixed_parameter_namedLine :
    ∃ f list before after, parse namedLine = .ok f ∧
      f.params.text.toList = '(' :: (list ++ [')']) ∧
      Opening list before ("args\x7d".toList ++ after) ∧ HasFixedParameter list ∧
      ∃ entry ∈ (before.splitOn ',').dropLast, ∃ c ∈ entry, Text.isBlank c = false := by
  have haccepted : (parse namedLine).map (·.params.text) = .ok "(name, %\x7bargs\x7d)" := by
    decide +kernel
  obtain ⟨f, hf, hparams⟩ := Traversal.map_eq_ok_iff.1 haccepted
  obtain ⟨list, before, after, htext, hopening, -, -, hiff⟩ := fixed_parameter_iff hf
  have hlist : "name, %\x7bargs\x7d".toList ++ [')'] = list ++ [')'] := by
    rw [hparams] at htext
    exact (List.cons.inj htext).2
  obtain rfl := List.append_cancel_right hlist
  have hleading : leadingEntries "name, %\x7bargs\x7d".toList = ["name".toList] := by
    decide +kernel
  have hfixed : HasFixedParameter "name, %\x7bargs\x7d".toList := by
    rw [HasFixedParameter, hleading]
    exact ⟨_, List.mem_cons_self, 'n', by decide, by decide⟩
  exact ⟨f, _, before, after, hf, htext, hopening, hfixed, hiff.1 hfixed⟩

/-- A family whose only entry starts with other text than the place of the arguments. -/
def gluedLine : Template where
  name := "t:1"
  text := "MSG%\x7barity\x7d(x%\x7bargs\x7d)"
  segments := [.literal "MSG".toList, .placeholder "arity" ⟨3, 11⟩, .literal "(x".toList,
    .placeholder "args" ⟨13, 20⟩, .literal [')']]
  segments_eq := by cbv

theorem exists_family_without_fixed_parameter :
    ∃ f list, parse gluedLine = .ok f ∧ f.params.text.toList = '(' :: (list ++ [')']) ∧
      ¬ HasFixedParameter list := by
  have haccepted : (parse gluedLine).map (·.params.text) = .ok "(x%\x7bargs\x7d)" := by
    decide +kernel
  obtain ⟨f, hf, hparams⟩ := Traversal.map_eq_ok_iff.1 haccepted
  have hleading : leadingEntries "x%\x7bargs\x7d".toList = [] := by decide +kernel
  refine ⟨f, "x%\x7bargs\x7d".toList, hf, by rw [hparams]; rfl, ?_⟩
  rw [HasFixedParameter, hleading]
  simp

end MacroFamilies.Family
