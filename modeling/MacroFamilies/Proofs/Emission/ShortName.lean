import MacroFamilies.Proofs.Emission.LongName
import MacroFamilies.Proofs.Template.Arities
import MacroFamilies.Proofs.Template.Separators
/-!
# Short names keep the place of the arity

Abbreviations rewrite the characters of a line, placeholders included. A rule without any character
of their syntax leaves the marks of the arity where they are, as long as its pattern is no part of
their name. So the short name of a line has all the places that the line has, and the short names of
two arities differ.
-/

namespace MacroFamilies

open Emission

structure PlainText (cs : List Char) : Prop where
  percent_not_mem : '%' ∉ cs
  open_not_mem : '{' ∉ cs
  close_not_mem : '}' ∉ cs

/-- A rule that cannot break a mark of the arity: its texts are plain, and what it replaces is no
part of the name in a mark. -/
structure Abbreviation.Plain (rule : Abbreviation) : Prop where
  pattern_plain : PlainText rule.pattern.toList
  replacement_plain : PlainText rule.replacement.toList
  pattern_apart : rule.pattern ≠ "" → ¬ rule.pattern.toList <:+: "arity".toList

theorem eq_of_append_close {xs ys left right : List Char} (hxs : '}' ∉ xs) (hys : '}' ∉ ys)
    (h : xs ++ '}' :: left = ys ++ '}' :: right) : xs = ys ∧ left = right := by
  have htake {cs rest : List Char} (hcs : '}' ∉ cs) :
      (cs ++ '}' :: rest).takeWhile (· != '}') = cs := by
    rw [List.takeWhile_append_of_pos (by grind)]
    simp
  obtain rfl : xs = ys := by rw [← htake hxs, h, htake hys]
  exact ⟨rfl, (List.cons.inj (List.append_cancel_left h)).2⟩

theorem infix_of_infix_braces {plain name : List Char} (hplain : PlainText plain)
    (h : plain <:+: '{' :: (name ++ ['}'])) : plain <:+: name := by
  rcases List.infix_cons_iff.1 h with hprefix | hinfix
  · rcases List.prefix_cons_iff.1 hprefix with rfl | ⟨rest, rfl, -⟩
    · exact List.nil_infix
    · exact absurd List.mem_cons_self hplain.open_not_mem
  · rcases List.infix_concat_iff.1 hinfix with hsuffix | hinfix
    · rcases List.suffix_concat_iff.1 hsuffix with rfl | ⟨rest, rfl, -⟩
      · exact List.nil_infix
      · exact absurd (by simp) hplain.close_not_mem
    · exact hinfix

/-! ## Texts with no other percent signs -/

def ArityMarked (cs : List Char) : Prop :=
  ∀ before after, cs = before ++ '%' :: after → arityMark <+: '%' :: after

namespace ArityMarked

variable {cs ds : List Char}

theorem of_append_right (h : ArityMarked (cs ++ ds)) : ArityMarked ds :=
  fun before after hds => h (cs ++ before) after (by rw [hds, List.append_assoc])

theorem of_plain (h : '%' ∉ cs) : ArityMarked cs := by
  rintro before after rfl
  simp at h

theorem of_mark : ArityMarked arityMark := by
  intro before after heq
  cases before with
  | nil => exact ⟨[], by rw [heq]; simp⟩
  | cons c before =>
    have hmem : '%' ∈ arityMark.tail := by
      rw [heq]
      simp
    exact absurd hmem (by decide)

theorem append (h : ArityMarked cs) (h' : ArityMarked ds) : ArityMarked (cs ++ ds) := by
  intro before after heq
  rcases List.append_eq_append_iff.1 heq with ⟨middle, -, hds⟩ | ⟨middle, hcs, hafter⟩
  · exact h' middle after hds
  · cases middle with
    | nil => exact h' [] after hafter.symm
    | cons c middle =>
      obtain ⟨rfl, rfl⟩ := List.cons.inj hafter
      exact (h before middle hcs).trans (List.prefix_append _ ds)

/-- What is in front of a plain text, if that is no part of the name in a mark. -/
theorem of_append_left {plain : List Char} (hplain : PlainText plain)
    (hapart : ¬ plain <:+: "arity".toList) (h : ArityMarked (cs ++ (plain ++ ds))) :
    ArityMarked cs := by
  intro before after hcs
  obtain ⟨behind, hmark⟩ := h before (after ++ (plain ++ ds)) (by simp [hcs])
  have hbraced : '{' :: ("arity".toList ++ ['}']) ++ behind = after ++ (plain ++ ds) :=
    (List.cons.inj hmark).2
  rcases List.append_eq_append_iff.1 hbraced with ⟨middle, hafter, -⟩ | ⟨middle, hname, hmiddle⟩
  · exact ⟨middle, by rw [hafter]; rfl⟩
  · rcases List.append_eq_append_iff.1 hmiddle with ⟨rest, hmiddle, -⟩ | ⟨rest, hrest, -⟩
    · -- the plain text would be a part of what the percent sign is followed by
      have hinfix : plain <:+: '{' :: ("arity".toList ++ ['}']) :=
        ⟨after, rest, by rw [hname, hmiddle, List.append_assoc]⟩
      exact absurd (infix_of_infix_braces hplain hinfix) hapart
    · have hsuffix : middle <:+ '{' :: "arity".toList ++ ['}'] := ⟨after, hname.symm⟩
      rcases List.suffix_concat_iff.1 hsuffix with rfl | ⟨others, rfl, -⟩
      · rw [List.append_nil] at hname
        exact ⟨[], by rw [← hname, List.append_nil]; rfl⟩
      · -- the plain text would have the brace that closes the mark
        exact absurd (by simp [hrest]) hplain.close_not_mem

/-- Each percent sign gives a place for the arity, and nothing else gives a place. -/
theorem exists_reading (h : ArityMarked cs) :
    ∃ atoms, Segment.reading cs = some atoms ∧
      Atom.names atoms = List.replicate (cs.count '%') "arity" := by
  induction cs using Segment.text_induction with
  | nil => exact ⟨[], Segment.reading_nil, rfl⟩
  | escaped rest =>
    have hmark := h [] ('%' :: rest) rfl
    have hbrace := (List.cons_prefix_cons.1 (List.cons_prefix_cons.1 hmark).2).1
    exact absurd hbrace (by decide)
  | unterminated rest hclose =>
    have hmark := h [] ('{' :: rest) rfl
    have hmem : '}' ∈ '%' :: '{' :: rest := hmark.subset (by decide)
    simp [hclose] at hmem
  | closed name tail hclose ih =>
    obtain ⟨behind, hmark⟩ := h [] ('{' :: (name ++ '}' :: tail)) rfl
    have hname : "arity".toList ++ '}' :: behind = name ++ '}' :: tail :=
      (List.cons.inj (List.cons.inj hmark).2).2
    obtain ⟨rfl, rfl⟩ := eq_of_append_close (by decide) hclose hname
    have htail : ArityMarked (arityMark ++ behind) := h
    obtain ⟨atoms, hread, hnames⟩ := ih htail.of_append_right
    refine ⟨.value "arity" :: atoms, ?_, ?_⟩
    · have hmarked := reading_arityMark behind
      rw [hread] at hmarked
      exact hmarked
    · have hcount : (arityMark ++ behind).count '%' = behind.count '%' + 1 := by
        rw [List.count_append, Nat.add_comm, show arityMark.count '%' = 1 by decide]
      rw [Atom.names, hnames, ← List.replicate_succ, ← hcount]
      rfl
  | copied c rest hc ih =>
    have hplain : c ≠ '%' := by
      rintro rfl
      obtain ⟨behind, hmark⟩ := h [] rest rfl
      obtain rfl := (List.cons.inj hmark).2
      exact (hc rfl).2 rfl
    have htail : ArityMarked ([c] ++ rest) := h
    obtain ⟨atoms, hread, hnames⟩ := ih htail.of_append_right
    refine ⟨.char c :: atoms, ?_, ?_⟩
    · rw [Segment.reading_copied hc, hread]
      rfl
    · rw [Atom.names, hnames, List.count_cons_of_ne hplain]

/-! ## Steps that keep the marks -/

theorem apply {rule : Abbreviation} (hrule : rule.Plain) {text : String}
    (h : ArityMarked text.toList) :
    ArityMarked (rule.apply text).toList ∧
      (rule.apply text).toList.count '%' = text.toList.count '%' := by
  have hpattern := hrule.pattern_plain.percent_not_mem
  have hreplacement := hrule.replacement_plain.percent_not_mem
  rw [Abbreviation.apply]
  split
  · exact ⟨h, rfl⟩
  · next hne =>
    rw [String.toList_ofList]
    by_cases hinfix : rule.pattern.toList <:+: text.toList
    · obtain ⟨before, after, hleft⟩ := Text.exists_leftmost hinfix
      have hbefore : ArityMarked before :=
        of_append_left hrule.pattern_plain (hrule.pattern_apart hne) (hleft.text_eq ▸ h)
      have hafter : ArityMarked after := (hleft.text_eq ▸ h).of_append_right.of_append_right
      rw [Text.replaceFirst_of_leftmost hleft, hleft.text_eq]
      refine ⟨hbefore.append ((of_plain hreplacement).append hafter), ?_⟩
      simp only [List.count_append, List.count_eq_zero_of_not_mem hpattern,
        List.count_eq_zero_of_not_mem hreplacement]
    · rw [Text.replaceFirst_of_not_infix hinfix]
      exact ⟨h, rfl⟩

/-- The short name of a line has the marks of the line. -/
theorem shorten {rules : List Abbreviation} (hrules : ∀ rule ∈ rules, rule.Plain) {text : String}
    (h : ArityMarked text.toList) :
    ArityMarked (Abbreviation.shorten rules text).toList ∧
      (Abbreviation.shorten rules text).toList.count '%' = text.toList.count '%' := by
  apply List.foldlRecOn (motive := fun t : String =>
    ArityMarked t.toList ∧ t.toList.count '%' = text.toList.count '%') rules _ ⟨h, rfl⟩
  rintro t ⟨ht, hcount⟩ rule hrule
  obtain ⟨hmarked, hsame⟩ := ht.apply (hrules rule hrule)
  exact ⟨hmarked, hsame.trans hcount⟩

theorem longName {line : String} (h : ArityMarked line.toList) :
    ArityMarked (Emission.longName line).toList := by
  rw [Emission.longName, String.toList_ofList]
  by_cases hinfix : arityMark <:+: line.toList
  · obtain ⟨before, after, hleft⟩ := Text.exists_leftmost hinfix
    have hbehind : ArityMarked (arityMark ++ after) := (hleft.text_eq ▸ h).of_append_right
    have hbefore : '%' ∉ before := by
      -- otherwise a mark would start in front of the leftmost one
      intro hc
      obtain ⟨front, rest, rfl⟩ := List.append_of_mem hc
      obtain ⟨behind, hmark⟩ := h front (rest ++ (arityMark ++ after)) (by
        rw [hleft.text_eq]
        simp)
      have hle := hleft.leftmost front behind (by
        rw [hleft.text_eq, hmark]
        simp)
      simp at hle
    rw [Text.replaceFirst_of_leftmost hleft]
    have hunderscore : ArityMarked ['_'] := of_plain (by decide)
    exact (of_plain hbefore).append (hunderscore.append hbehind)
  · rw [Text.replaceFirst_of_not_infix hinfix]
    exact h

theorem exists_parse {text : String} (h : ArityMarked text.toList) (label : String) :
    ∃ t, Template.parse label text = .ok t := by
  obtain ⟨atoms, hread, -⟩ := h.exists_reading
  rw [Template.exists_parse_iff, hread]
  rfl

theorem placeholders_eq {t : Template} (h : ArityMarked t.text.toList) :
    t.placeholders = List.replicate (t.text.toList.count '%') "arity" := by
  obtain ⟨atoms, hread, hnames⟩ := h.exists_reading
  obtain rfl := Option.some.inj (t.reading_text.symm.trans hread)
  rw [t.placeholders_eq, hnames]

theorem synthesizable {t : Template} (h : ArityMarked t.text.toList) : t.Synthesizable := by
  intro key hkey
  rw [h.placeholders_eq] at hkey
  rw [List.eq_of_mem_replicate hkey]
  decide

end ArityMarked

/-! ## Names of one line -/

theorem exists_parse_define {label short long : String} {s l : Template}
    (hs : Template.parse label short = .ok s) (hl : Template.parse label long = .ok l) :
    ∃ t, Template.parse label ("#define " ++ short ++ " " ++ long) = .ok t ∧
      ∀ params name body, s.expand params = .ok name → l.expand params = .ok body →
        t.expand params = .ok ("#define " ++ name ++ " " ++ body) := by
  have htext (x y : String) : ("#define " ++ x ++ " " ++ y).toList =
      "#define ".toList ++ (x.toList ++ ' ' :: y.toList) := by simp
  have hread := Segment.reading_append_plain (by decide : '%' ∉ "#define ".toList)
    (short.toList ++ ' ' :: long.toList)
  rw [Segment.reading_append_separator (by decide), Template.reading_of_parse hs,
    Template.reading_of_parse hl, ← htext short long] at hread
  obtain ⟨t, ht⟩ := (Template.exists_parse_iff label _).2 (by rw [hread]; rfl)
  refine ⟨t, ht, fun params name body hname hbody => ?_⟩
  have hatoms := Option.some.inj ((Template.reading_of_parse ht).symm.trans hread)
  rw [Template.expand_eq_ok_iff] at hname hbody ⊢
  rw [hatoms, Atom.fill_append, Atom.fill_map_char, Atom.fill_append, hname, Atom.fill, hbody,
    htext name body]
  rfl

theorem exists_parse_shorten {rules : List Abbreviation} (hrules : ∀ rule ∈ rules, rule.Plain)
    {line : Template} (h : ArityMarked line.text.toList) :
    ∃ short, Template.parse line.name (Abbreviation.shorten rules line.text) = .ok short ∧
      short.Synthesizable ∧ short.placeholders = line.placeholders := by
  obtain ⟨hmarked, hcount⟩ := h.shorten hrules
  obtain ⟨short, hshort⟩ := hmarked.exists_parse line.name
  obtain ⟨-, htext⟩ := Template.name_text_of_parse hshort
  rw [← htext] at hmarked hcount
  exact ⟨short, hshort, hmarked.synthesizable,
    by rw [hmarked.placeholders_eq, h.placeholders_eq, hcount]⟩

theorem exists_names {rules : List Abbreviation} (hrules : ∀ rule ∈ rules, rule.Plain)
    {line : Template} (h : ArityMarked line.text.toList) :
    ∃ (short definition : Template) (names bodies : Nat → String),
      Template.parse line.name (Abbreviation.shorten rules line.text) = .ok short ∧
      short.Synthesizable ∧ short.placeholders = line.placeholders ∧
      Template.parse line.name (aliasText rules line.text) = .ok definition ∧
      ∀ n, short.expand (synthesize n) = .ok (names n) ∧
        definition.expand (synthesize n) = .ok ("#define " ++ names n ++ " " ++ bodies n) := by
  obtain ⟨short, hshort, hsynthesizable, hplaces⟩ := exists_parse_shorten hrules h
  obtain ⟨long, hlong⟩ := h.longName.exists_parse line.name
  obtain ⟨definition, hparse, hexpand⟩ := exists_parse_define hshort hlong
  have hmarked : ArityMarked long.text.toList := by
    rw [(Template.name_text_of_parse hlong).2]
    exact h.longName
  choose names hnames using hsynthesizable.exists_expand
  choose bodies hbodies using hmarked.synthesizable.exists_expand
  exact ⟨short, definition, names, bodies, hshort, hsynthesizable, hplaces, hparse,
    fun n => ⟨hnames n, hexpand _ _ _ (hnames n) (hbodies n)⟩⟩

/-! ## Alias files -/

theorem exists_aliasLines {rules : List Abbreviation} (hrules : ∀ rule ∈ rules, rule.Plain)
    (range : ArityRange) {line : Template} (h : ArityMarked line.text.toList) :
    ∃ block, aliasLines rules range line = .ok block := by
  obtain ⟨short, definition, names, bodies, -, -, -, hparse, hnames⟩ := exists_names hrules h
  have hall : ∀ n ∈ range.ascending, definition.expand (synthesize n) =
      .ok ("#define " ++ names n ++ " " ++ bodies n) := fun n _ => (hnames n).2
  exact ⟨_, aliasLines_eq_ok_iff.2
    ⟨definition, hparse, Traversal.mapM_eq_ok_iff.1 (Traversal.mapM_eq_ok_map hall)⟩⟩

theorem exists_aliases {rules : List Abbreviation} (hrules : ∀ rule ∈ rules, rule.Plain)
    (fileName : String) (range : ArityRange) (trailer : Option String) {template : Template}
    (h : ∀ text ∈ template.lineTexts, ArityMarked text.toList) :
    ∃ lines artifact, template.lines = .ok lines ∧
      aliases fileName template rules range trailer = .ok artifact := by
  obtain ⟨lines, hlines, -⟩ := template.exists_lines_places
  have hmarked : ∀ line ∈ lines, ∃ block, aliasLines rules range line = .ok block := by
    intro line hline
    apply exists_aliasLines hrules range
    apply h
    rw [← Template.texts_of_lines hlines]
    exact List.mem_map_of_mem hline
  obtain ⟨blocks, hblocks⟩ := Traversal.exists_mapM_iff.2 hmarked
  exact ⟨lines, _, hlines,
    aliases_eq_ok_iff.2 ⟨lines, blocks, hlines, Traversal.mapM_eq_ok_iff.1 hblocks, rfl⟩⟩

/-- Abbreviations leave the places of the arity where they are, so that every line has one short
name for each arity. -/
theorem short_names_keep_arity {rules : List Abbreviation} (hrules : ∀ rule ∈ rules, rule.Plain) :
    (∀ label text, ArityMarked text.toList →
      ∃ line short, Template.parse label text = .ok line ∧
        Template.parse label (Abbreviation.shorten rules text) = .ok short ∧
        short.placeholders = line.placeholders) ∧
    ∀ (fileName : String) (template : Template) (N : Nat) (trailer : Option String),
      (∀ text ∈ template.lineTexts, ArityMarked text.toList) →
      ∃ lines artifact, template.lines = .ok lines ∧ lines.map (·.text) = template.lineTexts ∧
        aliases fileName template rules ⟨N⟩ trailer = .ok artifact ∧
        artifact.lines.length = 2 + lines.length * (N + 1) + trailer.toList.length ∧
        ∀ i line, lines[i]? = some line → ∃ (short : Template) (names bodies : Nat → String),
          Template.parse line.name (Abbreviation.shorten rules line.text) = .ok short ∧
          (∀ n ≤ N, short.expand (synthesize n) = .ok (names n) ∧
            artifact.lines[2 + i * (N + 1) + n]? =
              some ("#define " ++ names n ++ " " ++ bodies n)) ∧
          (line.placeholders ≠ [] → ∀ n ≤ N, ∀ m ≤ N, n ≠ m → names n ≠ names m) := by
  refine ⟨fun label text htext => ?_, fun fileName template N trailer hmarked => ?_⟩
  · obtain ⟨line, hline⟩ := htext.exists_parse label
    obtain ⟨rfl, rfl⟩ := Template.name_text_of_parse hline
    obtain ⟨short, hshort, -, hplaces⟩ := exists_parse_shorten hrules htext
    exact ⟨line, short, hline, hshort, hplaces⟩
  · obtain ⟨lines, artifact, hlines, hok⟩ := exists_aliases hrules fileName ⟨N⟩ trailer hmarked
    have htexts := Template.texts_of_lines hlines
    refine ⟨lines, artifact, hlines, htexts, hok, length_of_aliases hlines hok, fun i line hi => ?_⟩
    have hline : ArityMarked line.text.toList := by
      apply hmarked
      rw [← htexts]
      exact List.mem_map_of_mem (List.mem_of_getElem? hi)
    obtain ⟨short, definition, names, bodies, hshort, hsynthesizable, hplaces, hparse, hnames⟩ :=
      exists_names hrules hline
    refine ⟨short, names, bodies, hshort, fun n hn => ⟨(hnames n).1, ?_⟩, ?_⟩
    · obtain ⟨other, text, hother, htext, hentry⟩ := directive_of_aliases hlines hok hi hn
      obtain rfl := Except.ok.inj (hother.symm.trans hparse)
      obtain rfl := Except.ok.inj (htext.symm.trans (hnames n).2)
      exact hentry
    · intro hne n _ m _ hnm heq
      have hm := (hnames m).1
      rw [← heq] at hm
      rw [← hplaces] at hne
      exact hnm (hsynthesizable.eq_of_expand_eq hne (hnames n).1 hm)

theorem Abbreviation.plain_messageDefaults : ∀ rule ∈ messageDefaults, rule.Plain := by
  simp only [messageDefaults, List.forall_mem_cons, List.not_mem_nil, false_imp_iff, implies_true,
    and_true]
  repeat' apply And.intro
  all_goals exact ⟨⟨by decide, by decide, by decide⟩, ⟨by decide, by decide, by decide⟩, by decide⟩

def constAliases : Template where
  name := "s"
  text := "DYNAMIX_V1_CONST_MESSAGE%\x7barity\x7d"
  segments := [.literal "DYNAMIX_V1_CONST_MESSAGE".toList, .placeholder "arity" ⟨24, 32⟩]
  segments_eq := by cbv

theorem short_names_keep_arity_messageDefaults :
    ∃ (artifact : Artifact) (names bodies : Nat → String),
      aliases "s" constAliases Abbreviation.messageDefaults ⟨1⟩ none = .ok artifact ∧
      artifact.lines.length = 4 ∧
      artifact.lines[2]? = some ("#define " ++ names 0 ++ " " ++ bodies 0) ∧
      artifact.lines[3]? = some ("#define " ++ names 1 ++ " " ++ bodies 1) ∧
      names 0 ≠ names 1 := by
  have htexts : constAliases.lineTexts = [constAliases.text] := by decide +kernel
  have hstem : ArityMarked "DYNAMIX_V1_CONST_MESSAGE".toList := .of_plain (by decide)
  have hmarked : ArityMarked constAliases.text.toList := hstem.append .of_mark
  obtain ⟨-, hfiles⟩ := short_names_keep_arity Abbreviation.plain_messageDefaults
  obtain ⟨lines, artifact, -, hlines, hok, hlength, hnames⟩ :=
    hfiles "s" constAliases 1 none (by simpa [htexts] using hmarked)
  rw [htexts] at hlines
  obtain ⟨line, rfl⟩ := List.length_eq_one_iff.1 (by simpa using congrArg List.length hlines)
  have htext : line.text = constAliases.text := (List.cons.inj hlines).1
  have hplaces : line.placeholders ≠ [] := by
    rw [ArityMarked.placeholders_eq (htext ▸ hmarked), htext]
    decide
  obtain ⟨short, names, bodies, -, hentries, hdistinct⟩ := hnames 0 line rfl
  exact ⟨artifact, names, bodies, hok, hlength, (hentries 0 (by decide)).2,
    (hentries 1 (by decide)).2, hdistinct hplaces 0 (by decide) 1 (by decide) (by decide)⟩

end MacroFamilies
