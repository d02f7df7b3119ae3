import MacroFamilies.Proofs.Template.Reading
/-!
# Runs of percent signs

A scan takes percent signs one or two at a time. Seen from afar, a text is a sequence of maximal
runs of percent signs between other characters: a run of odd length in front of an opening brace
ends in a placeholder, any other run is halved. The main statement says that templates are read and
expanded in just this way.
-/

namespace MacroFamilies

/-- A part of a text that is cut at its runs of percent signs. -/
inductive Piece where
  /-- A character other than a percent sign. -/
  | other (c : Char)
  /-- A maximal run that opens no placeholder. -/
  | signs (count : Nat)
  /-- A maximal run of `2 * pairs + 1` percent signs with the name in braces behind it. -/
  | slot (pairs : Nat) (name : List Char)
  deriving DecidableEq, Repr

namespace Piece

def written : Piece → List Char
  | .other c => [c]
  | .signs count => List.replicate count '%'
  | .slot pairs name => List.replicate (2 * pairs + 1) '%' ++ '{' :: (name ++ ['}'])

/-- What a piece becomes: half of its percent signs, rounded up where they open no placeholder, and
the value of the name. -/
def expanded (value : String → String) : Piece → List Char
  | .other c => [c]
  | .signs count => List.replicate ((count + 1) / 2) '%'
  | .slot pairs name => List.replicate pairs '%' ++ (value (String.ofList name)).toList

def name? : Piece → Option String
  | .slot _ name => some (String.ofList name)
  | _ => none

def atoms : Piece → List Atom
  | .other c => [.char c]
  | .signs count => List.replicate ((count + 1) / 2) (.char '%')
  | .slot pairs name => List.replicate pairs (.char '%') ++ [.value (String.ofList name)]

end Piece

def pieces (cs : List Char) : List Piece :=
  match cs with
  | [] => []
  | c :: rest =>
    if c = '%' then
      let count := (rest.takeWhile (· == '%')).length + 1
      let behind := rest.dropWhile (· == '%')
      if count % 2 = 1 ∧ behind.head? = some '{' then
        let body := behind.tail
        .slot (count / 2) (body.takeWhile (· != '}')) :: pieces (body.dropWhile (· != '}')).tail
      else .signs count :: pieces behind
    else .other c :: pieces rest
termination_by cs.length
decreasing_by
  · have h₁ := (List.dropWhile_sublist (l := rest) (· == '%')).length_le
    have h₂ := (List.dropWhile_sublist
      (l := (rest.dropWhile (· == '%')).tail) (· != '}')).length_le
    simp only [List.length_tail, List.length_cons] at h₂ ⊢
    omega
  · have h₁ := (List.dropWhile_sublist (l := rest) (· == '%')).length_le
    simp only [List.length_cons]
    omega
  · simp only [List.length_cons]
    omega

/-- Behind every maximal run of percent signs of odd length, an opening brace starts a name in
braces. -/
def RunsClosed (text : List Char) : Prop :=
  ∀ before count after, text = before ++ List.replicate count '%' ++ '{' :: after →
    before.getLast? ≠ some '%' → count % 2 = 1 →
      ∃ name tail, after = name ++ '}' :: tail ∧ Segment.isName name

/-! ## Texts run by run -/

private theorem exists_run (rest : List Char) :
    ∃ count behind, rest = List.replicate count '%' ++ behind ∧ behind.head? ≠ some '%' := by
  induction rest with
  | nil => exact ⟨0, [], rfl, by simp⟩
  | cons c rest ih =>
    by_cases hc : c = '%'
    · obtain ⟨count, behind, rfl, hbehind⟩ := ih
      exact ⟨count + 1, behind, by simp [hc, List.replicate_succ], hbehind⟩
    · exact ⟨0, c :: rest, rfl, by simpa using hc⟩

/-- Induction over a text that takes a whole run at once. -/
@[elab_as_elim]
theorem run_induction {motive : List Char → Prop} (nil : motive [])
    (other : ∀ c rest, c ≠ '%' → motive rest → motive (c :: rest))
    (run : ∀ count behind, 0 < count → behind.head? ≠ some '%' →
      (∀ tail, tail <:+ behind → motive tail) → motive (List.replicate count '%' ++ behind))
    (cs : List Char) : motive cs := by
  induction hn : cs.length using Nat.strongRecOn generalizing cs with
  | ind n ih =>
    subst hn
    cases cs with
    | nil => exact nil
    | cons c rest =>
      by_cases hc : c = '%'
      · subst hc
        obtain ⟨count, behind, rfl, hbehind⟩ := exists_run rest
        refine run (count + 1) behind (by omega) hbehind fun tail htail => ?_
        have hlength : tail.length < ('%' :: (List.replicate count '%' ++ behind)).length := by
          have hle := htail.length_le
          simp only [List.length_cons, List.length_append]
          omega
        exact ih tail.length hlength tail rfl
      · exact other c rest hc (ih _ (by simp) rest rfl)

private theorem takeWhile_run {count : Nat} {behind : List Char} (h : behind.head? ≠ some '%') :
    (List.replicate count '%' ++ behind).takeWhile (· == '%') = List.replicate count '%' := by
  rw [List.takeWhile_append_of_pos (by simp)]
  cases behind with
  | nil => simp
  | cons c behind => simpa using h

private theorem dropWhile_run {count : Nat} {behind : List Char} (h : behind.head? ≠ some '%') :
    (List.replicate count '%' ++ behind).dropWhile (· == '%') = behind := by
  rw [List.dropWhile_append_of_pos (by simp)]
  exact List.dropWhile_beq_eq_self_of_head?_ne h

private theorem run_inj {count other : Nat} {behind after : List Char}
    (h : List.replicate count '%' ++ behind = List.replicate other '%' ++ after)
    (hbehind : behind.head? ≠ some '%') (hafter : after.head? ≠ some '%') :
    count = other ∧ behind = after := by
  have htake := congrArg (List.takeWhile (· == '%')) h
  have hdrop := congrArg (List.dropWhile (· == '%')) h
  rw [takeWhile_run hbehind, takeWhile_run hafter] at htake
  rw [dropWhile_run hbehind, dropWhile_run hafter] at hdrop
  exact ⟨by simpa using congrArg List.length htake, hdrop⟩

theorem pieces_other {c : Char} (hc : c ≠ '%') (rest : List Char) :
    pieces (c :: rest) = .other c :: pieces rest := by
  rw [pieces, if_neg hc]

theorem pieces_signs {count : Nat} {behind : List Char} (hpos : 0 < count)
    (hbehind : behind.head? ≠ some '%') (h : count % 2 = 1 → behind.head? ≠ some '{') :
    pieces (List.replicate count '%' ++ behind) = .signs count :: pieces behind := by
  obtain ⟨count, rfl⟩ := Nat.exists_eq_add_one_of_ne_zero (by omega : count ≠ 0)
  rw [List.replicate_succ, List.cons_append, pieces, if_pos rfl]
  simp only [takeWhile_run hbehind, dropWhile_run hbehind, List.length_replicate]
  rw [if_neg (fun hopen => h hopen.1 hopen.2)]

theorem pieces_slot (pairs : Nat) {name : List Char} (tail : List Char) (h : '}' ∉ name) :
    pieces (List.replicate (2 * pairs + 1) '%' ++ '{' :: (name ++ '}' :: tail)) =
      .slot pairs name :: pieces tail := by
  have hbrace : ('{' :: (name ++ '}' :: tail)).head? ≠ some '%' := by simp
  have hname : ∀ c ∈ name, (c != '}') = true := fun c hc =>
    bne_iff_ne.2 fun hce => h (hce ▸ hc)
  rw [List.replicate_succ, List.cons_append, pieces, if_pos rfl]
  simp only [takeWhile_run hbrace, dropWhile_run hbrace, List.length_replicate]
  rw [if_pos ⟨by omega, rfl⟩, List.tail_cons, List.takeWhile_append_of_pos hname,
    List.dropWhile_append_of_pos hname, show (2 * pairs + 1) / 2 = pairs by omega]
  simp

/-! ## Which runs are closed -/

theorem runsClosed_nil : RunsClosed [] := by
  intro before count after h
  simp at h

theorem runsClosed_other {c : Char} (hc : c ≠ '%') (rest : List Char) :
    RunsClosed (c :: rest) ↔ RunsClosed rest := by
  constructor
  · intro h before count after hrest hbefore hodd
    refine h (c :: before) count after (by simp [hrest]) ?_ hodd
    cases before with
    | nil => simpa using hc
    | cons d before => simpa using hbefore
  · intro h before count after hrest hbefore hodd
    cases before with
    | nil =>
      -- the run is empty, since the text does not start with a percent sign
      cases count with
      | zero => omega
      | succ count => simp [List.replicate_succ, hc] at hrest
    | cons d before =>
      obtain ⟨rfl, rfl⟩ : c = d ∧ rest = before ++ List.replicate count '%' ++ '{' :: after := by
        simpa using hrest
      refine h before count after rfl ?_ hodd
      cases before with
      | nil => simp
      | cons e before => simpa using hbefore

theorem runsClosed_append_other {plain : List Char} (h : '%' ∉ plain) (rest : List Char) :
    RunsClosed (plain ++ rest) ↔ RunsClosed rest := by
  induction plain with
  | nil => rfl
  | cons c plain ih =>
    simp only [List.mem_cons, not_or] at h
    rw [List.cons_append, runsClosed_other (Ne.symm h.1), ih h.2]

theorem runsClosed_run {count : Nat} {behind : List Char} (hpos : 0 < count)
    (hbehind : behind.head? ≠ some '%') :
    RunsClosed (List.replicate count '%' ++ behind) ↔
      (∀ after, behind = '{' :: after → count % 2 = 1 →
        ∃ name tail, after = name ++ '}' :: tail ∧ Segment.isName name) ∧
      RunsClosed behind := by
  have hlast : (List.replicate count '%').getLast? = some '%' := by
    simp [List.getLast?_replicate, Nat.pos_iff_ne_zero.1 hpos]
  constructor
  · intro h
    refine ⟨fun after hafter hodd => h [] count after (by simp [hafter]) (by simp) hodd, ?_⟩
    intro before other after hsplit hbefore hodd
    refine h (List.replicate count '%' ++ before) other after (by simp [hsplit]) ?_ hodd
    cases before with
    | nil =>
      -- then the odd run would start the text behind the first run
      obtain ⟨other, rfl⟩ := Nat.exists_eq_add_one_of_ne_zero (by omega : other ≠ 0)
      simp [hsplit, List.replicate_succ] at hbehind
    | cons d before => rwa [List.getLast?_append, Option.or_of_isSome (by simp)]
  · rintro ⟨hfirst, hrest⟩ before other after hsplit hbefore hodd
    rw [List.append_assoc] at hsplit
    rcases List.append_eq_append_iff.1 hsplit with ⟨middle, rfl, hmiddle⟩ | ⟨middle, hrun, hmiddle⟩
    · -- the run lies behind the first one
      have hne : middle ≠ [] := by
        rintro rfl
        exact hbefore (by simpa using hlast)
      rw [List.getLast?_append, Option.or_of_isSome (by simpa using hne)] at hbefore
      exact hrest middle other after (by simp [hmiddle]) hbefore hodd
    · cases before with
      | nil =>
        have heq : List.replicate count '%' ++ behind =
            List.replicate other '%' ++ '{' :: after := by simpa using hsplit
        obtain ⟨rfl, hafter⟩ := run_inj heq hbehind (by simp)
        exact hfirst after hafter hodd
      | cons d before =>
        -- a part of the first run would stand in front of it
        have hmember :=
          List.mem_of_getLast? (List.getLast?_eq_some_getLast (List.cons_ne_nil d before))
        have hmem := hrun ▸ List.mem_append_left middle hmember
        rw [List.getLast?_eq_some_getLast (List.cons_ne_nil d before),
          (List.mem_replicate.1 hmem).2] at hbefore
        exact absurd rfl hbefore

/-! ## Reading run by run -/

open Segment (reading)

theorem reading_replicate_pairs (pairs : Nat) (rest : List Char) :
    reading (List.replicate (2 * pairs) '%' ++ rest) =
      (reading rest).map (List.replicate pairs (.char '%') ++ ·) := by
  induction pairs with
  | zero => simp
  | succ pairs ih =>
    rw [show 2 * (pairs + 1) = 2 * pairs + 1 + 1 by omega, List.replicate_succ, List.replicate_succ,
      List.cons_append, List.cons_append, Segment.reading_escaped, ih]
    simp [List.replicate_succ, Function.comp_def]

theorem reading_signs {count : Nat} {behind : List Char} (hbehind : behind.head? ≠ some '%')
    (h : count % 2 = 1 → behind.head? ≠ some '{') :
    reading (List.replicate count '%' ++ behind) =
      (reading behind).map ((Piece.signs count).atoms ++ ·) := by
  rw [Piece.atoms]
  obtain ⟨pairs, rfl | rfl⟩ : ∃ pairs, count = 2 * pairs ∨ count = 2 * pairs + 1 :=
    ⟨count / 2, by omega⟩
  · rw [reading_replicate_pairs, show (2 * pairs + 1) / 2 = pairs by omega]
  · have hcopied : Segment.Copied '%' behind := fun _ => ⟨hbehind, h (by omega)⟩
    rw [List.replicate_succ', List.append_assoc, reading_replicate_pairs, List.singleton_append,
      Segment.reading_copied hcopied, show (2 * pairs + 1 + 1) / 2 = pairs + 1 by omega,
      List.replicate_succ']
    simp [Function.comp_def]

theorem reading_slot (pairs : Nat) {name : List Char} (tail : List Char) (h : '}' ∉ name) :
    reading (List.replicate (2 * pairs + 1) '%' ++ '{' :: (name ++ '}' :: tail)) =
      if Segment.isName name then (reading tail).map ((Piece.slot pairs name).atoms ++ ·)
      else none := by
  rw [List.replicate_succ', List.append_assoc, reading_replicate_pairs, List.singleton_append,
    Segment.reading_closed tail h]
  split <;> simp [Piece.atoms, Function.comp_def]

theorem reading_slot_unterminated (pairs : Nat) {after : List Char} (h : '}' ∉ after) :
    reading (List.replicate (2 * pairs + 1) '%' ++ '{' :: after) = none := by
  rw [List.replicate_succ', List.append_assoc, reading_replicate_pairs, List.singleton_append,
    Segment.reading_unterminated h]
  rfl

/-- A text with closed runs is read as its pieces, and the pieces make up the whole text. -/
theorem reading_of_runsClosed {cs : List Char} (h : RunsClosed cs) :
    reading cs = some ((pieces cs).flatMap Piece.atoms) ∧
      (pieces cs).flatMap Piece.written = cs := by
  induction cs using run_induction with
  | nil => simp [pieces]
  | other c rest hc ih =>
    obtain ⟨hread, hwritten⟩ := ih ((runsClosed_other hc rest).1 h)
    rw [Segment.reading_copied (fun h => absurd h hc), pieces_other hc, hread]
    simp [Piece.atoms, Piece.written, hwritten]
  | run count behind hpos hbehind ih =>
    obtain ⟨hopen, hrest⟩ := (runsClosed_run hpos hbehind).1 h
    by_cases hslot : count % 2 = 1 ∧ behind.head? = some '{'
    · obtain ⟨hodd, hhead⟩ := hslot
      obtain ⟨after, rfl⟩ := List.head?_eq_some_iff.1 hhead
      obtain ⟨name, tail, rfl, hname⟩ := hopen after rfl hodd
      obtain ⟨hclose, hpercent⟩ := Segment.marks_not_mem_of_isName hname
      obtain ⟨pairs, rfl⟩ : ∃ pairs, count = 2 * pairs + 1 := ⟨count / 2, by omega⟩
      have hplain : '%' ∉ '{' :: (name ++ ['}']) := by simp [hpercent]
      have htail : RunsClosed tail := by
        rw [← runsClosed_append_other hplain]
        simpa using hrest
      obtain ⟨hread, hwritten⟩ := ih tail ⟨'{' :: (name ++ ['}']), by simp⟩ htail
      rw [reading_slot pairs tail hclose, if_pos hname, pieces_slot pairs tail hclose, hread]
      simp [Piece.written, hwritten]
    · have hsigns : count % 2 = 1 → behind.head? ≠ some '{' := fun hodd hhead =>
        hslot ⟨hodd, hhead⟩
      obtain ⟨hread, hwritten⟩ := ih behind List.suffix_rfl hrest
      rw [reading_signs hbehind hsigns, pieces_signs hpos hbehind hsigns, hread]
      simp [Piece.written, hwritten]

/-- A text that can be read has closed runs. -/
theorem runsClosed_of_reading {cs : List Char} (h : (reading cs).isSome) : RunsClosed cs := by
  induction cs using run_induction with
  | nil => exact runsClosed_nil
  | other c rest hc ih =>
    rw [Segment.reading_copied (fun h => absurd h hc), Option.isSome_map] at h
    exact (runsClosed_other hc rest).2 (ih h)
  | run count behind hpos hbehind ih =>
    rw [runsClosed_run hpos hbehind]
    by_cases hslot : count % 2 = 1 ∧ behind.head? = some '{'
    · obtain ⟨hodd, hhead⟩ := hslot
      obtain ⟨after, rfl⟩ := List.head?_eq_some_iff.1 hhead
      obtain ⟨pairs, rfl⟩ : ∃ pairs, count = 2 * pairs + 1 := ⟨count / 2, by omega⟩
      by_cases hclose : '}' ∈ after
      · obtain ⟨name, tail, rfl, hne⟩ := List.eq_append_cons_of_mem hclose
        rw [reading_slot pairs tail hne] at h
        by_cases hname : Segment.isName name = true
        · rw [if_pos hname, Option.isSome_map] at h
          have hplain : '%' ∉ '{' :: (name ++ ['}']) := by
            simp [(Segment.marks_not_mem_of_isName hname).2]
          have htail := ih tail ⟨'{' :: (name ++ ['}']), by simp⟩ h
          refine ⟨fun after hafter _ => ⟨name, tail, (List.cons.inj hafter).2.symm, hname⟩, ?_⟩
          rw [← runsClosed_append_other hplain] at htail
          simpa using htail
        · rw [if_neg hname] at h
          simp at h
      · rw [reading_slot_unterminated pairs hclose] at h
        simp at h
    · have hsigns : count % 2 = 1 → behind.head? ≠ some '{' := fun hodd hhead =>
        hslot ⟨hodd, hhead⟩
      rw [reading_signs hbehind hsigns, Option.isSome_map] at h
      refine ⟨?_, ih behind List.suffix_rfl h⟩
      rintro after rfl hodd
      exact absurd rfl (hsigns hodd)

/-! ## Expanding run by run -/

theorem names_atoms (parts : List Piece) :
    Atom.names (parts.flatMap Piece.atoms) = parts.filterMap Piece.name? := by
  have hsigns (count : Nat) : Atom.names (List.replicate count (Atom.char '%')) = [] := by
    simpa using Atom.names_map_char (List.replicate count '%')
  induction parts with
  | nil => rfl
  | cons part parts ih =>
    cases part <;>
      simp [Piece.atoms, Piece.name?, Atom.names, List.filterMap_cons, hsigns, ih]

theorem fill_atoms {value : String → Option String} {parts : List Piece}
    (h : ∀ name ∈ parts.filterMap Piece.name?, (value name).isSome) :
    Atom.fill value (parts.flatMap Piece.atoms) =
      some (parts.flatMap (Piece.expanded fun name => (value name).getD "")) := by
  have hsigns (count : Nat) : Atom.fill value (List.replicate count (Atom.char '%')) =
      some (List.replicate count '%') := by
    simpa using Atom.fill_map_char value (List.replicate count '%')
  induction parts with
  | nil => rfl
  | cons part parts ih =>
    rw [List.flatMap_cons, Atom.fill_append, ih]
    · cases part with
      | other c => simp [Piece.atoms, Piece.expanded, Atom.fill]
      | signs count => simp [Piece.atoms, Piece.expanded, hsigns]
      | slot pairs name =>
        have hsome := h (String.ofList name) (by simp [Piece.name?])
        obtain ⟨v, hv⟩ := Option.isSome_iff_exists.1 hsome
        simp [Piece.atoms, Piece.expanded, hsigns, Atom.fill, hv]
    · intro name hname
      refine h name ?_
      cases part <;> simp_all [Piece.name?]

/-- A text is a template exactly when its runs are closed, and an expansion of it takes the text
piece by piece. -/
theorem parse_expand_by_runs (name text : String) :
    ((∃ t, Template.parse name text = .ok t) ↔ RunsClosed text.toList) ∧
      ∀ t, Template.parse name text = .ok t →
        (pieces text.toList).flatMap Piece.written = text.toList ∧
          t.placeholders = (pieces text.toList).filterMap Piece.name? ∧
          ∀ params : ParameterSet, (∀ key ∈ t.placeholders, (params.get? key).isSome) →
            t.expand params = .ok (String.ofList ((pieces text.toList).flatMap
              (Piece.expanded fun key => (params.get? key).getD ""))) := by
  have hiff := Template.exists_parse_iff name text
  refine ⟨hiff.trans ⟨runsClosed_of_reading, fun h => ?_⟩, fun t ht => ?_⟩
  · rw [(reading_of_runsClosed h).1]
    rfl
  · have hclosed := runsClosed_of_reading (hiff.1 ⟨t, ht⟩)
    obtain ⟨hread, hwritten⟩ := reading_of_runsClosed hclosed
    have hatoms := t.reading_text
    rw [(Template.name_text_of_parse ht).2, hread, Option.some.injEq] at hatoms
    have hnames : t.placeholders = (pieces text.toList).filterMap Piece.name? := by
      rw [t.placeholders_eq, ← hatoms, names_atoms]
    refine ⟨hwritten, hnames, fun params hkeys => ?_⟩
    rw [Template.expand_eq_ok_iff, ← hatoms, String.toList_ofList]
    exact fill_atoms (hnames ▸ hkeys)

theorem expand_three_signs_and_two :
    ∃ t, Template.parse "t" "%%%{arity}%%" = .ok t ∧
      t.expand (.arityOnly "7") = .ok "%7%" := by
  obtain ⟨t, ht⟩ := (Template.exists_parse_iff "t" "%%%{arity}%%").2 (by cbv)
  obtain ⟨-, hnames, hexpand⟩ := (parse_expand_by_runs "t" "%%%{arity}%%").2 t ht
  have hpieces : pieces "%%%{arity}%%".toList = [.slot 1 "arity".toList, .signs 2] := by
    cbv
  refine ⟨t, ht, ?_⟩
  rw [hexpand (.arityOnly "7") (by rw [hnames, hpieces]; decide), hpieces]
  decide

end MacroFamilies
