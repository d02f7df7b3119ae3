import MacroFamilies.Proofs.ParameterSet.Synthesis
import MacroFamilies.Proofs.Template.Places
/-!
# A template filled for every arity

Each value of a synthesized set grows with the arity and differs from that of any other arity. The
values of one arity can stand in a template any number of times and next to any text, digits
included: an expansion for a larger arity is at least as long, and if it has the same length then
each place has a value of the same length, so that the two expansions differ at some place.
-/

namespace MacroFamilies

/-- Values that never get shorter with the arity and are different for different arities. -/
structure TellsArity (value : Nat → String) : Prop where
  length_le : ∀ {n m}, n ≤ m → (value n).length ≤ (value m).length
  injective : Function.Injective value

namespace TellsArity

theorem of_strictMono {value : Nat → String} (h : StrictMono fun n => (value n).length) :
    TellsArity value where
  length_le hle := h.monotone hle
  injective _ _ heq := h.injective (congrArg String.length heq)

theorem numeral : TellsArity toString where
  length_le {n m} hle := by
    have hlength (k : Nat) : (toString k).length = (Nat.toDigits 10 k).length := by
      rw [Nat.toString_eq_ofList_toDigits, String.length_ofList]
    rw [hlength, hlength]
    have hpos := Nat.length_toDigits_pos (b := 10) (n := m)
    have hm : m < 10 ^ (Nat.toDigits 10 m).length :=
      (Nat.length_toDigits_le_iff (by decide) hpos).1 le_rfl
    exact (Nat.length_toDigits_le_iff (by decide) hpos).2 (hle.trans_lt hm)
  injective _ _ h := Nat.repr_injective h

end TellsArity

/-! ## Lists grow -/

theorem strictMono_length_parameterList {entry : Nat → String} (h : ∀ i, entry i ≠ "") :
    StrictMono fun n => (parameterList entry n).length := by
  apply strictMono_nat_of_lt_succ
  intro n
  have hentry : 0 < (entry n).length := Nat.pos_of_ne_zero fun hlength =>
    h n (String.length_eq_zero_iff.1 hlength)
  rcases Nat.eq_zero_or_pos n with rfl | hn
  · simpa [parameterList, commaList] using hentry
  · have hfront : (List.range n).map entry ≠ [] := by simpa using hn.ne'
    rw [parameterList, parameterList, List.range_succ, List.map_append, List.map_singleton,
      commaList_append hfront (List.cons_ne_nil _ _)]
    simp only [String.length_append]
    have hlast : commaList [entry n] = entry n := String.intercalate_singleton
    rw [hlast]
    omega

theorem length_commaTail_lt {short long : String} (h : short.length < long.length) :
    (commaTail short).length < (commaTail long).length := by
  have hlong : long ≠ "" := by
    rintro rfl
    simp at h
  rw [commaTail, commaTail, if_neg hlong]
  split_ifs
  · rw [String.length_append]
    exact Nat.add_pos_left (by decide) _
  · rw [String.length_append, String.length_append]
    exact Nat.add_lt_add_left h _

theorem strictMono_length_commaTail {list : Nat → String}
    (h : StrictMono fun n => (list n).length) :
    StrictMono fun n => (commaTail (list n)).length :=
  fun _ _ hlt => length_commaTail_lt (h hlt)

theorem slot_ne_empty (i : Nat) : Parameter.slot i ≠ "" := by
  simp [Parameter.slot, separator]

theorem tellsArity_of_mem {e : String × (Nat → String)} (h : e ∈ synthesized) :
    TellsArity e.2 := by
  have hlist {l : String × (Nat → String)} (hl : l ∈ entryLists) :
      StrictMono fun n => (parameterList l.2 n).length :=
    strictMono_length_parameterList (entryText_of_mem hl).ne_empty
  simp only [synthesized, List.cons_append, List.mem_cons, List.mem_append, List.mem_map] at h
  rcases h with rfl | ⟨l, hl, rfl⟩ | rfl | ⟨l, hl, rfl⟩
  · exact .numeral
  · exact .of_strictMono (hlist hl)
  · exact .of_strictMono (strictMono_length_commaTail
      (strictMono_length_parameterList slot_ne_empty))
  · exact .of_strictMono (strictMono_length_commaTail (hlist hl))

/-! ## Expansions -/

namespace Template

/-- All places of a template have a value for every arity. -/
def Synthesizable (t : Template) : Prop := ∀ key ∈ t.placeholders, key ∈ synthesizedKeys

variable {t : Template} (h : t.Synthesizable)

include h

theorem Synthesizable.exists_expand (n : Nat) : ∃ text, t.expand (synthesize n) = .ok text := by
  apply Traversal.exists_ok
  intro d hd
  obtain ⟨key, hkey, hnone⟩ := (exists_expand_error_iff t (synthesize n)).1 ⟨d, hd⟩
  obtain ⟨value, hvalue⟩ := exists_of_mem_synthesizedKeys (h key hkey)
  rw [get?_synthesize hvalue] at hnone
  cases hnone

/-- The arity can be told from an expansion with a place in it. -/
theorem Synthesizable.eq_of_expand_eq (hne : t.placeholders ≠ []) {n m : Nat} {text : String}
    (hn : t.expand (synthesize n) = .ok text) (hm : t.expand (synthesize m) = .ok text) :
    n = m := by
  -- for the smaller arity no value is longer, so that equal expansions have equal values
  wlog hle : n ≤ m generalizing n m
  · exact (this hm hn (Nat.le_of_not_le hle)).symm
  rw [expand_eq_ok_iff] at hn hm
  have hnames := t.placeholders_eq
  have hlengths : ∀ name ∈ Atom.names (Segment.atoms t.segments), ∀ a b,
      (synthesize n).get? name = some a → (synthesize m).get? name = some b →
        a.length ≤ b.length := by
    intro name hname a b ha hb
    obtain ⟨value, hvalue⟩ := exists_of_mem_synthesizedKeys (h name (hnames ▸ hname))
    rw [get?_synthesize hvalue, Option.some.injEq] at ha hb
    subst ha hb
    exact (tellsArity_of_mem hvalue).length_le hle
  obtain ⟨key, hkey⟩ := List.exists_mem_of_ne_nil _ hne
  obtain ⟨value, hvalue⟩ := exists_of_mem_synthesizedKeys (h key hkey)
  have hvalues := (Atom.fill_injective hn hm hlengths).2 rfl key (hnames ▸ hkey)
  rw [get?_synthesize hvalue, get?_synthesize hvalue, Option.some.injEq] at hvalues
  exact (tellsArity_of_mem hvalue).injective hvalues

end Template

end MacroFamilies
