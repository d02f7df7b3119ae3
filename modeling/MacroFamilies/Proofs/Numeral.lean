import MacroFamilies.Numeral
import Mathlib
/-!
# What a numeral stands for

A decimal numeral is a sign, or none, and at least one ASCII digit behind it. `signed?` reads these
texts and no others, and the number it gives is the positional value of the digits.
-/

namespace MacroFamilies.Numeral

variable {digits text : List Char}

/-! ## Digits -/

/-- At least one ASCII digit and nothing else. -/
structure IsDigits (digits : List Char) : Prop where
  ne_nil : digits ≠ []
  isDigit : ∀ c ∈ digits, c.isDigit = true

theorem digit?_eq_some_iff {c : Char} {d : Nat} :
    digit? 10 c = some d ↔ c.isDigit = true ∧ d = c.toNat - '0'.toNat := by
  have hdigit : '0' ≤ c ∧ c ≤ '9' ↔ c.isDigit = true := Char.isDigit_iff_toNat.symm
  unfold digit?
  simp only [hdigit, Option.filter_eq_some_iff, decide_eq_true_eq]
  split_ifs with hc hlower hupper
  · have hle : c.toNat ≤ 57 := (Char.isDigit_iff_toNat.1 hc).2
    have hlt : c.toNat - '0'.toNat < 10 := by
      show c.toNat - 48 < 10
      omega
    simp only [hc, true_and, Option.some.injEq]
    exact ⟨fun h => h.1.symm, fun h => ⟨h.symm, h ▸ hlt⟩⟩
  -- a letter is a digit of a larger radix only
  · simp only [hc, Option.some.injEq, Bool.false_eq_true, false_and, iff_false]
    omega
  · simp only [hc, Option.some.injEq, Bool.false_eq_true, false_and, iff_false]
    omega
  · simp [hc]

theorem extend?_eq_some_iff {value n : Nat} :
    extend? 10 value digits = some n ↔
      (∀ c ∈ digits, c.isDigit = true) ∧ n = Nat.ofDigitChars 10 digits value := by
  -- the value so far is carried along, so it varies
  induction digits generalizing value with
  | nil => simp [extend?, @eq_comm _ value n]
  | cons c rest ih =>
    rw [extend?, Option.bind_eq_some_iff, List.forall_mem_cons, Nat.ofDigitChars_cons]
    constructor
    · rintro ⟨d, hd, hrest⟩
      obtain ⟨hc, rfl⟩ := digit?_eq_some_iff.1 hd
      obtain ⟨hall, hn⟩ := ih.1 hrest
      rw [Nat.mul_comm value] at hn
      exact ⟨⟨hc, hall⟩, hn⟩
    · rintro ⟨⟨hc, hall⟩, hn⟩
      refine ⟨_, digit?_eq_some_iff.2 ⟨hc, rfl⟩, ih.2 ⟨hall, ?_⟩⟩
      rw [Nat.mul_comm value, hn]

theorem natural?_eq_some_iff {n : Nat} :
    natural? 10 digits = some n ↔ IsDigits digits ∧ n = Nat.ofDigitChars 10 digits 0 := by
  unfold natural?
  split_ifs with hnil
  · simp only [false_iff, not_and]
    exact fun h => absurd hnil h.ne_nil
  · rw [extend?_eq_some_iff]
    exact and_congr_left' ⟨fun h => ⟨hnil, h⟩, IsDigits.isDigit⟩

/-! ## Signs -/

/-- The text is a decimal numeral of the number: a sign, or none, and digits. -/
inductive Writes : List Char → Int → Prop
  | plain {digits : List Char} (h : IsDigits digits) :
    Writes digits (Nat.ofDigitChars 10 digits 0)
  | plus {digits : List Char} (h : IsDigits digits) :
    Writes ('+' :: digits) (Nat.ofDigitChars 10 digits 0)
  | minus {digits : List Char} (h : IsDigits digits) :
    Writes ('-' :: digits) (-(Nat.ofDigitChars 10 digits 0 : Nat))

theorem not_isDigits_cons {c : Char} (hc : c.isDigit = false) : ¬ IsDigits (c :: digits) := by
  intro h
  have hdigit := h.isDigit c List.mem_cons_self
  rw [hc] at hdigit
  cases hdigit

theorem signed?_minus (digits : List Char) :
    signed? ('-' :: digits) = (natural? 10 digits).map fun n : Nat => -(n : Int) := by
  rw [signed?]
  cases natural? 10 digits <;> rfl

theorem map_natural?_eq_some_iff {f : Nat → Int} {v : Int} :
    (natural? 10 digits).map f = some v ↔
      IsDigits digits ∧ v = f (Nat.ofDigitChars 10 digits 0) := by
  simp only [Option.map_eq_some_iff, natural?_eq_some_iff]
  constructor
  · rintro ⟨_, ⟨hdigits, rfl⟩, rfl⟩
    exact ⟨hdigits, rfl⟩
  · rintro ⟨hdigits, rfl⟩
    exact ⟨_, ⟨hdigits, rfl⟩, rfl⟩

theorem signed?_eq_some_iff {v : Int} : signed? text = some v ↔ Writes text v := by
  unfold signed?
  split
  case h_1 digits =>
    show signed? ('-' :: digits) = some v ↔ _
    rw [signed?_minus, map_natural?_eq_some_iff]
    constructor
    · rintro ⟨hdigits, rfl⟩
      exact .minus hdigits
    · rintro (h | h | h)
      · exact absurd h (not_isDigits_cons rfl)
      · exact ⟨h, rfl⟩
  case h_2 digits =>
    rw [map_natural?_eq_some_iff]
    constructor
    · rintro ⟨hdigits, rfl⟩
      exact .plus hdigits
    · rintro (h | h | h)
      · exact absurd h (not_isDigits_cons rfl)
      · exact ⟨h, rfl⟩
  case h_3 hminus hplus =>
    rw [map_natural?_eq_some_iff]
    constructor
    · rintro ⟨hdigits, rfl⟩
      exact .plain hdigits
    · rintro (h | h | h)
      · exact ⟨h, rfl⟩
      · exact absurd rfl (hplus _)
      · exact absurd rfl (hminus _)

theorem Writes.unique {v w : Int} (hv : Writes text v) (hw : Writes text w) : v = w := by
  rw [← signed?_eq_some_iff] at hv hw
  exact Option.some.inj (hv.symm.trans hw)

theorem fitsSigned_iff {bits : Nat} {v : Int} :
    fitsSigned bits v = true ↔ -2 ^ (bits - 1) ≤ v ∧ v < 2 ^ (bits - 1) := by
  simp [fitsSigned, and_comm]

theorem writes_toString (n : Nat) : Writes (toString n).toList n := by
  have hdigits : IsDigits (Nat.toDigits 10 n) :=
    ⟨Nat.toDigits_ne_nil, fun c hc => Nat.isDigit_of_mem_toDigits (by decide) le_rfl hc⟩
  have hwrites := Writes.plain hdigits
  rwa [Nat.ofDigitChars_ten_toDigits, ← Nat.toList_repr] at hwrites

end MacroFamilies.Numeral
