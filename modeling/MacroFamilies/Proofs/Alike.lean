import MacroFamilies.ArityRange
import MacroFamilies.Proofs.Traversal
/-!
# Attempts that end alike

Two attempts end alike if both fail, and in the same way, or if both succeed, with results in a
given relation. This is kept by putting steps one after another and by going over a list, so what is
said of two runs of a pass follows from what is said of its steps. An attempt that is made for every
arity and ends alike for all of them fails at the first one or nowhere; a larger range then only
adds results.
-/

namespace MacroFamilies

variable {α β γ δ ε : Type}

/-- Both attempts fail in the same way, or both succeed and their results are related. -/
inductive Alike (R : α → β → Prop) : Except ε α → Except ε β → Prop where
  | error (e : ε) : Alike R (.error e) (.error e)
  | ok {a : α} {b : β} (related : R a b) : Alike R (.ok a) (.ok b)

namespace Alike

variable {R : α → β → Prop} {S : γ → δ → Prop} {x : Except ε α} {y : Except ε β}

theorem refl (x : Except ε α) : Alike (· = ·) x x := by
  cases x with
  | error e => exact .error e
  | ok a => exact .ok rfl

theorem imp {R' : α → β → Prop} (h : Alike R x y) (himp : ∀ a b, R a b → R' a b) :
    Alike R' x y := by
  cases h with
  | error e => exact .error e
  | ok related => exact .ok (himp _ _ related)

theorem with_results (h : Alike R x y) :
    Alike (fun a b => x = .ok a ∧ y = .ok b ∧ R a b) x y := by
  cases h with
  | error e => exact .error e
  | ok related => exact .ok ⟨rfl, rfl, related⟩

theorem bind {f : α → Except ε γ} {g : β → Except ε δ} (h : Alike R x y)
    (step : ∀ a b, R a b → Alike S (f a) (g b)) : Alike S (x >>= f) (y >>= g) := by
  cases h with
  | error e => exact .error e
  | ok related => exact step _ _ related

theorem bind_same {f : α → Except ε γ} {g : α → Except ε δ}
    (step : ∀ a, x = .ok a → Alike S (f a) (g a)) : Alike S (x >>= f) (x >>= g) := by
  apply (refl x).with_results.bind
  rintro a b ⟨ha, -, rfl⟩
  exact step a ha

theorem map {f : α → γ} {g : β → δ} (h : Alike R x y) (step : ∀ a b, R a b → S (f a) (g b)) :
    Alike S (x.map f) (y.map g) := by
  cases h with
  | error e => exact .error e
  | ok related => exact .ok (step _ _ related)

theorem error_iff (h : Alike R x y) (e : ε) : x = .error e ↔ y = .error e := by
  cases h with
  | error cause => simp
  | ok related => simp

theorem exists_ok_iff (h : Alike R x y) : (∃ a, x = .ok a) ↔ ∃ b, y = .ok b := by
  cases h with
  | error cause => simp
  | ok related => simp

theorem exists_ok (h : Alike R x y) {a : α} (hx : x = .ok a) : ∃ b, y = .ok b ∧ R a b := by
  cases h with
  | error e => cases hx
  | ok related =>
    cases hx
    exact ⟨_, rfl, related⟩

end Alike

/-! ## Three lists side by side -/

/-- Three lists of one length whose entries are related row by row. -/
inductive Forall₃ (R : α → β → γ → Prop) : List α → List β → List γ → Prop where
  | nil : Forall₃ R [] [] []
  | cons {a : α} {b : β} {c : γ} {as : List α} {bs : List β} {cs : List γ} (head : R a b c)
      (tail : Forall₃ R as bs cs) : Forall₃ R (a :: as) (b :: bs) (c :: cs)

namespace Forall₃

variable {R : α → β → γ → Prop} {as : List α} {bs : List β} {cs : List γ}

theorem forall₂ {S : β → γ → Prop} (h : Forall₃ R as bs cs) (himp : ∀ a b c, R a b c → S b c) :
    List.Forall₂ S bs cs := by
  induction h with
  | nil => exact .nil
  | cons head tail ih => exact .cons (himp _ _ _ head) ih

theorem forall_left {P : α → Prop} (h : Forall₃ R as bs cs) (himp : ∀ a b c, R a b c → P a) :
    ∀ a ∈ as, P a := by
  induction h with
  | nil => simp
  | cons head tail ih => exact List.forall_mem_cons.2 ⟨himp _ _ _ head, ih⟩

end Forall₃

/-- Blocks that are continued one by one make a list that is kept in order. -/
theorem flatten_sublist_of_prefixes {blocks longer : List (List α)}
    (h : List.Forall₂ (· <+: ·) blocks longer) : blocks.flatten.Sublist longer.flatten := by
  induction h with
  | nil => exact List.Sublist.refl _
  | cons hblocks _ ih =>
    rw [List.flatten_cons, List.flatten_cons]
    exact hblocks.sublist.append ih

namespace Alike

variable {R : α → β → γ → Prop} {f : α → Except ε β} {g : α → Except ε γ} {as : List α}

theorem mapM (h : ∀ a ∈ as, Alike (R a) (f a) (g a)) :
    Alike (Forall₃ R as) (as.mapM f) (as.mapM g) := by
  induction as with
  | nil => exact .ok .nil
  | cons a as ih =>
    rw [List.mapM_cons, List.mapM_cons]
    apply (h a (by simp)).bind
    intro b c head
    apply (ih fun other hother => h other (List.mem_cons_of_mem a hother)).bind
    intro bs cs tail
    exact .ok (.cons head tail)

end Alike

/-! ## Attempts for every argument -/

/-- An attempt that fails for all arguments, and in the same way, or succeeds for all of them. -/
def Uniform (f : α → Except ε β) : Prop := ∀ a b, Alike (fun _ _ => True) (f a) (f b)

namespace Uniform

variable {f : α → Except ε β}

theorem dichotomy (h : Uniform f) (a : α) :
    (∃ e, ∀ b, f b = .error e) ∨ ∃ g : α → β, ∀ b, f b = .ok (g b) := by
  cases ha : f a with
  | error e => exact .inl ⟨e, fun b => ((h a b).error_iff e).1 ha⟩
  | ok result =>
    right
    have hall : ∀ b, ∃ value, f b = .ok value := by
      intro b
      obtain ⟨value, hvalue, -⟩ := (h a b).exists_ok ha
      exact ⟨value, hvalue⟩
    choose g hg using hall
    exact ⟨g, hg⟩

theorem mapM_eq_error {e : ε} (h : ∀ b, f b = .error e) {as : List α} (hne : as ≠ []) :
    as.mapM f = .error e := by
  obtain ⟨a, rest, rfl⟩ := List.exists_cons_of_ne_nil hne
  rw [List.mapM_cons, h a]
  rfl

/-- Going over two lists that are not empty ends alike: what relates the lists under every map
relates the results. -/
theorem alike_mapM (h : Uniform f) {as bs : List α} (has : as ≠ []) (hbs : bs ≠ [])
    {S : List β → List β → Prop} (hmap : ∀ g : α → β, S (as.map g) (bs.map g)) :
    Alike S (as.mapM f) (bs.mapM f) := by
  -- if the attempt fails at all then it does so at the first entry, which both lists have
  rcases h.dichotomy (as.head has) with ⟨e, he⟩ | ⟨g, hg⟩
  · rw [mapM_eq_error he has, mapM_eq_error he hbs]
    exact .error e
  · rw [Traversal.mapM_eq_ok_map fun a _ => hg a, Traversal.mapM_eq_ok_map fun b _ => hg b]
    exact .ok (hmap g)

end Uniform

/-! ## Larger ranges -/

namespace ArityRange

variable {N M : Nat}

theorem ascending_ne_nil (range : ArityRange) : range.ascending ≠ [] := by
  simp [ascending, size]

theorem descending_ne_nil (range : ArityRange) : range.descending ≠ [] := by
  simpa [descending] using range.ascending_ne_nil

/-- A larger range goes on where the smaller one ends. -/
theorem ascending_prefix_of_le (h : N ≤ M) : (mk N).ascending <+: (mk M).ascending := by
  have htake : (mk N).ascending = (mk M).ascending.take (N + 1) := by
    unfold ascending size
    rw [List.take_range, Nat.min_eq_left (Nat.succ_le_succ h)]
  rw [htake]
  exact List.take_prefix _ _

theorem descending_suffix_of_le (h : N ≤ M) : (mk N).descending <:+ (mk M).descending :=
  List.reverse_suffix.2 (ascending_prefix_of_le h)

end ArityRange

namespace Uniform

variable {f : Nat → Except ε β} {N M : Nat}

theorem alike_ascending (h : Uniform f) (hle : N ≤ M) :
    Alike (· <+: ·) ((ArityRange.mk N).ascending.mapM f) ((ArityRange.mk M).ascending.mapM f) :=
  h.alike_mapM (ArityRange.ascending_ne_nil _) (ArityRange.ascending_ne_nil _)
    fun g => (ArityRange.ascending_prefix_of_le hle).map g

theorem alike_descending (h : Uniform f) (hle : N ≤ M) :
    Alike (· <:+ ·) ((ArityRange.mk N).descending.mapM f) ((ArityRange.mk M).descending.mapM f) :=
  h.alike_mapM (ArityRange.descending_ne_nil _) (ArityRange.descending_ne_nil _)
    fun g => (ArityRange.descending_suffix_of_le hle).map g

end Uniform

end MacroFamilies
