import Mathlib
/-!
# Traversals and blocks

A pass goes over a list, may fail at any element, and often yields a block of fixed size for each of
them. `mapM_eq_ok_iff` turns a successful traversal into a relation between the two lists, and the
block lemmas find an entry of the result by the number of its block and its place there.
-/

namespace MacroFamilies.Traversal

variable {α β γ ε : Type}

theorem bind_eq_ok_iff {x : Except ε α} {f : α → Except ε β} {b : β} :
    (x >>= f) = .ok b ↔ ∃ a, x = .ok a ∧ f a = .ok b := by
  cases x <;> simp [bind, Except.bind]

theorem map_eq_ok_iff {x : Except ε α} {f : α → β} {b : β} :
    x.map f = .ok b ↔ ∃ a, x = .ok a ∧ f a = b := by
  cases x <;> simp [Except.map]

theorem map_map (x : Except ε α) (f : α → β) (g : β → γ) :
    (x.map f).map g = x.map fun a => g (f a) := by
  cases x <;> rfl

theorem mapError_map {ε' : Type} (x : Except ε α) (f : α → β) (g : ε → ε') :
    (x.mapError g).map f = (x.map f).mapError g := by
  cases x <;> rfl

theorem mapM_eq_ok_iff {f : α → Except ε β} {xs : List α} {ys : List β} :
    xs.mapM f = .ok ys ↔ List.Forall₂ (fun x y => f x = .ok y) xs ys := by
  induction xs generalizing ys with
  | nil => cases ys <;> simp [pure, Except.pure]
  | cons x xs ih =>
    rw [List.mapM_cons]
    cases hx : f x with
    | error e => cases ys <;> simp [bind, Except.bind, hx]
    | ok y =>
      cases hxs : xs.mapM f with
      | error e => cases ys <;> simp [bind, Except.bind, hx, hxs, ← ih]
      | ok rest => cases ys <;> simp [bind, Except.bind, pure, Except.pure, hx, hxs, ← ih]

theorem mapM_eq_ok_map {f : α → Except ε β} {g : α → β} {xs : List α}
    (h : ∀ x ∈ xs, f x = .ok (g x)) : xs.mapM f = .ok (xs.map g) := by
  rw [mapM_eq_ok_iff, List.forall₂_map_right_iff, List.forall₂_same]
  exact h

theorem exists_ok {x : Except ε α} (h : ∀ e, x ≠ .error e) : ∃ a, x = .ok a := by
  cases x with
  | error e => exact absurd rfl (h e)
  | ok a => exact ⟨a, rfl⟩

theorem exists_mapM_iff {f : α → Except ε β} {xs : List α} :
    (∃ ys, xs.mapM f = .ok ys) ↔ ∀ x ∈ xs, ∃ y, f x = .ok y := by
  induction xs with
  | nil => simp [pure, Except.pure]
  | cons x xs ih =>
    rw [List.forall_mem_cons, ← ih, List.mapM_cons]
    simp only [bind_eq_ok_iff]
    constructor
    · rintro ⟨ys, y, hy, rest, hrest, -⟩
      exact ⟨⟨y, hy⟩, rest, hrest⟩
    · rintro ⟨⟨y, hy⟩, rest, hrest⟩
      exact ⟨y :: rest, y, hy, rest, hrest, rfl⟩

theorem map_eq_of_mapM_eq_ok {f : α → Except ε β} {g : β → γ} {k : α → γ} {xs : List α}
    {ys : List β} (h : xs.mapM f = .ok ys) (step : ∀ x y, f x = .ok y → g y = k x) :
    ys.map g = xs.map k := by
  rw [mapM_eq_ok_iff] at h
  induction h with
  | nil => rfl
  | cons hxy _ ih => rw [List.map_cons, List.map_cons, step _ _ hxy, ih]

section Related

variable {R : γ → α → Prop} {P : γ → β → Prop} {f : α → Except ε β} {zs : List γ} {xs : List α}

theorem exists_mapM_of_forall₂ (hxs : List.Forall₂ R zs xs)
    (step : ∀ z x, R z x → ∃ y, f x = .ok y ∧ P z y) :
    ∃ ys, xs.mapM f = .ok ys ∧ List.Forall₂ P zs ys := by
  induction hxs with
  | nil => exact ⟨[], rfl, .nil⟩
  | @cons z x zs xs hzx hxs ih =>
    obtain ⟨y, hy, hP⟩ := step z x hzx
    obtain ⟨ys, hys, hPs⟩ := ih
    refine ⟨y :: ys, mapM_eq_ok_iff.2 ?_, .cons hP hPs⟩
    exact .cons hy (mapM_eq_ok_iff.1 hys)

theorem mapM_eq_ok_map_of_forall₂ {g : γ → β} (hxs : List.Forall₂ R zs xs)
    (step : ∀ z x, R z x → f x = .ok (g z)) : xs.mapM f = .ok (zs.map g) := by
  rw [mapM_eq_ok_iff, List.forall₂_map_right_iff]
  exact hxs.flip.imp fun x z h => step z x h

end Related

theorem exists_getElem?_of_forall₂ {P : γ → β → Prop} {zs : List γ} {ys : List β}
    (h : List.Forall₂ P zs ys) {i : Nat} {z : γ} (hz : zs[i]? = some z) :
    ∃ y, ys[i]? = some y ∧ P z y := by
  induction h generalizing i with
  | nil => simp at hz
  | @cons w y zs ys hwy hzs ih =>
    cases i with
    | zero =>
      simp only [List.getElem?_cons_zero, Option.some.injEq] at hz
      exact ⟨y, by simp, hz ▸ hwy⟩
    | succ i => simpa using ih (by simpa using hz)

theorem forall₂_of_zip {R : α → β → Prop} {P : α × β → γ → Prop} {xs : List α} {ys : List β}
    {zs : List γ} (hxs : List.Forall₂ R xs ys)
    (hzip : List.Forall₂ P (xs.zip ys) zs) :
    List.Forall₂ (fun x z => ∃ y, R x y ∧ P (x, y) z) xs zs := by
  induction hxs generalizing zs with
  | nil =>
    cases hzip
    exact .nil
  | @cons x y xs ys hxy _ ih =>
    cases hzip with
    | cons hz hzs => exact .cons ⟨y, hxy, hz⟩ (ih hzs)

/-! ## Blocks of one size -/

theorem length_flatten_of_length {blocks : List (List α)} {size : Nat}
    (h : ∀ b ∈ blocks, b.length = size) : blocks.flatten.length = blocks.length * size := by
  rw [List.length_flatten, List.map_congr_left h]
  simp

theorem getElem?_flatten_of_length {blocks : List (List α)} {size i j : Nat}
    (h : ∀ b ∈ blocks, b.length = size) (hj : j < size) :
    blocks.flatten[i * size + j]? = blocks[i]?.bind (·[j]?) := by
  induction blocks generalizing i with
  | nil => simp
  | cons b blocks ih =>
    have hb : b.length = size := h b (by simp)
    rw [List.flatten_cons]
    cases i with
    | zero => simp [List.getElem?_append_left (by omega : j < b.length)]
    | succ i =>
      have hle : b.length ≤ (i + 1) * size + j := by
        rw [hb, Nat.succ_mul]
        omega
      rw [List.getElem?_append_right hle, hb,
        show (i + 1) * size + j - size = i * size + j by rw [Nat.succ_mul]; omega,
        ih fun c hc => h c (by simp [hc])]
      simp

theorem length_flatMap_of_length {g : β → List α} {xs : List β} {size : Nat}
    (h : ∀ x ∈ xs, (g x).length = size) : (xs.flatMap g).length = xs.length * size := by
  rw [List.flatMap_def, length_flatten_of_length (by simpa using h), List.length_map]

theorem getElem?_flatMap_of_length {g : β → List α} {xs : List β} {size i j : Nat}
    (h : ∀ x ∈ xs, (g x).length = size) (hj : j < size) :
    (xs.flatMap g)[i * size + j]? = xs[i]?.bind fun x => (g x)[j]? := by
  rw [List.flatMap_def, getElem?_flatten_of_length (by simpa using h) hj, List.getElem?_map]
  cases xs[i]? <;> rfl

section Blocks

variable {P : γ → List β → Prop} {zs : List γ} {blocks : List (List β)} {size : Nat}

private theorem length_of_mem_blocks (h : List.Forall₂ P zs blocks)
    (hsize : ∀ z b, P z b → b.length = size) : ∀ b ∈ blocks, b.length = size := by
  intro b hb
  obtain ⟨i, hi⟩ := List.mem_iff_getElem?.1 hb
  obtain ⟨z, -, hz⟩ := exists_getElem?_of_forall₂ h.flip hi
  exact hsize z b hz

theorem length_flatten_of_forall₂ (h : List.Forall₂ P zs blocks)
    (hsize : ∀ z b, P z b → b.length = size) : blocks.flatten.length = zs.length * size := by
  rw [length_flatten_of_length (length_of_mem_blocks h hsize), h.length_eq]

theorem exists_getElem?_flatten (h : List.Forall₂ P zs blocks)
    (hsize : ∀ z b, P z b → b.length = size) {i : Nat} {z : γ} (hz : zs[i]? = some z) :
    ∃ b, P z b ∧ ∀ j < size, blocks.flatten[i * size + j]? = b[j]? := by
  obtain ⟨b, hb, hP⟩ := exists_getElem?_of_forall₂ h hz
  refine ⟨b, hP, fun j hj => ?_⟩
  rw [getElem?_flatten_of_length (length_of_mem_blocks h hsize) hj, hb]
  rfl

end Blocks

end MacroFamilies.Traversal
