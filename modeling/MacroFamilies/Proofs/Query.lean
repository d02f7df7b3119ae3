import MacroFamilies.Query
import Mathlib
/-!
# Answered inquiries

An inquiry that is put together from others is answered exactly when they are, one after another.
The paths that a query asks for are those that its parts ask for, up to the first one that fails.
-/

namespace MacroFamilies

variable {α β γ : Type} {fs : FileSystem}

namespace Query

theorem bind_assoc (q : Query α) (f : α → Query β) (g : β → Query γ) :
    (q.bind f).bind g = q.bind fun a => (f a).bind g := by
  induction q with
  | done answer => rfl
  | readText path next ih => exact congrArg (readText path) (funext ih)
  | listFiles path next ih => exact congrArg (listFiles path) (funext ih)

theorem bind_done (q : Query α) : q.bind done = q := by
  induction q with
  | done answer => rfl
  | readText path next ih => exact congrArg (readText path) (funext ih)
  | listFiles path next ih => exact congrArg (listFiles path) (funext ih)

instance : LawfulMonad Query := LawfulMonad.mk' Query bind_done (fun _ _ => rfl) bind_assoc

/-- The paths of the files whose texts a query asks for. -/
def reads (fs : FileSystem) : Query α → List String
  | done _ => []
  | readText path next => path :: (next (fs.readText path)).reads fs
  | listFiles path next => (next (fs.listFiles path)).reads fs

theorem reads_bind (q : Query α) (f : α → Query β) :
    (q >>= f).reads fs = q.reads fs ++ (f (q.run fs)).reads fs := by
  show (q.bind f).reads fs = _
  induction q with
  | done answer => rfl
  | readText path next ih => exact congrArg (path :: ·) (ih _)
  | listFiles path next ih => exact ih _

end Query

namespace Inquiry

@[simp]
theorem answer_lift (q : Query α) : answer fs (ExceptT.lift q) = .ok (q.run fs) := by
  show Query.run fs (q >>= fun a => (pure (Except.ok a) : Query (Except Diagnostic α))) = _
  rw [Query.run_bind]
  rfl

theorem answer_bind_eq_ok_iff {x : Inquiry α} {f : α → Inquiry β} {b : β} :
    answer fs (x >>= f) = .ok b ↔ ∃ a, answer fs x = .ok a ∧ answer fs (f a) = .ok b := by
  rw [answer_bind]
  cases answer fs x <;> simp [Except.bind]

theorem answer_mapM_eq_ok_iff {f : α → Inquiry β} {xs : List α} {ys : List β} :
    answer fs (xs.mapM f) = .ok ys ↔ List.Forall₂ (fun x y => answer fs (f x) = .ok y) xs ys := by
  induction xs generalizing ys with
  | nil => simp [eq_comm]
  | cons x xs ih =>
    simp only [List.mapM_cons, answer_bind_eq_ok_iff, answer_pure, Except.ok.injEq, ih,
      List.forall₂_cons_left_iff]
    constructor
    · rintro ⟨y, hy, ys', hys, rfl⟩
      exact ⟨y, ys', hy, hys, rfl⟩
    · rintro ⟨y, ys', hy, hys, rfl⟩
      exact ⟨y, hy, ys', hys, rfl⟩

theorem answer_mapM_congr {fs' : FileSystem} {f : α → Inquiry β} {xs : List α}
    (h : ∀ x ∈ xs, answer fs (f x) = answer fs' (f x)) :
    answer fs (xs.mapM f) = answer fs' (xs.mapM f) := by
  induction xs with
  | nil => rfl
  | cons x xs ih =>
    obtain ⟨hx, hxs⟩ := List.forall_mem_cons.1 h
    simp only [List.mapM_cons, answer_bind, hx, ih hxs, answer_pure]

def reads (fs : FileSystem) (x : Inquiry α) : List String := Query.reads fs x.run

@[simp]
theorem reads_pure (a : α) : reads fs (pure a : Inquiry α) = [] := rfl

@[simp]
theorem reads_ofExcept (result : Except Diagnostic α) : reads fs (ofExcept result) = [] := rfl

@[simp]
theorem reads_readText (path : String) : reads fs (readText path) = [path] := rfl

theorem reads_bind {x : Inquiry α} {a : α} (h : answer fs x = .ok a) (f : α → Inquiry β) :
    reads fs (x >>= f) = reads fs x ++ reads fs (f a) := by
  show Query.reads fs (ExceptT.run x >>= ExceptT.bindCont f) = _
  rw [Query.reads_bind, show Query.run fs (ExceptT.run x) = .ok a from h]
  rfl

theorem reads_mapM {f : α → Inquiry β} {path : α → String} {xs : List α} {ys : List β}
    (h : List.Forall₂ (fun x y => answer fs (f x) = .ok y) xs ys)
    (hreads : ∀ x y, answer fs (f x) = .ok y → reads fs (f x) = [path x]) :
    reads fs (xs.mapM f) = xs.map path := by
  induction h with
  | nil => rfl
  | @cons x y xs ys hy hys ih =>
    rw [List.mapM_cons, reads_bind hy, reads_bind (answer_mapM_eq_ok_iff.2 hys), ih, hreads x y hy]
    simp

end Inquiry

end MacroFamilies
