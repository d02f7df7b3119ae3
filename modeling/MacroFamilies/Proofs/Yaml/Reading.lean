import Mathlib
import MacroFamilies.Yaml.Decode
/-!
# Nodes that are read

A decoder looks at what a node stands for: an alias stands for the node in its slot, at the cost of
one more alias followed, and any other node for itself.
-/

namespace MacroFamilies.Yaml

variable {α β : Type}

namespace Document

variable {d : Document} {key : Node} {name other : String}

def resolve (d : Document) : Node → Node
  | .alias _ slot => d.target slot
  | node => node

/-- A key stands for a scalar of this text. -/
def Names (d : Document) (key : Node) (name : String) : Prop :=
  ∃ mark style tag, d.resolve key = .scalar mark style tag name

theorem Names.unique (h : d.Names key name) (hother : d.Names key other) : name = other := by
  obtain ⟨mark, style, tag, hname⟩ := h
  obtain ⟨mark', style', tag', hother⟩ := hother
  rw [hname, Node.scalar.injEq] at hother
  exact hother.2.2.2

theorem names_scalar_iff {mark : Mark} {style : ScalarStyle} {tag : Option String} {text : String} :
    d.Names (.scalar mark style tag text) name ↔ text = name := by
  simp [Names, resolve]

end Document

theorem Reading.bind_eq (x : Reading α) (f : α → Reading β) (left : Nat) :
    (x >>= f) left = (x left).bind fun a => f a.1 a.2 := rfl

theorem follow_eq_ok {s : Site} {node target : Node} {left left' : Nat}
    (h : s.follow node left = .ok (target, left')) : target = s.document.resolve node := by
  unfold Site.follow at h
  split at h
  · cases left with
    | zero => cases h
    | succ left =>
      cases h
      rfl
  · rename_i hnode
    cases h
    unfold Document.resolve
    split
    · exact absurd rfl (hnode _ _)
    · rfl

theorem fieldName_eq_ok {s : Site} {key : Node} {name : String} {mark : Mark} {left left' : Nat}
    (h : RecordShape.fieldName s key left = .ok ((name, mark), left')) :
    s.document.Names key name := by
  rw [RecordShape.fieldName, Reading.bind_eq] at h
  cases hfollow : s.follow key left with
  | error fault =>
    rw [hfollow] at h
    cases h
  | ok followed =>
    obtain ⟨target, left''⟩ := followed
    have htarget := follow_eq_ok hfollow
    rw [hfollow] at h
    cases target with
    | scalar mark' style tag text =>
      cases h
      exact ⟨mark, style, tag, htarget.symm⟩
    | _ => cases h

end MacroFamilies.Yaml
