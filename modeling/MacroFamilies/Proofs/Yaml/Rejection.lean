import Mathlib
import MacroFamilies.Proofs.Yaml.Reading
/-!
# Rejected nodes

A node is rejected by a decoder that never gets a value from it, however many aliases may still be
followed. A rejected part takes what it is in along: a mapping is rejected for one of its entries,
and a list for one of its items.
-/

namespace MacroFamilies.Yaml

variable {α β σ : Type}

/-! ## Readings without a result -/

namespace Reading

/-- No value is ever read. -/
def Rejects (reading : Reading α) : Prop := ∀ left, ∃ fault, reading left = .error fault

theorem rejects_bind {x : Reading α} {f : α → Reading β}
    (h : ∀ left a left', x left = .ok (a, left') → ∃ fault, f a left' = .error fault) :
    (x >>= f).Rejects := by
  intro left
  rw [bind_eq]
  cases hx : x left with
  | error fault => exact ⟨fault, rfl⟩
  | ok read => exact h left read.1 read.2 hx

theorem Rejects.bind {x : Reading α} (h : x.Rejects) (f : α → Reading β) : (x >>= f).Rejects :=
  rejects_bind fun left a left' hx => by
    obtain ⟨fault, hfault⟩ := h left
    rw [hfault] at hx
    cases hx

theorem Rejects.map {x : Reading α} (h : x.Rejects) (f : α → β) : (f <$> x).Rejects := by
  rw [map_eq_pure_bind]
  exact h.bind _

theorem Rejects.within {reading : Reading α} (h : reading.Rejects) (s : Site) (mark : Mark) :
    (s.within mark reading).Rejects := by
  intro left
  obtain ⟨fault, hfault⟩ := h left
  exact ⟨_, congrArg _ hfault⟩

end Reading

open Reading

theorem rejects_follow {s : Site} {node : Node} {f : Node → Reading α}
    (h : (f (s.document.resolve node)).Rejects) : (s.follow node >>= f).Rejects :=
  rejects_bind fun _ _ left' hfollow => follow_eq_ok hfollow ▸ h left'

/-! ## Lists -/

namespace Decoder

theorem rejects_items {inner : Decoder α} {s : Site} {item : Node}
    (h : ∀ trail, (inner ⟨s.document, trail⟩ item).Rejects) {nodes : List Node}
    (hitem : item ∈ nodes) (index : Nat) : (items inner s index nodes).Rejects := by
  induction nodes generalizing index with
  | nil => cases hitem
  | cons node rest ih =>
    rw [items]
    rcases List.mem_cons.1 hitem with rfl | hitem
    · exact (h _).bind _
    · exact rejects_bind fun _ _ left' _ => (ih hitem (index + 1)).bind _ left'

theorem rejects_list {inner : Decoder α} {s : Site} {node item : Node} {mark : Mark}
    {nodes : List Node} (hnode : s.document.resolve node = .sequence mark nodes)
    (hitem : item ∈ nodes) (h : ∀ trail, (inner ⟨s.document, trail⟩ item).Rejects) :
    (list inner s node).Rejects := by
  refine rejects_follow ?_
  rw [hnode]
  exact (rejects_items h hitem 0).within s mark

end Decoder

/-! ## Records -/

namespace RecordShape

variable {shape : RecordShape σ} {s : Site} {key value : Node}

/-- An entry is rejected where it is first, whatever was read before and comes behind it. -/
def RejectsEntry (shape : RecordShape σ) (s : Site) (key value : Node) : Prop :=
  ∀ seen record rest, (shape.readEntries s seen record ((key, value) :: rest)).Rejects

theorem rejects_readEntries_cons {rest : List (Node × Node)}
    (hrest : ∀ seen record, (shape.readEntries s seen record rest).Rejects) (seen : List String)
    (record : σ) : (shape.readEntries s seen record ((key, value) :: rest)).Rejects := by
  rw [readEntries]
  refine rejects_bind fun left name left' _ => ?_
  obtain ⟨name, mark⟩ := name
  simp only
  cases shape.field? name with
  | some field =>
    simp only
    split_ifs
    · exact ⟨_, rfl⟩
    · exact rejects_bind (fun _ record left'' _ => hrest _ record left'') left'
  | none =>
    simp only
    split_ifs
    · exact ⟨_, rfl⟩
    · exact hrest seen record left'
    · exact ⟨_, rfl⟩

theorem RejectsEntry.readEntries (h : shape.RejectsEntry s key value) {entries : List (Node × Node)}
    (hentry : (key, value) ∈ entries) (seen : List String) (record : σ) :
    (shape.readEntries s seen record entries).Rejects := by
  induction entries generalizing seen record with
  | nil => cases hentry
  | cons entry rest ih =>
    rcases List.mem_cons.1 hentry with rfl | hentry
    · exact h seen record rest
    · exact rejects_readEntries_cons (ih hentry) seen record

theorem RejectsEntry.decoder (h : shape.RejectsEntry s key value) {node : Node} {mark : Mark}
    {entries : List (Node × Node)} (hnode : s.document.resolve node = .mapping mark entries)
    (hentry : (key, value) ∈ entries) (initial : σ) : (shape.decoder initial s node).Rejects := by
  refine rejects_follow ?_
  rw [hnode]
  exact ((h.readEntries hentry [] initial).bind _).within s mark

theorem field?_eq_none_iff {name : String} :
    shape.field? name = none ↔ ∀ field ∈ shape.fields, field.name ≠ name := by
  simp [field?]

theorem rejectsEntry_of_unknown (hstrict : shape.lenient = false)
    (hunknown : ∀ field ∈ shape.fields, ¬ s.document.Names key field.name) :
    shape.RejectsEntry s key value := by
  intro seen record rest
  rw [readEntries]
  refine rejects_bind fun left name left' hname => ?_
  obtain ⟨name, mark⟩ := name
  have hnone : shape.field? name = none := by
    rw [field?_eq_none_iff]
    rintro field hfield rfl
    exact hunknown field hfield (fieldName_eq_ok hname)
  simp only [hnone, hstrict]
  exact ⟨_, rfl⟩

theorem rejectsEntry_of_value {name : String} {field : Field σ} (hkey : s.document.Names key name)
    (hfield : shape.field? name = some field)
    (h : ∀ trail record, (field.read ⟨s.document, trail⟩ value record).Rejects) :
    shape.RejectsEntry s key value := by
  intro seen record rest
  rw [readEntries]
  refine rejects_bind fun left found left' hname => ?_
  obtain ⟨found, mark⟩ := found
  obtain rfl : name = found := hkey.unique (fieldName_eq_ok hname)
  simp only [hfield]
  split_ifs
  · exact ⟨_, rfl⟩
  · exact (h _ record).bind _ left'

end RecordShape

/-! ## Texts -/

theorem exists_readText_error {decoder : Decoder α} {text : List Char}
    (h : (decoder ⟨.ofText text, []⟩ (Document.ofText text).root).Rejects) :
    ∃ fault, readText decoder text = .error fault := by
  obtain ⟨fault, hfault⟩ := h (Document.ofText text).aliasLimit
  unfold readText
  simp only [hfault]
  cases (Document.ofText text).fault <;> cases fault <;> exact ⟨_, rfl⟩

end MacroFamilies.Yaml
