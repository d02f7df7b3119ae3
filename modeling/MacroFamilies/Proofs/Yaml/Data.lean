import MacroFamilies.Proofs.Traversal
import MacroFamilies.Proofs.Yaml.Reading
/-!
# What nodes hold

A node holds data: a scalar, a sequence or a mapping, without marks and without aliases. The order
in which a mapping is written is no part of the data, so mappings hold their entries in any order.
`Data.text?` and the functions after it say what data stand for; a decoder reads the value that the
data of a node stand for as long as all aliases on the way may be followed.
-/

namespace MacroFamilies.Yaml

variable {α β : Type}

inductive Data where
  | scalar (style : ScalarStyle) (tag : Option String) (text : String)
  | sequence (items : List Data)
  | mapping (entries : List (String × Data))

namespace Data

/-! ## What data stand for -/

def scalar? (read : ScalarStyle → Option String → String → Option α) : Data → Option α
  | .scalar style tag text => read style tag text
  | _ => none

def text? : Data → Option String := scalar? fun _ _ text => some text

def boolean? : Data → Option Bool := scalar? fun style tag text =>
  if Scalar.mayBe "bool" style tag then Scalar.boolean? text else none

def natural? : Data → Option Nat := scalar? fun style tag text =>
  if Scalar.mayBe "int" style tag then
    (Scalar.unsigned? text.toList).filter (Numeral.fitsUnsigned 64)
  else none

/-- A plain scalar that is empty or a word for nothing. A tag may ask for the word. -/
def isNull : Data → Bool
  | .scalar .plain none text => text = "" ∨ Scalar.isNull text
  | .scalar .plain (some tag) text => tag = Scalar.coreTag "null" ∧ Scalar.isNull text
  | _ => false

def mustBeNull : Data → Bool
  | .scalar .plain (some tag) _ => tag = Scalar.coreTag "null"
  | _ => false

def optional? (read : Data → Option α) (data : Data) : Option (Option α) :=
  if data.isNull then some none
  else if data.mustBeNull then none
  else (read data).map some

def list? (read : Data → Option α) : Data → Option (List α)
  | .sequence items => items.mapM read
  | _ => none

end Data

/-! ## The data of a document -/

def Node.detour : Node → Nat
  | .alias .. => 1
  | _ => 0

mutual

/-- A node of a document holds data; to read all of it, so many aliases are followed. -/
inductive Holds (d : Document) : Node → Data → Nat → Prop
  | scalar {node : Node} {mark : Mark} {style : ScalarStyle} {tag : Option String} {text : String}
      (resolves : d.resolve node = .scalar mark style tag text) :
      Holds d node (.scalar style tag text) node.detour
  | sequence {node : Node} {mark : Mark} {nodes : List Node} {items : List Data} {aliases : Nat}
      (resolves : d.resolve node = .sequence mark nodes) (hold : HoldItems d nodes items aliases) :
      Holds d node (.sequence items) (node.detour + aliases)
  | mapping {node : Node} {mark : Mark} {nodes : List (Node × Node)}
      {written entries : List (String × Data)} {aliases : Nat}
      (resolves : d.resolve node = .mapping mark nodes)
      (hold : HoldEntries d nodes written aliases) (order : written.Perm entries) :
      Holds d node (.mapping entries) (node.detour + aliases)

inductive HoldItems (d : Document) : List Node → List Data → Nat → Prop
  | nil : HoldItems d [] [] 0
  | cons {node : Node} {item : Data} {aliases : Nat} {nodes : List Node} {items : List Data}
      {others : Nat} (head : Holds d node item aliases) (tail : HoldItems d nodes items others) :
      HoldItems d (node :: nodes) (item :: items) (aliases + others)

inductive HoldEntries (d : Document) : List (Node × Node) → List (String × Data) → Nat → Prop
  | nil : HoldEntries d [] [] 0
  | cons {key value : Node} {name : String} {data : Data} {aliases : Nat}
      {nodes : List (Node × Node)} {entries : List (String × Data)} {others : Nat}
      (names : d.Names key name) (head : Holds d value data aliases)
      (tail : HoldEntries d nodes entries others) :
      HoldEntries d ((key, value) :: nodes) ((name, data) :: entries)
        (key.detour + aliases + others)

end

variable {s : Site} {node : Node} {data : Data} {aliases left : Nat}

theorem follow_detour (s : Site) (node : Node) (left : Nat) :
    s.follow node (left + node.detour) = .ok (s.document.resolve node, left) := by
  cases node <;> rfl

theorem Holds.resolved {d : Document} (h : Holds d node data aliases) :
    ∃ others, aliases = node.detour + others ∧ Holds d (d.resolve node) data others := by
  cases h with
  | scalar resolves =>
    refine ⟨0, rfl, ?_⟩
    rw [resolves]
    exact .scalar rfl
  | @sequence _ mark nodes _ _ resolves hold =>
    have hplain : Holds d (.sequence mark nodes) _ (0 + _) := .sequence rfl hold
    rw [Nat.zero_add] at hplain
    exact ⟨_, rfl, resolves ▸ hplain⟩
  | @mapping _ mark nodes _ _ _ resolves hold order =>
    have hplain : Holds d (.mapping mark nodes) _ (0 + _) := .mapping rfl hold order
    rw [Nat.zero_add] at hplain
    exact ⟨_, rfl, resolves ▸ hplain⟩

theorem follow_bind {f : Node → Reading α} {others : Nat} (h : aliases = node.detour + others)
    (left : Nat) : (s.follow node >>= f) (left + aliases) =
      f (s.document.resolve node) (left + others) := by
  rw [Reading.bind_eq, h, Nat.add_comm node.detour, ← Nat.add_assoc, follow_detour]
  rfl

theorem Reading.bind_eq_of_ok {x : Reading α} {f : α → Reading β} {a : α} {before : Nat}
    (h : x before = .ok (a, left)) : (x >>= f) before = f a left := by
  rw [Reading.bind_eq, h]
  rfl

theorem Reading.map_eq_of_ok {x : Reading α} {a : α} {before : Nat}
    (h : x before = .ok (a, left)) (f : α → β) : (f <$> x) before = .ok (f a, left) := by
  rw [map_eq_pure_bind, bind_eq_of_ok h]
  rfl

/-! ## Decoders -/

/-- A decoder reads what the data of a node stand for and follows the aliases that lead to them. -/
def Decoder.Reads (decoder : Decoder α) (read : Data → Option α) : Prop :=
  ∀ {s : Site} {node : Node} {data : Data} {aliases : Nat} {a : α},
    Holds s.document node data aliases → read data = some a →
      ∀ left, decoder s node (left + aliases) = .ok (a, left)

namespace Decoder

theorem reads_scalar (expected : String)
    (f : ScalarStyle → Option String → String → Option α) :
    (scalar expected f).Reads (Data.scalar? f) := by
  intro s node data aliases a hholds hread left
  obtain ⟨others, haliases, hresolved⟩ := hholds.resolved
  rw [scalar, follow_bind haliases]
  cases hholds with
  | scalar resolves =>
    have hf : f _ _ _ = some a := hread
    obtain rfl : others = 0 := by omega
    simp only [resolves, hf]
    rfl
  | sequence | mapping => cases hread

theorem reads_optional {inner : Decoder α} {read : Data → Option α} (h : inner.Reads read) :
    (optional inner).Reads (Data.optional? read) := by
  intro s node data aliases a hholds hread left
  obtain ⟨others, haliases, hresolved⟩ := hholds.resolved
  rw [optional, follow_bind haliases]
  have hinner (hgiven : (read data).map some = some a) :
      (some <$> inner s (s.document.resolve node)) (left + others) = .ok (a, left) := by
    obtain ⟨value, hvalue, rfl⟩ := Option.map_eq_some_iff.1 hgiven
    exact Reading.map_eq_of_ok (h hresolved hvalue left) some
  unfold Data.optional? at hread
  cases hholds with
  | @scalar _ mark style tag text resolves =>
    obtain rfl : others = 0 := by omega
    simp only [resolves] at hinner ⊢
    cases style with
    | plain =>
      cases tag with
      | none =>
        simp only [Data.isNull, Data.mustBeNull, Bool.false_eq_true, if_false,
          decide_eq_true_eq] at hread ⊢
        split_ifs at hread ⊢
        · cases hread
          rfl
        · exact hinner hread
      | some tag =>
        simp only [Data.isNull, Data.mustBeNull, decide_eq_true_eq] at hread ⊢
        by_cases htag : tag = Scalar.coreTag "null"
        · by_cases hnull : Scalar.isNull text = true
          · simp only [htag, hnull, and_self, if_true, Option.some.injEq] at hread ⊢
            cases hread
            rfl
          · simp [htag, hnull] at hread
        · simp only [htag, false_and, if_false] at hread ⊢
          exact hinner hread
    | _ => exact hinner hread
  | sequence resolves hold | mapping resolves hold order =>
    simp only [resolves] at hinner ⊢
    exact hinner hread

theorem reads_items {inner : Decoder α} {read : Data → Option α} (h : inner.Reads read)
    {nodes : List Node} {items : List Data} (hold : HoldItems s.document nodes items aliases)
    {values : List α} (hread : items.mapM read = some values) (index left : Nat) :
    Decoder.items inner s index nodes (left + aliases) = .ok (values, left) := by
  induction nodes generalizing items aliases values index with
  | nil =>
    cases hold
    cases hread
    rfl
  | cons node nodes ih =>
    cases hold with
    | @cons _ item aliases _ items others head tail =>
      rw [List.mapM_cons] at hread
      obtain ⟨value, hvalue, hread⟩ := Option.bind_eq_some_iff.1 hread
      obtain ⟨values', hvalues, hread⟩ := Option.bind_eq_some_iff.1 hread
      cases hread
      have hhead := h (s := s.enter (.item index)) head hvalue (left + others)
      rw [Decoder.items, Nat.add_comm aliases, ← Nat.add_assoc, Reading.bind_eq_of_ok hhead,
        Reading.bind_eq_of_ok (ih tail hvalues _)]
      rfl

theorem reads_list {inner : Decoder α} {read : Data → Option α} (h : inner.Reads read) :
    (list inner).Reads (Data.list? read) := by
  intro s node data aliases values hholds hread left
  obtain ⟨others, haliases, hresolved⟩ := hholds.resolved
  rw [list, follow_bind haliases]
  cases hholds with
  | sequence resolves hold =>
    obtain rfl : others = _ := Nat.add_left_cancel haliases.symm
    have hitems := reads_items h hold hread 0 left
    simp only [resolves]
    rw [Site.within, hitems]
    rfl
  | scalar | mapping => cases hread

end Decoder

/-! ## Texts -/

/-- A document that is not broken off and that nothing follows. -/
structure Document.IsSingle (d : Document) : Prop where
  fault_eq : d.fault = none
  continued_eq : d.continued = false

/-- What the data of a document stand for is read from the text. -/
theorem readText_eq_ok {decoder : Decoder α} {read : Data → Option α} (h : decoder.Reads read)
    {text : List Char} (hsingle : (Document.ofText text).IsSingle)
    (hholds : Holds (.ofText text) (Document.ofText text).root data aliases)
    (hlimit : aliases ≤ (Document.ofText text).aliasLimit) {a : α} (hread : read data = some a) :
    readText decoder text = .ok a := by
  have hdecoder := h (s := ⟨.ofText text, []⟩) hholds hread
    ((Document.ofText text).aliasLimit - aliases)
  rw [Nat.sub_add_cancel hlimit] at hdecoder
  simp [readText, hdecoder, hsingle.fault_eq, hsingle.continued_eq]

end MacroFamilies.Yaml
