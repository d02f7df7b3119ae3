import Mathlib
import MacroFamilies.Proofs.Yaml.Data
/-!
# Records laid over defaults

A mapping is laid over a record: each field that it gives is what its entry stands for, and each
other field stays as it is. A record shape whose fields keep out of each other's way reads just this
from a mapping, in whatever order the mapping is written.
-/

namespace MacroFamilies.Yaml

variable {α σ : Type}

/-! ## Entries -/

namespace Data

def given (entries : List (String × Data)) (name : String) (read : Data → Option α)
    (default : α) : Option α :=
  match entries.lookup name with
  | some data => read data
  | none => some default

def required (entries : List (String × Data)) (name : String) (read : Data → Option α) : Option α :=
  (entries.lookup name).bind read

/-- Every key is a known one, and none is repeated. -/
def KeysAmong (known : List String) (entries : List (String × Data)) : Prop :=
  (entries.map (·.1)).Nodup ∧ ∀ key ∈ entries.map (·.1), key ∈ known

instance (known : List String) (entries : List (String × Data)) :
    Decidable (KeysAmong known entries) :=
  inferInstanceAs (Decidable (_ ∧ _))

def record? (read : List (String × Data) → Option σ) : Data → Option σ
  | .mapping entries => read entries
  | _ => none

variable {entries written : List (String × Data)} {known : List String} {name : String}

theorem KeysAmong.perm (h : KeysAmong known entries) (order : written.Perm entries) :
    KeysAmong known written := by
  have hkeys : (written.map (·.1)).Perm (entries.map (·.1)) := order.map _
  exact ⟨hkeys.nodup_iff.2 h.1, fun key hkey => h.2 key (hkeys.mem_iff.1 hkey)⟩

theorem lookup_eq_some_iff_mem (h : (entries.map (·.1)).Nodup) {data : Data} :
    entries.lookup name = some data ↔ (name, data) ∈ entries := by
  induction entries with
  | nil => simp
  | cons entry rest ih =>
    obtain ⟨key, value⟩ := entry
    obtain ⟨hkey, hrest⟩ := List.nodup_cons.1 h
    by_cases hname : name = key
    · subst hname
      have hout : (name, data) ∉ rest :=
        fun hmem => hkey (List.mem_map_of_mem (f := fun entry => entry.1) hmem)
      simp [hout, eq_comm]
    · rw [List.lookup_cons, beq_false_of_ne hname, ih hrest]
      simp [hname]

theorem lookup_eq_none_iff_notMem :
    entries.lookup name = none ↔ name ∉ entries.map (·.1) := by
  rw [List.lookup_eq_none_iff, List.mem_map]
  constructor
  · rintro h ⟨entry, hentry, rfl⟩
    simpa using h entry hentry
  · intro h entry hentry
    have hne : name ≠ entry.1 := fun heq => h ⟨entry, hentry, heq.symm⟩
    simpa using hne

theorem mem_of_required {read : Data → Option α} {a : α} (h : required entries name read = some a) :
    name ∈ entries.map (·.1) := by
  obtain ⟨data, hlookup, -⟩ := Option.bind_eq_some_iff.1 h
  by_contra hout
  rw [lookup_eq_none_iff_notMem.2 hout] at hlookup
  cases hlookup

/-- The order of entries with different keys does not matter to what is found. -/
theorem lookup_perm (h : (entries.map (·.1)).Nodup) (order : written.Perm entries)
    (name : String) : written.lookup name = entries.lookup name := by
  refine Option.ext fun data => ?_
  rw [lookup_eq_some_iff_mem h, lookup_eq_some_iff_mem ((order.map _).nodup_iff.2 h),
    order.mem_iff]

end Data

/-! ## Rows -/

/-- A field of a record together with what data give in it, and when two records are alike in it. -/
structure Row (σ : Type) where
  field : Field σ
  Gives : Data → σ → Prop
  Alike : σ → σ → Prop

def Row.of (name : String) (decoder : Decoder α) (put : α → σ → σ) (read : Data → Option α)
    (get : σ → α) : Row σ where
  field := .of name decoder put
  Gives data r := read data = some (get r)
  Alike r r' := get r = get r'

namespace Row

/-- In a row, a record is laid by entries over another one. -/
def Laid (row : Row σ) (entries : List (String × Data)) (base r : σ) : Prop :=
  match entries.lookup row.field.name with
  | some data => row.Gives data r
  | none => row.Alike base r

/-- The field of the row is read as it is given, and all other rows stay alike. -/
structure Lawful (row : Row σ) (rows : List (Row σ)) : Prop where
  trans : ∀ {r r' r'' : σ}, row.Alike r r' → row.Alike r' r'' → row.Alike r r''
  reads : ∀ {s : Site} {node : Node} {data : Data} {aliases : Nat} {r : σ},
    Holds s.document node data aliases → row.Gives data r → ∀ (record : σ) (left : Nat),
      ∃ record', row.field.read s node record (left + aliases) = .ok (record', left) ∧
        row.Alike record' r ∧
        ∀ other ∈ rows, other.field.name ≠ row.field.name → other.Alike record' record

variable {name : String} {decoder : Decoder α} {put : α → σ → σ} {read : Data → Option α}
  {get : σ → α} {rows : List (Row σ)} {entries : List (String × Data)} {base r : σ}

theorem Lawful.of (hreads : decoder.Reads read) (hget : ∀ a r, get (put a r) = a)
    (hothers : ∀ a r, ∀ other ∈ rows, other.field.name ≠ name → other.Alike (put a r) r) :
    (Row.of name decoder put read get).Lawful rows where
  trans h h' := h.trans h'
  reads hholds hgives record left :=
    ⟨put _ record, Reading.map_eq_of_ok (hreads hholds hgives left) _, hget _ _,
      fun other hother hne => hothers _ record other hother hne⟩

theorem Laid.of_given (h : Data.given entries name read (get base) = some (get r)) :
    (Row.of name decoder put read get).Laid entries base r := by
  unfold Laid
  unfold Data.given at h
  rw [show (Row.of name decoder put read get).field.name = name from rfl]
  cases hlookup : entries.lookup name with
  | some data =>
    rw [hlookup] at h
    exact h
  | none =>
    rw [hlookup] at h
    exact Option.some.inj h

theorem Laid.of_required (h : Data.required entries name read = some (get r)) :
    (Row.of name decoder put read get).Laid entries base r := by
  obtain ⟨data, hlookup, hdata⟩ := Option.bind_eq_some_iff.1 h
  unfold Laid
  rw [show (Row.of name decoder put read get).field.name = name from rfl, hlookup]
  exact hdata

end Row

/-! ## Reading a record -/

/-- The rows are those of the fields of a shape, are independent of each other and make up the whole
record. -/
structure RecordShape.IsTable (shape : RecordShape σ) (rows : List (Row σ)) : Prop where
  fields_eq : shape.fields = rows.map (·.field)
  nodup : (rows.map (·.field.name)).Nodup
  lawful : ∀ row ∈ rows, row.Lawful rows
  ext : ∀ {r r' : σ}, (∀ row ∈ rows, row.Alike r r') → r = r'

namespace RecordShape

variable {shape : RecordShape σ} {rows : List (Row σ)} {s : Site}

theorem fieldName_of_names {key : Node} {name : String} (h : s.document.Names key name)
    (left : Nat) : ∃ mark, fieldName s key (left + key.detour) = .ok ((name, mark), left) := by
  obtain ⟨mark, style, tag, hresolve⟩ := h
  refine ⟨mark, ?_⟩
  rw [fieldName, follow_bind (Nat.add_zero _).symm, hresolve]
  rfl

theorem IsTable.exists_row (h : shape.IsTable rows) {name : String}
    (hname : name ∈ rows.map (·.field.name)) :
    ∃ row ∈ rows, row.field.name = name ∧ shape.field? name = some row.field := by
  have hsome : (shape.field? name).isSome := by
    rw [field?, List.find?_isSome, h.fields_eq]
    obtain ⟨row, hrow, rfl⟩ := List.mem_map.1 hname
    exact ⟨row.field, List.mem_map_of_mem hrow, by simp⟩
  obtain ⟨field, hfield⟩ := Option.isSome_iff_exists.1 hsome
  have hmem : field ∈ rows.map (·.field) := h.fields_eq ▸ List.mem_of_find?_eq_some hfield
  obtain ⟨row, hrow, rfl⟩ := List.mem_map.1 hmem
  exact ⟨row, hrow, by simpa using List.find?_some hfield, hfield⟩

/-- The induction goes over the entries as they are written. A record that has got one more field is
what the entries behind it are laid over. -/
theorem IsTable.readEntries_eq (h : shape.IsTable rows) {nodes : List (Node × Node)}
    {entries : List (String × Data)} {aliases : Nat}
    (hold : HoldEntries s.document nodes entries aliases)
    (hkeys : Data.KeysAmong (rows.map (·.field.name)) entries) {seen : List String}
    (hseen : ∀ key ∈ entries.map (·.1), key ∉ seen) {base r : σ}
    (hlaid : ∀ row ∈ rows, row.Laid entries base r) (left : Nat) :
    shape.readEntries s seen base nodes (left + aliases) =
      .ok (((entries.map (·.1)).reverse ++ seen, r), left) := by
  induction nodes generalizing entries aliases seen base with
  | nil =>
    cases hold
    obtain rfl : base = r := h.ext hlaid
    rfl
  | cons node nodes ih =>
    cases hold with
    | @cons key value name data aliases _ entries others names head tail =>
      obtain ⟨hnodup, hknown⟩ := hkeys
      obtain ⟨hname, hrest⟩ := List.nodup_cons.1 hnodup
      obtain ⟨hnameKnown, hrestKnown⟩ := List.forall_mem_cons.1 hknown
      obtain ⟨hnameSeen, hrestSeen⟩ := List.forall_mem_cons.1 hseen
      obtain ⟨row, hrow, hrowName, hfield⟩ := h.exists_row hnameKnown
      have hgives : row.Gives data r := by
        have hlaidRow := hlaid row hrow
        rwa [Row.Laid, hrowName, List.lookup_cons_self] at hlaidRow
      obtain ⟨mark, hkey⟩ := fieldName_of_names names (left + others + aliases)
      obtain ⟨record, hread, halike, hothers⟩ :=
        (h.lawful row hrow).reads (s := s.enter (step key)) head hgives base (left + others)
      have hlaidRest : ∀ other ∈ rows, other.Laid entries record r := by
        intro other hother
        by_cases hsame : other.field.name = name
        · obtain rfl : other = row :=
            List.inj_on_of_nodup_map h.nodup hother hrow (hsame.trans hrowName.symm)
          rw [Row.Laid, hsame, Data.lookup_eq_none_iff_notMem.2 hname]
          exact halike
        · have hlaidOther := hlaid other hother
          rw [Row.Laid, List.lookup_cons, beq_false_of_ne hsame] at hlaidOther
          rw [Row.Laid]
          cases hlookup : entries.lookup other.field.name with
          | some found => simpa [hlookup] using hlaidOther
          | none =>
            have hkept := hothers other hother (hrowName ▸ hsame)
            exact (h.lawful other hother).trans hkept (by simpa [hlookup] using hlaidOther)
      have hrestSeen' : ∀ key ∈ entries.map (·.1), key ∉ name :: seen := by
        intro key hkey
        have hne : key ≠ name := fun heq => hname (heq ▸ hkey)
        simp [hne, hrestSeen key hkey]
      have hrecord := ih tail ⟨hrest, hrestKnown⟩ hrestSeen' hlaidRest
      have hcount : left + (key.detour + aliases + others) =
          left + others + aliases + key.detour := by omega
      rw [readEntries, hcount, Reading.bind_eq_of_ok hkey]
      simp only [hfield, hnameSeen, if_false]
      rw [Reading.bind_eq_of_ok hread, hrecord]
      simp

theorem IsTable.reads (h : shape.IsTable rows) {initial : σ}
    {read : List (String × Data) → Option σ}
    (hlaid : ∀ entries r, read entries = some r →
      Data.KeysAmong (rows.map (·.field.name)) entries ∧
      (∀ row ∈ rows, row.Laid entries initial r) ∧
      ∀ name ∈ shape.required, name ∈ entries.map (·.1)) :
    (shape.decoder initial).Reads (Data.record? read) := by
  intro s node data aliases r hholds hread left
  obtain ⟨others, haliases, hresolved⟩ := hholds.resolved
  rw [decoder, follow_bind haliases]
  cases hholds with
  | @mapping _ mark nodes written entries _ resolves hold order =>
    obtain ⟨hkeys, hrows, hrequired⟩ := hlaid entries r hread
    obtain rfl : others = _ := Nat.add_left_cancel haliases.symm
    have hwritten : ∀ row ∈ rows, row.Laid written initial r := by
      intro row hrow
      have hrowLaid := hrows row hrow
      rwa [Row.Laid, ← Data.lookup_perm hkeys.1 order] at hrowLaid
    have hseen : ∀ key ∈ written.map (·.1), key ∉ ([] : List String) := by simp
    have hentries := h.readEntries_eq hold (hkeys.perm order) hseen hwritten left
    have hmissing : shape.required.find? (· ∉ (written.map (·.1)).reverse ++ []) = none := by
      rw [List.find?_eq_none]
      intro name hname
      have hkey := (order.map (·.1)).mem_iff.2 (hrequired name hname)
      simpa using hkey
    have hrecord : shape.readRecord s initial nodes (left + others) = .ok (r, left) := by
      rw [readRecord, Reading.bind_eq_of_ok hentries]
      simp only [hmissing]
      rfl
    simp only [resolves]
    rw [Site.within, hrecord]
    rfl
  | scalar | sequence => cases hread

end RecordShape

end MacroFamilies.Yaml
