import Mathlib
import MacroFamilies.Configuration.Reading
import MacroFamilies.Proofs.Yaml.Ordinary
import MacroFamilies.Proofs.Yaml.Rejection
/-!
# Unknown keys

A configuration is a mapping whose fields hold further mappings and lists of them. Each of these
describes one part of the configuration. A document is rejected for a key that its part has no field
for, except in a rule of the aliases: there such a key is passed over.
-/

namespace MacroFamilies.Configuration

open Yaml

/-- What a mapping of a configuration describes. -/
inductive Part where
  | configuration
  | arityPass
  | dispatch
  | aliases
  | rule
  | undef
  | umbrella
  deriving DecidableEq, Repr

namespace Part

abbrev Record : Part → Type
  | configuration => Configuration
  | arityPass => ArityPass
  | dispatch => DispatchPass
  | aliases => AliasPass
  | rule => Abbreviation
  | undef => UndefPass
  | umbrella => UmbrellaPass

def shape : (part : Part) → RecordShape part.Record
  | configuration => Configuration.shape
  | arityPass => ArityPass.shape
  | dispatch => DispatchPass.shape
  | aliases => AliasPass.shape
  | rule => Abbreviation.shape
  | undef => UndefPass.shape
  | umbrella => UmbrellaPass.shape

def keys : Part → List String
  | configuration => ["template_dir", "output_dir", "arity_file", "max_arity", "banner",
      "arity_passes", "dispatch", "aliases", "undef", "umbrella"]
  | arityPass => ["template", "output", "preamble", "include_dispatch"]
  | dispatch => ["template", "output", "proxy_macro", "error_marker", "selector_prefix",
      "selector_suffix"]
  | aliases => ["template", "output", "rules", "trailer"]
  | rule => ["from", "to"]
  | undef => ["template", "output"]
  | umbrella => ["output", "include_undef"]

theorem names_fields (part : Part) : part.shape.fields.map (·.name) = part.keys := by
  cases part <;> rfl

def initial : (part : Part) → part.Record
  | configuration => {}
  | arityPass => ⟨"", "", [], false⟩
  | dispatch => {}
  | aliases => {}
  | rule => ⟨"", ""⟩
  | undef => {}
  | umbrella => {}

def decoder (part : Part) : Decoder part.Record := part.shape.decoder part.initial

def sections : Part → List (String × Part)
  | configuration =>
    [("dispatch", dispatch), ("aliases", aliases), ("undef", undef), ("umbrella", umbrella)]
  | _ => []

def lists : Part → List (String × Part)
  | configuration => [("arity_passes", arityPass)]
  | aliases => [("rules", rule)]
  | _ => []

theorem field?_of_mem_sections {part inner : Part} {name : String}
    (h : (name, inner) ∈ part.sections) :
    ∃ put, part.shape.field? name = some (.of name inner.decoder put) := by
  cases part
  case configuration =>
    simp only [sections, List.mem_cons, Prod.mk.injEq, List.not_mem_nil, or_false] at h
    rcases h with ⟨rfl, rfl⟩ | ⟨rfl, rfl⟩ | ⟨rfl, rfl⟩ | ⟨rfl, rfl⟩ <;> exact ⟨_, rfl⟩
  all_goals cases h

theorem field?_of_mem_lists {part inner : Part} {name : String} (h : (name, inner) ∈ part.lists) :
    ∃ put, part.shape.field? name = some (.of name (.list inner.decoder) put) := by
  cases part
  case configuration =>
    obtain ⟨rfl, rfl⟩ := Prod.mk.inj (List.mem_singleton.1 h)
    exact ⟨_, rfl⟩
  case aliases =>
    obtain ⟨rfl, rfl⟩ := Prod.mk.inj (List.mem_singleton.1 h)
    exact ⟨_, rfl⟩
  all_goals cases h

theorem lenient_shape {part : Part} (h : part ≠ rule) : part.shape.lenient = false := by
  cases part
  case rule => exact absurd rfl h
  all_goals rfl

end Part

/-- A node of a document is where a part of the configuration is described. -/
inductive DescribedBy (d : Document) : Part → Node → Prop
  | root : DescribedBy d .configuration d.root
  | field {part inner : Part} {node key value : Node} {name : String} {mark : Mark}
      {entries : List (Node × Node)} (described : DescribedBy d part node)
      (mapping : d.resolve node = .mapping mark entries) (entry : (key, value) ∈ entries)
      (names : d.Names key name) (holds : (name, inner) ∈ part.sections) : DescribedBy d inner value
  | item {part inner : Part} {node key value item : Node} {name : String} {mark mark' : Mark}
      {entries : List (Node × Node)} {items : List Node} (described : DescribedBy d part node)
      (mapping : d.resolve node = .mapping mark entries) (entry : (key, value) ∈ entries)
      (names : d.Names key name) (holds : (name, inner) ∈ part.lists)
      (sequence : d.resolve value = .sequence mark' items) (listed : item ∈ items) :
      DescribedBy d inner item

variable {d : Document} {part : Part} {node : Node}

/-- A document is rejected with any part of the configuration that it describes. -/
theorem DescribedBy.rejects (h : DescribedBy d part node)
    (hnode : ∀ trail, (part.decoder ⟨d, trail⟩ node).Rejects) :
    (Configuration.decoder ⟨d, []⟩ d.root).Rejects := by
  induction h with
  | root => exact hnode []
  | field described mapping entry names holds ih =>
    refine ih fun trail => ?_
    obtain ⟨put, hfield⟩ := Part.field?_of_mem_sections holds
    have hentry := RecordShape.rejectsEntry_of_value (s := ⟨d, trail⟩) names hfield
      fun trail record => (hnode trail).map _
    exact hentry.decoder mapping entry _
  | item described mapping entry names holds sequence listed ih =>
    refine ih fun trail => ?_
    obtain ⟨put, hfield⟩ := Part.field?_of_mem_lists holds
    have hentry := RecordShape.rejectsEntry_of_value (s := ⟨d, trail⟩) names hfield
      fun trail record => (Decoder.rejects_list sequence listed hnode).map _
    exact hentry.decoder mapping entry _

/-- A document that describes a part by a mapping is a mapping itself. -/
theorem DescribedBy.exists_root_mapping (h : DescribedBy d part node) {mark : Mark}
    {entries : List (Node × Node)} (hnode : d.resolve node = .mapping mark entries) :
    ∃ mark entries, d.resolve d.root = .mapping mark entries := by
  induction h generalizing mark entries with
  | root => exact ⟨_, _, hnode⟩
  | field described mapping entry names holds ih => exact ih mapping
  | item described mapping entry names holds sequence listed ih => exact ih mapping

/-! ## Texts -/

/-- What the decoder rejects is reported as a fault of the configuration. A blank text, which is not
read, holds no mapping. -/
theorem exists_ofYaml_error {name text : String} (hmapping : ∃ mark entries,
      (Document.ofText text.toList).resolve (Document.ofText text.toList).root =
        .mapping mark entries)
    (h : (Configuration.decoder ⟨.ofText text.toList, []⟩
      (Document.ofText text.toList).root).Rejects) :
    ∃ diagnostic, ofYaml name text = .error diagnostic ∧ diagnostic.kind = .config := by
  obtain ⟨mark, entries, hroot⟩ := hmapping
  obtain ⟨fault, hfault⟩ := exists_readText_error h
  rw [ofYaml, if_neg (trim_ne_nil_of_root_mapping hroot), hfault]
  exact ⟨_, rfl, rfl⟩

/-- A mapping that passes unknown keys over is read as if one of them were not there. -/
theorem readEntries_passed_over {σ : Type} {shape : RecordShape σ} {site : Site} {mark : Mark}
    {style : ScalarStyle} {tag : Option String} {key : String} {value : Node}
    (hlenient : shape.lenient = true) (hkey : shape.field? key = none)
    (hvalue : value.broken = false) (before after : List (Node × Node)) (seen : List String)
    (record : σ) :
    shape.readEntries site seen record (before ++ (.scalar mark style tag key, value) :: after) =
      shape.readEntries site seen record (before ++ after) := by
  induction before generalizing seen record with
  | nil =>
    have hname : RecordShape.fieldName site (.scalar mark style tag key) = pure (key, mark) := rfl
    simp only [List.nil_append]
    rw [RecordShape.readEntries, hname, pure_bind]
    simp only [hkey, hlenient, hvalue, if_true, Bool.false_eq_true, if_false]
  | cons entry before ih =>
    obtain ⟨key', value'⟩ := entry
    simp only [List.cons_append, RecordShape.readEntries, ih]

/-- A text is refused as a configuration for a key that is no field of what its mapping describes.
The rules of the aliases are the exception: one of them is read as if such a key were not there. -/
theorem unknown_keys_rejected_outside_rules (name text : String) {part : Part}
    {node key value : Node} {mark : Mark} {before after : List (Node × Node)}
    (hdescribed : DescribedBy (.ofText text.toList) part node)
    (hnode : (Document.ofText text.toList).resolve node =
      .mapping mark (before ++ (key, value) :: after))
    (hunknown : ∀ field ∈ part.keys, ¬ (Document.ofText text.toList).Names key field) :
    (part ≠ .rule →
      ∃ diagnostic, ofYaml name text = .error diagnostic ∧ diagnostic.kind = .config) ∧
    (part = .rule → ∀ (keyMark : Mark) (style : ScalarStyle) (tag : Option String) (field : String),
      key = .scalar keyMark style tag field → value.broken = false → ∀ site : Site,
        Part.rule.decoder site (.mapping mark (before ++ (key, value) :: after)) =
          Part.rule.decoder site (.mapping mark (before ++ after))) := by
  constructor
  · intro hpart
    refine exists_ofYaml_error (hdescribed.exists_root_mapping hnode) (hdescribed.rejects ?_)
    intro trail
    have hentry : part.shape.RejectsEntry ⟨.ofText text.toList, trail⟩ key value :=
      RecordShape.rejectsEntry_of_unknown (Part.lenient_shape hpart) fun field hfield =>
        hunknown _ (part.names_fields ▸ List.mem_map_of_mem hfield)
    exact hentry.decoder hnode (List.mem_append_right _ List.mem_cons_self) _
  · rintro rfl keyMark style tag field rfl hvalue site
    have hnone : Part.rule.shape.field? field = none := by
      rw [RecordShape.field?_eq_none_iff]
      rintro known hknown rfl
      exact hunknown _ (Part.rule.names_fields ▸ List.mem_map_of_mem hknown)
        (Document.names_scalar_iff.2 rfl)
    have hmapping (entries : List (Node × Node)) : Part.rule.decoder site (.mapping mark entries) =
        site.within mark (Part.rule.shape.readRecord site Part.rule.initial entries) := rfl
    rw [hmapping, hmapping, RecordShape.readRecord, RecordShape.readRecord,
      readEntries_passed_over rfl hnone hvalue]

def misspeltSection : String := "dispatch: \x7b tempalte: d \x7d\n"

def misspeltDispatch : Node := .mapping ⟨10, 0, 10⟩
  [(.scalar ⟨12, 0, 12⟩ .plain none "tempalte", .scalar ⟨22, 0, 22⟩ .plain none "d")]

theorem ofText_misspeltSection : Document.ofText misspeltSection.toList =
    { root := .mapping ⟨0, 0, 0⟩ [(.scalar ⟨0, 0, 0⟩ .plain none "dispatch", misspeltDispatch)]
      slots := []
      fault := none
      continued := false } := by
  cbv

theorem describedBy_misspeltSection :
    DescribedBy (.ofText misspeltSection.toList) .dispatch misspeltDispatch := by
  have hkey : (Document.ofText misspeltSection.toList).Names
      (.scalar ⟨0, 0, 0⟩ .plain none "dispatch") "dispatch" := Document.names_scalar_iff.2 rfl
  have hroot : (Document.ofText misspeltSection.toList).resolve
      (Document.ofText misspeltSection.toList).root = .mapping ⟨0, 0, 0⟩
        [(.scalar ⟨0, 0, 0⟩ .plain none "dispatch", misspeltDispatch)] := by
    rw [ofText_misspeltSection]
    rfl
  exact .field .root hroot List.mem_cons_self hkey (by decide)

theorem unknown_keys_rejected_outside_rules_misspeltSection :
    DescribedBy (.ofText misspeltSection.toList) .dispatch misspeltDispatch ∧
      "tempalte" ∉ Part.dispatch.keys ∧
      ∃ diagnostic, ofYaml "c" misspeltSection = .error diagnostic ∧
        diagnostic.kind = .config := by
  refine ⟨describedBy_misspeltSection, by decide, ?_⟩
  have hnode : (Document.ofText misspeltSection.toList).resolve misspeltDispatch =
      .mapping ⟨10, 0, 10⟩ ([] ++ (.scalar ⟨12, 0, 12⟩ .plain none "tempalte",
        .scalar ⟨22, 0, 22⟩ .plain none "d") :: []) := rfl
  refine (unknown_keys_rejected_outside_rules "c" misspeltSection describedBy_misspeltSection hnode
    fun field hfield hnames => ?_).1 (by decide)
  obtain rfl := Document.names_scalar_iff.1 hnames
  exact absurd hfield (by decide)

def notedRule : String := "aliases:\n  rules:\n    - \x7b from: MESSAGE, to: MSG, note: kept \x7d\n"

theorem exists_unknown_key_accepted : "note" ∉ Part.rule.keys ∧
    ofYaml "c" notedRule = .ok { aliases := { rules := [⟨"MESSAGE", "MSG"⟩] } } := by
  decide +kernel

end MacroFamilies.Configuration
