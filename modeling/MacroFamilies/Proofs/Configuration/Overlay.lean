import Mathlib
import MacroFamilies.Proofs.Configuration.UnknownKeys
import MacroFamilies.Proofs.Yaml.Record
/-!
# Configurations laid over the defaults

The mapping of a document is laid over the default configuration, and so are its sections over
theirs. `Configuration.overlay?` says by the names of its entries which configuration this is, and
reading the text gives it, in whatever order the keys are written.
-/

namespace MacroFamilies

open Yaml
open MacroFamilies.Configuration (Part)
open Yaml.Data (given required KeysAmong)

/-! ## What mappings stand for -/

/-- The rule that a mapping gives; both of its sides must be there. -/
def Abbreviation.overlay? (entries : List (String × Data)) : Option Abbreviation := do
  guard (KeysAmong Part.rule.keys entries)
  return {
    pattern := ← required entries "from" Data.text?
    replacement := ← required entries "to" Data.text? }

/-- The pass that a mapping gives; its template and its output must be there. -/
def ArityPass.overlay? (entries : List (String × Data)) : Option ArityPass := do
  guard (KeysAmong Part.arityPass.keys entries)
  return {
    template := ← required entries "template" Data.text?
    output := ← required entries "output" Data.text?
    preamble := ← given entries "preamble" (Data.list? Data.text?) []
    includeDispatch := ← given entries "include_dispatch" Data.boolean? false }

def DispatchPass.overlay? (entries : List (String × Data)) : Option DispatchPass := do
  guard (KeysAmong Part.dispatch.keys entries)
  let default : DispatchPass := {}
  return {
    template := ← given entries "template" Data.text? default.template
    output := ← given entries "output" Data.text? default.output
    style := {
      proxyMacro := ← given entries "proxy_macro" Data.text? default.style.proxyMacro
      errorMarker := ← given entries "error_marker" Data.text? default.style.errorMarker
      selectorHead := ← given entries "selector_prefix" Data.text? default.style.selectorHead
      selectorTail := ← given entries "selector_suffix" Data.text? default.style.selectorTail } }

def AliasPass.overlay? (entries : List (String × Data)) : Option AliasPass := do
  guard (KeysAmong Part.aliases.keys entries)
  let default : AliasPass := {}
  return {
    template := ← given entries "template" Data.text? default.template
    output := ← given entries "output" Data.text? default.output
    rules := ← given entries "rules" (Data.list? (Data.record? Abbreviation.overlay?)) default.rules
    trailer := ← given entries "trailer" (Data.optional? Data.text?) default.trailer }

def UndefPass.overlay? (entries : List (String × Data)) : Option UndefPass := do
  guard (KeysAmong Part.undef.keys entries)
  let default : UndefPass := {}
  return {
    template := ← given entries "template" Data.text? default.template
    output := ← given entries "output" Data.text? default.output }

def UmbrellaPass.overlay? (entries : List (String × Data)) : Option UmbrellaPass := do
  guard (KeysAmong Part.umbrella.keys entries)
  let default : UmbrellaPass := {}
  return {
    output := ← given entries "output" (Data.optional? Data.text?) default.output
    includeUndef := ← given entries "include_undef" Data.boolean? default.includeUndef }

/-- The configuration that a mapping stands for. There is none if a key is unknown or repeated, or
if the data of one do not fit its field. -/
def Configuration.overlay? (entries : List (String × Data)) : Option Configuration := do
  guard (KeysAmong Part.configuration.keys entries)
  let default : Configuration := {}
  return {
    templateDir := ← given entries "template_dir" Data.text? default.templateDir
    outputDir := ← given entries "output_dir" Data.text? default.outputDir
    arityFile := ← given entries "arity_file" Data.text? default.arityFile
    maxArity := ← given entries "max_arity" (Data.optional? Data.natural?) default.maxArity
    banner := ← given entries "banner" Data.text? default.banner
    arityPasses := ← given entries "arity_passes" (Data.list? (Data.record? ArityPass.overlay?))
      default.arityPasses
    dispatch := ← given entries "dispatch" (Data.record? DispatchPass.overlay?) default.dispatch
    aliases := ← given entries "aliases" (Data.record? AliasPass.overlay?) default.aliases
    undef := ← given entries "undef" (Data.record? UndefPass.overlay?) default.undef
    umbrella := ← given entries "umbrella" (Data.record? UmbrellaPass.overlay?) default.umbrella }

/-! ## The parts -/

theorem stringDecoder_reads : stringDecoder.Reads Data.text? := Decoder.reads_scalar _ _

theorem pathDecoder_reads : pathDecoder.Reads Data.text? := Decoder.reads_scalar _ _

theorem boolean_reads : Decoder.boolean.Reads Data.boolean? := Decoder.reads_scalar _ _

theorem natural_reads : Decoder.natural.Reads Data.natural? := Decoder.reads_scalar _ _

namespace Abbreviation

def rows : List (Row Abbreviation) := [
  .of "from" stringDecoder (fun v r => { r with pattern := v }) Data.text? (·.pattern),
  .of "to" stringDecoder (fun v r => { r with replacement := v }) Data.text? (·.replacement)]

theorem isTable : Abbreviation.shape.IsTable rows where
  fields_eq := rfl
  nodup := by decide
  lawful := by
    simp only [rows, List.forall_mem_cons, List.not_mem_nil, false_implies, implies_true, and_true]
    exact ⟨.of stringDecoder_reads (fun _ _ => rfl) (by simp [Row.of, Field.of]),
      .of stringDecoder_reads (fun _ _ => rfl) (by simp [Row.of, Field.of])⟩
  ext := by
    rintro ⟨⟩ ⟨⟩ h
    simpa [rows, Row.of] using h

theorem reads : Part.rule.decoder.Reads (Data.record? Abbreviation.overlay?) := by
  refine isTable.reads fun entries r h => ?_
  simp only [overlay?, Option.bind_eq_bind, Option.bind_eq_some_iff, Option.guard_eq_some',
    exists_const, Option.pure_def, Option.some.injEq] at h
  obtain ⟨hkeys, pattern, hpattern, replacement, hreplacement, rfl⟩ := h
  refine ⟨hkeys, ?_, ?_⟩
  · simp only [rows, List.forall_mem_cons, List.not_mem_nil, false_implies, implies_true, and_true]
    exact ⟨.of_required hpattern, .of_required hreplacement⟩
  · simp only [shape, List.forall_mem_cons, List.not_mem_nil, false_implies, implies_true, and_true]
    exact ⟨Data.mem_of_required hpattern, Data.mem_of_required hreplacement⟩

end Abbreviation

namespace ArityPass

def rows : List (Row ArityPass) := [
  .of "template" stringDecoder (fun v p => { p with template := v }) Data.text? (·.template),
  .of "output" stringDecoder (fun v p => { p with output := v }) Data.text? (·.output),
  .of "preamble" (.list stringDecoder) (fun v p => { p with preamble := v })
    (Data.list? Data.text?) (·.preamble),
  .of "include_dispatch" .boolean (fun v p => { p with includeDispatch := v })
    Data.boolean? (·.includeDispatch)]

theorem isTable : ArityPass.shape.IsTable rows where
  fields_eq := rfl
  nodup := by decide
  lawful := by
    simp only [rows, List.forall_mem_cons, List.not_mem_nil, false_implies, implies_true, and_true]
    refine ⟨.of stringDecoder_reads ?_ ?_, .of stringDecoder_reads ?_ ?_,
      .of (Decoder.reads_list stringDecoder_reads) ?_ ?_, .of boolean_reads ?_ ?_⟩
    all_goals simp [Row.of, Field.of]
  ext := by
    rintro ⟨⟩ ⟨⟩ h
    simpa [rows, Row.of] using h

theorem reads : Part.arityPass.decoder.Reads (Data.record? ArityPass.overlay?) := by
  refine isTable.reads fun entries r h => ?_
  simp only [overlay?, Option.bind_eq_bind, Option.bind_eq_some_iff, Option.guard_eq_some',
    exists_const, Option.pure_def, Option.some.injEq] at h
  obtain ⟨hkeys, template, htemplate, output, houtput, preamble, hpreamble, includeDispatch,
    hincludeDispatch, rfl⟩ := h
  refine ⟨hkeys, ?_, ?_⟩
  · simp only [rows, List.forall_mem_cons, List.not_mem_nil, false_implies, implies_true, and_true]
    exact ⟨.of_required htemplate, .of_required houtput, .of_given hpreamble,
      .of_given hincludeDispatch⟩
  · simp only [shape, List.forall_mem_cons, List.not_mem_nil, false_implies, implies_true, and_true]
    exact ⟨Data.mem_of_required htemplate, Data.mem_of_required houtput⟩

end ArityPass

namespace DispatchPass

def rows : List (Row DispatchPass) := [
  .of "template" stringDecoder (fun v p => { p with template := v }) Data.text? (·.template),
  .of "output" stringDecoder (fun v p => { p with output := v }) Data.text? (·.output),
  .of "proxy_macro" stringDecoder (fun v p => { p with style.proxyMacro := v })
    Data.text? (·.style.proxyMacro),
  .of "error_marker" stringDecoder (fun v p => { p with style.errorMarker := v })
    Data.text? (·.style.errorMarker),
  .of "selector_prefix" stringDecoder (fun v p => { p with style.selectorHead := v })
    Data.text? (·.style.selectorHead),
  .of "selector_suffix" stringDecoder (fun v p => { p with style.selectorTail := v })
    Data.text? (·.style.selectorTail)]

theorem isTable : DispatchPass.shape.IsTable rows where
  fields_eq := rfl
  nodup := by decide
  lawful := by
    simp only [rows, List.forall_mem_cons, List.not_mem_nil, false_implies, implies_true, and_true]
    refine ⟨.of stringDecoder_reads ?_ ?_, .of stringDecoder_reads ?_ ?_,
      .of stringDecoder_reads ?_ ?_, .of stringDecoder_reads ?_ ?_,
      .of stringDecoder_reads ?_ ?_, .of stringDecoder_reads ?_ ?_⟩
    all_goals simp [Row.of, Field.of]
  ext := by
    rintro ⟨_, _, ⟨⟩⟩ ⟨_, _, ⟨⟩⟩ h
    simpa [rows, Row.of] using h

theorem reads : Part.dispatch.decoder.Reads (Data.record? DispatchPass.overlay?) := by
  refine isTable.reads fun entries r h => ?_
  simp only [overlay?, Option.bind_eq_bind, Option.bind_eq_some_iff, Option.guard_eq_some',
    exists_const, Option.pure_def, Option.some.injEq] at h
  obtain ⟨hkeys, template, htemplate, output, houtput, proxyMacro, hproxyMacro, errorMarker,
    herrorMarker, selectorHead, hselectorHead, selectorTail, hselectorTail, rfl⟩ := h
  refine ⟨hkeys, ?_, ?_⟩
  · simp only [rows, List.forall_mem_cons, List.not_mem_nil, false_implies, implies_true, and_true]
    exact ⟨.of_given htemplate, .of_given houtput, .of_given hproxyMacro, .of_given herrorMarker,
      .of_given hselectorHead, .of_given hselectorTail⟩
  · simp [shape]

end DispatchPass

namespace AliasPass

def rows : List (Row AliasPass) := [
  .of "template" stringDecoder (fun v p => { p with template := v }) Data.text? (·.template),
  .of "output" stringDecoder (fun v p => { p with output := v }) Data.text? (·.output),
  .of "rules" (.list Part.rule.decoder) (fun v p => { p with rules := v })
    (Data.list? (Data.record? Abbreviation.overlay?)) (·.rules),
  .of "trailer" (.optional stringDecoder) (fun v p => { p with trailer := v })
    (Data.optional? Data.text?) (·.trailer)]

theorem isTable : AliasPass.shape.IsTable rows where
  fields_eq := rfl
  nodup := by decide
  lawful := by
    simp only [rows, List.forall_mem_cons, List.not_mem_nil, false_implies, implies_true, and_true]
    refine ⟨.of stringDecoder_reads ?_ ?_, .of stringDecoder_reads ?_ ?_,
      .of (Decoder.reads_list Abbreviation.reads) ?_ ?_,
      .of (Decoder.reads_optional stringDecoder_reads) ?_ ?_⟩
    all_goals simp [Row.of, Field.of]
  ext := by
    rintro ⟨⟩ ⟨⟩ h
    simpa [rows, Row.of] using h

theorem reads : Part.aliases.decoder.Reads (Data.record? AliasPass.overlay?) := by
  refine isTable.reads fun entries r h => ?_
  simp only [overlay?, Option.bind_eq_bind, Option.bind_eq_some_iff, Option.guard_eq_some',
    exists_const, Option.pure_def, Option.some.injEq] at h
  obtain ⟨hkeys, template, htemplate, output, houtput, rules, hrules, trailer, htrailer, rfl⟩ := h
  refine ⟨hkeys, ?_, ?_⟩
  · simp only [rows, List.forall_mem_cons, List.not_mem_nil, false_implies, implies_true, and_true]
    exact ⟨.of_given htemplate, .of_given houtput, .of_given hrules, .of_given htrailer⟩
  · simp [shape]

end AliasPass

namespace UndefPass

def rows : List (Row UndefPass) := [
  .of "template" stringDecoder (fun v p => { p with template := v }) Data.text? (·.template),
  .of "output" stringDecoder (fun v p => { p with output := v }) Data.text? (·.output)]

theorem isTable : UndefPass.shape.IsTable rows where
  fields_eq := rfl
  nodup := by decide
  lawful := by
    simp only [rows, List.forall_mem_cons, List.not_mem_nil, false_implies, implies_true, and_true]
    refine ⟨.of stringDecoder_reads ?_ ?_, .of stringDecoder_reads ?_ ?_⟩
    all_goals simp [Row.of, Field.of]
  ext := by
    rintro ⟨⟩ ⟨⟩ h
    simpa [rows, Row.of] using h

theorem reads : Part.undef.decoder.Reads (Data.record? UndefPass.overlay?) := by
  refine isTable.reads fun entries r h => ?_
  simp only [overlay?, Option.bind_eq_bind, Option.bind_eq_some_iff, Option.guard_eq_some',
    exists_const, Option.pure_def, Option.some.injEq] at h
  obtain ⟨hkeys, template, htemplate, output, houtput, rfl⟩ := h
  refine ⟨hkeys, ?_, ?_⟩
  · simp only [rows, List.forall_mem_cons, List.not_mem_nil, false_implies, implies_true, and_true]
    exact ⟨.of_given htemplate, .of_given houtput⟩
  · simp [shape]

end UndefPass

namespace UmbrellaPass

def rows : List (Row UmbrellaPass) := [
  .of "output" (.optional stringDecoder) (fun v p => { p with output := v })
    (Data.optional? Data.text?) (·.output),
  .of "include_undef" .boolean (fun v p => { p with includeUndef := v })
    Data.boolean? (·.includeUndef)]

theorem isTable : UmbrellaPass.shape.IsTable rows where
  fields_eq := rfl
  nodup := by decide
  lawful := by
    simp only [rows, List.forall_mem_cons, List.not_mem_nil, false_implies, implies_true, and_true]
    refine ⟨.of (Decoder.reads_optional stringDecoder_reads) ?_ ?_, .of boolean_reads ?_ ?_⟩
    all_goals simp [Row.of, Field.of]
  ext := by
    rintro ⟨⟩ ⟨⟩ h
    simpa [rows, Row.of] using h

theorem reads : Part.umbrella.decoder.Reads (Data.record? UmbrellaPass.overlay?) := by
  refine isTable.reads fun entries r h => ?_
  simp only [overlay?, Option.bind_eq_bind, Option.bind_eq_some_iff, Option.guard_eq_some',
    exists_const, Option.pure_def, Option.some.injEq] at h
  obtain ⟨hkeys, output, houtput, includeUndef, hincludeUndef, rfl⟩ := h
  refine ⟨hkeys, ?_, ?_⟩
  · simp only [rows, List.forall_mem_cons, List.not_mem_nil, false_implies, implies_true, and_true]
    exact ⟨.of_given houtput, .of_given hincludeUndef⟩
  · simp [shape]

end UmbrellaPass

namespace Configuration

def rows : List (Row Configuration) := [
  .of "template_dir" pathDecoder (fun v c => { c with templateDir := v })
    Data.text? (·.templateDir),
  .of "output_dir" pathDecoder (fun v c => { c with outputDir := v }) Data.text? (·.outputDir),
  .of "arity_file" pathDecoder (fun v c => { c with arityFile := v }) Data.text? (·.arityFile),
  .of "max_arity" (.optional .natural) (fun v c => { c with maxArity := v })
    (Data.optional? Data.natural?) (·.maxArity),
  .of "banner" stringDecoder (fun v c => { c with banner := v }) Data.text? (·.banner),
  .of "arity_passes" (.list Part.arityPass.decoder) (fun v c => { c with arityPasses := v })
    (Data.list? (Data.record? ArityPass.overlay?)) (·.arityPasses),
  .of "dispatch" Part.dispatch.decoder (fun v c => { c with dispatch := v })
    (Data.record? DispatchPass.overlay?) (·.dispatch),
  .of "aliases" Part.aliases.decoder (fun v c => { c with aliases := v })
    (Data.record? AliasPass.overlay?) (·.aliases),
  .of "undef" Part.undef.decoder (fun v c => { c with undef := v })
    (Data.record? UndefPass.overlay?) (·.undef),
  .of "umbrella" Part.umbrella.decoder (fun v c => { c with umbrella := v })
    (Data.record? UmbrellaPass.overlay?) (·.umbrella)]

theorem isTable : Configuration.shape.IsTable rows where
  fields_eq := rfl
  nodup := by decide
  lawful := by
    simp only [rows, List.forall_mem_cons, List.not_mem_nil, false_implies, implies_true, and_true]
    refine ⟨.of pathDecoder_reads ?_ ?_, .of pathDecoder_reads ?_ ?_, .of pathDecoder_reads ?_ ?_,
      .of (Decoder.reads_optional natural_reads) ?_ ?_, .of stringDecoder_reads ?_ ?_,
      .of (Decoder.reads_list ArityPass.reads) ?_ ?_, .of DispatchPass.reads ?_ ?_,
      .of AliasPass.reads ?_ ?_, .of UndefPass.reads ?_ ?_, .of UmbrellaPass.reads ?_ ?_⟩
    all_goals simp [Row.of, Field.of]
  ext := by
    rintro ⟨⟩ ⟨⟩ h
    simpa [rows, Row.of] using h

theorem reads : Part.configuration.decoder.Reads (Data.record? Configuration.overlay?) := by
  refine isTable.reads fun entries r h => ?_
  simp only [overlay?, Option.bind_eq_bind, Option.bind_eq_some_iff, Option.guard_eq_some',
    exists_const, Option.pure_def, Option.some.injEq] at h
  obtain ⟨hkeys, templateDir, htemplateDir, outputDir, houtputDir, arityFile, harityFile, maxArity,
    hmaxArity, banner, hbanner, arityPasses, harityPasses, dispatch, hdispatch, aliases,
    haliases, undef, hundef, umbrella, humbrella, rfl⟩ := h
  refine ⟨hkeys, ?_, ?_⟩
  · simp only [rows, List.forall_mem_cons, List.not_mem_nil, false_implies, implies_true, and_true]
    exact ⟨.of_given htemplateDir, .of_given houtputDir, .of_given harityFile, .of_given hmaxArity,
      .of_given hbanner, .of_given harityPasses, .of_given hdispatch, .of_given haliases,
      .of_given hundef, .of_given humbrella⟩
  · simp [shape]

end Configuration

/-! ## Texts -/

/-- An optional value is none where a null is found, and the default where nothing is. -/
structure TakesNull {α : Type} (found : Option Data) (default value : Option α) : Prop where
  null : ∀ data, found = some data → data.isNull = true → value = none
  absent : found = none → value = default

theorem TakesNull.of_given {α : Type} {entries : List (String × Data)} {name : String}
    {read : Data → Option α} {default value : Option α}
    (h : given entries name (Data.optional? read) default = some value) :
    TakesNull (entries.lookup name) default value := by
  unfold given at h
  cases hlookup : entries.lookup name with
  | none =>
    rw [hlookup] at h
    exact ⟨by simp, fun _ => (Option.some.inj h).symm⟩
  | some data =>
    rw [hlookup] at h
    refine ⟨fun found hfound hnull => ?_, by simp⟩
    obtain rfl := Option.some.inj hfound
    simp only [Data.optional?, hnull, if_true, Option.some.injEq] at h
    exact h.symm

def within? (entries : List (String × Data)) (outer inner : String) : Option Data :=
  match entries.lookup outer with
  | some (.mapping fields) => fields.lookup inner
  | _ => none

theorem TakesNull.within {α σ : Type} {entries : List (String × Data)} {outer inner : String}
    {overlay? : List (String × Data) → Option σ} {base r : σ} (get : σ → Option α)
    (h : given entries outer (Data.record? overlay?) base = some r)
    (hinner : ∀ fields r, overlay? fields = some r →
      TakesNull (fields.lookup inner) (get base) (get r)) :
    TakesNull (within? entries outer inner) (get base) (get r) := by
  unfold given at h
  unfold within?
  cases hlookup : entries.lookup outer with
  | none =>
    rw [hlookup] at h
    obtain rfl := Option.some.inj h
    exact ⟨by simp, fun _ => rfl⟩
  | some data =>
    rw [hlookup] at h
    cases data with
    | mapping fields => exact hinner fields r h
    | scalar | sequence => cases h

theorem AliasPass.takesNull_trailer {entries : List (String × Data)} {p : AliasPass}
    (h : AliasPass.overlay? entries = some p) :
    TakesNull (entries.lookup "trailer") ({} : AliasPass).trailer p.trailer := by
  simp only [overlay?, Option.bind_eq_bind, Option.bind_eq_some_iff, Option.guard_eq_some',
    exists_const, Option.pure_def, Option.some.injEq] at h
  obtain ⟨_, _, _, _, _, _, _, trailer, htrailer, rfl⟩ := h
  exact .of_given htrailer

theorem UmbrellaPass.takesNull_output {entries : List (String × Data)} {p : UmbrellaPass}
    (h : UmbrellaPass.overlay? entries = some p) :
    TakesNull (entries.lookup "output") ({} : UmbrellaPass).output p.output := by
  simp only [overlay?, Option.bind_eq_bind, Option.bind_eq_some_iff, Option.guard_eq_some',
    exists_const, Option.pure_def, Option.some.injEq] at h
  obtain ⟨_, output, houtput, _, _, rfl⟩ := h
  exact .of_given houtput

namespace Configuration

/-- The configuration of a mapping is what any text that holds this mapping is read as, in whatever
order its keys are written, as long as no more aliases are followed than the text may ask for. A
null takes away what is optional, and leaving its key out keeps the default. -/
theorem overlay_read_from_text {entries : List (String × Data)} {c : Configuration}
    (h : overlay? entries = some c) :
    (∀ (name text : String) (aliases : Nat), (Document.ofText text.toList).IsSingle →
      Holds (.ofText text.toList) (Document.ofText text.toList).root (.mapping entries) aliases →
      aliases ≤ (Document.ofText text.toList).aliasLimit → ofYaml name text = .ok c) ∧
    TakesNull (entries.lookup "max_arity") ({} : Configuration).maxArity c.maxArity ∧
    TakesNull (within? entries "aliases" "trailer") ({} : AliasPass).trailer c.aliases.trailer ∧
    TakesNull (within? entries "umbrella" "output") ({} : UmbrellaPass).output
      c.umbrella.output := by
  refine ⟨fun name text aliases hsingle hholds hlimit => ?_, ?_⟩
  · have hread : readText Configuration.decoder text.toList = .ok c :=
      readText_eq_ok Configuration.reads hsingle hholds hlimit h
    cases hholds with
    | mapping resolves hold order =>
      rw [ofYaml, if_neg (trim_ne_nil_of_root_mapping resolves), hread]
      rfl
  · simp only [overlay?, Option.bind_eq_bind, Option.bind_eq_some_iff, Option.guard_eq_some',
      exists_const, Option.pure_def, Option.some.injEq] at h
    obtain ⟨_, _, _, _, _, _, _, maxArity, hmaxArity, _, _, _, _, _, _, aliases, haliases, _, _,
      umbrella, humbrella, rfl⟩ := h
    refine ⟨.of_given hmaxArity, ?_, ?_⟩
    · exact .within AliasPass.trailer haliases fun _ _ => AliasPass.takesNull_trailer
    · exact .within UmbrellaPass.output humbrella fun _ _ => UmbrellaPass.takesNull_output

/-- A text with some of the keys. Two of its values are one and the same. -/
def partialText : String :=
  "undef: \x7b output: &u u.ipp \x7d\naliases:\n  trailer: ~\n  output: *u\nmax_arity: 3\n"

def partialEntries : List (String × Data) := [
  ("max_arity", .scalar .plain none "3"),
  ("aliases", .mapping [("output", .scalar .plain none "u.ipp"),
    ("trailer", .scalar .plain none "~")]),
  ("undef", .mapping [("output", .scalar .plain none "u.ipp")])]

theorem ofText_partialText : Document.ofText partialText.toList =
    { root := .mapping ⟨0, 0, 0⟩ [
        (.scalar ⟨0, 0, 0⟩ .plain none "undef", .mapping ⟨7, 0, 7⟩ [
          (.scalar ⟨9, 0, 9⟩ .plain none "output", .scalar ⟨17, 0, 17⟩ .plain none "u.ipp")]),
        (.scalar ⟨28, 1, 0⟩ .plain none "aliases", .mapping ⟨39, 2, 2⟩ [
          (.scalar ⟨39, 2, 2⟩ .plain none "trailer", .scalar ⟨48, 2, 11⟩ .plain none "~"),
          (.scalar ⟨52, 3, 2⟩ .plain none "output", .alias ⟨60, 3, 10⟩ 0)]),
        (.scalar ⟨63, 4, 0⟩ .plain none "max_arity", .scalar ⟨74, 4, 11⟩ .plain none "3")]
      slots := [(0, .scalar ⟨17, 0, 17⟩ .plain none "u.ipp")]
      fault := none
      continued := false } := by
  cbv

theorem exists_holds_partialText :
    ∃ aliases ≤ (Document.ofText partialText.toList).aliasLimit,
      Holds (.ofText partialText.toList) (Document.ofText partialText.toList).root
        (.mapping partialEntries) aliases := by
  rw [ofText_partialText]
  have hname {d : Document} {mark : Mark} {style : ScalarStyle} {tag : Option String}
      {name : String} : d.Names (.scalar mark style tag name) name :=
    Document.names_scalar_iff.2 rfl
  refine ⟨_, ?_, .mapping rfl
    (.cons hname (.mapping rfl (.cons hname (.scalar rfl) .nil) (.refl _))
      (.cons hname
        (.mapping rfl (.cons hname (.scalar rfl) (.cons hname (.scalar rfl) .nil)) (.swap _ _ _))
        (.cons hname (.scalar rfl) .nil)))
    (List.reverse_perm partialEntries)⟩
  decide

theorem overlay_read_from_text_partialText :
    overlay? partialEntries = some {
      maxArity := some 3
      aliases := { output := "u.ipp", trailer := none }
      undef := { output := "u.ipp" } } ∧
    ofYaml "c" partialText = .ok {
      maxArity := some 3
      aliases := { output := "u.ipp", trailer := none }
      undef := { output := "u.ipp" } } := by
  have hentries : overlay? partialEntries = some {
      maxArity := some 3
      aliases := { output := "u.ipp", trailer := none }
      undef := { output := "u.ipp" } } := by decide +kernel
  have hsingle : (Document.ofText partialText.toList).IsSingle := by
    rw [ofText_partialText]
    exact ⟨rfl, rfl⟩
  obtain ⟨aliases, hlimit, hholds⟩ := exists_holds_partialText
  exact ⟨hentries,
    (overlay_read_from_text hentries).1 "c" partialText aliases hsingle hholds hlimit⟩

end Configuration

end MacroFamilies
