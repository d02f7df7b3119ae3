import MacroFamilies.Configuration.Basic
import MacroFamilies.Diagnostic
import MacroFamilies.Text.Blank
import MacroFamilies.Yaml.Decode
/-!
# Reading a configuration

A configuration is written as a YAML document, whose mappings are laid over the defaults: what a
mapping gives replaces the default, and what it leaves out stays. A blank text is the default
configuration.
-/

namespace MacroFamilies

open Yaml (Decoder Field RecordShape)

def stringDecoder : Decoder String := .text "a string"

def pathDecoder : Decoder String := .text "path string"

def ArityPass.shape : RecordShape ArityPass where
  name := "ArityPass"
  fields := [
    .of "template" stringDecoder fun v p => { p with template := v },
    .of "output" stringDecoder fun v p => { p with output := v },
    .of "preamble" (.list stringDecoder) fun v p => { p with preamble := v },
    .of "include_dispatch" .boolean fun v p => { p with includeDispatch := v }]
  required := ["template", "output"]

def DispatchPass.shape : RecordShape DispatchPass where
  name := "DispatchPass"
  fields := [
    .of "template" stringDecoder fun v p => { p with template := v },
    .of "output" stringDecoder fun v p => { p with output := v },
    .of "proxy_macro" stringDecoder fun v p => { p with style.proxyMacro := v },
    .of "error_marker" stringDecoder fun v p => { p with style.errorMarker := v },
    .of "selector_prefix" stringDecoder fun v p => { p with style.selectorHead := v },
    .of "selector_suffix" stringDecoder fun v p => { p with style.selectorTail := v }]

def Abbreviation.shape : RecordShape Abbreviation where
  name := "AbbreviationRule"
  fields := [
    .of "from" stringDecoder fun v r => { r with pattern := v },
    .of "to" stringDecoder fun v r => { r with replacement := v }]
  required := ["from", "to"]
  lenient := true

def AliasPass.shape : RecordShape AliasPass where
  name := "AliasPass"
  fields := [
    .of "template" stringDecoder fun v p => { p with template := v },
    .of "output" stringDecoder fun v p => { p with output := v },
    .of "rules" (.list (Abbreviation.shape.decoder ⟨"", ""⟩)) fun v p => { p with rules := v },
    .of "trailer" (.optional stringDecoder) fun v p => { p with trailer := v }]

def UndefPass.shape : RecordShape UndefPass where
  name := "UndefPass"
  fields := [
    .of "template" stringDecoder fun v p => { p with template := v },
    .of "output" stringDecoder fun v p => { p with output := v }]

def UmbrellaPass.shape : RecordShape UmbrellaPass where
  name := "UmbrellaPass"
  fields := [
    .of "output" (.optional stringDecoder) fun v p => { p with output := v },
    .of "include_undef" .boolean fun v p => { p with includeUndef := v }]

namespace Configuration

def shape : RecordShape Configuration where
  name := "GenConfig"
  fields := [
    .of "template_dir" pathDecoder fun v c => { c with templateDir := v },
    .of "output_dir" pathDecoder fun v c => { c with outputDir := v },
    .of "arity_file" pathDecoder fun v c => { c with arityFile := v },
    .of "max_arity" (.optional .natural) fun v c => { c with maxArity := v },
    .of "banner" stringDecoder fun v c => { c with banner := v },
    .of "arity_passes" (.list (ArityPass.shape.decoder ⟨"", "", [], false⟩)) fun v c =>
      { c with arityPasses := v },
    .of "dispatch" (DispatchPass.shape.decoder {}) fun v c => { c with dispatch := v },
    .of "aliases" (AliasPass.shape.decoder {}) fun v c => { c with aliases := v },
    .of "undef" (UndefPass.shape.decoder {}) fun v c => { c with undef := v },
    .of "umbrella" (UmbrellaPass.shape.decoder {}) fun v c => { c with umbrella := v }]

def decoder : Decoder Configuration := shape.decoder {}

def diagnostic (source : SourceText) (fault : Yaml.ReadFault) : Diagnostic where
  kind := .config
  message := "invalid configuration: " ++ fault.text
  source := some source
  span := some (match fault.index? with
    | some index => ⟨index, index + 1⟩
    | none => ⟨0, 0⟩)
  help := some "see the aritygen.yaml in the demo directory for every key"
  cause := some fault.text

def ofYaml (name text : String) : Except Diagnostic Configuration :=
  if Text.trim text.toList = [] then .ok {}
  else (Yaml.readText decoder text.toList).mapError (diagnostic ⟨name, text⟩)

end Configuration

end MacroFamilies
