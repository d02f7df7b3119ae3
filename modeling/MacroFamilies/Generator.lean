import MacroFamilies.ArityFile
import MacroFamilies.Configuration.Reading
import MacroFamilies.Delivery
import MacroFamilies.Emission.Alias
import MacroFamilies.Emission.Dispatch
import MacroFamilies.Emission.Repetition
import MacroFamilies.Emission.Umbrella
import MacroFamilies.Emission.Undefinition
import MacroFamilies.TemplateStore
/-!
# The generator

A generator is a configuration with the directory that its paths start at. A run reads all inputs
first and then makes every artifact; it writes nothing.
-/

namespace MacroFamilies

def ArityFile.read (path : String) : Inquiry Nat := do
  match ← Inquiry.readText path with
  | .ok text => .ofExcept (ArityFile.parse path text)
  | .error fault => throw (.io "read arity file" path fault.text
      "create it with the maximum arity, or set max_arity in the configuration")

def Configuration.read (path : String) : Inquiry Configuration := do
  match ← Inquiry.readText path with
  | .ok text => .ofExcept (Configuration.ofYaml path text)
  | .error fault => throw (.io "read config" path fault.text
      "pass --config with the path of the generator configuration")

structure Generator where
  configuration : Configuration
  /-- The directory that the paths of the configuration start at. -/
  baseDir : String
  /-- The maximum arity, whatever the configuration and the arity file say. -/
  maxArityOverride : Option Nat := none
  deriving DecidableEq, Repr

structure Inputs where
  range : ArityRange
  /-- The templates of the arity passes, in their order. -/
  arityTemplates : List Template
  dispatchTemplate : Template
  aliasTemplate : Template
  undefTemplate : Template

namespace Generator

/-- The generator of a configuration file. Paths start at the directory of the file. -/
def ofFile (path : String) : Inquiry Generator := do
  let configuration ← Configuration.read path
  return { configuration, baseDir := Path.directory path }

def ofDirectory (path : String) : Inquiry Generator :=
  ofFile (Path.join path defaultConfigurationFile)

def withMaxArity (g : Generator) (max : Option Nat) : Generator :=
  { g with maxArityOverride := max }

def outputDir (g : Generator) : String := Path.join g.baseDir g.configuration.outputDir

def store (g : Generator) : TemplateStore := ⟨Path.join g.baseDir g.configuration.templateDir⟩

/-- The maximum arity of the generator, else of the configuration, else of the arity file. -/
def maxArity (g : Generator) : Inquiry Nat :=
  match g.maxArityOverride.or g.configuration.maxArity with
  | some max => return max
  | none => ArityFile.read (Path.join g.baseDir g.configuration.arityFile)

def inputs (g : Generator) : Inquiry Inputs := do
  let max ← g.maxArity
  return {
    range := ⟨max⟩
    arityTemplates := ← g.configuration.arityPasses.mapM fun pass => g.store.load pass.template
    dispatchTemplate := ← g.store.load g.configuration.dispatch.template
    aliasTemplate := ← g.store.load g.configuration.aliases.template
    undefTemplate := ← g.store.load g.configuration.undef.template }

end Generator

namespace Configuration

def arityArtifact (c : Configuration) (range : ArityRange) (pass : ArityPass)
    (template : Template) : Except Diagnostic Artifact :=
  Emission.repetition pass.output template range pass.preamble
    (if pass.includeDispatch then some c.dispatch.output else none)

def umbrellaArtifact? (c : Configuration) (included : List Artifact) (undef : Artifact) :
    Option Artifact :=
  c.umbrella.output.map fun output =>
    Emission.umbrella output (if c.umbrella.includeUndef then included ++ [undef] else included)

/-- The artifacts of all passes: those of the arity passes, the dispatch layer, the aliases, the
undefines, and the one that includes the others. -/
def generate (c : Configuration) (inputs : Inputs) : Except Diagnostic (List Artifact) := do
  let range := inputs.range
  let repeated ← (c.arityPasses.zip inputs.arityTemplates).mapM fun (pass, template) =>
    c.arityArtifact range pass template
  let dispatch ← Emission.dispatch c.dispatch.output inputs.dispatchTemplate range c.dispatch.style
  let aliases ←
    Emission.aliases c.aliases.output inputs.aliasTemplate c.aliases.rules range c.aliases.trailer
  let undef ← Emission.undefinition c.undef.output inputs.undefTemplate range
  let included := repeated ++ [dispatch, aliases]
  return included ++ [undef] ++ (c.umbrellaArtifact? included undef).toList

end Configuration

namespace Generator

def run (g : Generator) : Inquiry (List Artifact) := do
  let inputs ← g.inputs
  .ofExcept (g.configuration.generate inputs)

def delivery (g : Generator) (artifacts : List Artifact) : Delivery :=
  .ofArtifacts g.outputDir g.configuration.banner artifacts

end Generator

end MacroFamilies
