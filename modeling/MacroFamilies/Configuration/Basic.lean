import MacroFamilies.Abbreviation
import MacroFamilies.Family
/-!
# The configuration of the generator

A configuration says where templates are and where artifacts go, and describes the passes. Every
part has a default, and together the defaults describe the layout of message macros.
-/

namespace MacroFamilies

/-- One template that is repeated for every arity. -/
structure ArityPass where
  template : String
  output : String
  /-- Lines in front of the first expansion. -/
  preamble : List String := []
  /-- Whether the artifact ends by including the dispatch artifact. -/
  includeDispatch : Bool := false
  deriving DecidableEq, Repr

structure DispatchPass where
  template : String := "no_arity_message_macros_template"
  output : String := "no_arity_message_macros.ipp"
  style : DispatchStyle := {}
  deriving DecidableEq, Repr

structure AliasPass where
  template : String := "short_message_macros_template"
  output : String := "short_message_macros.ipp"
  rules : List Abbreviation := Abbreviation.messageDefaults
  /-- A line behind the last alias. -/
  trailer : Option String := some "#define DEF_MSG DYNAMIX_DEFINE_MESSAGE"
  deriving DecidableEq, Repr

structure UndefPass where
  template : String := "undef_message_macros_template"
  output : String := "undef_message_macros.ipp"
  deriving DecidableEq, Repr

structure UmbrellaPass where
  /-- Without an output there is no such artifact. -/
  output : Option String := some "message_macros.ipp"
  includeUndef : Bool := false
  deriving DecidableEq, Repr

def defaultBanner : String :=
  "//\n// this file is automatically generated by aritygen\n" ++
    "// edit the templates and regenerate instead of editing it by hand\n//\n\n"

def defaultArityPasses : List ArityPass := [
  { template := "message_macros_template"
    output := "template_message_macros.ipp"
    includeDispatch := true },
  { template := "arity_message_macros_template"
    output := "arity_message_macros.ipp"
    preamble := ["#include <limits>", "#include <type_traits>"] }]

/-- The configuration of a run. Relative paths start at the directory of the configuration. -/
structure Configuration where
  templateDir : String := "."
  outputDir : String := "gen"
  /-- The file that holds the maximum arity, where that is not given here. -/
  arityFile : String := "arity"
  maxArity : Option Nat := none
  banner : String := defaultBanner
  arityPasses : List ArityPass := defaultArityPasses
  dispatch : DispatchPass := {}
  aliases : AliasPass := {}
  undef : UndefPass := {}
  umbrella : UmbrellaPass := {}
  deriving DecidableEq, Repr

def defaultConfigurationFile : String := "aritygen.yaml"

end MacroFamilies
