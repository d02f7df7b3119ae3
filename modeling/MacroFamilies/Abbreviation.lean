import MacroFamilies.Text.Replace
/-!
# Abbreviations

A table of abbreviations shortens a name by applying its rules one after another, each to what the
rule before it left.
-/

namespace MacroFamilies

structure Abbreviation where
  /-- The text to be replaced; the empty text is never replaced. -/
  pattern : String
  replacement : String
  deriving DecidableEq, Repr

namespace Abbreviation

def apply (rule : Abbreviation) (text : String) : String :=
  if rule.pattern = "" then text
  else String.ofList
    (Text.replaceFirst rule.pattern.toList rule.replacement.toList text.toList)

def shorten (rules : List Abbreviation) (text : String) : String :=
  rules.foldl (fun t rule => rule.apply t) text

def messageDefaults : List Abbreviation := [
  ⟨"DYNAMIX_V1_", ""⟩,
  ⟨"MESSAGE", "MSG"⟩,
  ⟨"CONST", "C"⟩,
  ⟨"MULTICAST", "MULTI"⟩,
  ⟨"EXPORTED", "X"⟩,
  ⟨"OVERLOAD", "OVLD"⟩,
  ⟨"WITH_DEFAULT_IMPL", "IMPL"⟩,
  ⟨"DEFINE", "DEF"⟩]

end Abbreviation

end MacroFamilies
