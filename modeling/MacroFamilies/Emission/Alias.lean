import MacroFamilies.Abbreviation
import MacroFamilies.ArityRange
import MacroFamilies.Artifact
import MacroFamilies.Template.Basic
/-!
# Short aliases

Every line of an alias template names a family, with the place of the arity. Its macro of each arity
gets a short name, which is the line shortened by the abbreviations; the long name has an underscore
in front of the arity.
-/

namespace MacroFamilies.Emission

def arityMark : List Char := "%\x7barity\x7d".toList

/-- The long name of a family line: an underscore in front of the first place of the arity. -/
def longName (line : String) : String :=
  String.ofList (Text.replaceFirst arityMark ('_' :: arityMark) line.toList)

def aliasText (rules : List Abbreviation) (line : String) : String :=
  "#define " ++ Abbreviation.shorten rules line ++ " " ++ longName line

def aliasLines (rules : List Abbreviation) (range : ArityRange) (line : Template) :
    Except Diagnostic (List String) := do
  let directive ← Template.parse line.name (aliasText rules line.text)
  range.ascending.mapM fun n => directive.expand (synthesize n)

def aliases (fileName : String) (template : Template) (rules : List Abbreviation)
    (range : ArityRange) (trailer : Option String) : Except Diagnostic Artifact := do
  let blocks ← (← template.lines).mapM (aliasLines rules range)
  return ⟨fileName, ["#pragma once", ""] ++ blocks.flatten ++ trailer.toList⟩

end MacroFamilies.Emission
