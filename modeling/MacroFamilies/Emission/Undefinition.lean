import MacroFamilies.ArityRange
import MacroFamilies.Artifact
import MacroFamilies.Template.Basic
/-!
# Undefining every macro

Every line of an undefine template spells the macros of a family; each of them is undefined, family
by family and in ascending order of the arity.
-/

namespace MacroFamilies.Emission

def undefinitionLines (range : ArityRange) (line : Template) : Except Diagnostic (List String) :=
  range.ascending.mapM fun n => do return "#undef " ++ (← line.expand (synthesize n))

def undefinition (fileName : String) (template : Template) (range : ArityRange) :
    Except Diagnostic Artifact := do
  let blocks ← (← template.lines).mapM (undefinitionLines range)
  return ⟨fileName, blocks.flatten⟩

end MacroFamilies.Emission
