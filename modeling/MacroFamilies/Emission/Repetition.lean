import MacroFamilies.ArityRange
import MacroFamilies.Artifact
import MacroFamilies.Template.Basic
/-!
# Repeating a template

The repetition of a template holds one expansion for every arity, in ascending order, after a
preamble and, where asked for, in front of the inclusion of another file.
-/

namespace MacroFamilies.Emission

def repetition (fileName : String) (template : Template) (range : ArityRange)
    (preamble : List String) (included : Option String) : Except Diagnostic Artifact := do
  let blocks ← range.ascending.mapM fun n => template.expand (synthesize n)
  return ⟨fileName, preamble ++ blocks.flatMap blockLines ++ included.toList.map includeLine⟩

end MacroFamilies.Emission
