import MacroFamilies.Artifact
import MacroFamilies.Family
/-!
# The dispatch layer

For each family there is a variadic macro that counts its arguments with the family's selector and
hands them to the macro of the arity that fits.
-/

namespace MacroFamilies

def Family.dispatchLines (f : Family) (range : ArityRange) (style : DispatchStyle) :
    Except Diagnostic (List String) := do
  let base ← f.baseName
  let selector ← f.selectorName style
  let names ← f.descendingList range style
  let params ← f.selectorParams range
  return [
    "#define " ++ base ++ "(...) \\",
    "   " ++ style.proxyMacro ++ "(" ++ selector ++ ", (__VA_ARGS__, " ++ commaList names ++
      "))(__VA_ARGS__)",
    "#define " ++ selector ++ params ++ " MACRO"]

namespace Emission

def families (template : Template) : Except Diagnostic (List Family) := do
  (← template.lines).mapM Family.parse

def dispatch (fileName : String) (template : Template) (range : ArityRange)
    (style : DispatchStyle) : Except Diagnostic Artifact := do
  let blocks ← (← families template).mapM (·.dispatchLines range style)
  return ⟨fileName, ["#pragma once", ""] ++ blocks.flatten⟩

end Emission

end MacroFamilies
