/-!
# Replacing an occurrence

`replaceFirst pattern replacement text` puts `replacement` in place of the leftmost `pattern`.
-/

namespace MacroFamilies.Text

/-- Replaces the leftmost occurrence of `pattern`; a text without one stays as it is. -/
def replaceFirst (pattern replacement : List Char) : List Char → List Char
  | [] => if pattern = [] then replacement else []
  | c :: rest =>
    match List.isPrefixOf? pattern (c :: rest) with
    | some tail => replacement ++ tail
    | none => c :: replaceFirst pattern replacement rest

def replaceChar (old new : Char) (cs : List Char) : List Char :=
  cs.map fun c => if c = old then new else c

end MacroFamilies.Text
