/-!
# Finding an occurrence

`offset? pattern` looks for the leftmost occurrence of `pattern` in a text and gives its offset in
UTF-8 bytes.
-/

namespace MacroFamilies.Text

/-- How many bytes of a text stand in front of the leftmost occurrence of `pattern`. -/
def offset? (pattern : List Char) : List Char → Option Nat
  | [] => if pattern = [] then some 0 else none
  | c :: rest =>
    if pattern.isPrefixOf (c :: rest) then some 0
    else (offset? pattern rest).map (c.utf8Size + ·)

end MacroFamilies.Text
