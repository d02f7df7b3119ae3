/-!
# Lines

A text is cut into lines at its line feeds. `pieces` keeps every piece, so the pieces joined by line
feeds are the text again; `lines` reads the line feed as a terminator, so a final one starts no
further line, and a carriage return in front of it belongs to the terminator.
-/

namespace MacroFamilies.Text

/-- The pieces between the line feeds of a text; a text without one is its only piece. -/
def pieces (cs : List Char) : List (List Char) := cs.splitOn '\n'

def dropReturn (cs : List Char) : List Char :=
  if cs.getLast? = some '\r' then cs.dropLast else cs

/-- The lines of a list of pieces: all but the last piece were ended by a line feed. -/
def linesOfPieces : List (List Char) → List (List Char)
  | [] => []
  | [last] => if last = [] then [] else [last]
  | p :: q :: rest => dropReturn p :: linesOfPieces (q :: rest)

def lines (cs : List Char) : List (List Char) := linesOfPieces (pieces cs)

def dropFinalBreak (cs : List Char) : List Char :=
  if cs.getLast? = some '\n' then cs.dropLast else cs

end MacroFamilies.Text
