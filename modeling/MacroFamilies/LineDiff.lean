import MacroFamilies.Text.Lines
/-!
# Line differences

Two texts are compared piece by piece between their line feeds. A table holds, for every pair of
pieces, how many pieces the texts up to there have in common; reading it backwards gives the common
pieces. Every other piece was removed from the old text or added to the new one.
-/

namespace MacroFamilies.LineDiff

/-! ## Common pieces -/

/-- The row of the table that belongs to a piece of the old text. `above` is the row of the piece
before it, `corner` the cell above the one on the left, and `left` that one. -/
def row (piece : List Char) : (new : List (List Char)) → (above : List Nat) → (corner left : Nat) →
    List Nat
  | b :: new, up :: above, corner, left =>
    let cell := if piece = b then corner + 1 else max left up
    cell :: row piece new above up cell
  | _, _, _, _ => []

/-- The cells of the rows below `above`, from the last row to the first and from right to left, in
front of those that are there. -/
def cells (new : List (List Char)) : (old : List (List Char)) → (above cellsAbove : List Nat) →
    List Nat
  | [], _, cellsAbove => cellsAbove
  | a :: old, above, cellsAbove =>
    let current := row a new above 0 0
    cells new old current (current.reverse ++ cellsAbove)

/-- The common pieces of two texts, all read backwards: the cell of the first pieces comes first,
the one on its left is the next, and the one above it comes `width` cells later. -/
def trace (width : Nat) : (old new : List (List Char)) → (cells : List Nat) → List (List Char)
  | a :: old, b :: new, cells =>
    if a = b then a :: trace width old new (cells.drop (width + 1))
    else if old = [] ∨ cells.getD width 0 < cells.getD 1 0 then
      trace width (a :: old) new (cells.drop 1)
    else trace width old (b :: new) (cells.drop width)
  | [], _, _ => []
  | _, [], _ => []
termination_by old new => old.length + new.length

def common (old new : List (List Char)) : List (List Char) :=
  let zeros := List.replicate new.length 0
  (trace new.length old.reverse new.reverse (cells new old zeros [])).reverse

/-! ## Hunks -/

inductive Change where
  | same
  | removed
  | added
  deriving DecidableEq, Repr

/-- Every piece with what became of it: in front of each common piece, those that were removed and
then those that were added. -/
def changes : (common old new : List (List Char)) → List (Change × List Char)
  | [], old, new => old.map (.removed, ·) ++ new.map (.added, ·)
  | c :: common, old, new =>
    (old.takeWhile (· ≠ c)).map (.removed, ·) ++ (new.takeWhile (· ≠ c)).map (.added, ·) ++
      (.same, c) :: changes common (old.dropWhile (· ≠ c)).tail (new.dropWhile (· ≠ c)).tail

structure Hunk where
  change : Change
  pieces : List (List Char)
  deriving DecidableEq, Repr

def hunks : List (Change × List Char) → List Hunk
  | [] => []
  | (change, piece) :: rest =>
    match hunks rest with
    | hunk :: later =>
      if hunk.change = change then ⟨change, piece :: hunk.pieces⟩ :: later
      else ⟨change, [piece]⟩ :: hunk :: later
    | [] => [⟨change, [piece]⟩]

/-- The pieces of a text that can change; an empty text has none. -/
def piecesOf (text : List Char) : List (List Char) := if text = [] then [] else Text.pieces text

/-- The text between pieces that were joined by line feeds, cut again. A single empty piece is
lost. -/
def rejoined (pieces : List (List Char)) : List (List Char) := if pieces = [[]] then [] else pieces

def between (old new : List Char) : List Hunk :=
  let shared := rejoined (common (Text.pieces old) (Text.pieces new))
  hunks (changes shared (piecesOf old) (piecesOf new))

/-- The lines of a hunk: its pieces joined by line feeds, read as a text. -/
def Hunk.lines (hunk : Hunk) : List (List Char) := Text.linesOfPieces hunk.pieces

end MacroFamilies.LineDiff
