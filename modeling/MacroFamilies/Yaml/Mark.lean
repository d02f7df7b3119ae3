/-!
# Places in a document

A mark counts bytes, lines and characters from zero. A text is laid out as cells, one for each
character with the mark at which it stands. Every line break but the line and paragraph separators
is laid out as a line feed, and the last cell is a NUL that stands for the end of the text.

Some characters may not stand in a document at all. A text is read in blocks of bytes, and such a
character is found as soon as a character of its block is asked for. So the cells of a text that
holds one end in front of its block, with a cell that stands for what cannot be read.
-/

namespace MacroFamilies.Yaml

structure Mark where
  /-- Bytes before the place. -/
  index : Nat
  /-- Line breaks before the place. -/
  line : Nat
  /-- Characters before the place on its line. -/
  column : Nat
  deriving DecidableEq, Repr, Inhabited

namespace Mark

def start : Mark := ⟨0, 0, 0⟩

def atStart (m : Mark) : Bool := m.line == 0 && m.column == 0

def samePlace (m n : Mark) : Bool := m.line == n.line && m.column == n.column

def display (m : Mark) : String :=
  "line " ++ toString (m.line + 1) ++ " column " ++ toString (m.column + 1)

def right (m : Mark) (bytes : Nat) : Mark := ⟨m.index + bytes, m.line, m.column + 1⟩

def below (m : Mark) (bytes : Nat) : Mark := ⟨m.index + bytes, m.line + 1, 0⟩

end Mark

structure Cell where
  char : Char
  mark : Mark
  /-- The number of characters of the text that it stands for. -/
  width : Nat := 1
  deriving DecidableEq, Repr, Inhabited

def endOfText : Char := '\x00'

/-- The character of a last cell behind which nothing can be read; no text holds it. -/
def unreadable : Char := '\uffff'

def isBreak (c : Char) : Bool := c == '\n' || c == '\u2028' || c == '\u2029'

def isSpace (c : Char) : Bool := c == ' ' || c == '\t'

def isBreakOrEnd (c : Char) : Bool := isBreak c || c == endOfText || c == unreadable

def isSpaceOrEnd (c : Char) : Bool := isSpace c || isBreakOrEnd c

/-- Lays out a text from a place on, with a last cell of a character. -/
def layOut (last : Char) (m : Mark) : List Char → List Cell
  | [] => [{ char := last, mark := m }]
  | '\r' :: '\n' :: rest =>
    { char := '\n', mark := m, width := 2 } :: layOut last (m.below 2) rest
  | '\n' :: rest => { char := '\n', mark := m } :: layOut last (m.below 1) rest
  | '\r' :: rest => { char := '\n', mark := m } :: layOut last (m.below 1) rest
  | '\u0085' :: rest => { char := '\n', mark := m } :: layOut last (m.below 2) rest
  | c :: rest =>
    { char := c, mark := m } ::
      layOut last (if isBreak c then m.below c.utf8Size else m.right c.utf8Size) rest

def place : List Cell → Mark
  | [] => .start
  | cell :: _ => cell.mark

def head : List Cell → Char
  | [] => endOfText
  | cell :: _ => cell.char

def ahead (n : Nat) (cells : List Cell) : Char := head (cells.drop n)

def chars (cells : List Cell) : List Char := cells.map (·.char)

def spanChars (p : Char → Bool) (cells : List Cell) : List Char × List Cell :=
  (chars (cells.takeWhile fun cell => p cell.char), cells.dropWhile fun cell => p cell.char)

def skipChars (p : Char → Bool) (cells : List Cell) : List Cell :=
  cells.dropWhile fun cell => p cell.char

/-- Whether a line that is a document indicator starts here: three times the same mark, and nothing
but blanks or the end behind it. -/
def atIndicator (c : Char) (cells : List Cell) : Bool :=
  (place cells).column == 0 && head cells == c && ahead 1 cells == c && ahead 2 cells == c &&
    isSpaceOrEnd (ahead 3 cells)

def isAllowed (c : Char) : Bool :=
  let n := c.toNat
  n == 0x09 || n == 0x0A || n == 0x0D || (0x20 ≤ n && n ≤ 0x7E) || n == 0x85 ||
    (0xA0 ≤ n && n ≤ 0xD7FF) || (0xE000 ≤ n && n ≤ 0xFFFD) || (0x10000 ≤ n && n ≤ 0x10FFFF)

def blockSize : Nat := 16384

/-- The first character that is not allowed: the byte at which it stands, and the characters in
front of its block. `block` holds the characters of the current block so far, the last first. A
character that does not fit into a block starts the next one. -/
def forbidden? (before block : List Char) (start index : Nat) : List Char → Option (Nat × List Char)
  | [] => none
  | c :: rest =>
    let fits := index + c.utf8Size ≤ start + blockSize
    let (before, block, start) :=
      if fits then (before, block, start) else (block ++ before, [], index)
    if isAllowed c then forbidden? before (c :: block) start (index + c.utf8Size) rest
    else some (index, before.reverse)

end MacroFamilies.Yaml
