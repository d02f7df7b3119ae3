import MacroFamilies.Yaml.Token.Basic
/-!
# Scalars

The three ways to write a scalar. Plain and quoted scalars fold the blanks between their words: a
run without a line break is kept, a single line feed becomes a space, and of several line breaks
the first one is dropped. A block scalar is a run of lines of one indentation, either kept or
folded.
-/

namespace MacroFamilies.Yaml

def isGap (c : Char) : Bool := isSpace c || isBreak c

def foldGap (run : List Char) : List Char :=
  match run.filter isBreak with
  | [] => run
  | first :: others =>
    if first == '\n' then (if others = [] then [' '] else others) else first :: others

/-! ## Plain scalars -/

structure PlainScalar where
  text : List Char
  /-- The place after its last character. -/
  stop : Mark
  /-- The cells behind it and the blanks that follow it. -/
  rest : List Cell
  /-- Whether those blanks hold a line break. -/
  brokenAfter : Bool

def isFlowIndicator (c : Char) : Bool := c ∈ [',', '[', ']', '{', '}']

/-- The characters of a plain scalar up to a blank or the indicator that ends it. -/
def plainRun (flow : Bool) (start : Mark) :
    List Cell → Except SyntaxFault (List Char × List Cell)
  | [] => .ok ([], [])
  | cell :: rest => do
    look 2 (cell :: rest)
    let c := cell.char
    let next := head rest
    if isSpaceOrEnd c then return ([], cell :: rest)
    else if flow && c == ':' && (isFlowIndicator next || next == '?') then
      .error (faultIn .plainScalar start .unexpectedColon (cell :: rest))
    else if (c == ':' && isSpaceOrEnd next) || (flow && isFlowIndicator c) then
      return ([], cell :: rest)
    else
      let (text, after) ← plainRun flow start rest
      return (c :: text, after)

/-- The first tab that stands in the indentation of a line, in a run of blanks. -/
def tabInIndentation? (indent : Int) (broken : Bool) : List Cell → Option Cell
  | [] => none
  | cell :: rest =>
    if broken && cell.char == '\t' && (cell.mark.column : Int) < indent then some cell
    else tabInIndentation? indent (broken || isBreak cell.char) rest

/-- Reads the words of a plain scalar and the blanks between them. `gap` is what the blanks in front
of the next word stand for. -/
def plainWords (flow : Bool) (indent : Int) (start : Mark) :
    Nat → (text gap : List Char) → (stop : Mark) → (broken : Bool) → List Cell →
      Except SyntaxFault PlainScalar
  | 0, text, _, stop, broken, cells => .ok ⟨text, stop, cells, broken⟩
  | fuel + 1, text, gap, stop, broken, cells => do
    look 4 cells
    if atIndicator '-' cells || atIndicator '.' cells || head cells == '#' then
      return ⟨text, stop, cells, broken⟩
    let (word, after) ← plainRun flow start cells
    if word = [] then return ⟨text, stop, cells, broken⟩
    let text := text ++ gap ++ word
    let stop := place after
    let blanks := after.takeWhile fun cell => isGap cell.char
    let next := after.dropWhile fun cell => isGap cell.char
    if let some tab := tabInIndentation? indent false blanks then
      .error (faultIn .plainScalar start .tabInIndentation [tab])
    else if blanks = [] then return ⟨text, stop, next, false⟩
    else
      look 1 next
      let broken := blanks.any fun cell => isBreak cell.char
      if !flow && ((place next).column : Int) < indent then return ⟨text, stop, next, broken⟩
      else plainWords flow indent start fuel text (foldGap (chars blanks)) stop broken next

/-- Reads a plain scalar; `indent` is the least column of its further lines. -/
def plainScalar (flow : Bool) (indent : Int) (cells : List Cell) :
    Except SyntaxFault PlainScalar :=
  plainWords flow indent (place cells) cells.length [] [] (place cells) false cells

/-! ## Quoted scalars -/

def simpleEscape? (c : Char) : Option Char :=
  [('0', '\x00'), ('a', '\x07'), ('b', '\x08'), ('t', '\t'), ('\t', '\t'), ('n', '\n'),
    ('v', '\x0b'), ('f', '\x0c'), ('r', '\r'), ('e', '\x1b'), (' ', ' '), ('"', '"'), ('/', '/'),
    ('\\', '\\'), ('N', '\u0085'), ('_', '\u00a0'), ('L', '\u2028'), ('P', '\u2029')].lookup c

def escapeDigits? (c : Char) : Option Nat := [('x', 2), ('u', 4), ('U', 8)].lookup c

def hexNumber? (value : Nat) : Nat → List Cell → Option Nat
  | 0, _ => some value
  | digits + 1, cells => (hexDigit? (head cells)).bind fun d =>
      hexNumber? (16 * value + d) digits (cells.drop 1)

def readEscape (start : Mark) (cells : List Cell) : Except SyntaxFault (Char × List Cell) := do
  let letter := ahead 1 cells
  let rest := cells.drop 2
  match simpleEscape? letter, escapeDigits? letter with
  | some c, _ => return (c, rest)
  | none, some digits =>
    look digits rest
    match hexNumber? 0 digits rest with
    | none => .error (faultIn .quotedText start .hexDigitExpected rest)
    | some n =>
      if n.isValidChar then return (Char.ofNat n, rest.drop digits)
      else .error (faultIn .quotedText start .invalidEscapeCode rest)
  | none, none => .error (faultIn .quotedText start .unknownEscape cells)

/-- The characters of a quoted scalar up to a blank or the closing quote, the cells behind them, and
whether they ended in an escaped line break. -/
def quotedRun (quote : Char) (start : Mark) :
    Nat → List Cell → Except SyntaxFault (List Char × List Cell × Bool)
  | 0, cells => .ok ([], cells, false)
  | fuel + 1, cells => do
    look 2 cells
    let c := head cells
    let next := ahead 1 cells
    if isSpaceOrEnd c then return ([], cells, false)
    else if quote == '\'' && c == '\'' && next == '\'' then
      let (text, after) ← quotedRun quote start fuel (cells.drop 2)
      return ('\'' :: text, after)
    else if c == quote then return ([], cells, false)
    else if quote == '"' && c == '\\' && isBreak next then
      look 3 cells
      return ([], cells.drop 2, true)
    else if quote == '"' && c == '\\' then
      let (escaped, rest) ← readEscape start cells
      let (text, after) ← quotedRun quote start fuel rest
      return (escaped :: text, after)
    else
      let (text, after) ← quotedRun quote start fuel (cells.drop 1)
      return (c :: text, after)

def quotedWords (quote : Char) (start : Mark) :
    Nat → List Cell → Except SyntaxFault (List Char × List Cell)
  | 0, cells => .error (faultIn .quotedScalar start .unexpectedEnd cells)
  | fuel + 1, cells => do
    look 4 cells
    if atIndicator '-' cells || atIndicator '.' cells then
      .error (faultIn .quotedScalar start .unexpectedIndicator cells)
    if head cells == endOfText then .error (faultIn .quotedScalar start .unexpectedEnd cells)
    let (word, after, escapedBreak) ← quotedRun quote start cells.length cells
    look 1 after
    if head after == quote then return (word, after.drop 1)
    let (blanks, next) := spanChars isGap after
    let gap := if escapedBreak then blanks.filter isBreak else foldGap blanks
    let (text, rest) ← quotedWords quote start fuel next
    return (word ++ gap ++ text, rest)

def quotedScalar (cells : List Cell) : Except SyntaxFault (List Char × List Cell) :=
  quotedWords (head cells) (place cells) (cells.length + 1) (cells.drop 1)

/-! ## Block scalars -/

inductive Chomping where
  | strip
  | clip
  | keep
  deriving DecidableEq, Repr

def chomping? (c : Char) : Option Chomping := [('+', Chomping.keep), ('-', Chomping.strip)].lookup c

def indentation? (c : Char) : Option Nat := if c.isDigit then some (c.toNat - '0'.toNat) else none

def blockHeader (start : Mark) (cells : List Cell) :
    Except SyntaxFault (Chomping × Option Nat × List Cell) := do
  let digit (rest : List Cell) : Except SyntaxFault (Option Nat × List Cell) :=
    match indentation? (head rest) with
    | some 0 => .error (faultIn .blockScalar start .zeroIndentation rest)
    | some n => .ok (some n, rest.drop 1)
    | none => .ok (none, rest)
  match chomping? (head cells) with
  | some chomping => return (chomping, ← digit (cells.drop 1))
  | none =>
    let (increment, rest) ← digit cells
    match increment, chomping? (head rest) with
    | some n, some chomping => return (chomping, some n, rest.drop 1)
    | _, _ => return (.clip, increment, rest)

/-- Skips the spaces in front of a column; without a column, all spaces. -/
def skipIndentation (column : Option Nat) : List Cell → List Cell
  | [] => []
  | cell :: rest =>
    if cell.char == ' ' && column.all (cell.mark.column < ·) then skipIndentation column rest
    else cell :: rest

structure EmptyLines where
  breaks : List Char
  /-- The deepest column that was reached. -/
  deepest : Nat
  /-- The place after the last break. -/
  stop : Mark
  rest : List Cell

def emptyLines (start : Mark) (column : Option Nat) :
    Nat → (breaks : List Char) → (deepest : Nat) → (stop : Mark) → List Cell →
      Except SyntaxFault EmptyLines
  | 0, breaks, deepest, stop, cells => .ok ⟨breaks, deepest, stop, cells⟩
  | fuel + 1, breaks, deepest, stop, cells =>
    let rest := skipIndentation column cells
    let reached := (place rest).column
    let deepest := max deepest reached
    if head rest == '\t' && column.all (reached < ·) then
      .error (faultIn .blockScalar start .tabInBlockIndentation rest)
    else if isBreak (head rest) then
      emptyLines start column fuel (breaks ++ [head rest]) deepest (place (rest.drop 1))
        (rest.drop 1)
    else do
      look 1 rest
      return ⟨breaks, deepest, stop, rest⟩

def emptyLinesFrom (start : Mark) (column : Option Nat) (cells : List Cell) :
    Except SyntaxFault EmptyLines :=
  emptyLines start column (cells.length + 1) [] 0 (place cells) cells

structure BlockScalar where
  text : List Char
  stop : Mark
  rest : List Cell

/-- Reads the lines of a block scalar. `lineBreak` ended the line before, `breaks` are those of the
empty lines since, and `indented` tells whether the line before started with a blank. -/
def blockLinesFrom (folded : Bool) (chomping : Chomping) (start : Mark) (column : Nat) :
    Nat → (text lineBreak breaks : List Char) → (indented : Bool) → (stop : Mark) → List Cell →
      Except SyntaxFault BlockScalar
  | 0, text, _, _, _, stop, cells => .ok ⟨text, stop, cells⟩
  | fuel + 1, text, lineBreak, breaks, indented, stop, cells => do
    if (place cells).column = column ∧ head cells ≠ endOfText then
      let blank := isSpace (head cells)
      let joint :=
        if folded && lineBreak.head? == some '\n' && !indented && !blank then
          (if breaks = [] then [' '] else breaks)
        else lineBreak ++ breaks
      let (line, after) := spanChars (fun c => !isBreakOrEnd c) cells
      let (lineBreak, next) :=
        if isBreak (head after) then ([head after], after.drop 1) else ([], after)
      let empty ← emptyLinesFrom start (some column) next
      blockLinesFrom folded chomping start column fuel (text ++ joint ++ line) lineBreak
        empty.breaks blank empty.stop empty.rest
    else
      let tail := match chomping with
        | .strip => []
        | .clip => lineBreak
        | .keep => lineBreak ++ breaks
      return ⟨text ++ tail, stop, cells⟩

/-- Reads a block scalar from its indicator on; `indent` is the column of the collection around it,
or -1. -/
def blockScalar (folded : Bool) (indent : Int) (cells : List Cell) :
    Except SyntaxFault BlockScalar := do
  let start := place cells
  let (chomping, increment, rest) ← blockHeader start (cells.drop 1)
  let rest := skipChars isSpace rest
  let rest := if head rest == '#' then skipChars (fun c => !isBreakOrEnd c) rest else rest
  if !isBreakOrEnd (head rest) then
    .error (faultIn .blockScalar start .commentOrBreakExpected rest)
  look 2 rest
  let rest := if isBreak (head rest) then rest.drop 1 else rest
  let asked := increment.map fun n => (if 0 ≤ indent then indent.toNat else 0) + n
  let empty ← emptyLinesFrom start asked rest
  let column := asked.getD (max empty.deepest (max (indent + 1).toNat 1))
  blockLinesFrom folded chomping start column (cells.length + 1) [] [] empty.breaks false
    empty.stop empty.rest

end MacroFamilies.Yaml
