import MacroFamilies.Yaml.Token.Name
import MacroFamilies.Yaml.Token.Scalar
/-!
# The tokens of a document

A text is read from left to right by a `Lexer`. Whether a scalar or a collection is the key of a
mapping is known only at the colon behind it, so what may become a key is remembered as a
`PendingKey`, and tokens from it on are held back until that is decided. `TokenStream.ofText` gives
the tokens that could be handed out and, where reading stopped, the fault that stopped it.
-/

namespace MacroFamilies.Yaml

/-- Something that is a mapping key if a colon follows it. -/
structure PendingKey where
  /-- Whether nothing else than a key may stand there. -/
  required : Bool
  /-- How many tokens come before it. -/
  number : Nat
  mark : Mark
  deriving DecidableEq, Repr

structure Lexer where
  /-- What is still to be read. -/
  cells : List Cell
  /-- How many tokens have been handed out. -/
  released : Nat := 0
  /-- The tokens that are held back. -/
  queue : List Token := []
  /-- The column of the innermost block collection, or -1. -/
  indent : Int := -1
  /-- The columns of the collections around it. -/
  outer : List Int := []
  /-- Whether a key may start at the next token. -/
  keyAllowed : Bool := true
  /-- The pending key of each open flow collection, innermost first, and of the block context. -/
  keys : List (Option PendingKey) := [none]
  /-- Whether the end of the text has been reached. -/
  ended : Bool := false

namespace Lexer

def inFlow (s : Lexer) : Bool := 1 < s.keys.length

def mark (s : Lexer) : Mark := place s.cells

def keyFault (s : Lexer) (key : PendingKey) : SyntaxFault :=
  faultIn .simpleKey key.mark .colonExpected s.cells

def misplaced (s : Lexer) (problem : Problem) : SyntaxFault := ⟨problem, s.mark, none⟩

def push (s : Lexer) (kind : TokenKind) (start stop : Mark) : Lexer :=
  { s with queue := s.queue ++ [⟨kind, start, stop⟩] }

def insertAt (s : Lexer) (number : Nat) (token : Token) : Lexer :=
  let n := number - s.released
  { s with queue := s.queue.take n ++ token :: s.queue.drop n }

def take (s : Lexer) (kind : TokenKind) (count : Nat) : Lexer :=
  let rest := s.cells.drop count
  { s.push kind s.mark (place rest) with cells := rest }

/-! ## Pending keys -/

def dropKey (s : Lexer) : Except SyntaxFault Lexer :=
  match s.keys with
  | some key :: rest =>
    if key.required then .error (s.keyFault key) else .ok { s with keys := none :: rest }
  | _ => .ok s

def saveKey (s : Lexer) : Except SyntaxFault Lexer := do
  if !s.keyAllowed then return s
  let s ← s.dropKey
  let key : PendingKey :=
    { required := !s.inFlow && s.indent == (s.mark.column : Int)
      number := s.released + s.queue.length
      mark := s.mark }
  return { s with keys := some key :: s.keys.drop 1 }

/-- Whether a key is too far back: on a line before, or more than 1024 bytes away. -/
def isStale (s : Lexer) (key : PendingKey) : Bool :=
  key.mark.line < s.mark.line || key.mark.index + 1024 < s.mark.index

def dropStaleKeys (s : Lexer) : Except SyntaxFault Lexer :=
  match s.keys.reverse.findSome? fun k => k.filter fun key => s.isStale key && key.required with
  | some key => .error (s.keyFault key)
  | none => .ok { s with keys := s.keys.map fun k => k.filter fun key => !s.isStale key }

/-! ## Indentation -/

def openBlock (s : Lexer) (column : Nat) (number : Option Nat) (kind : TokenKind) (mark : Mark) :
    Lexer :=
  if s.inFlow || (column : Int) ≤ s.indent then s
  else
    let s := { s with indent := column, outer := s.indent :: s.outer }
    match number with
    | none => s.push kind mark mark
    | some n => s.insertAt n ⟨kind, mark, mark⟩

/-- The columns that remain, and how many collections end, at a column. -/
def closing (column : Int) (indent : Int) : List Int → Int × List Int × Nat
  | [] => (indent, [], 0)
  | next :: rest =>
    if column < indent then
      let (i, o, n) := closing column next rest
      (i, o, n + 1)
    else (indent, next :: rest, 0)

def closeBlocks (s : Lexer) (column : Int) : Lexer :=
  if s.inFlow then s
  else
    let (indent, outer, ended) := closing column s.indent s.outer
    { s with
      indent := indent
      outer := outer
      queue := s.queue ++ List.replicate ended ⟨.blockEnd, s.mark, s.mark⟩ }

/-! ## Reading one token -/

def skipToToken : Nat → Lexer → Lexer
  | 0, s => s
  | fuel + 1, s =>
    let cells := s.cells
    let cells := if s.mark.column == 0 && head cells == '\ufeff' then cells.drop 1 else cells
    let tabs := s.inFlow || !s.keyAllowed
    let cells := skipChars (fun c => c == ' ' || (tabs && c == '\t')) cells
    let cells := if head cells == '#' then skipChars (fun c => !isBreakOrEnd c) cells else cells
    if isBreak (head cells) then
      skipToToken fuel { s with cells := cells.drop 1, keyAllowed := s.keyAllowed || !s.inFlow }
    else { s with cells := cells }

/-- Reads the end of the text, which counts as the start of a line. -/
def fetchEnd (s : Lexer) : Except SyntaxFault Lexer := do
  let mark := if s.mark.column == 0 then s.mark else s.mark.below 0
  let s := { s with cells := [{ char := endOfText, mark := mark }] }
  let s ← (s.closeBlocks (-1)).dropKey
  return { s.push .streamEnd mark mark with keyAllowed := false, ended := true }

def fetchDirective (s : Lexer) : Except SyntaxFault Lexer := do
  let s ← (s.closeBlocks (-1)).dropKey
  let (token, rest) ← readDirective s.cells
  return { s with cells := rest, queue := s.queue ++ [token], keyAllowed := false }

def fetchIndicator (s : Lexer) (kind : TokenKind) : Except SyntaxFault Lexer := do
  let s ← (s.closeBlocks (-1)).dropKey
  return { s.take kind 3 with keyAllowed := false }

def fetchFlowStart (s : Lexer) (kind : TokenKind) : Except SyntaxFault Lexer := do
  let s ← s.saveKey
  return { s.take kind 1 with keys := none :: s.keys, keyAllowed := true }

def fetchFlowEnd (s : Lexer) (kind : TokenKind) : Except SyntaxFault Lexer := do
  let s ← s.dropKey
  let keys := if s.inFlow then s.keys.drop 1 else s.keys
  return { s.take kind 1 with keys := keys, keyAllowed := false }

def fetchFlowEntry (s : Lexer) : Except SyntaxFault Lexer := do
  let s ← s.dropKey
  return { s.take .flowEntry 1 with keyAllowed := true }

def fetchBlockEntry (s : Lexer) : Except SyntaxFault Lexer := do
  if !s.inFlow && !s.keyAllowed then .error (s.misplaced .entryNotAllowed)
  let s := s.openBlock s.mark.column none .blockSequenceStart s.mark
  let s ← s.dropKey
  return { s.take .blockEntry 1 with keyAllowed := true }

def fetchKey (s : Lexer) : Except SyntaxFault Lexer := do
  if !s.inFlow && !s.keyAllowed then .error (s.misplaced .keyNotAllowed)
  let s := s.openBlock s.mark.column none .blockMappingStart s.mark
  let s ← s.dropKey
  return { s.take .key 1 with keyAllowed := !s.inFlow }

/-- Reads the colon in front of a value. A pending key becomes a key by it. -/
def fetchValue (s : Lexer) : Except SyntaxFault Lexer := do
  match s.keys with
  | some key :: rest =>
    let s := s.insertAt key.number ⟨.key, key.mark, key.mark⟩
    let s := s.openBlock key.mark.column (some key.number) .blockMappingStart key.mark
    return { s.take .value 1 with keys := none :: rest, keyAllowed := false }
  | _ =>
    if !s.inFlow && !s.keyAllowed then .error (s.misplaced .valueNotAllowed)
    let s := s.openBlock s.mark.column none .blockMappingStart s.mark
    return { s.take .value 1 with keyAllowed := !s.inFlow }

def fetchName (s : Lexer) (read : List Cell → Except SyntaxFault (Token × List Cell)) :
    Except SyntaxFault Lexer := do
  let s ← s.saveKey
  let (token, rest) ← read s.cells
  return { s with cells := rest, queue := s.queue ++ [token], keyAllowed := false }

def fetchBlockScalar (s : Lexer) (folded : Bool) : Except SyntaxFault Lexer := do
  let s ← s.dropKey
  let scalar ← blockScalar folded s.indent s.cells
  let style : ScalarStyle := if folded then .folded else .literal
  return { s.push (.scalar style scalar.text) s.mark scalar.stop with
    cells := scalar.rest, keyAllowed := true }

def fetchQuotedScalar (s : Lexer) : Except SyntaxFault Lexer := do
  let style : ScalarStyle := if head s.cells == '\'' then .singleQuoted else .doubleQuoted
  let s ← s.saveKey
  let (text, rest) ← quotedScalar s.cells
  return { s.push (.scalar style text) s.mark (place rest) with
    cells := rest, keyAllowed := false }

/-- Reads a plain scalar, which may be a key. A key may follow it on a further line. -/
def fetchPlainScalar (s : Lexer) : Except SyntaxFault Lexer := do
  let s ← s.saveKey
  let scalar ← plainScalar s.inFlow (s.indent + 1) s.cells
  return { s.push (.scalar .plain scalar.text) s.mark scalar.stop with
    cells := scalar.rest, keyAllowed := scalar.brokenAfter }

def isIndicator (c : Char) : Bool := c ∈ "-?:,[]\x7b\x7d#&*!|>'\"%@`".toList

def startsPlain (s : Lexer) : Bool :=
  let c := head s.cells
  let next := ahead 1 s.cells
  !(isSpaceOrEnd c || isIndicator c) || (c == '-' && !isSpace next) ||
    (!s.inFlow && (c == '?' || c == ':') && !isSpaceOrEnd next)

def fetchToken (s : Lexer) : Except SyntaxFault Lexer :=
  let c := head s.cells
  let blankNext := isSpaceOrEnd (ahead 1 s.cells)
  if c == endOfText then s.fetchEnd
  else if s.mark.column == 0 && c == '%' then s.fetchDirective
  else if atIndicator '-' s.cells then s.fetchIndicator .documentStart
  else if atIndicator '.' s.cells then s.fetchIndicator .documentEnd
  else if c == '[' then s.fetchFlowStart .flowSequenceStart
  else if c == '{' then s.fetchFlowStart .flowMappingStart
  else if c == ']' then s.fetchFlowEnd .flowSequenceEnd
  else if c == '}' then s.fetchFlowEnd .flowMappingEnd
  else if c == ',' then s.fetchFlowEntry
  else if c == '-' && blankNext then s.fetchBlockEntry
  else if c == '?' && (s.inFlow || blankNext) then s.fetchKey
  else if c == ':' && (s.inFlow || blankNext) then s.fetchValue
  else if c == '*' then s.fetchName (readAnchor .alias .alias)
  else if c == '&' then s.fetchName (readAnchor .anchor .anchor)
  else if c == '!' then s.fetchName (readTag s.inFlow)
  else if c == '|' && !s.inFlow then s.fetchBlockScalar false
  else if c == '>' && !s.inFlow then s.fetchBlockScalar true
  else if c == '\'' || c == '"' then s.fetchQuotedScalar
  else if s.startsPlain then s.fetchPlainScalar
  else .error (faultIn .nextToken s.mark .unexpectedCharacter s.cells)

def fetch (s : Lexer) : Except SyntaxFault Lexer := do
  let s := skipToToken s.cells.length s
  look 1 s.cells
  let s ← s.dropStaleKeys
  look 4 s.cells
  (s.closeBlocks s.mark.column).fetchToken

/-- How many of some tokens can be handed out: those in front of the first that a pending key may
still turn into a key. -/
def releasable (keys : List (Option PendingKey)) (released : Nat) : List Token → Nat
  | [] => 0
  | _ :: rest =>
    if keys.any (·.any (·.number == released)) then 0
    else releasable keys (released + 1) rest + 1

def release (s : Lexer) : List Token × Lexer :=
  let n := releasable s.keys s.released s.queue
  (s.queue.take n, { s with released := s.released + n, queue := s.queue.drop n })

end Lexer

/-- The tokens of a text, and the fault at which reading stopped. -/
structure TokenStream where
  tokens : List Token
  fault : Option SyntaxFault
  deriving Repr

namespace TokenStream

def ofLexer : Nat → Lexer → TokenStream
  | 0, _ => ⟨[], none⟩
  | fuel + 1, s =>
    match s.fetch.bind Lexer.dropStaleKeys with
    | .error fault => ⟨[], some fault⟩
    | .ok s =>
      let (tokens, s) := s.release
      if s.ended then ⟨tokens, none⟩
      else
        let more := ofLexer fuel s
        ⟨tokens ++ more.tokens, more.fault⟩

/-- Reads the tokens of a text up to the first block that holds a forbidden character. -/
def ofText (text : List Char) : TokenStream :=
  match forbidden? [] [] 0 0 text with
  | none =>
    let cells := layOut endOfText .start text
    ofLexer (cells.length + 1) { cells := cells }
  | some (index, before) =>
    let cells := layOut unreadable .start before
    let stream := ofLexer (cells.length + 1) { cells := cells }
    { stream with
      fault := stream.fault.map fun fault =>
        if fault.problem = .forbiddenCharacter then .forbidden index else fault }

end TokenStream

end MacroFamilies.Yaml
