import MacroFamilies.Yaml.Token.Basic
/-!
# Anchors, tags and directives

The tokens that hold names. Each reader starts at the first cell of its token and gives the token
and the cells behind it.
-/

namespace MacroFamilies.Yaml

/-! ## Anchors and aliases -/

def endsAnchor (c : Char) : Bool :=
  isSpaceOrEnd c || c ∈ ['?', ':', ',', ']', '}', '%', '@', '\x60']

def readAnchor (activity : Activity) (kind : List Char → TokenKind) (cells : List Cell) :
    Except SyntaxFault (Token × List Cell) := do
  let (name, rest) := spanChars isWordChar (cells.drop 1)
  look 1 rest
  if name = [] ∨ !endsAnchor (head rest) then
    .error (faultIn activity (place cells) .anchorNameExpected rest)
  return (⟨kind name, place cells, place rest⟩, rest)

/-! ## Tags -/

/-- Characters of a tag's suffix; a tag in angle brackets and the text of a directive may also hold
flow indicators. -/
def isUriChar (wide : Bool) (c : Char) : Bool :=
  isWordChar c || c ∈ ";/?:@&=+$.%!~*'()".toList || (wide && c ∈ [',', '[', ']'])

def announcedOctets? (octet : Nat) : Option Nat :=
  if octet < 0x80 then some 1
  else if 0xC0 ≤ octet ∧ octet < 0xE0 then some 2
  else if 0xE0 ≤ octet ∧ octet < 0xF0 then some 3
  else if 0xF0 ≤ octet ∧ octet < 0xF8 then some 4
  else none

def readOctet (activity : Activity) (start : Mark) (cells : List Cell) :
    Except SyntaxFault (Nat × List Cell) := do
  look 3 cells
  match (if head cells == '%' then hexNumber? (cells.drop 1) else none) with
  | some octet => return (octet, cells.drop 3)
  | none => .error (faultIn activity start .uriOctetExpected cells)
where
  /-- The number written by two hexadecimal digits. -/
  hexNumber? (digits : List Cell) : Option Nat := do
    return 16 * (← hexDigit? (head digits)) + (← hexDigit? (ahead 1 digits))

def readTrailingOctets (activity : Activity) (start : Mark) :
    Nat → List Cell → Except SyntaxFault (List Char × List Cell)
  | 0, cells => .ok ([], cells)
  | more + 1, cells => do
    let (octet, rest) ← readOctet activity start cells
    if octet / 0x40 ≠ 2 then .error (faultIn activity start .trailingOctet cells)
    let (octets, after) ← readTrailingOctets activity start more rest
    return (Char.ofNat octet :: octets, after)

/-- Reads an escaped character; each of its octets is kept as a character of its own, which is
enough to compare tags with ASCII names. -/
def readUriEscape (activity : Activity) (start : Mark) (cells : List Cell) :
    Except SyntaxFault (List Char × List Cell) := do
  let (octet, rest) ← readOctet activity start cells
  match announcedOctets? octet with
  | none => .error (faultIn activity start .leadingOctet cells)
  | some n =>
    let (octets, after) ← readTrailingOctets activity start (n - 1) rest
    return (Char.ofNat octet :: octets, after)

def readUriChars (wide : Bool) (activity : Activity) (start : Mark) :
    Nat → List Cell → Except SyntaxFault (List Char × List Cell)
  | 0, cells => .ok ([], cells)
  | fuel + 1, cells => do
    let c := head cells
    if !isUriChar wide c then return ([], cells)
    let (part, rest) ← if c == '%' then readUriEscape activity start cells
      else pure ([c], cells.drop 1)
    let (text, after) ← readUriChars wide activity start fuel rest
    return (part ++ text, after)

/-- Reads a tag's suffix, which continues `lead`. Without a lead it must not be empty. What stands
behind an escaped NUL is no part of it. -/
def readUri (wide : Bool) (activity : Activity) (start : Mark) (lead : List Char)
    (cells : List Cell) : Except SyntaxFault (List Char × List Cell) := do
  let (text, rest) ← readUriChars wide activity start cells.length cells
  if lead = [] ∧ text = [] then .error (faultIn activity start .tagUriExpected rest)
  return ((lead.drop 1 ++ text).takeWhile (· != '\x00'), rest)

/-- Reads the handle of a tag: a bang, and a word that a second bang may close. -/
def readHandle (inDirective : Bool) (start : Mark) (cells : List Cell) :
    Except SyntaxFault (List Char × List Cell) :=
  if head cells != '!' then
    .error (faultIn (if inDirective then .tagDirectiveHandle else .tag) start .bangExpected cells)
  else
    let (word, rest) := spanChars isWordChar (cells.drop 1)
    if head rest == '!' then .ok ('!' :: word ++ ['!'], rest.drop 1)
    else if inDirective && word ≠ [] then
      .error (faultIn .tagDirectiveName start .bangExpected rest)
    else .ok ('!' :: word, rest)

def readTagParts (start : Mark) (cells : List Cell) :
    Except SyntaxFault (List Char × List Char × List Cell) := do
  if ahead 1 cells == '<' then
    let (uri, rest) ← readUri true .tagUri start [] (cells.drop 2)
    if head rest != '>' then .error (faultIn .tag start .tagEndExpected rest)
    return ([], uri, rest.drop 1)
  let (handle, rest) ← readHandle false start cells
  if 2 ≤ handle.length ∧ handle.getLast? = some '!' then
    let (suffix, rest) ← readUri false .tagUri start [] rest
    return (handle, suffix, rest)
  let (suffix, rest) ← readUri false .tagUri start handle rest
  return if suffix = [] then ([], ['!'], rest) else (['!'], suffix, rest)

def readTag (flow : Bool) (cells : List Cell) : Except SyntaxFault (Token × List Cell) := do
  let start := place cells
  let (handle, suffix, rest) ← readTagParts start cells
  look 1 rest
  if !(flow && head rest == ',') && !isSpaceOrEnd (head rest) then
    .error (faultIn .tag start .whitespaceOrBreakExpected rest)
  return (⟨.tag handle suffix, start, place rest⟩, rest)

/-! ## Directives -/

def readVersionNumber (start : Mark) (cells : List Cell) :
    Except SyntaxFault (Nat × List Cell) :=
  let (digits, rest) := spanChars Char.isDigit cells
  if digits = [] then .error (faultIn .versionDirective start .versionExpected cells)
  else if 9 < digits.length then
    .error (faultIn .versionDirective start .versionTooLong (cells.drop 9))
  else .ok (digits.foldl (fun n c => 10 * n + (c.toNat - '0'.toNat)) 0, rest)

def readVersion (start : Mark) (cells : List Cell) :
    Except SyntaxFault (TokenKind × List Cell) := do
  let (major, rest) ← readVersionNumber start (skipChars isSpace cells)
  if head rest != '.' then .error (faultIn .versionDirective start .versionDotExpected rest)
  let (minor, rest) ← readVersionNumber start (rest.drop 1)
  return (.versionDirective major minor, rest)

def readTagDefinition (start : Mark) (cells : List Cell) :
    Except SyntaxFault (TokenKind × List Cell) := do
  let (handle, rest) ← readHandle true start (skipChars isSpace cells)
  if !isSpace (head rest) then .error (faultIn .tagDirective start .whitespaceExpected rest)
  let (lead, rest) ← readUri true .tagDirectiveUri start [] (skipChars isSpace rest)
  look 1 rest
  if !isSpaceOrEnd (head rest) then
    .error (faultIn .tagDirective start .whitespaceOrBreakExpected rest)
  return (.tagDirective handle lead, rest)

def readDirective (cells : List Cell) : Except SyntaxFault (Token × List Cell) := do
  let start := place cells
  let (name, rest) := spanChars isWordChar (cells.drop 1)
  if name = [] then .error (faultIn .directive start .directiveNameExpected rest)
  if !isSpaceOrEnd (head rest) then .error (faultIn .directive start .nonAlphabeticDirective rest)
  let (kind, rest) ←
    if name = "YAML".toList then readVersion start rest
    else if name = "TAG".toList then readTagDefinition start rest
    else .error (faultIn .directive start .unknownDirective rest)
  let stop := place rest
  let rest := skipChars isSpace rest
  let rest := if head rest == '#' then skipChars (fun c => !isBreakOrEnd c) rest else rest
  if !isBreakOrEnd (head rest) then
    .error (faultIn .directive start .commentOrBreakExpected rest)
  look 2 rest
  return (⟨kind, start, stop⟩, if isBreak (head rest) then rest.drop 1 else rest)

end MacroFamilies.Yaml
