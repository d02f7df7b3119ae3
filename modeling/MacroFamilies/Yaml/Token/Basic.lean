import MacroFamilies.Yaml.Fault
/-!
# Tokens

A document is read as a sequence of tokens: indicators, names, scalars, and the starts and ends of
collections that indentation implies.
-/

namespace MacroFamilies.Yaml

inductive ScalarStyle where
  | plain
  | singleQuoted
  | doubleQuoted
  | literal
  | folded
  deriving DecidableEq, Repr

inductive TokenKind where
  | streamStart
  | streamEnd
  | versionDirective (major minor : Nat)
  | tagDirective (handle lead : List Char)
  | documentStart
  | documentEnd
  | blockSequenceStart
  | blockMappingStart
  | blockEnd
  | flowSequenceStart
  | flowSequenceEnd
  | flowMappingStart
  | flowMappingEnd
  | blockEntry
  | flowEntry
  | key
  | value
  | alias (name : List Char)
  | anchor (name : List Char)
  | tag (handle suffix : List Char)
  | scalar (style : ScalarStyle) (text : List Char)
  deriving DecidableEq, Repr

structure Token where
  kind : TokenKind
  start : Mark
  stop : Mark
  deriving DecidableEq, Repr

def Token.is (token : Token) (kind : TokenKind) : Bool := token.kind == kind

def unreadableFault (cells : List Cell) : SyntaxFault :=
  ⟨.forbiddenCharacter, place cells, none⟩

def faultIn (activity : Activity) (began : Mark) (problem : Problem) (cells : List Cell) :
    SyntaxFault :=
  if head cells == unreadable then unreadableFault cells
  else ⟨problem, place cells, some (activity, began)⟩

def look : Nat → List Cell → Except SyntaxFault Unit
  | 0, _ | _, [] => .ok ()
  | n + 1, cell :: rest =>
    if cell.char == unreadable then .error (unreadableFault (cell :: rest))
    else look (n + 1 - cell.width) rest

/-- ASCII letters, digits, underscore and hyphen: the characters of names. -/
def isWordChar (c : Char) : Bool := c.isAlphanum || c == '_' || c == '-'

def hexDigit? (c : Char) : Option Nat :=
  if '0' ≤ c ∧ c ≤ '9' then some (c.toNat - '0'.toNat)
  else if 'a' ≤ c ∧ c ≤ 'f' then some (c.toNat - 'a'.toNat + 10)
  else if 'A' ≤ c ∧ c ≤ 'F' then some (c.toNat - 'A'.toNat + 10)
  else none

end MacroFamilies.Yaml
