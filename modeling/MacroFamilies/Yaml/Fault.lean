import MacroFamilies.Yaml.Mark
/-!
# Syntax faults

What can be wrong with the syntax of a document: the problem and where it was met, and what was
being read at the time and where that began.
-/

namespace MacroFamilies.Yaml

inductive Problem where
  /-- A character that may not stand in a document. -/
  | forbiddenCharacter
  | unexpectedCharacter
  | entryNotAllowed
  | keyNotAllowed
  | valueNotAllowed
  | colonExpected
  | unexpectedColon
  | tabInIndentation
  | tabInBlockIndentation
  | unexpectedEnd
  | unexpectedIndicator
  | unknownEscape
  | hexDigitExpected
  | invalidEscapeCode
  | zeroIndentation
  | commentOrBreakExpected
  | directiveNameExpected
  | nonAlphabeticDirective
  | unknownDirective
  | versionDotExpected
  | versionTooLong
  | versionExpected
  | whitespaceExpected
  | whitespaceOrBreakExpected
  | bangExpected
  | tagUriExpected
  | tagEndExpected
  | uriOctetExpected
  | leadingOctet
  | trailingOctet
  | anchorNameExpected
  | documentStartExpected
  | duplicateVersion
  | incompatibleVersion
  | duplicateTagDirective
  | undefinedTagHandle
  | nodeExpected
  | blockEntryExpected
  | blockKeyExpected
  | flowEntryExpected
  | flowPairExpected
  deriving DecidableEq, Repr

def Problem.text : Problem → String
  | .forbiddenCharacter => "control characters are not allowed"
  | .unexpectedCharacter => "found character that cannot start any token"
  | .entryNotAllowed => "block sequence entries are not allowed in this context"
  | .keyNotAllowed => "mapping keys are not allowed in this context"
  | .valueNotAllowed => "mapping values are not allowed in this context"
  | .colonExpected => "could not find expected ':'"
  | .unexpectedColon => "found unexpected ':'"
  | .tabInIndentation => "found a tab character that violates indentation"
  | .tabInBlockIndentation => "found a tab character where an indentation space is expected"
  | .unexpectedEnd => "found unexpected end of stream"
  | .unexpectedIndicator => "found unexpected document indicator"
  | .unknownEscape => "found unknown escape character"
  | .hexDigitExpected => "did not find expected hexadecimal number"
  | .invalidEscapeCode => "found invalid Unicode character escape code"
  | .zeroIndentation => "found an indentation indicator equal to 0"
  | .commentOrBreakExpected => "did not find expected comment or line break"
  | .directiveNameExpected => "could not find expected directive name"
  | .nonAlphabeticDirective => "found unexpected non-alphabetical character"
  | .unknownDirective => "found unknown directive name"
  | .versionDotExpected => "did not find expected digit or '.' character"
  | .versionTooLong => "found extremely long version number"
  | .versionExpected => "did not find expected version number"
  | .whitespaceExpected => "did not find expected whitespace"
  | .whitespaceOrBreakExpected => "did not find expected whitespace or line break"
  | .bangExpected => "did not find expected '!'"
  | .tagUriExpected => "did not find expected tag URI"
  | .tagEndExpected => "did not find the expected '>'"
  | .uriOctetExpected => "did not find URI escaped octet"
  | .leadingOctet => "found an incorrect leading UTF-8 octet"
  | .trailingOctet => "found an incorrect trailing UTF-8 octet"
  | .anchorNameExpected => "did not find expected alphabetic or numeric character"
  | .documentStartExpected => "did not find expected <document start>"
  | .duplicateVersion => "found duplicate %YAML directive"
  | .incompatibleVersion => "found incompatible YAML document"
  | .duplicateTagDirective => "found duplicate %TAG directive"
  | .undefinedTagHandle => "found undefined tag handle"
  | .nodeExpected => "did not find expected node content"
  | .blockEntryExpected => "did not find expected '-' indicator"
  | .blockKeyExpected => "did not find expected key"
  | .flowEntryExpected => "did not find expected ',' or ']'"
  | .flowPairExpected => "did not find expected ',' or '\x7d'"

inductive Activity where
  | nextToken
  | simpleKey
  | plainScalar
  | quotedScalar
  | quotedText
  | blockScalar
  | directive
  | versionDirective
  | tagDirective
  | tagDirectiveHandle
  | tagDirectiveName
  | tagDirectiveUri
  | tag
  | tagUri
  | anchor
  | alias
  | node
  | blockNode
  | flowNode
  | blockSequence
  | blockMapping
  | flowSequence
  | flowMapping
  deriving DecidableEq, Repr

def Activity.text : Activity → String
  | .nextToken => "while scanning for the next token"
  | .simpleKey => "while scanning a simple key"
  | .plainScalar => "while scanning a plain scalar"
  | .quotedScalar => "while scanning a quoted scalar"
  | .quotedText => "while parsing a quoted scalar"
  | .blockScalar => "while scanning a block scalar"
  | .directive => "while scanning a directive"
  | .versionDirective => "while scanning a %YAML directive"
  | .tagDirective => "while scanning a %TAG directive"
  | .tagDirectiveHandle => "while scanning a tag directive"
  | .tagDirectiveName => "while parsing a tag directive"
  | .tagDirectiveUri => "while parsing a %TAG directive"
  | .tag => "while scanning a tag"
  | .tagUri => "while parsing a tag"
  | .anchor => "while scanning an anchor"
  | .alias => "while scanning an alias"
  | .node => "while parsing a node"
  | .blockNode => "while parsing a block node"
  | .flowNode => "while parsing a flow node"
  | .blockSequence => "while parsing a block collection"
  | .blockMapping => "while parsing a block mapping"
  | .flowSequence => "while parsing a flow sequence"
  | .flowMapping => "while parsing a flow mapping"

/-- A problem at a place, met during an activity that began at another. -/
structure SyntaxFault where
  problem : Problem
  mark : Mark
  activity : Option (Activity × Mark) := none
  deriving DecidableEq, Repr

def Mark.suffix (m : Mark) : String := if m.atStart then "" else " at " ++ m.display

namespace SyntaxFault

def forbidden (index : Nat) : SyntaxFault := ⟨.forbiddenCharacter, ⟨index, 0, 0⟩, none⟩

/-- A fault in words. The start of the activity is left out where the problem stands there. Of a
forbidden character the byte is given. -/
def text (f : SyntaxFault) : String :=
  match f.problem with
  | .forbiddenCharacter =>
    f.problem.text ++
      if f.mark.index = 0 then "" else " at position " ++ toString f.mark.index
  | _ =>
    f.problem.text ++ f.mark.suffix ++
      match f.activity with
      | none => ""
      | some (activity, began) =>
        ", " ++ activity.text ++ if began.samePlace f.mark then "" else began.suffix

/-- The byte at which a fault is shown. A forbidden character is not shown where it stands. -/
def index (f : SyntaxFault) : Nat :=
  match f.problem with
  | .forbiddenCharacter => 0
  | _ => f.mark.index

end SyntaxFault

end MacroFamilies.Yaml
