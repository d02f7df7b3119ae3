import MacroFamilies.Diagnostic
/-!
# Segments of a template

The syntax of templates: `%` followed by a name in braces is a placeholder, `%%` is a percent sign,
and any other character, a lone `%` included, stands for itself. `Segment.scan` reads a text into
segments and `Segment.print` writes segments as text.
-/

namespace MacroFamilies

/-- A piece of a template: characters that are copied, or a placeholder with the range of bytes
that it takes in the text. -/
inductive Segment where
  | literal (text : List Char)
  | placeholder (name : String) (span : Span)
  deriving DecidableEq, Repr

/-- What can be wrong with a placeholder, with the range of bytes at fault. -/
inductive PlaceholderFault where
  /-- No closing brace follows; the range goes to the end of the text. -/
  | unterminated (span : Span)
  /-- The braces hold something else than a name. -/
  | invalidName (name : String) (span : Span)
  deriving DecidableEq, Repr

namespace Segment

/-- Names are made of ASCII letters, digits and underscores. -/
def isNameChar (c : Char) : Bool := c.isAlphanum || c == '_'

def isName (cs : List Char) : Bool := !cs.isEmpty && cs.all isNameChar

/-- Puts one literal character in front, merging it into a literal that comes first. -/
def prepend (c : Char) : List Segment → List Segment
  | .literal text :: rest => .literal (c :: text) :: rest
  | segments => .literal [c] :: segments

private theorem length_lt_of_dropWhile {p : Char → Bool} {rest tail : List Char} {c : Char}
    (h : rest.dropWhile p = c :: tail) : tail.length < rest.length := by
  have := (List.dropWhile_sublist (l := rest) p).length_le
  simp only [h, List.length_cons] at this
  omega

/-- Reads the text that starts at byte `offset` into segments, or finds the leftmost malformed
placeholder. -/
def scan (offset : Nat) (cs : List Char) : Except PlaceholderFault (List Segment) :=
  match cs with
  | [] => .ok []
  | '%' :: '%' :: rest => (scan (offset + 2) rest).map (prepend '%')
  | '%' :: '{' :: rest =>
    let name := rest.takeWhile (· != '}')
    match h : rest.dropWhile (· != '}') with
    | [] => .error (.unterminated ⟨offset, offset + byteLength cs⟩)
    | _ :: tail =>
      let span : Span := ⟨offset, offset + byteLength name + 3⟩
      if isName name then
        (scan span.stop tail).map (.placeholder (String.ofList name) span :: ·)
      else .error (.invalidName (String.ofList name) span)
  | c :: rest => (scan (offset + c.utf8Size) rest).map (prepend c)
termination_by cs.length
decreasing_by
  · simp only [List.length_cons]; omega
  · have := length_lt_of_dropWhile h
    simp only [List.length_cons]; omega
  · simp only [List.length_cons]; omega

def names : List Segment → List String
  | [] => []
  | .literal _ :: rest => names rest
  | .placeholder name _ :: rest => name :: names rest

/-- The text that is read as this segment: percent signs of a literal are doubled. -/
def print : Segment → List Char
  | .literal text => text.flatMap fun c => if c = '%' then ['%', '%'] else [c]
  | .placeholder name _ => '%' :: '{' :: name.toList ++ ['}']

structure Unfilled where
  name : String
  span : Span
  deriving DecidableEq, Repr

/-- Copies the literals and puts in the value of each placeholder; the first placeholder without
a value is reported. -/
def fill (value : String → Option String) : List Segment → Except Unfilled (List Char)
  | [] => .ok []
  | .literal text :: rest => (fill value rest).map (text ++ ·)
  | .placeholder name span :: rest =>
    match value name with
    | none => .error ⟨name, span⟩
    | some v => (fill value rest).map (v.toList ++ ·)

end Segment

def PlaceholderFault.diagnostic (source : SourceText) : PlaceholderFault → Diagnostic
  | .unterminated span =>
    { kind := .template
      message := "unterminated placeholder"
      source := some source
      span := some span
      help := some "close the placeholder with '\x7d' or write '%%' for a literal '%'" }
  | .invalidName name span =>
    { kind := .template
      message := "invalid placeholder name '" ++ name ++ "'"
      source := some source
      span := some span
      help := some "placeholder names are made of letters, digits and '_'" }

end MacroFamilies
