import MacroFamilies.Template.Segment
import MacroFamilies.ParameterSet.Synthesis
import MacroFamilies.Text.Blank
import MacroFamilies.Text.Lines
/-!
# Templates

A template is a named text together with its segments, which are the reading of that text. It is
expanded by giving every placeholder a value, and it can be cut into one template for each line.
-/

namespace MacroFamilies

/-- A text that has been read into segments. -/
structure Template where
  /-- How diagnostics call the template. -/
  name : String
  text : String
  segments : List Segment
  /-- The segments are those of the text. -/
  segments_eq : Segment.scan 0 text.toList = .ok segments

namespace Template

def source (t : Template) : SourceText := ⟨t.name, t.text⟩

def parse (name text : String) : Except Diagnostic Template :=
  match h : Segment.scan 0 text.toList with
  | .ok segments => .ok ⟨name, text, segments, h⟩
  | .error fault => .error (fault.diagnostic ⟨name, text⟩)

def placeholders (t : Template) : List String := Segment.names t.segments

def unfilled (t : Template) (keys : List String) (u : Segment.Unfilled) : Diagnostic where
  kind := .template
  message := "placeholder '" ++ u.name ++ "' has no value"
  source := some t.source
  span := some u.span
  help := some ("available keys: " ++ commaList keys)

def expand (t : Template) (params : ParameterSet) : Except Diagnostic String :=
  match Segment.fill params.get? t.segments with
  | .ok text => .ok (String.ofList text)
  | .error u => .error (t.unfilled params.keys u)

/-- The lines of a text that are not blank, without their margins, each with its number counted
from `first`. -/
def numberedLines (first : Nat) : List (List Char) → List (Nat × List Char)
  | [] => []
  | line :: rest =>
    let trimmed := Text.trim line
    if trimmed = [] then numberedLines (first + 1) rest
    else (first, trimmed) :: numberedLines (first + 1) rest

/-- One template for each line that is not blank, named after the template and its line number. -/
def lines (t : Template) : Except Diagnostic (List Template) :=
  (numberedLines 1 (Text.lines t.text.toList)).mapM fun (number, line) =>
    parse (t.name ++ ":" ++ toString number) (String.ofList line)

end Template

end MacroFamilies
