/-!
# Diagnostics

Every failure of the generator is reported as a `Diagnostic`: a kind, a message, and, where they are
known, the text it points into, the range of bytes it points at, a line of help and the underlying
cause.
-/

namespace MacroFamilies

/-- A half-open range of UTF-8 bytes of a text. -/
structure Span where
  start : Nat
  stop : Nat
  deriving DecidableEq, Repr, Inhabited

def Span.shift (by_ : Nat) (s : Span) : Span := ⟨s.start + by_, s.stop + by_⟩

def byteLength : List Char → Nat
  | [] => 0
  | c :: cs => c.utf8Size + byteLength cs

inductive ErrorKind where
  /-- A bad or inconsistent configuration. -/
  | config
  /-- An input that cannot be read or an output that cannot be written. -/
  | io
  /-- A malformed template or a placeholder without a value. -/
  | template
  /-- A failure of the generator itself. -/
  | internal
  deriving DecidableEq, Repr

def ErrorKind.name : ErrorKind → String
  | .config => "config"
  | .io => "io"
  | .template => "template"
  | .internal => "internal"

def ErrorKind.heading : ErrorKind → String
  | .config => "Configuration error"
  | .io => "I/O error"
  | .template => "Template error"
  | .internal => "Internal error"

structure SourceText where
  name : String
  text : String
  deriving DecidableEq, Repr

structure Label where
  offset : Nat
  length : Nat
  text : String
  deriving DecidableEq, Repr

/-- One failure, as it is reported. -/
structure Diagnostic where
  kind : ErrorKind
  message : String
  source : Option SourceText := none
  span : Option Span := none
  help : Option String := none
  cause : Option String := none
  deriving DecidableEq, Repr

namespace Diagnostic

def title (d : Diagnostic) : String := d.kind.heading ++ ": " ++ d.message

def code (d : Diagnostic) : String := "aritygen::" ++ d.kind.name

def withHelp (d : Diagnostic) (help : String) : Diagnostic := { d with help := some help }

/-- The range to underline: none without a source to point into, and never an empty one. -/
def label (d : Diagnostic) : Option Label :=
  match d.source, d.span with
  | some _, some span =>
    some ⟨span.start, if span.start < span.stop then span.stop - span.start else 1, d.message⟩
  | _, _ => none

def io (operation path cause help : String) : Diagnostic where
  kind := .io
  message := "failed to " ++ operation ++ " '" ++ path ++ "': " ++ cause
  help := some help
  cause := some cause

end Diagnostic

end MacroFamilies
