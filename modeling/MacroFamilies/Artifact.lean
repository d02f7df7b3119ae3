import MacroFamilies.Text.Lines
/-!
# Artifacts

An artifact is what one pass produces for one destination: a file name and the lines of the file.
-/

namespace MacroFamilies

structure Artifact where
  /-- The destination, relative to the output directory. -/
  fileName : String
  lines : List String
  deriving DecidableEq, Repr

/-- The lines of a block of text; a single line feed at its end starts no further line. -/
def blockLines (text : String) : List String :=
  (Text.pieces (Text.dropFinalBreak text.toList)).map String.ofList

def includeLine (fileName : String) : String := "#include \"" ++ fileName ++ "\""

namespace Artifact

def empty (fileName : String) : Artifact := ⟨fileName, []⟩

def append (a : Artifact) (lines : List String) : Artifact := { a with lines := a.lines ++ lines }

def pushLine (a : Artifact) (line : String) : Artifact := a.append [line]

def pushBlock (a : Artifact) (text : String) : Artifact := a.append (blockLines text)

def pushInclude (a : Artifact) (fileName : String) : Artifact := a.pushLine (includeLine fileName)

/-- The contents of the file: the banner, then every line ended by a line feed. -/
def render (a : Artifact) (banner : String) : String :=
  banner ++ String.join (a.lines.map (· ++ "\n"))

end Artifact

end MacroFamilies
