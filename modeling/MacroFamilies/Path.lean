/-!
# Paths

A path is a text whose parts are separated by slashes. Paths are joined and shown as they are
written; only `parent?` overlooks empty parts and dots, which name no directory of their own.
-/

namespace MacroFamilies.Path

def pieces (path : String) : List String := (path.toList.splitOn '/').map String.ofList

def names (path : String) : List String := (pieces path).filter (· ≠ "")

def isAbsolute (path : String) : Bool := path.toList.head? == some '/'

def endsInSlash (path : String) : Bool := path.toList.getLast? == some '/'

def join (base path : String) : String :=
  if isAbsolute path then path
  else if base = "" ∨ endsInSlash base then base ++ path
  else base ++ "/" ++ path

def dropIdle (pieces : List String) : List String :=
  (pieces.reverse.dropWhile fun p => p == "" || p == ".").reverse

/-- What a path starts with, a slash or a dot, and the pieces behind it. -/
def split (path : String) : String × List String :=
  match path.toList with
  | '/' :: rest => ("/", pieces (String.ofList rest))
  | ['.'] => (".", [])
  | '.' :: '/' :: rest => (".", pieces (String.ofList ('/' :: rest)))
  | _ => ("", pieces path)

def parent? (path : String) : Option String :=
  let (lead, pieces) := split path
  match dropIdle pieces with
  | [] => if lead = "." then some "" else none
  | parts => some (lead ++ "/".intercalate (dropIdle parts.dropLast))

/-- The directory that a file of a path is in, as a path that is not empty. -/
def directory (path : String) : String :=
  match parent? path with
  | some "" | none => "."
  | some parent => parent

end MacroFamilies.Path
