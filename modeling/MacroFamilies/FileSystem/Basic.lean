import MacroFamilies.FileSystem.Fault
import MacroFamilies.Path
/-!
# File systems

A file system assigns files and directories to locations, which are lists of names from the root. It
holds no links and no permissions: a location is the same file under every path that leads to it,
and whatever is there can be read, written and removed. Paths are followed
name by name from the working directory, as the system does it: a name is looked up in a directory
only, a dot stays, and two dots go back.
-/

namespace MacroFamilies

/-- The names from the root to a file or directory. -/
abbrev Location := List String

inductive Entry where
  | file (contents : ByteArray)
  | directory

def Entry.isDirectory : Entry → Bool
  | .file _ => false
  | .directory => true

/-- Files and directories by location, and the directory that relative paths start at. -/
structure FileSystem where
  workingDirectory : Location := []
  entries : List (Location × Entry) := []

namespace FileSystem

def lookup? (fs : FileSystem) (location : Location) : Option Entry :=
  if location = [] then some .directory else fs.entries.lookup location

def hasDirectory (fs : FileSystem) (location : Location) : Bool :=
  (fs.lookup? location).any Entry.isDirectory

def contents? (fs : FileSystem) (location : Location) : Option ByteArray :=
  match fs.lookup? location with
  | some (.file contents) => some contents
  | _ => none

private theorem lookup_filter_ne {location other : Location} (h : other ≠ location)
    (entries : List (Location × Entry)) :
    (entries.filter (·.1 ≠ location)).lookup other = entries.lookup other := by
  induction entries with
  | nil => rfl
  | cons e rest ih =>
    obtain ⟨l, entry⟩ := e
    by_cases hl : l = location
    · subst hl
      have hne : (other == l) = false := by simpa using h
      simpa [List.lookup_cons, hne] using ih
    · simp only [List.filter_cons, ne_eq, hl, not_false_eq_true, decide_true, if_true,
        List.lookup_cons, ih]

/-- Puts an entry at a location, in place of what is there. -/
def put (fs : FileSystem) (location : Location) (entry : Entry) : FileSystem :=
  { fs with entries := (location, entry) :: fs.entries.filter (·.1 ≠ location) }

def erase (fs : FileSystem) (location : Location) : FileSystem :=
  { fs with entries := fs.entries.filter (·.1 ≠ location) }

theorem lookup?_put {fs : FileSystem} {location : Location} (h : location ≠ []) (entry : Entry)
    (other : Location) :
    (fs.put location entry).lookup? other =
      if other = location then some entry else fs.lookup? other := by
  by_cases ho : other = location
  · subst ho
    simp [lookup?, put, h]
  · by_cases hr : other = []
    · simp [lookup?, hr, Ne.symm h]
    · simp only [lookup?, put, hr, ho, if_false, List.lookup_cons]
      rw [show (other == location) = false by simpa using ho]
      exact lookup_filter_ne ho fs.entries

theorem lookup?_erase {fs : FileSystem} {location : Location} (h : location ≠ [])
    (other : Location) :
    (fs.erase location).lookup? other = if other = location then none else fs.lookup? other := by
  by_cases ho : other = location
  · subst ho
    simpa [lookup?, erase, h, List.lookup_eq_none_iff] using fun l _ _ hl => Ne.symm hl
  · by_cases hr : other = []
    · simp [lookup?, hr, Ne.symm h]
    · simpa [lookup?, erase, hr, ho] using lookup_filter_ne ho fs.entries

/-! ## Following paths -/

def maxNameBytes : Nat := 255

def maxPathBytes : Nat := 4095

def checkPath (path : String) : Except SystemFault Unit :=
  if '\x00' ∈ path.toList then .error .nulInPath
  else if path = "" then .error .notFound
  else if maxPathBytes < path.utf8ByteSize then .error .nameTooLong
  else .ok ()

def step (fs : FileSystem) (location : Location) (name : String) :
    Except SystemFault Location :=
  match fs.lookup? location with
  | none => .error .notFound
  | some (.file _) => .error .notADirectory
  | some .directory =>
    if name = "." then .ok location
    else if name = ".." then .ok location.dropLast
    else if maxNameBytes < name.utf8ByteSize then .error .nameTooLong
    else if (fs.lookup? (location ++ [name])).isSome then .ok (location ++ [name])
    else .error .notFound

def walk (fs : FileSystem) (location : Location) (names : List String) :
    Except SystemFault Location :=
  names.foldlM fs.step location

def origin (fs : FileSystem) (path : String) : Location :=
  if Path.isAbsolute path then [] else fs.workingDirectory

/-- The location that a path leads to. A path that ends in a slash must lead to a directory. -/
def resolve (fs : FileSystem) (path : String) : Except SystemFault Location := do
  checkPath path
  let location ← fs.walk (fs.origin path) (Path.names path)
  match Path.endsInSlash path, fs.lookup? location with
  | true, some (.file _) => .error .notADirectory
  | _, _ => return location

/-- Where something of a path can be made: the directory that it would be in, and its name there.
There is no such name if the path ends in dots. -/
def resolveNew (fs : FileSystem) (path : String) :
    Except SystemFault (Location × Option String) := do
  checkPath path
  let names := Path.names path
  let parent ← fs.walk (fs.origin path) names.dropLast
  match fs.lookup? parent with
  | some .directory =>
    return (parent, names.getLast?.filter fun name => name ≠ "." ∧ name ≠ "..")
  | some (.file _) => .error .notADirectory
  | none => .error .notFound

def isDirectory (fs : FileSystem) (path : String) : Bool :=
  match fs.resolve path with
  | .ok location => fs.hasDirectory location
  | .error _ => false

/-! ## Reading -/

def read (fs : FileSystem) (path : String) : Except SystemFault ByteArray := do
  let location ← fs.resolve path
  match fs.lookup? location with
  | some (.file contents) => return contents
  | some .directory => .error .isADirectory
  | none => .error .notFound

def readText (fs : FileSystem) (path : String) : Except SystemFault String := do
  match String.fromUTF8? (← fs.read path) with
  | some text => return text
  | none => .error .notText

/-- The entries below a location, in the order of their locations, each with the names that lead
there from it. -/
def below (fs : FileSystem) (location : Location) : List (Location × Entry) :=
  (fs.entries.filterMap fun (l, entry) =>
    match List.isPrefixOf? location l with
    | some (name :: names) => some (name :: names, entry)
    | _ => none).mergeSort fun a b => !(b.1 < a.1)

/-- The names that lead to each file from the one that a path leads to, or below it. -/
def listFiles (fs : FileSystem) (path : String) : Except SystemFault (List Location) := do
  let location ← fs.resolve path
  match fs.lookup? location with
  | some (.file _) => return [[]]
  | _ => return (fs.below location).filterMap fun (names, entry) =>
      if entry.isDirectory then none else some names

/-! ## Changing -/

def makeDirectory (fs : FileSystem) (path : String) : Except SystemFault FileSystem := do
  let (parent, name?) ← fs.resolveNew path
  match name? with
  | none => .error .alreadyExists
  | some name =>
    if maxNameBytes < name.utf8ByteSize then .error .nameTooLong
    else if (fs.lookup? (parent ++ [name])).isSome then .error .alreadyExists
    else return fs.put (parent ++ [name]) .directory

/-- Makes a directory and those that it is to be in, as far as they are missing; `depth` bounds the
number of parents. -/
def makeDirectoriesUpTo : (depth : Nat) → FileSystem → String → FileSystem × Except SystemFault Unit
  | 0, fs, _ => (fs, .error .nameTooLong)
  | depth + 1, fs, path =>
    if path = "" then (fs, .ok ())
    else match fs.makeDirectory path, Path.parent? path with
      | .ok made, _ => (made, .ok ())
      | .error .notFound, some parent =>
        match makeDirectoriesUpTo depth fs parent with
        | (fs, .error fault) => (fs, .error fault)
        | (fs, .ok ()) =>
          match fs.makeDirectory path with
          | .ok made => (made, .ok ())
          | .error fault => (fs, if fs.isDirectory path then .ok () else .error fault)
      | .error fault, _ => (fs, if fs.isDirectory path then .ok () else .error fault)

/-- Makes a directory and those that it is to be in, as far as they are missing. What was made stays
if a later step fails. -/
def makeDirectories (fs : FileSystem) (path : String) : FileSystem × Except SystemFault Unit :=
  makeDirectoriesUpTo (path.length + 1) fs path

/-- How the system names a temporary file in a directory. -/
abbrev Naming := FileSystem → Location → String

namespace Naming

/-- None of these names is given to a temporary file. -/
def Avoids (naming : Naming) (names : List String) : Prop :=
  ∀ fs directory, naming fs directory ∉ names

/-- A temporary file gets a name that nothing in its directory has. -/
def Fresh (naming : Naming) : Prop :=
  ∀ (fs : FileSystem) (directory : Location), fs.lookup? (directory ++ [naming fs directory]) = none

def candidates (count : Nat) : List String :=
  (List.range count).map fun i => ".tmp" ++ toString i

/-- Naming without chance: the first candidate that is free and none of the names to be avoided. -/
def numbered (avoided : List String) : Naming := fun fs directory =>
  ((candidates (fs.entries.length + avoided.length + 1)).find? fun name =>
    name ∉ avoided ∧ (fs.lookup? (directory ++ [name])).isNone).getD ".tmp"

end Naming

/-- The directory that temporary files are made in; without a path it is the working directory. -/
def temporaryDirectory (fs : FileSystem) (path : String) : Except SystemFault Location :=
  if path = "" then .ok fs.workingDirectory else fs.resolve path

/-- Makes a temporary file in a directory and gives its location. A name that is taken is not
used. -/
def makeTemporary (fs : FileSystem) (naming : Naming) (directory : String)
    (contents : ByteArray) : Except SystemFault (FileSystem × Location) := do
  let parent ← fs.temporaryDirectory directory
  match fs.lookup? parent with
  | some .directory =>
    let location := parent ++ [naming fs parent]
    if (fs.lookup? location).isSome then .error .alreadyExists
    else return (fs.put location (.file contents), location)
  | some (.file _) => .error .notADirectory
  | none => .error .notFound

/-- Moves the file at a location to a path, in place of the file that is there. A directory is not
replaced. -/
def moveFile (fs : FileSystem) (source : Location) (path : String) :
    Except SystemFault FileSystem := do
  if '\x00' ∈ path.toList then .error .invalidArgument
  let (parent, name?) ← fs.resolveNew path
  match name?, fs.contents? source with
  | none, _ => .error .busy
  | _, none => .error .notFound
  | some name, some contents =>
    let target := parent ++ [name]
    if maxNameBytes < name.utf8ByteSize then .error .nameTooLong
    else if Path.endsInSlash path then .error .notADirectory
    else if target.isPrefixOf source && target ≠ source then .error .notEmpty
    else if fs.hasDirectory target then .error .isADirectory
    else return (fs.erase source).put target (.file contents)

def write (fs : FileSystem) (path : String) (contents : ByteArray) :
    Except SystemFault FileSystem := do
  let (parent, name?) ← fs.resolveNew path
  match name? with
  | none => .error .isADirectory
  | some name =>
    let target := parent ++ [name]
    if maxNameBytes < name.utf8ByteSize then .error .nameTooLong
    else if Path.endsInSlash path || fs.hasDirectory target then .error .isADirectory
    else return fs.put target (.file contents)

def remove (fs : FileSystem) (path : String) : Except SystemFault FileSystem := do
  let location ← fs.resolve path
  return { fs with entries := fs.entries.filter fun e => !location.isPrefixOf e.1 }

end FileSystem

end MacroFamilies
