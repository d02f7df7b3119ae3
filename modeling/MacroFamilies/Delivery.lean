import MacroFamilies.Artifact
import MacroFamilies.Query
/-!
# Delivery

Artifacts are rendered, compared with the files that are there, and written. To write them, every
file is first staged under a name of its own in the output directory; only when all of them are
staged is each moved to its place, one after another.
-/

namespace MacroFamilies

structure RenderedFile where
  path : String
  contents : String
  deriving DecidableEq, Repr

def Artifact.file (outputDir banner : String) (a : Artifact) : RenderedFile :=
  ⟨Path.join outputDir a.fileName, a.render banner⟩

/-- How a file compares with the one that is there. -/
inductive FileStatus where
  | upToDate
  | missing
  | stale (onDisk : String)
  deriving DecidableEq, Repr

namespace RenderedFile

def compare (file : RenderedFile) : Except SystemFault String → Except Diagnostic FileStatus
  | .ok onDisk => .ok (if onDisk = file.contents then .upToDate else .stale onDisk)
  | .error .notFound => .ok .missing
  | .error fault => .error (.io "read" file.path fault.text "check file permissions")

def status (file : RenderedFile) : Inquiry FileStatus := do
  .ofExcept (file.compare (← Inquiry.readText file.path))

end RenderedFile

/-- Files to be written, and the directory where they are staged. -/
structure Delivery where
  directory : String
  files : List RenderedFile
  deriving DecidableEq, Repr

namespace Delivery

def ofArtifacts (directory banner : String) (artifacts : List Artifact) : Delivery :=
  ⟨directory, artifacts.map (·.file directory banner)⟩

def paths (d : Delivery) : List String := d.files.map (·.path)

def failure (operation path : String) (fault : SystemFault) : Diagnostic :=
  .io operation path fault.text "check that output_dir points somewhere writable"

def discard (fs : FileSystem) (staged : List Location) : FileSystem := staged.foldl .erase fs

def names (d : Delivery) : List String := d.paths.flatMap Path.names

/-- Stages files in a directory and gives their locations. If one fails, none stays. -/
def stage (naming : FileSystem.Naming) (directory : String) (fs : FileSystem) :
    List RenderedFile → FileSystem × Except Diagnostic (List Location)
  | [] => (fs, .ok [])
  | file :: files =>
    match fs.makeTemporary naming directory file.contents.toUTF8 with
    | .error fault => (fs, .error (failure "stage" file.path fault))
    | .ok (fs, location) =>
      match stage naming directory fs files with
      | (fs, .ok locations) => (fs, .ok (location :: locations))
      | (fs, .error d) => (fs.erase location, .error d)

/-- Moves each staged file to its place and gives the paths. If one fails, it and those behind it
are taken away; what was moved before stays. -/
def place (fs : FileSystem) :
    List (Location × RenderedFile) → FileSystem × Except Diagnostic (List String)
  | [] => (fs, .ok [])
  | (location, file) :: rest =>
    match fs.moveFile location file.path with
    | .error fault =>
      (discard fs (location :: rest.map (·.1)), .error (failure "replace" file.path fault))
    | .ok fs =>
      match place fs rest with
      | (fs, .ok paths) => (fs, .ok (file.path :: paths))
      | (fs, .error d) => (fs, .error d)

/-- Makes the directory, stages every file and moves each to its place. -/
def perform (d : Delivery) (fs : FileSystem) (naming : FileSystem.Naming := .numbered d.names) :
    FileSystem × Except Diagnostic (List String) :=
  match fs.makeDirectories d.directory with
  | (fs, .error fault) => (fs, .error (failure "create output directory" d.directory fault))
  | (fs, .ok ()) =>
    match stage naming d.directory fs d.files with
    | (fs, .error d) => (fs, .error d)
    | (fs, .ok locations) => place fs (locations.zip d.files)

end Delivery

end MacroFamilies
