import MacroFamilies.CommandLine.Session
/-!
# The program

The queries of a session are answered from the disk, and its deliveries are carried out there.
Output goes to standard output, and what failed is reported on standard error.
-/

namespace MacroFamilies.Program

open CommandLine

/-! ## Faults -/

def errorNumber? : IO.Error → Option UInt32
  | .alreadyExists _ n _ | .invalidArgument _ n _ | .permissionDenied _ n _
  | .resourceExhausted _ n _ | .inappropriateType _ n _ | .noSuchThing _ n _
  | .noFileOrDirectory _ n _ | .interrupted _ n _ => some n
  | .otherError n _ | .resourceBusy n _ | .resourceVanished n _ | .unsupportedOperation n _
  | .hardwareFault n _ | .unsatisfiedConstraints n _ | .illegalOperation n _
  | .protocolError n _ | .timeExpired n _ => some n
  | .unexpectedEof | .userError _ => none

/-- The fault that a failure stands for. Some operations give its number with the sign changed. -/
def faultOf (e : IO.Error) : SystemFault :=
  match (errorNumber? e).map fun n => min n (0 - n) with
  | some 2 => .notFound
  | some 16 => .busy
  | some 17 => .alreadyExists
  | some 20 => .notADirectory
  | some 21 => .isADirectory
  | some 22 => .invalidArgument
  | some 36 => .nameTooLong
  | some 39 => .notEmpty
  | _ => .other (toString e)

def attempt {α : Type} (action : IO α) : IO (Except SystemFault α) := do
  match ← action.toBaseIO with
  | .ok a => return .ok a
  | .error e => return .error (faultOf e)

/-! ## Queries -/

def readText (path : String) : IO (Except SystemFault String) := do
  if '\x00' ∈ path.toList then return .error .nulInPath
  match ← attempt (IO.FS.readBinFile path) with
  | .error fault => return .error fault
  | .ok bytes =>
    match String.fromUTF8? bytes with
    | some text => return .ok text
    | none => return .error .notText

/-- The names that lead to each file below a directory, at most `depth` names each. Links are not
followed. -/
def filesBelow : (depth : Nat) → (directory : String) → IO (List Location)
  | 0, _ => return []
  | depth + 1, directory => do
    let entries ← (← IO.FS.realPath directory).readDir
    let files ← entries.toList.mapM fun entry => do
      match (← entry.path.symlinkMetadata).type with
      | .dir =>
        let below ← filesBelow depth (Path.join directory entry.fileName)
        return below.map (entry.fileName :: ·)
      | .file => return [[entry.fileName]]
      | _ => return []
    return files.flatten

/-- The names that lead to each file from the one of a path, or below it. No file has more names
than its path has bytes. -/
def listFiles (path : String) : IO (List Location) := do
  let place ← IO.FS.realPath path
  if ← place.isDir then filesBelow FileSystem.maxPathBytes path else return [[]]

def answer {α : Type} : Query α → IO α
  | .done a => return a
  | .readText path next => do answer (next (← readText path))
  | .listFiles path next => do answer (next (← attempt (listFiles path)))

/-! ## Deliveries -/

def discard (staged : List String) : IO Unit := do
  for path in staged do
    let _ ← attempt (IO.FS.removeFile path)

def stageFile (directory : String) (file : RenderedFile) : IO String := do
  let number ← IO.rand 0 999999999999
  let path := Path.join directory (".aritygen-" ++ toString number)
  let handle ← IO.FS.Handle.mk path .writeNew
  handle.write file.contents.toUTF8
  return path

/-- Stages files in a directory and gives their paths. If one fails, none stays. -/
def stage (directory : String) : List RenderedFile → IO (Except Diagnostic (List String))
  | [] => return .ok []
  | file :: files => do
    match ← attempt (stageFile directory file) with
    | .error fault => return .error (Delivery.failure "stage" file.path fault)
    | .ok path =>
      match ← stage directory files with
      | .ok paths => return .ok (path :: paths)
      | .error d =>
        discard [path]
        return .error d

def place : List (String × RenderedFile) → IO (Except Diagnostic (List String))
  | [] => return .ok []
  | (staged, file) :: rest => do
    match ← attempt (IO.FS.rename staged file.path) with
    | .error fault =>
      discard (staged :: rest.map (·.1))
      return .error (Delivery.failure "replace" file.path fault)
    | .ok () => return (← place rest).map (file.path :: ·)

def deliver (d : Delivery) : IO (Except Diagnostic (List String)) := do
  match ← attempt (if d.directory = "" then pure () else IO.FS.createDirAll d.directory) with
  | .error fault =>
    return .error (Delivery.failure "create output directory" d.directory fault)
  | .ok () =>
    match ← stage d.directory d.files with
    | .error d => return .error d
    | .ok staged => place (staged.zip d.files)

/-! ## Reports -/

def describe (d : Diagnostic) : String :=
  let range := match d.source, d.label with
    | some source, some label =>
      ["  in " ++ source.name ++ ", " ++ toString label.length ++ " bytes from byte " ++
        toString label.offset]
    | _, _ => []
  let help := d.help.toList.map ("  help: " ++ ·)
  "\n".intercalate ((d.code ++ ": " ++ d.title) :: range ++ help)

def showsColors : IO Bool := do
  match ← IO.getEnv "TERM", ← IO.getEnv "NO_COLOR" with
  | some terminal, none => return terminal ≠ "dumb"
  | _, _ => return false

def report (outcome : Outcome) : IO UInt32 := do
  IO.print (Terminal.render (← showsColors) outcome.output)
  if let some d := outcome.failure then
    IO.eprintln (describe d)
  return outcome.exitCode.toUInt32

def session (args : List String) : IO UInt32 := do
  match Arguments.parse args with
  | .error stop =>
    if let .fault fault := stop then
      IO.eprintln ("error: " ++ fault.text ++ "; try `aritygen --help`")
    report (.ofStop stop)
  | .ok arguments =>
    match ← answer arguments.plan with
    | .report outcome => report outcome
    | .deliver delivery => report (.ofDelivery delivery.directory (← deliver delivery))

end MacroFamilies.Program

def main (args : List String) : IO UInt32 := MacroFamilies.Program.session args
