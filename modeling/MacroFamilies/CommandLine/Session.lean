import MacroFamilies.CommandLine.Help
import MacroFamilies.Generator
import MacroFamilies.LineDiff
import MacroFamilies.Terminal
/-!
# Sessions

A session reads the arguments, then all inputs, and only then decides what to do: it either
reports an outcome, and changes nothing, or delivers files and reports how that went.
-/

namespace MacroFamilies.CommandLine

open Terminal (Item)

/-- What a session ends with. -/
structure Outcome where
  output : List Item
  exitCode : Nat
  failure : Option Diagnostic := none
  deriving DecidableEq, Repr

inductive Plan where
  | report (outcome : Outcome)
  | deliver (delivery : Delivery)
  deriving DecidableEq, Repr

namespace Outcome

def success (output : List Item) : Outcome := ⟨output, 0, none⟩

def failed (output : List Item) (d : Diagnostic) : Outcome := ⟨output, 1, some d⟩

def ofStop (stop : Stop) : Outcome := ⟨[.text stop.output], stop.exitCode, none⟩

def ofDelivery (directory : String) : Except Diagnostic (List String) → Outcome
  | .ok paths => success [Terminal.line
      ("wrote " ++ toString paths.length ++ " artifacts to " ++ directory)]
  | .error d => failed [] d

end Outcome

/-! ## Checking -/

def alignRight (width : Nat) (text : String) : String :=
  String.ofList (List.replicate (width - text.length) ' ') ++ text

def statusTag : FileStatus → Terminal.Color × String
  | .upToDate => (.green, "ok")
  | .missing => (.red, "missing")
  | .stale _ => (.yellow, "stale")

/-- The look of a change, and the sign in front of its lines. -/
def changeMark : LineDiff.Change → Item × String
  | .same => (.reset, " ")
  | .removed => (.look .red false, "-")
  | .added => (.look .green false, "+")

def hunkReport (hunk : LineDiff.Hunk) : List Item :=
  let (look, sign) := changeMark hunk.change
  look :: hunk.lines.map fun line => Terminal.line (sign ++ String.ofList line)

def differenceReport (onDisk fresh : String) : List Item :=
  (LineDiff.between onDisk.toList fresh.toList).flatMap hunkReport ++ [.reset]

def statusReport (file : RenderedFile) (status : FileStatus) : List Item :=
  let (color, tag) := statusTag status
  [.look color true, .text (alignRight 8 tag), .reset, Terminal.line (" " ++ file.path)] ++
    match status with
    | .stale onDisk => differenceReport onDisk file.contents
    | _ => []

def summary (stale total : Nat) : List Item :=
  if stale = 0 then
    [.look .green true, Terminal.line ("all " ++ toString total ++ " artifacts up to date"), .reset]
  else
    [.look .red true,
      Terminal.line (toString stale ++ " of " ++ toString total ++
        " artifacts out of date; run `aritygen generate`"),
      .reset]

abbrev Finding := RenderedFile × FileStatus

/-- The status of each file, up to the first one that cannot be compared, and why it cannot. -/
def survey : List RenderedFile → Query (List Finding × Option Diagnostic)
  | [] => return ([], none)
  | file :: files => do
    match ← file.status.run with
    | .error d => return ([], some d)
    | .ok status =>
      let (findings, failure) ← survey files
      return ((file, status) :: findings, failure)

def staleCount (findings : List Finding) : Nat := findings.countP (·.2 ≠ .upToDate)

def checkOutcome (findings : List Finding) (failure : Option Diagnostic) : Outcome :=
  let report := findings.flatMap fun (file, status) => statusReport file status
  let stale := staleCount findings
  match failure with
  | some d => .failed report d
  | none => ⟨report ++ summary stale findings.length, if stale = 0 then 0 else 1, none⟩

/-! ## Commands -/

def unknownArtifact (file : String) (artifacts : List Artifact) : Diagnostic where
  kind := .config
  message := "no artifact named '" ++ file ++ "'"
  help := some ("generated artifacts: " ++ commaList (artifacts.map (·.fileName)))

def printed (banner file : String) (artifacts : List Artifact) : Except Diagnostic (List Item) :=
  match artifacts.find? (·.fileName = file) with
  | some artifact => .ok [.text (artifact.render banner)]
  | none => .error (unknownArtifact file artifacts)

def Command.plan (g : Generator) (artifacts : List Artifact) : Command → Inquiry Plan
  | .generate => return .deliver (g.delivery artifacts)
  | .check => do
    let (findings, failure) ← ExceptT.lift (survey (g.delivery artifacts).files)
    return .report (checkOutcome findings failure)
  | .print file => do
    return .report (.success (← .ofExcept (printed g.configuration.banner file artifacts)))
  | .list => return .report (.success ((g.delivery artifacts).paths.map Terminal.line))

def Arguments.generator (a : Arguments) : Inquiry Generator := do
  return (← Generator.ofFile a.config).withMaxArity a.maxArity

/-- What arguments ask for. Without a command, files are written. -/
def Arguments.chosenCommand (a : Arguments) : Command := a.command.getD .generate

def Arguments.inquire (a : Arguments) : Inquiry Plan := do
  let g ← a.generator
  let artifacts ← g.run
  a.chosenCommand.plan g artifacts

def Arguments.plan (a : Arguments) : Query Plan := do
  match ← a.inquire.run with
  | .ok plan => return plan
  | .error d => return .report (.failed [] d)

/-! ## Running -/

abbrev Namings := Delivery → FileSystem.Naming

def Namings.numbered : Namings := fun delivery => .numbered delivery.names

def Plan.execute (fs : FileSystem) (namings : Namings) : Plan → FileSystem × Outcome
  | .report outcome => (fs, outcome)
  | .deliver delivery =>
    let (fs, result) := delivery.perform fs (namings delivery)
    (fs, .ofDelivery delivery.directory result)

def run (fs : FileSystem) (args : List String) (namings : Namings := .numbered) :
    FileSystem × Outcome :=
  match Arguments.parse args with
  | .error stop => (fs, .ofStop stop)
  | .ok arguments => (arguments.plan.run fs).execute fs namings

end MacroFamilies.CommandLine
