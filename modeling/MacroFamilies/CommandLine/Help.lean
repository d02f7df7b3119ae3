import MacroFamilies.CommandLine.Arguments
/-!
# Help texts

What the program prints when it is asked for help or for its version.
-/

namespace MacroFamilies.CommandLine

def CommandName.about : CommandName → String
  | .generate => "Generate and write every artifact (the default)"
  | .check => "Compare the artifacts on disk with a fresh generation; fail if any differ"
  | .print => "Print one generated artifact to stdout without writing anything"
  | .list => "List the destinations `generate` writes"
  | .help => "Print this message or the help of the given subcommand(s)"

def CommandName.operand? : CommandName → Option (String × String)
  | .print => some ("<FILE>",
      "  <FILE>  Destination file name of the artifact, e.g. `no_arity_message_macros.ipp`")
  | .help => some ("[COMMAND]...", "  [COMMAND]...  Print help for the subcommand(s)")
  | _ => none

def commonOptions : List String := [
  "  -c, --config <CONFIG>        Path of the generator configuration [default: aritygen.yaml]",
  "      --max-arity <MAX_ARITY>  Maximum arity; overrides the configuration and the arity file",
  "  -v, --verbose...             More log output (repeat for trace)",
  "  -q, --quiet                  Only log errors",
  "  -h, --help                   Print help"]

def titled (heading : String) (entries : List String) : List String :=
  "" :: (heading ++ ":") :: entries

def commandTable : List String :=
  [CommandName.generate, .check, .print, .list, .help].map fun name =>
    "  " ++ name.word ++ String.ofList (List.replicate (10 - name.word.length) ' ') ++ name.about

def programHelp : List String :=
  ["Generates arity-indexed macro families, their dispatch layer, short aliases and undefine sets.",
    "", "Usage: aritygen [OPTIONS] [COMMAND]"] ++
    titled "Commands" commandTable ++
    titled "Options" (commonOptions ++ ["  -V, --version                Print version"])

def CommandName.helpLines (name : CommandName) : List String :=
  let operand := match name.operand? with
    | some (usage, _) => " " ++ usage
    | none => ""
  let options := if name = .help then "" else " [OPTIONS]"
  [name.about, "", "Usage: aritygen " ++ name.word ++ options ++ operand] ++
    (name.operand?.toList.flatMap fun (_, described) => titled "Arguments" [described]) ++
    (if name = .help then [] else titled "Options" commonOptions)

def Stop.output : Stop → String
  | .fault _ => ""
  | .version => "aritygen 0.1.0\n"
  | .help none => String.join (programHelp.map (· ++ "\n"))
  | .help (some name) => String.join (name.helpLines.map (· ++ "\n"))

end MacroFamilies.CommandLine
