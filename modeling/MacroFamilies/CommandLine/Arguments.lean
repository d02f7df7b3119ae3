import MacroFamilies.Configuration.Basic
import MacroFamilies.Numeral
/-!
# The arguments of the command line

Arguments are read on two levels: in front of the command and behind it. Every option may stand on
either level; what is given behind the command wins. A value that is attached to its option is
judged at once. A value in an argument of its own is judged when the next option of its level, an
operand of its command or the end of its level comes, and the command's level is judged before
what is left of the outer one.
-/

namespace MacroFamilies.CommandLine

inductive Command where
  | generate
  | check
  | print (file : String)
  | list
  deriving DecidableEq, Repr

structure Arguments where
  config : String := defaultConfigurationFile
  maxArity : Option Nat := none
  /-- How often more output was asked for. -/
  verbosity : Nat := 0
  quiet : Bool := false
  command : Option Command := none
  deriving DecidableEq, Repr

inductive CommandName where
  | generate
  | check
  | print
  | list
  | help
  deriving DecidableEq, Repr

def CommandName.word : CommandName → String
  | .generate => "generate"
  | .check => "check"
  | .print => "print"
  | .list => "list"
  | .help => "help"

def CommandName.ofWord? (word : String) : Option CommandName :=
  [CommandName.generate, .check, .print, .list, .help].find? (·.word == word)

inductive ArgumentFault where
  | unknownArgument
  | invalidSubcommand
  | missingArgument
  | conflict
  | invalidValue
  | valueValidation
  | tooManyValues
  deriving DecidableEq, Repr

def ArgumentFault.text : ArgumentFault → String
  | .unknownArgument => "unexpected argument"
  | .invalidSubcommand => "unknown command"
  | .missingArgument => "a required argument is missing"
  | .conflict => "arguments that exclude each other"
  | .invalidValue => "an option without a value"
  | .valueValidation => "a value that is no arity"
  | .tooManyValues => "a value for an option that takes none"

/-- Why arguments ask for no run: they ask for a help text, or for the version, or are wrong. -/
inductive Stop where
  /-- The help of a command, or of the program. -/
  | help (topic : Option CommandName)
  | version
  | fault (fault : ArgumentFault)
  deriving DecidableEq, Repr

def Stop.exitCode : Stop → Nat
  | .fault _ => 2
  | .help _ | .version => 0

/-! ## One level -/

inductive ValueOption where
  | config
  | maxArity
  deriving DecidableEq, Repr

inductive OptionName where
  | value (option : ValueOption)
  | verbose
  | quiet
  | help
  | version
  deriving DecidableEq, Repr

structure Level where
  /-- The command of the level; none in front of the command. -/
  command : Option CommandName
  config : Option String := none
  maxArity : Option Nat := none
  verbosity : Option Nat := none
  quiet : Bool := false
  operand : Option String := none
  /-- An option whose value is not judged yet, with the value if it has come. -/
  pending : Option (ValueOption × Option String) := none
  /-- Whether the next argument may be the value of the pending option. -/
  awaiting : Bool := false
  /-- Whether the rest of the arguments are operands. -/
  operandsOnly : Bool := false

namespace Level

def refuse {α : Type} (fault : ArgumentFault) : Except Stop α := .error (.fault fault)

def assign (l : Level) (option : ValueOption) (text : String) : Except Stop Level :=
  match option with
  | .config =>
    if l.config.isSome then refuse .conflict
    else if text = "" then refuse .invalidValue
    else .ok { l with config := some text }
  | .maxArity =>
    if l.maxArity.isSome then refuse .conflict
    else match (Numeral.unsigned? text.toList).filter (Numeral.fitsUnsigned 64) with
      | some n => .ok { l with maxArity := some n }
      | none => refuse .valueValidation

def settle (l : Level) : Except Stop Level :=
  match l.pending with
  | none => .ok l
  | some (_, none) => refuse .invalidValue
  | some (option, some text) => { l with pending := none, awaiting := false }.assign option text

/-- The option of a long name. The version is known in front of the command only. -/
def longOption? (l : Level) (name : List Char) : Option OptionName :=
  match String.ofList name with
  | "config" => some (.value .config)
  | "max-arity" => some (.value .maxArity)
  | "verbose" => some .verbose
  | "quiet" => some .quiet
  | "help" => some .help
  | "version" => if l.command.isNone then some .version else none
  | _ => none

def shortOption? (l : Level) (letter : Char) : Option OptionName :=
  match letter with
  | 'c' => some (.value .config)
  | 'v' => some .verbose
  | 'q' => some .quiet
  | 'h' => some .help
  | 'V' => if l.command.isNone then some .version else none
  | _ => none

def takeValue (l : Level) (option : ValueOption) (attached : Option (List Char)) :
    Except Stop Level := do
  let l ← l.settle
  match attached with
  | some text => l.assign option (String.ofList text)
  | none => return { l with pending := some (option, none), awaiting := true }

def raise (l : Level) (option : OptionName) : Except Stop Level := do
  let l ← l.settle
  match option with
  | .verbose => return { l with verbosity := some (min 255 (l.verbosity.getD 0 + 1)) }
  | .quiet => if l.quiet then refuse .conflict else return { l with quiet := true }
  | .help => .error (.help l.command)
  | .version => .error .version
  | .value _ => return l

def readLong (l : Level) (text : List Char) : Except Stop Level :=
  let name := text.takeWhile (· != '=')
  let attached := match text.dropWhile (· != '=') with
    | [] => none
    | _ :: value => some value
  match l.longOption? name, attached with
  | none, _ => refuse .unknownArgument
  | some (.value option), attached => l.takeValue option attached
  | some _, some _ => refuse .tooManyValues
  | some flag, none => l.raise flag

/-- Reads the letters behind one hyphen. What follows a letter that takes a value is the value. -/
def readShort (l : Level) : List Char → Except Stop Level
  | [] => .ok l
  | letter :: rest =>
    match l.shortOption? letter with
    | none => refuse .unknownArgument
    | some (.value option) =>
      l.takeValue option (match rest with
        | [] => none
        | '=' :: value => some value
        | value => some value)
    | some flag => do readShort (← l.raise flag) rest

/-- Reads an operand. Only printing takes one. In front of the command an operand is taken for the
name of a command that there is not; where it does name one, the hyphens that made it an operand
are at fault. -/
def readOperand (l : Level) (text : String) : Except Stop Level :=
  match l.command, l.operand with
  | some .print, none => do return { (← l.settle) with operand := some text }
  | none, _ =>
    refuse (if (CommandName.ofWord? text).isSome then .unknownArgument else .invalidSubcommand)
  | _, _ => refuse .unknownArgument

def readArgument (l : Level) (text : String) : Except Stop Level :=
  if l.operandsOnly then l.readOperand text
  else match text.toList with
    | ['-', '-'] => .ok { l with operandsOnly := true }
    | '-' :: '-' :: long => l.readLong long
    | '-' :: c :: short => l.readShort (c :: short)
    | _ =>
      match l.awaiting, l.pending with
      | true, some (option, _) =>
        .ok { l with pending := some (option, some text), awaiting := false }
      | _, _ => l.readOperand text

def namedCommand? (l : Level) (text : String) : Option CommandName :=
  if l.command.isNone && !l.operandsOnly && !l.awaiting then CommandName.ofWord? text else none

def read : Level → List String → Except Stop (Level × Option (CommandName × List String))
  | l, [] => .ok (l, none)
  | l, text :: rest =>
    match l.namedCommand? text with
    | some name => .ok (l, some (name, rest))
    | none => do read (← l.readArgument text) rest

def close (l : Level) : Except Stop Level := do
  let l ← l.settle
  if l.quiet && l.verbosity.isSome then refuse .conflict
  if l.command = some .print ∧ l.operand = none then refuse .missingArgument
  return l

def toCommand? (l : Level) : Option Command :=
  match l.command with
  | some .generate => some .generate
  | some .check => some .check
  | some .print => some (.print (l.operand.getD ""))
  | some .list => some .list
  | some .help | none => none

end Level

def helpTopic : List String → Stop
  | [] => .help none
  | [word] =>
    match CommandName.ofWord? word with
    | some name => .help (some name)
    | none => .fault .invalidSubcommand
  | _ => .fault .invalidSubcommand

def readCommand (name : CommandName) (rest : List String) : Except Stop Level :=
  if name = .help then .error (helpTopic rest)
  else do
    let (level, _) ← Level.read { command := some name } rest
    level.close

namespace Arguments

def ofLevels (outer inner : Level) : Arguments where
  config := (inner.config.or outer.config).getD defaultConfigurationFile
  maxArity := inner.maxArity.or outer.maxArity
  verbosity := (inner.verbosity.or outer.verbosity).getD 0
  quiet := inner.quiet || outer.quiet
  command := inner.toCommand?

def parse (args : List String) : Except Stop Arguments := do
  let (outer, named) ← Level.read { command := none } args
  let inner ← match named with
    | some (name, rest) => readCommand name rest
    | none => pure { command := none }
  return ofLevels (← outer.close) inner

end Arguments

end MacroFamilies.CommandLine
