import MacroFamilies.ArityRange
import MacroFamilies.Template.Basic
import MacroFamilies.Text.Blank
/-!
# Macro families

A family line `NAME%{arity}(fixed, params, %{args})` names a family of macros, one for each arity,
and the parameters they share. `Family.parse` reads a line; the family then spells the names that
its dispatch macro chooses from and the parameter list of the selector that chooses.

The selector's list holds a (type, name) slot pair for every parameter of the largest macro and then
the entry that is selected. The arguments of a call take the first entries and push the descending
list of names to the right, two entries for each pair, until the name of the right arity stands at
the selected place.
-/

namespace MacroFamilies

structure DispatchStyle where
  /-- The macro that expands its arguments once more before the selector sees them. -/
  proxyMacro : String := "I_DYNAMIX_VA_ARGS_PROXY"
  /-- What is selected when the number of arguments fits no arity. -/
  errorMarker : String := "I_DYNAMIX_MESSAGE_ARG_ERROR"
  selectorHead : String := "_GET_"
  selectorTail : String := "_MACRO"
  deriving DecidableEq, Repr

/-- A family of macros: its name with the place of the arity, and its parameter list. -/
structure Family where
  name : Template
  params : Template

namespace Family

inductive Fault where
  /-- There is no name with a parameter list behind it. -/
  | noParameterList
  /-- The parameter list has no place for the arity's parameters. -/
  | noArguments
  /-- No fixed parameter stands before that place. -/
  | argumentsFirst
  deriving DecidableEq, Repr

def Fault.wording : Fault → String × String
  | .noParameterList =>
    ("dispatch line has no parameter list",
      "write the family as NAME%\x7barity\x7d(fixed, params, %\x7bargs\x7d)")
  | .noArguments =>
    ("dispatch parameter list does not contain %\x7bargs\x7d",
      "the selector needs %\x7bargs\x7d to place the per-arity slots")
  | .argumentsFirst =>
    ("dispatch parameter list starts with %\x7bargs\x7d",
      "the selector needs at least one fixed parameter before %\x7bargs\x7d, " ++
        "e.g. NAME%\x7barity\x7d(name, %\x7bargs\x7d)")

/-- How a fault of a line is reported; the whole line is marked. -/
def Fault.diagnostic (line : Template) (fault : Fault) : Diagnostic where
  kind := .template
  message := fault.wording.1
  source := some line.source
  span := some ⟨0, line.text.utf8ByteSize⟩
  help := some fault.wording.2

/-- The name and the parameter list of a line, if it has both: the list starts at the first opening
parenthesis, which is not the first character, ends the line with a closing one, and holds no line
feed. -/
def split (line : List Char) : Option (List Char × List Char) :=
  let name := line.takeWhile (· != '(')
  let params := line.dropWhile (· != '(')
  if name ≠ [] ∧ params.getLast? = some ')' ∧ '\n' ∉ params then some (Text.trim name, params)
  else none

def argumentsMark : List Char := "%\x7bargs\x7d".toList

/-- Whether the place of the arity's parameters comes first in a parameter list. -/
def argumentsLead (params : List Char) : Bool :=
  argumentsMark.isPrefixOf (Text.trimStart (params.drop 1))

def parse (line : Template) : Except Diagnostic Family :=
  match split line.text.toList with
  | none => .error (Fault.noParameterList.diagnostic line)
  | some (nameText, paramsText) => do
    let name ← Template.parse line.name (String.ofList nameText)
    let params ← Template.parse line.name (String.ofList paramsText)
    if "args" ∉ params.placeholders then .error (Fault.noArguments.diagnostic line)
    else if argumentsLead paramsText then .error (Fault.argumentsFirst.diagnostic line)
    else return ⟨name, params⟩

def baseName (f : Family) : Except Diagnostic String := f.name.expand (.arityOnly "")

def arityName (f : Family) (n : Nat) : Except Diagnostic String :=
  f.name.expand (.arityOnly ("_" ++ toString n))

def selectorName (f : Family) (style : DispatchStyle) : Except Diagnostic String := do
  return style.selectorHead ++ (← f.baseName) ++ style.selectorTail

/-- The names of all arities from the largest down, each followed by the error marker. That a
machine has no capacity for the list of a maximum near `2 ^ 62` is not modelled. -/
def descendingList (f : Family) (range : ArityRange) (style : DispatchStyle) :
    Except Diagnostic (List String) := do
  let names ← range.descending.mapM f.arityName
  return names.flatMap fun name => [name, style.errorMarker]

/-- The entries that stand for the arity's parameters in a selector: the slot pairs of the largest
arity, the selected entry, and the rest of the arguments. -/
def selectorSlots (range : ArityRange) : List String :=
  (List.range range.max).map Parameter.slot ++ ["MACRO", "..."]

def selectorParams (f : Family) (range : ArityRange) : Except Diagnostic String :=
  f.params.expand (ParameterSet.empty.insert "args" (commaList (selectorSlots range)))

end Family

end MacroFamilies
