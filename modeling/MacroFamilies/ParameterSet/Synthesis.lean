import MacroFamilies.ParameterSet.Basic
/-!
# The parameters of an arity

A macro of arity `n` has the parameters `a0 … a(n-1)` with the types `arg0_type … arg(n-1)_type`.
`synthesize n` is the set of the ten lists that templates are filled from. The keys that start with
`coma_`, and `args_coma`, hold a list that is either empty or starts with the separator, so that a
template can put it after a fixed part.
-/

namespace MacroFamilies

def separator : String := ", "

def commaList (items : List String) : String := separator.intercalate items

/-- A list to be put after a fixed part: nothing when it is empty, else the separator in front. -/
def commaTail (list : String) : String := if list = "" then "" else separator ++ list

namespace Parameter

def name (i : Nat) : String := "a" ++ toString i

def type (i : Nat) : String := "arg" ++ toString i ++ "_type"

def declaration (i : Nat) : String := type i ++ " " ++ name i

def slot (i : Nat) : String := type i ++ separator ++ name i

def forward (i : Nat) : String := "std::forward<" ++ type i ++ ">(" ++ name i ++ ")"

end Parameter

def parameterList (entry : Nat → String) (n : Nat) : String :=
  commaList ((List.range n).map entry)

def synthesize (n : Nat) : ParameterSet :=
  .ofList [
    ("arity", toString n),
    ("args", parameterList Parameter.name n),
    ("arg_types", parameterList Parameter.type n),
    ("args_signature", parameterList Parameter.declaration n),
    ("fwd_args", parameterList Parameter.forward n),
    ("args_coma", commaTail (parameterList Parameter.slot n)),
    ("coma_args", commaTail (parameterList Parameter.name n)),
    ("coma_arg_types", commaTail (parameterList Parameter.type n)),
    ("coma_args_signature", commaTail (parameterList Parameter.declaration n)),
    ("coma_fwd_args", commaTail (parameterList Parameter.forward n))]

end MacroFamilies
