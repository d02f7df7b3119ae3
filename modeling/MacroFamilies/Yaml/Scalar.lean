import MacroFamilies.Binary64
import MacroFamilies.Numeral
import MacroFamilies.Text.Quoted
import MacroFamilies.Yaml.Node
/-!
# What scalars stand for

A plain scalar stands for nothing, a truth value, a number or a text, by the way it is spelt; a
tag of the core schema asks for one of these. Other scalars are texts.
-/

namespace MacroFamilies.Yaml

inductive ScalarValue where
  | unit
  | boolean (value : Bool)
  | integer (value : Int)
  /-- A number with a fraction or an exponent, as it is shown. -/
  | float (shown : String)
  | text (value : String)
  deriving DecidableEq, Repr

namespace Scalar

def isNull (text : String) : Bool := text ∈ ["null", "Null", "NULL", "~"]

def boolean? (text : String) : Option Bool :=
  if text ∈ ["true", "True", "TRUE"] then some true
  else if text ∈ ["false", "False", "FALSE"] then some false
  else none

def hasLeadingZero (text : List Char) : Bool :=
  let digits := match text with
    | '-' :: rest => rest
    | '+' :: rest => rest
    | rest => rest
  match digits with
  | '0' :: rest => !rest.isEmpty && rest.all Char.isDigit
  | _ => false

/-- A whole number without a sign: digits, or digits of the radix that a mark asks for. -/
def natural? : List Char → Option Nat
  | '0' :: 'x' :: digits => Numeral.natural? 16 digits
  | '0' :: 'o' :: digits => Numeral.natural? 8 digits
  | '0' :: 'b' :: digits => Numeral.natural? 2 digits
  | digits => if hasLeadingZero digits then none else Numeral.natural? 10 digits

def unsigned? (text : List Char) : Option Nat :=
  match text with
  | '+' :: rest => natural? rest
  | rest => natural? rest

def integer? (text : List Char) : Option Int :=
  match text with
  | '-' :: rest => ((natural? rest).map fun n => -(n : Int)).filter (Numeral.fitsSigned 128)
  | rest => ((unsigned? rest).filter (Numeral.fitsUnsigned 128)).map Int.ofNat

def float? (text : List Char) : Option String :=
  let finite (d : List Char) : Option String :=
    (DecimalNumeral.read? d).bind fun d =>
      (Binary64.ofNumeral? d).map fun b => b.shortest.positional
  let named (d : List Char) : Bool :=
    d ∈ [".inf".toList, ".Inf".toList, ".INF".toList]
  match text with
  | '+' :: rest => if named rest then some "inf" else finite rest
  | '-' :: rest => if named rest then some "-inf" else (finite rest).map ("-" ++ ·)
  | rest =>
    if named rest then some "inf"
    else if rest ∈ [".nan".toList, ".NaN".toList, ".NAN".toList] then some "NaN"
    else finite rest

def plainValue (text : String) : ScalarValue :=
  if text = "" ∨ isNull text then .unit
  else match boolean? text, integer? text.toList with
  | some b, _ => .boolean b
  | none, some n => .integer n
  | none, none =>
    match (if hasLeadingZero text.toList then none else float? text.toList) with
    | some shown => .float shown
    | none => .text text

def coreTag (name : String) : String := "tag:yaml.org,2002:" ++ name

/-- What a scalar stands for. A tag that asks for a value that is not spelt gives what was asked
for, in words. -/
def value (style : ScalarStyle) (tag : Option String) (text : String) :
    Except String ScalarValue :=
  let orElse (asked : String) (v : Option ScalarValue) : Except String ScalarValue :=
    match v with
    | some v => .ok v
    | none => .error asked
  let plain : ScalarValue := if style = .plain then plainValue text else .text text
  match tag with
  | none => .ok plain
  | some tag =>
    if tag = coreTag "bool" then orElse "a boolean" ((boolean? text).map .boolean)
    else if tag = coreTag "int" then orElse "an integer" ((integer? text.toList).map .integer)
    else if tag = coreTag "float" then orElse "a float" ((float? text.toList).map .float)
    else if tag = coreTag "null" then orElse "null" (if isNull text then some .unit else none)
    else if tag.toList.head? = some '!' then .ok plain
    else .ok (.text text)

/-- Whether a scalar may be read as a value of a core tag: it is plain, or it is literal and has the
tag. -/
def mayBe (name : String) (style : ScalarStyle) (tag : Option String) : Bool :=
  style == .plain || (style == .literal && tag == some (coreTag name))

end Scalar

def ScalarValue.describe : ScalarValue → String
  | .unit => "unit value"
  | .boolean b => "boolean `" ++ toString b ++ "`"
  | .integer n =>
    "integer `" ++ toString n ++ "`" ++
      if Numeral.fitsSigned 64 n || (0 ≤ n && Numeral.fitsUnsigned 64 n.toNat) then ""
      else if 0 ≤ n then " as u128" else " as i128"
  | .float shown => "floating point `" ++ shown ++ "`"
  | .text s => "string " ++ Text.quoted s

end MacroFamilies.Yaml
