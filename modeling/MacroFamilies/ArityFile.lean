import MacroFamilies.Diagnostic
import MacroFamilies.Numeral
import MacroFamilies.Text.Blank
import MacroFamilies.Text.Occurrence
/-!
# The arity file

The arity file holds the maximum arity: one non-negative decimal number that fits a signed 64-bit
word, with blanks around it.
-/

namespace MacroFamilies.ArityFile

inductive Fault where
  | negative (value : Int)
  | notAnInteger (text : String)
  deriving DecidableEq, Repr

def Fault.wording : Fault → String × String
  | .negative value =>
    ("max arity must not be negative, found " ++ toString value,
      "arity 0 generates only the parameterless variants")
  | .notAnInteger text =>
    ("max arity '" ++ text ++ "' is not an integer",
      "the arity file holds a single non-negative integer")

def classify (text : List Char) : Except Fault Nat :=
  match (Numeral.signed? text).filter (Numeral.fitsSigned 64) with
  | some (.ofNat n) => .ok n
  | some (.negSucc n) => .error (.negative (.negSucc n))
  | none => .error (.notAnInteger (String.ofList text))

def contentSpan (text : List Char) : Span :=
  let content := Text.trim text
  let start := (Text.offset? content text).getD 0
  ⟨start, start + byteLength content⟩

def parse (name text : String) : Except Diagnostic Nat :=
  match classify (Text.trim text.toList) with
  | .ok n => .ok n
  | .error fault => .error {
      kind := .config
      message := fault.wording.1
      source := some ⟨name, text⟩
      span := some (contentSpan text.toList)
      help := some fault.wording.2 }

end MacroFamilies.ArityFile
