import MacroFamilies.Yaml.Document
import MacroFamilies.Yaml.Scalar
/-!
# Reading values from nodes

A `Decoder` reads a value from a node of a document. A node of the wrong shape is a `ShapeFault`,
which is reported at the innermost node that was being read, with the fields and items that lead
there. Reading the place at which a document breaks off is `DecodeFault.broken`, so what is wrong
in front of that place is found first.

A node that is used by many aliases is read once for each of them. How often that happens in a
document is limited by its weight, so that a short text cannot stand for a huge value.
-/

namespace MacroFamilies.Yaml

inductive Step where
  | field (name : String)
  | item (index : Nat)
  /-- A field whose name is not written where the field is. -/
  | anonymous
  deriving DecidableEq, Repr

abbrev Trail := List Step

def Trail.displayFrom (text : String) : Trail → String
  | [] => text
  | .item index :: rest => displayFrom (text ++ "[" ++ toString index ++ "]") rest
  | .field name :: rest => displayFrom (join text name) rest
  | .anonymous :: rest => displayFrom (join text "?") rest
where
  /-- A name behind a text. -/
  join (text name : String) : String := if text = "" then name else text ++ "." ++ name

def Trail.display (trail : Trail) : String := Trail.displayFrom "" trail

inductive ShapeFault where
  | invalidType (found expected : String)
  | invalidValue (text expected : String)
  | unknownField (name : String) (known : List String)
  | missingField (name : String)
  | duplicateField (name : String)
  deriving DecidableEq, Repr

def backquoted (name : String) : String := "`" ++ name ++ "`"

def expectedFields : List String → String
  | [] => "there are no fields"
  | [one] => "expected " ++ backquoted one
  | [one, two] => "expected " ++ backquoted one ++ " or " ++ backquoted two
  | known => "expected one of " ++ ", ".intercalate (known.map backquoted)

def ShapeFault.text : ShapeFault → String
  | .invalidType found expected => "invalid type: " ++ found ++ ", expected " ++ expected
  | .invalidValue text expected =>
    "invalid value: string " ++ Text.quoted text ++ ", expected " ++ expected
  | .unknownField name known => "unknown field " ++ backquoted name ++ ", " ++ expectedFields known
  | .missingField name => "missing field " ++ backquoted name
  | .duplicateField name => "duplicate field " ++ backquoted name

inductive DecodeFault where
  /-- The node has the wrong shape; where, once that is settled. -/
  | shape (fault : ShapeFault) (spot : Option (Mark × Trail))
  | broken
  /-- More aliases are followed than the document may ask for. -/
  | exhausted
  deriving DecidableEq, Repr

namespace DecodeFault

/-- Settles where a fault is, unless that is settled already. -/
def settle (mark : Mark) (trail : Trail) : DecodeFault → DecodeFault
  | .shape fault none => .shape fault (some (mark, trail))
  | fault => fault

end DecodeFault

/-- Reading in a document, which counts down the aliases that may still be followed. -/
abbrev Reading := StateT Nat (Except DecodeFault)

def Reading.fail {α : Type} (fault : DecodeFault) : Reading α := fun _ => .error fault

/-- Where a node is read: in which document, and by which steps it is reached. -/
structure Site where
  document : Document
  trail : Trail := []

namespace Site

def enter (s : Site) (step : Step) : Site := { s with trail := s.trail ++ [step] }

/-- The node that an alias refers to; any other node itself. -/
def follow (s : Site) : Node → Reading Node
  | .alias _ slot => fun
    | 0 => .error .exhausted
    | left + 1 => .ok (s.document.target slot, left)
  | node => pure node

def fail {α : Type} (s : Site) (mark : Mark) (fault : ShapeFault) : Reading α :=
  .fail (.shape fault (some (mark, s.trail)))

def within {α : Type} (s : Site) (mark : Mark) (reading : Reading α) : Reading α :=
  fun left => (reading left).mapError (·.settle mark s.trail)

end Site

/-- Reads a value from a node. -/
abbrev Decoder (α : Type) := Site → Node → Reading α

def wrongScalar (style : ScalarStyle) (tag : Option String) (text expected : String) : ShapeFault :=
  match Scalar.value style tag text with
  | .ok value => .invalidType value.describe expected
  | .error asked => .invalidValue text asked

namespace Decoder

def scalar {α : Type} (expected : String)
    (read : ScalarStyle → Option String → String → Option α) : Decoder α := fun site node => do
  match ← site.follow node with
  | .scalar mark style tag text =>
    match read style tag text with
    | some a => return a
    | none => site.fail mark (wrongScalar style tag text expected)
  | .sequence mark _ => site.fail mark (.invalidType "sequence" expected)
  | .mapping mark _ => site.fail mark (.invalidType "map" expected)
  | .alias _ _ | .cut => .fail .broken

def text (expected : String) : Decoder String := scalar expected fun _ _ text => some text

def boolean : Decoder Bool := scalar "a boolean" fun style tag text =>
  if Scalar.mayBe "bool" style tag then Scalar.boolean? text else none

def natural : Decoder Nat := scalar "usize" fun style tag text =>
  if Scalar.mayBe "int" style tag then
    (Scalar.unsigned? text.toList).filter (Numeral.fitsUnsigned 64)
  else none

def optional {α : Type} (inner : Decoder α) : Decoder (Option α) := fun site node => do
  let node ← site.follow node
  match node with
  | .scalar _ .plain none text =>
    if text = "" ∨ Scalar.isNull text then return none else some <$> inner site node
  | .scalar _ .plain (some tag) text =>
    if tag = Scalar.coreTag "null" then
      if Scalar.isNull text then return none
      else .fail (.shape (.invalidValue text "null") none)
    else some <$> inner site node
  | _ => some <$> inner site node

def standsForEmpty (style : ScalarStyle) (text : String) : Bool := style == .plain && text == ""

def items {α : Type} (inner : Decoder α) (site : Site) : Nat → List Node → Reading (List α)
  | _, [] => return []
  | index, node :: rest => do
    let a ← inner (site.enter (.item index)) node
    return a :: (← items inner site (index + 1) rest)

def list {α : Type} (inner : Decoder α) : Decoder (List α) := fun site node => do
  match ← site.follow node with
  | .sequence mark nodes => site.within mark (items inner site 0 nodes)
  | .scalar mark style tag text =>
    if standsForEmpty style text then return []
    else site.fail mark (wrongScalar style tag text "a sequence")
  | .mapping mark _ => site.fail mark (.invalidType "map" "a sequence")
  | .alias _ _ | .cut => .fail .broken

end Decoder

/-- A field of a record: its name, and how a value for it is read and put in its place. -/
structure Field (σ : Type) where
  name : String
  read : Site → Node → σ → Reading σ

def Field.of {σ α : Type} (name : String) (decoder : Decoder α) (put : α → σ → σ) : Field σ :=
  ⟨name, fun site node record => (put · record) <$> decoder site node⟩

/-- What is read from a mapping with given fields. -/
structure RecordShape (σ : Type) where
  /-- What error messages call the record. -/
  name : String
  fields : List (Field σ)
  /-- The fields that must be given. -/
  required : List String := []
  /-- Whether fields with other names are passed over. -/
  lenient : Bool := false

namespace RecordShape

variable {σ : Type}

def field? (shape : RecordShape σ) (name : String) : Option (Field σ) :=
  shape.fields.find? (·.name == name)

def fieldName (site : Site) (key : Node) : Reading (String × Mark) := do
  match ← site.follow key with
  | .scalar mark _ _ text => return (text, mark)
  | .sequence mark _ => site.fail mark (.invalidType "sequence" "field identifier")
  | .mapping mark _ => site.fail mark (.invalidType "map" "field identifier")
  | .alias _ _ | .cut => .fail .broken

def step : Node → Step
  | .scalar _ _ _ text => .field text
  | _ => .anonymous

/-- Reads the entries of a mapping one after another; `seen` holds the names read before. -/
def readEntries (shape : RecordShape σ) (site : Site) :
    (seen : List String) → σ → List (Node × Node) → Reading (List String × σ)
  | seen, record, [] => return (seen, record)
  | seen, record, (key, value) :: rest => do
    let (name, mark) ← fieldName site key
    match shape.field? name with
    | some field =>
      if name ∈ seen then .fail (.shape (.duplicateField name) none)
      else
        let record ← field.read (site.enter (step key)) value record
        readEntries shape site (name :: seen) record rest
    | none =>
      if shape.lenient then
        if value.broken then .fail .broken else readEntries shape site seen record rest
      else site.fail mark (.unknownField name (shape.fields.map (·.name)))

/-- Reads the entries of a mapping into a record, which must get the required fields. -/
def readRecord (shape : RecordShape σ) (site : Site) (initial : σ) (entries : List (Node × Node)) :
    Reading σ := do
  let (seen, record) ← shape.readEntries site [] initial entries
  match shape.required.find? (· ∉ seen) with
  | some name => .fail (.shape (.missingField name) none)
  | none => return record

/-- Reads a mapping into a record; fields that are not given stay as they are in `initial`. -/
def decoder (shape : RecordShape σ) (initial : σ) : Decoder σ := fun site node => do
  let expected := "struct " ++ shape.name
  match ← site.follow node with
  | .mapping mark entries => site.within mark (shape.readRecord site initial entries)
  | .scalar mark style tag text =>
    if Decoder.standsForEmpty style text then site.within mark (shape.readRecord site initial [])
    else site.fail mark (wrongScalar style tag text expected)
  | .sequence mark _ => site.fail mark (.invalidType "sequence" expected)
  | .alias _ _ | .cut => .fail .broken

end RecordShape

inductive ReadFault where
  | shape (fault : ShapeFault) (spot : Option (Mark × Trail))
  | document (fault : DocumentFault)
  /-- Aliases repeat too much of the document. -/
  | repetition
  deriving DecidableEq, Repr

namespace ReadFault

def text : ReadFault → String
  | .document fault => fault.text
  | .repetition => "repetition limit exceeded"
  | .shape fault none => fault.text
  | .shape fault (some (mark, trail)) =>
    (if trail.display = "" then "" else trail.display ++ ": ") ++ fault.text ++ mark.suffix

def index? : ReadFault → Option Nat
  | .document fault => fault.index?
  | .shape _ spot => spot.map (·.1.index)
  | .repetition => none

end ReadFault

/-- How many aliases of a document may be followed: a hundred times its weight. -/
def Document.aliasLimit (d : Document) : Nat := 100 * d.root.weight

def readText {α : Type} (decoder : Decoder α) (text : List Char) : Except ReadFault α :=
  let document := Document.ofText text
  match decoder { document := document } document.root document.aliasLimit, document.fault with
  | .error (.shape fault spot), _ => .error (.shape fault spot)
  | .error .exhausted, _ => .error .repetition
  | _, some fault => .error (.document fault)
  | .error .broken, none => .error (.document .severalDocuments)
  | .ok (a, _), none => if document.continued then .error (.document .severalDocuments) else .ok a

end MacroFamilies.Yaml
