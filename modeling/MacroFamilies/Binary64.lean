/-!
# Floating point numbers

Reading decimal numerals as 64-bit floating point numbers, and writing such numbers with the fewest
digits that read back. A number is held as a whole number of units of a power of two, and all
comparisons are made on whole numbers.
-/

namespace MacroFamilies

structure DecimalNumeral where
  digits : Nat
  exponent : Int
  deriving DecidableEq, Repr

namespace DecimalNumeral

def ofDigits (digits : List Char) : Nat :=
  digits.foldl (fun n c => 10 * n + (c.toNat - '0'.toNat)) 0

/-- Reads the exponent behind a numeral: nothing, or a letter, an optional sign and digits. -/
def readExponent? : List Char → Option Int
  | [] => some 0
  | letter :: rest =>
    let (negative, digits) := match rest with
      | '-' :: digits => (true, digits)
      | '+' :: digits => (false, digits)
      | digits => (false, digits)
    if (letter = 'e' ∨ letter = 'E') ∧ digits ≠ [] ∧ digits.all Char.isDigit then
      some (if negative then -(ofDigits digits : Int) else ofDigits digits)
    else none

/-- Reads a numeral without a sign: digits with an optional point among, before or behind them, and
an optional exponent. -/
def read? (text : List Char) : Option DecimalNumeral :=
  let whole := text.takeWhile Char.isDigit
  let rest := text.dropWhile Char.isDigit
  let (places, rest) := match rest with
    | '.' :: rest => (rest.takeWhile Char.isDigit, rest.dropWhile Char.isDigit)
    | rest => ([], rest)
  if whole ++ places = [] then none
  else (readExponent? rest).map fun exponent =>
    ⟨ofDigits (whole ++ places), exponent - places.length⟩

end DecimalNumeral

structure Binary64 where
  units : Nat
  exponent : Int
  deriving DecidableEq, Repr

namespace Binary64

/-- The number of units of a number of full length is less than this and at least half of it. -/
def unitBound : Nat := Nat.pow 2 53

def fullUnits : Nat := Nat.pow 2 52

def minExponent : Int := -1074

def maxExponent : Int := 971

def roundDiv (num den : Nat) : Nat :=
  let q := num / den
  let r := num % den
  if 2 * r < den ∨ (2 * r = den ∧ q % 2 = 0) then q else q + 1

def scale (num den : Nat) (exponent : Int) : Nat × Nat :=
  if 0 ≤ exponent then (num * Nat.pow 2 exponent.toNat, den)
  else (num, den * Nat.pow 2 (-exponent).toNat)

/-- The number nearest to a positive quotient, a half going to even units; none beyond the greatest
number. -/
def nearest? (num den : Nat) : Option Binary64 :=
  let guess := (Nat.log2 num : Int) - Nat.log2 den - 52
  let fits (e : Int) : Bool := let (n, d) := scale num den (-e); n < d * unitBound
  let least := if fits (guess - 1) then guess - 1 else if fits guess then guess else guess + 1
  let exponent := max minExponent least
  let (n, d) := scale num den (-exponent)
  let units := roundDiv n d
  let rounded : Binary64 :=
    if units = unitBound then ⟨fullUnits, exponent + 1⟩ else ⟨units, exponent⟩
  if rounded.exponent ≤ maxExponent then some rounded else none

def ofNumeral? (d : DecimalNumeral) : Option Binary64 :=
  let size := (Nat.toDigits 10 d.digits).length + d.exponent
  if d.digits = 0 ∨ size < -330 then some ⟨0, minExponent⟩
  else if 310 < size then none
  else if 0 ≤ d.exponent then nearest? (d.digits * Nat.pow 10 d.exponent.toNat) 1
  else nearest? d.digits (Nat.pow 10 (-d.exponent).toNat)

/-! ## The shortest digits -/

def compareQuarters (d : DecimalNumeral) (quarters : Nat) (exponent : Int) : Ordering :=
  let (tens, ten) := if 0 ≤ d.exponent then (d.digits * Nat.pow 10 d.exponent.toNat, 1)
    else (d.digits, Nat.pow 10 (-d.exponent).toNat)
  let (n, m) := scale quarters 1 (exponent - 2)
  compare (tens * m) (n * ten)

/-- Whether a numeral reads back as a number: it lies between the middles to the neighbours, which
belong to even units. -/
def readsBack (b : Binary64) (d : DecimalNumeral) : Bool :=
  let low := if b.units = fullUnits ∧ minExponent < b.exponent then 4 * b.units - 1
    else 4 * b.units - 2
  let below := compareQuarters d low b.exponent
  let above := compareQuarters d (4 * b.units + 2) b.exponent
  if b.units % 2 = 0 then below ≠ .lt && above ≠ .gt else below = .gt && above = .lt

def neighbours (b : Binary64) (place : Int) : DecimalNumeral × DecimalNumeral :=
  let (n, m) := scale b.units 1 b.exponent
  let q := if 0 ≤ place then n / (m * Nat.pow 10 place.toNat)
    else n * Nat.pow 10 (-place).toNat / m
  (⟨q, place⟩, ⟨q + 1, place⟩)

def lowerIsNearer (b : Binary64) (low : DecimalNumeral) : Bool :=
  match compareQuarters ⟨10 * low.digits + 5, low.exponent - 1⟩ (4 * b.units) b.exponent with
  | .gt => true
  | .lt => false
  | .eq => low.digits % 2 = 0

/-- The numeral of the greatest power of ten that reads back, trying powers downwards. -/
def shortestFrom (b : Binary64) : Nat → (place : Int) → DecimalNumeral
  | 0, place => (b.neighbours place).1
  | tries + 1, place =>
    let (low, high) := b.neighbours place
    match b.readsBack low, b.readsBack high with
    | true, true => if b.lowerIsNearer low then low else high
    | true, false => low
    | false, true => high
    | false, false => shortestFrom b tries (place - 1)

def shortest (b : Binary64) : DecimalNumeral :=
  if b.units = 0 then ⟨0, 0⟩
  else shortestFrom b 24 (((Nat.log2 b.units : Int) + b.exponent) * 30103 / 100000 + 2)

end Binary64

/-- A numeral without an exponent, with at least one digit on each side of its point. -/
def DecimalNumeral.positional (d : DecimalNumeral) : String :=
  let digits := Nat.toDigits 10 d.digits
  let zeros (n : Nat) : List Char := List.replicate n '0'
  String.ofList <|
    if 0 ≤ d.exponent then
      digits ++ zeros (if d.digits = 0 then 0 else d.exponent.toNat) ++ ['.', '0']
    else
      let places := (-d.exponent).toNat
      let padded := zeros (places + 1 - digits.length) ++ digits
      padded.take (padded.length - places) ++ '.' :: padded.drop (padded.length - places)

end MacroFamilies
