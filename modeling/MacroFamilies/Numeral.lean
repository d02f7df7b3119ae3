/-!
# Numerals

Reading whole numbers from digits of a radix, with or without a sign. A numeral has at least one
digit and nothing but digits behind its sign.
-/

namespace MacroFamilies.Numeral

def digit? (radix : Nat) (c : Char) : Option Nat :=
  let value? :=
    if '0' ≤ c ∧ c ≤ '9' then some (c.toNat - '0'.toNat)
    else if 'a' ≤ c ∧ c ≤ 'z' then some (c.toNat - 'a'.toNat + 10)
    else if 'A' ≤ c ∧ c ≤ 'Z' then some (c.toNat - 'A'.toNat + 10)
    else none
  value?.filter (· < radix)

def extend? (radix value : Nat) : List Char → Option Nat
  | [] => some value
  | c :: rest => (digit? radix c).bind fun d => extend? radix (value * radix + d) rest

def natural? (radix : Nat) (digits : List Char) : Option Nat :=
  if digits = [] then none else extend? radix 0 digits

def unsigned? (text : List Char) : Option Nat :=
  match text with
  | '+' :: digits => natural? 10 digits
  | digits => natural? 10 digits

def signed? (text : List Char) : Option Int :=
  match text with
  | '-' :: digits => (natural? 10 digits).map fun n => -(n : Int)
  | '+' :: digits => (natural? 10 digits).map Int.ofNat
  | digits => (natural? 10 digits).map Int.ofNat

def fitsSigned (bits : Nat) (n : Int) : Bool :=
  let bound : Int := Nat.pow 2 (bits - 1)
  n < bound && -bound ≤ n

def fitsUnsigned (bits : Nat) (n : Nat) : Bool := n < Nat.pow 2 bits

end MacroFamilies.Numeral
