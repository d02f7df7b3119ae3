/-!
# Arity ranges

Every pass goes over the arities from 0 to a maximum, both included. The maximum is any natural
number. A machine reserves two entries for each arity of a descending list, and has no capacity for
so many near a maximum of `2 ^ 62`; that it breaks off there is not modelled.
-/

namespace MacroFamilies

/-- The arities from 0 to `max`. -/
structure ArityRange where
  max : Nat
  deriving DecidableEq, Repr

namespace ArityRange

def size (r : ArityRange) : Nat := r.max + 1

def isEmpty (r : ArityRange) : Bool := r.size == 0

def ascending (r : ArityRange) : List Nat := List.range r.size

def descending (r : ArityRange) : List Nat := r.ascending.reverse

def display (r : ArityRange) : String := "[0, " ++ toString r.max ++ "]"

end ArityRange

end MacroFamilies
