/-!
# Parameter sets

A parameter set gives placeholder names their values. Its entries are kept in the order of their
keys, character by character, which is also the order of the keys' UTF-8 bytes.
-/

namespace MacroFamilies

/-- Placeholder names with their values, in key order. -/
structure ParameterSet where
  entries : List (String × String)
  deriving DecidableEq, Repr

namespace ParameterSet

def empty : ParameterSet := ⟨[]⟩

def insertEntry (key value : String) : List (String × String) → List (String × String)
  | [] => [(key, value)]
  | (k, v) :: rest =>
    if key = k then (key, value) :: rest
    else if key < k then (key, value) :: (k, v) :: rest
    else (k, v) :: insertEntry key value rest

def insert (p : ParameterSet) (key value : String) : ParameterSet :=
  ⟨insertEntry key value p.entries⟩

def get? (p : ParameterSet) (key : String) : Option String := p.entries.lookup key

def keys (p : ParameterSet) : List String := p.entries.map (·.1)

def ofList (entries : List (String × String)) : ParameterSet :=
  entries.foldl (fun p e => p.insert e.1 e.2) empty

/-- The set that knows only the arity, used to spell the names of a family. -/
def arityOnly (arity : String) : ParameterSet := empty.insert "arity" arity

end ParameterSet

end MacroFamilies
