import MacroFamilies.Yaml.Token.Basic
/-!
# Nodes and documents

A document is a tree of scalars, sequences and mappings. An alias refers to a slot, in which the
document keeps a node that was given an anchor. A document whose text is broken off by a fault holds
`Node.cut` at the place up to which it could be read.
-/

namespace MacroFamilies.Yaml

inductive Node where
  | scalar (mark : Mark) (style : ScalarStyle) (tag : Option String) (text : String)
  | sequence (mark : Mark) (items : List Node)
  | mapping (mark : Mark) (entries : List (Node × Node))
  | alias (mark : Mark) (slot : Nat)
  /-- The place at which the document breaks off. -/
  | cut
  deriving Repr, Inhabited

namespace Node

def blank (mark : Mark) : Node := .scalar mark .plain none ""

mutual

def broken : Node → Bool
  | .scalar .. => false
  | .sequence _ items => brokenItems items
  | .mapping _ entries => brokenEntries entries
  | .alias .. => false
  | .cut => true

def brokenItems : List Node → Bool
  | [] => false
  | item :: rest => item.broken || brokenItems rest

def brokenEntries : List (Node × Node) → Bool
  | [] => false
  | (key, value) :: rest => key.broken || value.broken || brokenEntries rest

end

mutual

/-- How much a node weighs: a scalar or an alias one, a collection its two ends and its parts. A
collection inside which the document breaks off has no second end. -/
def weight : Node → Nat
  | .scalar .. | .alias .. => 1
  | .sequence _ items => weightItems items + if brokenItems items then 1 else 2
  | .mapping _ entries => weightEntries entries + if brokenEntries entries then 1 else 2
  | .cut => 0

def weightItems : List Node → Nat
  | [] => 0
  | item :: rest => item.weight + weightItems rest

def weightEntries : List (Node × Node) → Nat
  | [] => 0
  | (key, value) :: rest => key.weight + value.weight + weightEntries rest

end

end Node

/-- What makes a document unreadable, apart from what its nodes hold. -/
inductive DocumentFault where
  | ofSyntax (fault : SyntaxFault)
  | unknownAnchor (mark : Mark)
  | severalDocuments
  deriving DecidableEq, Repr

namespace DocumentFault

def text : DocumentFault → String
  | .ofSyntax fault => fault.text
  | .unknownAnchor mark => "unknown anchor" ++ mark.suffix
  | .severalDocuments =>
    "deserializing from YAML containing more than one document is not supported"

def index? : DocumentFault → Option Nat
  | .ofSyntax fault => some fault.index
  | .unknownAnchor mark => some mark.index
  | .severalDocuments => none

end DocumentFault

structure Document where
  root : Node
  /-- The nodes that aliases refer to, by slot. -/
  slots : List (Nat × Node)
  /-- The fault that broke the document off. -/
  fault : Option DocumentFault
  /-- Whether anything but the end of the text comes behind it. -/
  continued : Bool
  deriving Repr

def Document.target (d : Document) (slot : Nat) : Node := (d.slots.lookup slot).getD .cut

end MacroFamilies.Yaml
