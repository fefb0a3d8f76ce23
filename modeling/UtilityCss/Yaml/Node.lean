import UtilityCss.Yaml.Token

/-!
# Nodes of YAML

A document is a tree of scalars, sequences and mappings, in which an alias stands for a node that
carries an anchor. Anchors are numbered; an alias that stands inside the node that it names is not
excluded here.
-/

namespace UtilityCss

namespace Yaml

/-- A node. Tags are written out in full. -/
inductive Node where
  | scalar (tag : Option Text) (style : ScalarStyle) (text : Text)
  | sequence (tag : Option Text) (items : List Node)
  | mapping (tag : Option Text) (entries : List (Node × Node))
  | aliasTo (anchor : Nat)

namespace Node

/-- The node that is not written: an empty plain scalar. -/
def missing : Node :=
  scalar none .plain []

mutual

/-- The number of scalars, aliases, starts and ends in a node. -/
def weight : Node → Nat
  | scalar .. => 1
  | aliasTo _ => 1
  | sequence _ items => 2 + weightOfItems items
  | mapping _ entries => 2 + weightOfEntries entries

def weightOfItems : List Node → Nat
  | [] => 0
  | item :: rest => weight item + weightOfItems rest

def weightOfEntries : List (Node × Node) → Nat
  | [] => 0
  | (key, value) :: rest => weight key + weight value + weightOfEntries rest

end

end Node

/-- A document: its root, unless it is wholly empty, and the nodes that carry anchors. -/
structure Document where
  root : Option Node
  anchored : List (Nat × Node)

namespace Document

/-- The weight of a document; an empty one weighs as much as a scalar. -/
def weight (document : Document) : Nat :=
  match document.root with
  | some root => root.weight
  | none => 1

end Document

end Yaml

end UtilityCss
