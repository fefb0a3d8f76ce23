import UtilityCss.Ordered.Map
import UtilityCss.Yaml.Document
import UtilityCss.Yaml.Meaning

/-!
# Reading documents

A document is read with an expectation at each node. Aliases are followed on the way, at most a
hundred times the weight of the document, so a document whose aliases multiply is refused. Where a
text is expected every scalar is text; where a collection is expected an empty plain scalar is an
empty one.
-/

namespace UtilityCss

namespace Yaml

/-- A step of reading a document; the state counts the aliases followed. -/
abbrev Read := ReaderT Document (StateT Nat Outcome)

namespace Read

def fail {α : Type} (fault : Fault) : Read α :=
  throw fault

def lift {α : Type} (outcome : Outcome α) : Read α :=
  match outcome with
  | .ok value => pure value
  | .error fault => fail fault

/-- Goes on with a value that must be there. -/
def expect {α : Type} (value : Option α) : Read α :=
  match value with
  | some value => pure value
  | none => fail .unexpectedShape

/-- The node that an alias stands for; another node stands for itself. -/
def follow : Node → Read Node
  | .aliasTo number => do
    let document ← read
    modify (· + 1)
    if document.weight * 100 < (← get) then
      fail .tooManyAliases
    else
      match document.anchored.lookup number with
      | some node => pure node
      | none => fail .undefinedAlias
  | node => pure node

/-- Whether a node is an empty plain scalar. -/
def isBlank : Node → Bool
  | .scalar _ style text => style == .plain && text.isEmpty
  | _ => false

/-- The text of a scalar, whatever it means. -/
def text (node : Node) : Read Text := do
  match ← follow node with
  | .scalar _ _ text => return text
  | _ => fail .unexpectedShape

def items (node : Node) : Read (List Node) := do
  match ← follow node with
  | .sequence _ items => return items
  | other => if isBlank other then return [] else fail .unexpectedShape

def entries (node : Node) : Read (List (Node × Node)) := do
  match ← follow node with
  | .mapping _ entries => return entries
  | other => if isBlank other then return [] else fail .unexpectedShape

def texts (node : Node) : Read (List Text) := do
  (← items node).mapM text

def width (node : Node) : Read (Option UInt32) := do
  match ← follow node with
  | .scalar tag style text => lift (Meaning.width tag style text)
  | _ => fail .unexpectedShape

/-- What a node says; `depth` bounds the nesting of collections. -/
def datum : (depth : Nat) → Node → Read Datum
  | depth, node => do
    match ← follow node with
    | .scalar tag style text => lift (Meaning.ofScalar tag style text)
    | .sequence tag items =>
      if Meaning.isLocal tag then fail .unexpectedShape
      match depth with
      | 0 => fail .tooDeep
      | depth + 1 => return .list (← items.mapM (datum depth))
    | .mapping tag entries =>
      if Meaning.isLocal tag then fail .unexpectedShape
      match depth with
      | 0 => fail .tooDeep
      | depth + 1 =>
        return .map (← entries.mapM fun (key, value) => do
          return (← datum depth key, ← datum depth value))
    | .aliasTo _ => fail .undefinedAlias

/-- A mapping from texts, whose values are read by `read`. -/
def mapping {α : Type} (read : Node → Read α) (node : Node) : Read (OrderedMap Text α) := do
  let keyed ← (← entries node).mapM fun (key, value) => do return (← text key, ← read value)
  return OrderedMap.ofList keyed

/-- The nodes of known fields among entries; no field may be given twice, and values of other fields
are left unread. -/
def fields (names : List Text) (entries : List (Node × Node)) : Read (List (Text × Node)) := do
  let keyed ← entries.mapM fun (key, value) => do return (← text key, value)
  let known := keyed.filter fun (name, _) => names.contains name
  if (known.map Prod.fst).Nodup then return known else fail .unexpectedShape

/-- Reads a field when it is given, and takes it as `missing` when it is not. -/
def field {α : Type} (missing : Option α) (read : Node → Read α) (name : Text)
    (known : List (Text × Node)) : Read α :=
  match known.lookup name with
  | some node => read node
  | none => expect missing

end Read

namespace Document

/-- Reads the text of a document by its root. A wholly empty document is an empty scalar. -/
def readWith {α : Type} (reading : Node → Read α) (text : Text) : Outcome α := do
  let document ← Document.read text
  let (value, _) ← ((reading (document.root.getD .missing)).run document).run 0
  return value

end Document

end Yaml

end UtilityCss
