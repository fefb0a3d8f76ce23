import UtilityCss.Yaml.Node
import UtilityCss.Yaml.Scan

/-!
# From tokens to documents

A stream holds one document: directives, a root node, and markers around it. Nodes that are not
written are empty scalars. An alias refers to the last anchor of its name that was opened before it;
anchors are numbered by how many names were in use before.
-/

namespace UtilityCss

namespace Yaml

/-- The state of reading nodes from tokens. -/
structure Composition where
  tokens : List Token
  handles : List (Text × Text)
  names : List (Text × Nat)
  anchored : List (Nat × Node)

abbrev Compose := StateT Composition Outcome

namespace Compose

def peek : Compose (Option Token) := do
  return (← get).tokens.head?

def drop : Compose Unit :=
  modify fun state => { state with tokens := state.tokens.tail }

def fail {α : Type} (fault : Fault) : Compose α :=
  throw fault

/-- Whether the next token is one of the given ones. -/
def nextIn (candidates : List Token) : Compose Bool := do
  return (← peek).any candidates.contains

/-- Drops the next token if it is the given one, and says whether it was. -/
def dropIf (token : Token) : Compose Bool := do
  if (← peek) == some token then
    drop
    return true
  else
    return false

/-- The anchor in front of a node, if there is one. -/
def anchor? : Compose (Option Text) := do
  match ← peek with
  | some (.anchor name) =>
    drop
    return some name
  | _ => return none

/-- The tag in front of a node, if there is one. -/
def tag? : Compose (Option WrittenTag) := do
  match ← peek with
  | some (.tag written) =>
    drop
    return some written
  | _ => return none

/-- The anchor and the tag in front of a node, in either order. -/
def properties : Compose (Option Text × Option WrittenTag) := do
  match ← anchor? with
  | some name => return (some name, ← tag?)
  | none =>
    match ← tag? with
    | some written => return (← anchor?, some written)
    | none => return (none, none)

def expandTag (written : WrittenTag) : Compose Text := do
  if written.handle.isEmpty then
    return written.suffix
  else
    match (← get).handles.lookup written.handle with
    | some meaning => return meaning ++ written.suffix
    | none => fail .undefinedTagHandle

def openAnchor (name : Text) : Compose Nat := do
  let names := (← get).names
  let number := names.length
  let others := names.filter fun known => known.1 ≠ name
  modify fun state => { state with names := (name, number) :: others }
  return number

/-- Records the node that carries an anchor. Of two anchors of one number the one that was opened
last counts, so a record made inside the node stays; `before` is the number of records when the
anchor was opened. -/
def closeAnchor (before number : Nat) (node : Node) : Compose Unit :=
  modify fun state =>
    let inside := state.anchored.take (state.anchored.length - before)
    if (inside.lookup number).isSome then
      state
    else
      { state with anchored := (number, node) :: state.anchored }

/-- The node that an alias stands for. -/
def aliasNode (name : Text) : Compose Node := do
  match (← get).names.lookup name with
  | some number => return .aliasTo number
  | none => fail .undefinedAlias

/-- A tag that leaves the meaning of a scalar open is the same as none. -/
def scalarTag (tag : Option Text) : Option Text :=
  if tag = some ['!'] then none else tag

mutual

/-- Reads a node. Block collections are read where `block` says so, and a block sequence that is not
indented where `indentless` says so. -/
def node : (fuel : Nat) → (block indentless : Bool) → Compose Node
  | 0, _, _ => fail .unexpectedToken
  | fuel + 1, block, indentless => do
    match ← peek with
    | some (.aliasTo name) =>
      drop
      aliasNode name
    | _ =>
      let (anchor, written) ← properties
      let tag ← written.mapM expandTag
      let number ← anchor.mapM openAnchor
      let before := (← get).anchored.length
      let read ← content fuel block indentless tag (anchor.isSome || tag.isSome)
      let _ ← number.mapM fun number => closeAnchor before number read
      return read

/-- Reads a node behind its properties; without content it is empty, if it has properties. -/
def content : (fuel : Nat) → (block indentless : Bool) → Option Text → (hasProperties : Bool) →
    Compose Node
  | 0, _, _, _, _ => fail .unexpectedToken
  | fuel + 1, block, indentless, tag, hasProperties => do
    match ← peek with
    | some (.scalar style text) =>
      drop
      return .scalar (scalarTag tag) style text
    | some .flowSequenceStart =>
      drop
      return .sequence tag (← flowItems fuel true)
    | some .flowMappingStart =>
      drop
      return .mapping tag (← flowEntries fuel true)
    | next =>
      if indentless && next == some .blockEntry then
        return .sequence tag (← indentlessItems fuel)
      else if block && next == some .blockSequenceStart then
        drop
        return .sequence tag (← blockItems fuel)
      else if block && next == some .blockMappingStart then
        drop
        return .mapping tag (← blockEntries fuel)
      else if hasProperties then
        return .scalar tag .plain []
      else
        fail .unexpectedToken

/-- Reads a node of a block collection, unless one of the given tokens stands in its place. -/
def blockNode : (fuel : Nat) → (indentless : Bool) → List Token → Compose Node
  | 0, _, _ => fail .unexpectedToken
  | fuel + 1, indentless, stops => do
    if ← nextIn stops then return .missing else node fuel true indentless

/-- Reads a node of a flow collection, unless one of the given tokens stands in its place. -/
def flowNode : (fuel : Nat) → List Token → Compose Node
  | 0, _ => fail .unexpectedToken
  | fuel + 1, stops => do
    if ← nextIn stops then return .missing else node fuel false false

/-- Reads the items of a block sequence to its end. -/
def blockItems : (fuel : Nat) → Compose (List Node)
  | 0 => fail .unexpectedToken
  | fuel + 1 => do
    if ← dropIf .blockEntry then
      let item ← blockNode fuel false [.blockEntry, .blockEnd]
      return item :: (← blockItems fuel)
    else if ← dropIf .blockEnd then
      return []
    else
      fail .unexpectedToken

/-- Reads the items of a block sequence that stands at the column of its key. -/
def indentlessItems : (fuel : Nat) → Compose (List Node)
  | 0 => fail .unexpectedToken
  | fuel + 1 => do
    if ← dropIf .blockEntry then
      let item ← blockNode fuel false [.blockEntry, .key, .value, .blockEnd]
      return item :: (← indentlessItems fuel)
    else
      return []

/-- Reads the entries of a block mapping to its end. -/
def blockEntries : (fuel : Nat) → Compose (List (Node × Node))
  | 0 => fail .unexpectedToken
  | fuel + 1 => do
    if ← dropIf .key then
      let key ← blockNode fuel true [.key, .value, .blockEnd]
      let value ←
        if ← dropIf .value then
          blockNode fuel true [.key, .value, .blockEnd]
        else
          pure .missing
      return (key, value) :: (← blockEntries fuel)
    else if ← dropIf .blockEnd then
      return []
    else
      fail .unexpectedToken

/-- Reads the items of a flow sequence to its end. A key makes its item a mapping of one entry. -/
def flowItems : (fuel : Nat) → (first : Bool) → Compose (List Node)
  | 0, _ => fail .unexpectedToken
  | fuel + 1, first => do
    if ← dropIf .flowSequenceEnd then
      return []
    else
      if !first then
        unless ← dropIf .flowEntry do fail .unexpectedToken
      if ← dropIf .flowSequenceEnd then
        return []
      else if ← dropIf .key then
        let entry ← pairInSequence fuel
        return .mapping none [entry] :: (← flowItems fuel false)
      else
        let item ← node fuel false false
        return item :: (← flowItems fuel false)

/-- Reads the entry of a mapping that is an item of a flow sequence. A key that is missing takes the
token in its place with it. -/
def pairInSequence : (fuel : Nat) → Compose (Node × Node)
  | 0 => fail .unexpectedToken
  | fuel + 1 => do
    let key ←
      if ← nextIn [.value, .flowEntry, .flowSequenceEnd] then
        drop
        pure .missing
      else
        node fuel false false
    let value ←
      if ← dropIf .value then
        flowNode fuel [.flowEntry, .flowSequenceEnd]
      else
        pure .missing
    return (key, value)

/-- Reads the entries of a flow mapping to its end. An item without key mark has no value. -/
def flowEntries : (fuel : Nat) → (first : Bool) → Compose (List (Node × Node))
  | 0, _ => fail .unexpectedToken
  | fuel + 1, first => do
    if ← dropIf .flowMappingEnd then
      return []
    else
      if !first then
        unless ← dropIf .flowEntry do fail .unexpectedToken
      if ← dropIf .flowMappingEnd then
        return []
      else if ← dropIf .key then
        let key ← flowNode fuel [.value, .flowEntry, .flowMappingEnd]
        let value ←
          if ← dropIf .value then
            flowNode fuel [.flowEntry, .flowMappingEnd]
          else
            pure .missing
        return (key, value) :: (← flowEntries fuel false)
      else
        let key ← node fuel false false
        return (key, .missing) :: (← flowEntries fuel false)

end

/-- The handles that every document knows. -/
def commonHandles : List (Text × Text) :=
  [(['!'], ['!']), (['!', '!'], "tag:yaml.org,2002:".toList)]

/-- Reads directives: at most one version, which must be known, and each handle once. -/
def directives : (fuel : Nat) → (versioned : Bool) → List (Text × Text) →
    Compose (List (Text × Text))
  | 0, _, handles => return handles
  | fuel + 1, versioned, handles => do
    match ← peek with
    | some (.version major minor) =>
      if versioned || major ≠ 1 || (minor ≠ 1 && minor ≠ 2) then fail .invalidDirective
      drop
      directives fuel true handles
    | some (.tagHandle handle meaning) =>
      if (handles.lookup handle).isSome then fail .invalidDirective
      drop
      directives fuel versioned (handles ++ [(handle, meaning)])
    | _ => return handles

/-- Whether directives or a marker start the document. -/
def startsExplicitly : Option Token → Bool
  | some (.version ..) | some (.tagHandle ..) | some .documentStart => true
  | _ => false

/-- Whether the root of a document behind its marker is missing. -/
def endsDocument : Option Token → Bool
  | none | some .documentEnd => true
  | next => startsExplicitly next

def endMarkers : (fuel : Nat) → Compose Unit
  | 0 => return ()
  | fuel + 1 => do
    if ← dropIf .documentEnd then endMarkers fuel

def stream (fuel : Nat) : Compose (Option Node) := do
  match ← peek with
  | none => return none
  | next =>
    let explicit := startsExplicitly next
    if explicit then
      let handles ← directives fuel false []
      modify fun state => { state with handles := handles ++ commonHandles }
      unless ← dropIf .documentStart do fail .unexpectedToken
    let root ←
      if explicit && endsDocument (← peek) then
        pure .missing
      else
        node fuel true false
    endMarkers fuel
    match ← peek with
    | none => return some root
    | some _ => fail .moreThanOneDocument

end Compose

namespace Document

/-- Reads a document. A node and the loop that reads it use up a token in at most four calls. -/
def read (text : Text) : Outcome Document := do
  let tokens ← tokens text
  let (root, state) ←
    (Compose.stream (4 * tokens.length + 8)).run ⟨tokens, Compose.commonHandles, [], []⟩
  return ⟨root, state.anchored⟩

end Document

end Yaml

end UtilityCss
