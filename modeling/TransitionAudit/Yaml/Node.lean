import TransitionAudit.Yaml.Token
import TransitionAudit.Yaml.Tag

/-!
# Nodes of a YAML document

The graph that tokens stand for. Its nodes have numbers, and an alias is the number of the node that its
anchor names, so that a collection can be part of itself.
-/

namespace TransitionAudit.Yaml

/-- The number of a node. -/
abbrev NodeId := Nat

inductive Content
  | scalar (text : Text)
  | sequence (items : List NodeId)
  | mapping (entries : List (NodeId × NodeId))
  deriving DecidableEq, Inhabited

structure Node where
  tag : Tag
  content : Content
  deriving DecidableEq

/-- Nodes by their numbers, which count from zero. -/
structure Graph where
  nodes : Array Node := #[]

namespace Graph

def get? (g : Graph) (id : NodeId) : Option Node := g.nodes[id]?

/-- A graph with one more node, which has the next number. -/
def add (g : Graph) (n : Node) : Graph := ⟨g.nodes.push n⟩

def setContent (g : Graph) (id : NodeId) (c : Content) : Graph :=
  ⟨g.nodes.modify id fun n => { n with content := c }⟩

def setTag (g : Graph) (id : NodeId) (t : Tag) : Graph :=
  ⟨g.nodes.modify id fun n => { n with tag := t }⟩

end Graph

/-! ## Reading tokens -/

/-- Why tokens are no document. -/
inductive NodeFault
  /-- A token that does not fit. -/
  | unexpected
  /-- The settled tokens end before the document does. -/
  | ended
  /-- A collection inside of too many others. -/
  | tooDeep
  deriving DecidableEq

/-- What is left of the tokens, and the nodes read so far with those that anchors name. -/
structure Composer where
  tokens : List Token
  /-- Whether the text ends after the tokens. -/
  complete : Bool := true
  graph : Graph := {}
  anchors : List (Text × NodeId) := []
  /-- What the handles of tags stand for. -/
  handles : List (Text × Text) := []

abbrev Compose := StateT Composer (Except NodeFault)

namespace Compose

/-- The next token, `none` at the end of the text. -/
def peek : Compose (Option Token) := do
  let s ← get
  match s.tokens with
  | t :: _ => return some t
  | [] => if s.complete then return none else throw .ended

def drop : Compose Unit := modify fun s => { s with tokens := s.tokens.drop 1 }

/-- Drops a token if it comes next. -/
def accept (t : Token) : Compose Bool := do
  if (← peek) = some t then
    drop
    return true
  else return false

def expect (t : Token) : Compose Unit := do
  if !(← accept t) then throw .unexpected

/-- Whether one of some tokens comes next. -/
def nextIn (ts : List Token) : Compose Bool := return (← peek).any ts.contains

/-! ## Properties -/

/-- An anchor and a tag in front of a node. -/
structure Properties where
  anchor : Option Text := none
  tag : Option Text := none

/-- The full name of a tag. -/
def tagName (handle : Option Text) (suffix : Text) : Compose Text := do
  match handle with
  | none => return suffix
  | some h =>
    match (← get).handles.find? (·.1 == h) with
    | some (_, uri) => return uri ++ suffix
    | none => throw .unexpected

/-- An anchor, if one comes next. -/
def anchor? : Compose (Option Text) := do
  match ← peek with
  | some (.anchor name) =>
    drop
    return some name
  | _ => return none

/-- A tag as it is written, if one comes next. -/
def tag? : Compose (Option (Option Text × Text)) := do
  match ← peek with
  | some (.tag handle suffix) =>
    drop
    return some (handle, suffix)
  | _ => return none

/-- Anchor and tag in either order. -/
def properties : Compose Properties := do
  let first ← anchor?
  let tag ← tag?
  let anchor ← match first with
    | none => if tag.isSome then anchor? else pure none
    | some name => pure (some name)
  match tag with
  | none => return ⟨anchor, none⟩
  | some (handle, suffix) => return ⟨anchor, some (← tagName handle suffix)⟩

/-- The node an alias stands for. -/
def aliased (a : Text) : Compose NodeId := do
  match (← get).anchors.find? (·.1 == a) with
  | some (_, id) => return id
  | none => throw .unexpected

/-- Whether a tag is written that says something. -/
def isSaying (name : Text) : Bool := name != "!"

/-- The tag of a node: the one written, unless that is missing or says nothing. -/
def Properties.tagOr (p : Properties) (other : Tag) : Tag :=
  ((p.tag.filter isSaying).map Tag.ofName).getD other

/-- The tag of a scalar: only one that is plain, or whose tag says nothing, has it by its form. -/
def Properties.scalarTag (p : Properties) (plain : Bool) (text : Text) : Tag :=
  p.tagOr (if plain || p.tag.isSome then .ofForm text else .text)

/-! ## Adding nodes -/

/-- Adds a node. Its anchor, if it has one, names it and has to be a new one. -/
def add (p : Properties) (tag : Tag) (c : Content) : Compose NodeId := do
  let s ← get
  let id := s.graph.nodes.size
  let anchors ← match p.anchor with
    | none => pure s.anchors
    | some a => if s.anchors.any (·.1 == a) then throw .unexpected else pure ((a, id) :: s.anchors)
  set { s with graph := s.graph.add ⟨tag, c⟩, anchors := anchors }
  return id

/-- An empty node without properties. -/
def emptyNode : Compose NodeId := add {} .null (.scalar [])

/-- A collection, which its anchor names already while the items are read. -/
def sequenceOf (p : Properties) (items : Compose (List NodeId)) : Compose NodeId := do
  let id ← add p (p.tagOr .sequence) (.sequence [])
  let xs ← items
  modify fun s => { s with graph := s.graph.setContent id (.sequence xs) }
  return id

def mappingOf (p : Properties) (entries : Compose (List (NodeId × NodeId))) : Compose NodeId := do
  let id ← add p (p.tagOr .mapping) (.mapping [])
  let es ← entries
  modify fun s => { s with graph := s.graph.setContent id (.mapping es) }
  return id

/-! ## Nodes -/

/-- Where a node stands. -/
inductive Place
  /-- Between brackets. -/
  | flow
  | block
  /-- In a block mapping, where a sequence need not be further in. -/
  | entry
  deriving DecidableEq

/-- What is read one level further in, of `depth` levels that there may be. -/
def inside {α : Type} (depth : Nat) (read : Nat → Compose α) : Compose α :=
  match depth with
  | 0 => throw .tooDeep
  | depth + 1 => read depth

mutual

/-- One node, inside of which there may be `depth` levels of collections. The fuel bounds the number of nodes and
items. -/
def node (depth : Nat) : Nat → Place → Compose NodeId
  | 0, _ => throw .unexpected
  | fuel + 1, place => do
    if let some (.alias a) ← peek then
      drop
      return ← aliased a
    let p ← properties
    if place = .entry && (← nextIn [.blockEntry]) then
      return ← sequenceOf p (inside depth fun depth => indentless depth fuel)
    match ← peek with
    | some (.scalar plain text) =>
      drop
      add p (p.scalarTag plain text) (.scalar text)
    | some .flowSequenceStart =>
      drop
      sequenceOf p (inside depth fun depth => flowItems depth fuel true)
    | some .flowMappingStart =>
      drop
      mappingOf p (inside depth fun depth => flowEntries depth fuel true)
    | t =>
      if t = some .blockSequenceStart && place ≠ .flow then
        drop
        sequenceOf p (inside depth fun depth => blockItems depth fuel)
      else if t = some .blockMappingStart && place ≠ .flow then
        drop
        mappingOf p (inside depth fun depth => blockEntries depth fuel)
      else if p.anchor.isSome || p.tag.isSome then add p (p.tagOr .null) (.scalar [])
      else throw .unexpected

/-- A node, or an empty one before certain tokens. -/
def nodeUnless (depth : Nat) : Nat → Place → List Token → Compose NodeId
  | 0, _, _ => throw .unexpected
  | fuel + 1, place, ts => do
    if ← nextIn ts then emptyNode else node depth fuel place

/-- The value of a key, or an empty one if there is no colon. -/
def valueUnless (depth : Nat) : Nat → Place → List Token → Compose NodeId
  | 0, _, _ => throw .unexpected
  | fuel + 1, place, ts => do
    if ← accept .value then nodeUnless depth fuel place ts else emptyNode

def blockItems (depth : Nat) : Nat → Compose (List NodeId)
  | 0 => throw .unexpected
  | fuel + 1 => do
    if ← accept .blockEntry then
      let x ← nodeUnless depth fuel .block [.blockEntry, .blockEnd]
      return x :: (← blockItems depth fuel)
    expect .blockEnd
    return []

/-- A sequence that is no further in than the mapping around it. -/
def indentless (depth : Nat) : Nat → Compose (List NodeId)
  | 0 => throw .unexpected
  | fuel + 1 => do
    if ← accept .blockEntry then
      let x ← nodeUnless depth fuel .block [.blockEntry, .key, .value, .blockEnd]
      return x :: (← indentless depth fuel)
    return []

def blockEntries (depth : Nat) : Nat → Compose (List (NodeId × NodeId))
  | 0 => throw .unexpected
  | fuel + 1 => do
    if ← accept .key then
      let k ← nodeUnless depth fuel .entry [.key, .value, .blockEnd]
      let v ← valueUnless depth fuel .entry [.key, .value, .blockEnd]
      return (k, v) :: (← blockEntries depth fuel)
    expect .blockEnd
    return []

/-- The items of a sequence in brackets; after the first one each needs a comma before it. -/
def flowItems (depth : Nat) : Nat → Bool → Compose (List NodeId)
  | 0, _ => throw .unexpected
  | fuel + 1, first => do
    if ← accept .flowSequenceEnd then return []
    if !first then expect .flowEntry
    if ← accept .flowSequenceEnd then return []
    let x ← flowItem depth fuel
    return x :: (← flowItems depth fuel false)

/-- An item in brackets: a node, or a mapping of one entry. -/
def flowItem (depth : Nat) : Nat → Compose NodeId
  | 0 => throw .unexpected
  | fuel + 1 => do
    if ← accept .key then
      mappingOf {} (inside depth fun depth => do
        let k ← nodeUnless depth fuel .flow [.value, .flowEntry, .flowSequenceEnd]
        let v ← valueUnless depth fuel .flow [.flowEntry, .flowSequenceEnd]
        return [(k, v)])
    else node depth fuel .flow

def flowEntries (depth : Nat) : Nat → Bool → Compose (List (NodeId × NodeId))
  | 0, _ => throw .unexpected
  | fuel + 1, first => do
    if ← accept .flowMappingEnd then return []
    if !first then expect .flowEntry
    if ← accept .flowMappingEnd then return []
    let e ← flowPair depth fuel
    return e :: (← flowEntries depth fuel false)

/-- An entry in braces; a node without a mark is a key without a value. -/
def flowPair (depth : Nat) : Nat → Compose (NodeId × NodeId)
  | 0 => throw .unexpected
  | fuel + 1 => do
    if ← accept .key then
      let k ← nodeUnless depth fuel .flow [.value, .flowEntry, .flowMappingEnd]
      let v ← valueUnless depth fuel .flow [.flowEntry, .flowMappingEnd]
      return (k, v)
    let k ← node depth fuel .flow
    return (k, ← emptyNode)

end

/-! ## Documents -/

/-- What the handles of tags stand for unless directives say otherwise. -/
def standardHandles : List (Text × Text) := [("!", "!"), ("!!", Tag.standard)]

/-- The directives before a document: at most one version, which has to be 1, and one meaning for each
handle. -/
def directives (versioned : Bool) : Nat → Compose Unit
  | 0 => throw .unexpected
  | fuel + 1 => do
    match ← peek with
    | some (.directive (.version major)) =>
      if versioned || major ≠ 1 then throw .unexpected
      drop
      directives true fuel
    | some (.directive (.tag handle uri)) =>
      if (← get).handles.any (·.1 == handle) then throw .unexpected
      modify fun s => { s with handles := (handle, uri) :: s.handles }
      drop
      directives versioned fuel
    | some (.directive .other) =>
      drop
      directives versioned fuel
    | _ => return

def isDirective : Option Token → Bool
  | some (.directive _) => true
  | _ => false

/-- Drops the marks for the end of a document that come next. -/
def skipEnds : Nat → Compose Unit
  | 0 => return
  | fuel + 1 => do
    if ← accept .documentEnd then skipEnds fuel

/-- Demands that no other document comes next. Its directives may have a fault of their own. -/
def expectEnd (fuel : Nat) : Compose Unit := do
  skipEnds fuel
  if (← peek).isSome then
    modify fun s => { s with handles := [] }
    directives false fuel
    discard peek
    throw .unexpected

/-- The node of a stream with one document, or none if the stream is empty. -/
def document (depth fuel : Nat) : Compose (Option NodeId) := do
  let start ← peek
  if start.isNone then return none
  let explicit := isDirective start || start = some .documentStart
  if explicit then
    directives false fuel
    expect .documentStart
  modify fun s => { s with handles := s.handles ++ standardHandles }
  let next ← peek
  let empty := next.isNone || isDirective next || (← nextIn [.documentStart, .documentEnd])
  let n ← if explicit && empty then emptyNode else node depth fuel .block
  expectEnd fuel
  return some n

end Compose

/-- The graph of a text and the number of its document's node, if it has a document. A fault in a token
counts only if what stands before it is well-formed. -/
def graphOf (depth : Nat) (text : List Char) : Except Fault (Graph × Option NodeId) :=
  let (ts, fault) := tokens text
  let compose := Compose.document depth (8 * ts.length + 16)
  match compose.run { tokens := ts, complete := fault.isNone }, fault with
  | .ok (root, s), none => .ok (s.graph, root)
  | .error .ended, some fault => .error fault
  | .error .tooDeep, _ => .error .tooDeep
  | _, some .malformed | .error _, _ | .ok _, some _ => .error .malformed

end TransitionAudit.Yaml
