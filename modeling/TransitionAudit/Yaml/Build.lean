import TransitionAudit.Yaml.Node
import TransitionAudit.Yaml.Typed
import TransitionAudit.Data.Value

/-!
# Objects of a YAML document

What the nodes of a graph stand for. A scalar has its value at once; a collection is an object of its
own, which is filled later, the outer collections before those inside of them. So a collection can be
part of itself, and of several faults the outer one counts.

Mappings under the key `<<` are merged in front of the entries of the mapping they stand in; of a
repeated key the last value counts.
-/

namespace TransitionAudit.Yaml

/-- What a node stands for: a scalar, or the collection of the node. -/
inductive Object
  | scalar (s : Scalar)
  | collection (id : NodeId)
  deriving DecidableEq

/-- An entry of a mapping with the node of its key. -/
structure KeyedEntry where
  node : NodeId
  key : Scalar
  value : Object

/-- What is in a collection. -/
inductive Filling
  | list (items : List Object)
  | pairs (items : List (Object × Object))
  | map (entries : List (Scalar × Object))
  | set (members : List Scalar)

def Filling.isList : Filling → Bool
  | .list _ | .pairs _ => true
  | _ => false

structure Builder where
  graph : Graph
  /-- The objects of the nodes that have been reached. -/
  objects : Array (Option Object)
  fillings : Array (Option Filling)
  /-- A bound on the number of keys `<<`, of which there are never more than at the start. -/
  mergeBound : Nat
  /-- How many calls may lie in each other. -/
  calls : Nat
  /-- The collections to be filled next, the last one first. -/
  waiting : List NodeId := []

/-- The number of entries in all mappings. -/
def Graph.entryCount (g : Graph) : Nat :=
  g.nodes.foldl (fun n x => match x.content with
    | .mapping es => n + es.length
    | _ => n) 0

/-- A graph of which no node has been reached. -/
def Builder.of (calls : Nat) (g : Graph) : Builder where
  calls := calls
  graph := g
  objects := .replicate g.nodes.size none
  fillings := .replicate g.nodes.size none
  mergeBound := g.entryCount

abbrev Build := StateT Builder (Except Fault)

namespace Build

def nodeOf (id : NodeId) : Build Node := do
  match (← get).graph.get? id with
  | some n => return n
  | none => throw .malformed

/-! ## Scalars -/

/-- The text of a node where a scalar is wanted. A mapping has the text of what stands under its key
`=`; there may be so many calls on the way. -/
def scalarText : Nat → NodeId → Build Text
  | 0, _ => throw .tooDeep
  | calls + 1, id => do
    match (← nodeOf id).content with
    | .scalar t => return t
    | .sequence _ => throw .malformed
    | .mapping es =>
      let g := (← get).graph
      match es.find? fun e => (g.get? e.1).any (·.tag = .value) with
      | some (_, v) => scalarText calls v
      | none => throw .malformed

/-- The value of a node under a tag of scalars. A moment is not read from a mapping. -/
def scalarOf (id : NodeId) (n : Node) : Build Scalar := do
  let t ← scalarText (← get).calls id
  match n.tag, n.content with
  | .timestamp, .mapping _ => throw .mappingMoment
  | tag, _ => typed tag t

/-! ## Objects -/

def isCollectionTag : Tag → Bool
  | .sequence | .mapping | .set | .orderedMap | .pairs => true
  | _ => false

def isScalarTag : Tag → Bool
  | .null | .bool | .int | .float | .binary | .timestamp | .text => true
  | _ => false

/-- The object of a node; every node has one. -/
def objectOf (id : NodeId) : Build Object := do
  if let some (some o) := (← get).objects[id]? then return o
  let n ← nodeOf id
  let o ←
    if isCollectionTag n.tag then do
      modify fun s => { s with waiting := id :: s.waiting }
      pure (.collection id)
    else if isScalarTag n.tag then pure (.scalar (← scalarOf id n))
    else throw .malformed
  modify fun s => { s with objects := s.objects.modify id fun _ => some o }
  return o

/-! ## Merging -/

def setEntries (id : NodeId) (es : List (NodeId × NodeId)) : Build Unit :=
  modify fun s => { s with graph := s.graph.setContent id (.mapping es) }

/-- The entries of a node that has to be a mapping. -/
def entriesOf (id : NodeId) : Build (List (NodeId × NodeId)) := do
  match (← nodeOf id).content with
  | .mapping es => return es
  | _ => throw .malformed

/-- Makes keys `=` texts. -/
def textKeys (es : List (NodeId × NodeId)) : Build Unit :=
  modify fun s => { s with
    graph := es.foldl (fun g e =>
      if (g.get? e.1).any (·.tag = .value) then g.setTag e.1 .text else g) s.graph }

/-- What is done by one more call, of those that there is room for. -/
def called {α : Type} (calls : Nat) (act : Nat → Build α) : Build α :=
  match calls with
  | 0 => throw .tooDeep
  | calls + 1 => act calls

mutual

/-- Puts the entries of merged mappings in front of those of a mapping, from which the keys `<<` are
taken away. The first `index` entries have been seen, and `merged` has been found under the keys `<<`
before. The fuel bounds the number of keys `<<`, and mappings may merge each other through so many calls. -/
def flatten (calls : Nat) : Nat → NodeId → Nat → List (NodeId × NodeId) → Build Unit
  | 0, _, _, _ => throw .tooDeep
  | fuel + 1, id, index, merged => do
    let es ← entriesOf id
    let g := (← get).graph
    let isMerge (e : NodeId × NodeId) : Bool := (g.get? e.1).any (·.tag = .merge)
    let others := (es.drop index).takeWhile fun e => !isMerge e
    textKeys others
    match (es.drop index).dropWhile fun e => !isMerge e with
    | [] => if !merged.isEmpty then setEntries id (merged ++ es)
    | (_, v) :: rest =>
      setEntries id (es.take index ++ others ++ rest)
      let more ← mergedFrom calls fuel v
      flatten calls fuel id (index + others.length) (merged ++ more)
termination_by structural fuel => fuel

/-- The entries that a node under a key `<<` gives: those of a mapping, or of a list of mappings, of
which the first counts most. -/
def mergedFrom (calls : Nat) : Nat → NodeId → Build (List (NodeId × NodeId))
  | 0, _ => throw .tooDeep
  | fuel + 1, id => do
    match (← nodeOf id).content with
    | .scalar _ => throw .malformed
    | .mapping _ =>
      called calls fun calls => flatten calls fuel id 0 []
      entriesOf id
    | .sequence xs =>
      let parts ← xs.mapM fun x => do
        discard (entriesOf x)
        called calls fun calls => flatten calls fuel x 0 []
        entriesOf x
      return parts.reverse.flatten
termination_by structural fuel => fuel

end

/-! ## Filling -/

/-- Sets a key: a known key keeps its place and its spelling, a new one comes last. A key is known
also by its node. -/
def put (e : KeyedEntry) : List KeyedEntry → List KeyedEntry
  | [] => [e]
  | k :: rest =>
    if k.node = e.node || k.key.sameKey e.key then { k with value := e.value } :: rest
    else k :: put e rest

/-- The entries of a mapping. A key has to be a scalar. -/
def keyedEntries (id : NodeId) : Build (List KeyedEntry) := do
  discard (entriesOf id)
  let s ← get
  flatten s.calls (2 * s.mergeBound + 2) id 0 []
  (← entriesOf id).foldlM (fun done (k, v) => do
    match ← objectOf k with
    | .collection _ => throw .malformed
    | .scalar key => return put ⟨k, key, ← objectOf v⟩ done) []

/-- The pair of a mapping with one entry. -/
def pairOf (id : NodeId) : Build (Object × Object) := do
  match ← entriesOf id with
  | [(k, v)] =>
    let key ← objectOf k
    return (key, ← objectOf v)
  | _ => throw .malformed

def fillingOf (id : NodeId) : Build Filling := do
  let n ← nodeOf id
  match n.tag, n.content with
  | .sequence, .sequence xs => return .list (← xs.mapM objectOf)
  | .orderedMap, .sequence xs | .pairs, .sequence xs => return .pairs (← xs.mapM pairOf)
  | .mapping, .mapping _ => return .map ((← keyedEntries id).map fun e => (e.key, e.value))
  | .set, .mapping _ => return .set ((← keyedEntries id).map (·.key))
  | _, _ => throw .malformed

def fill (id : NodeId) : Build Unit := do
  let f ← fillingOf id
  modify fun s => { s with fillings := s.fillings.modify id fun _ => some f }

/-- Fills the collections that wait, then those that have been reached while doing so. The fuel bounds
how deep they lie. -/
def fillAll : Nat → Build Unit
  | 0 => return
  | fuel + 1 => do
    let ids := (← get).waiting.reverse
    if ids.isEmpty then return
    modify fun s => { s with waiting := [] }
    ids.forM fill
    fillAll fuel

/-- The object of the document's node, with everything inside of it filled. -/
def document (root : NodeId) : Build Object := do
  let o ← objectOf root
  fillAll ((← get).graph.nodes.size + 1)
  return o

end Build

/-! ## Values -/

/-- A value, and the labels in it that stand for collections around it. -/
structure Opened where
  value : Value
  labels : List NodeId := []

/-- The values of collections that are not part of themselves, as far as they are known. -/
abbrev Unfold := StateM (Array (Option Value))

namespace Unfold

/-- The value of a collection from that of its inside. -/
def closed (id : NodeId) (body : Opened) : Unfold Opened := do
  if body.labels.isEmpty then
    modify fun known => known.modify id fun _ => some body.value
    return body
  else return ⟨.cyclic id body.value, (body.labels.filter (· ≠ id)).eraseDups⟩

def unlabelled (v : Value) : Opened := ⟨v, []⟩

mutual

/-- The value of an object inside of some collections. The fuel bounds their depth. -/
def value (fillings : Array (Option Filling)) : Nat → List NodeId → Object → Unfold Opened
  | _, _, .scalar s => return unlabelled (.scalar s)
  | 0, _, .collection _ => return unlabelled default
  | fuel + 1, path, .collection id => do
    if let some (some v) := (← get)[id]? then return unlabelled v
    match fillings[id]? with
    | some (some filling) =>
      if path.contains id then return ⟨.again id filling.isList, [id]⟩
      else closed id (← inside fillings fuel (id :: path) filling)
    | _ => return unlabelled default

/-- The value of what is in a collection. -/
def inside (fillings : Array (Option Filling)) : Nat → List NodeId → Filling → Unfold Opened
  | 0, _, _ => return unlabelled default
  | fuel + 1, path, f =>
    match f with
    | .list xs => do
      let vs ← xs.mapM (value fillings fuel path)
      return ⟨.list (vs.map (·.value)), vs.flatMap (·.labels)⟩
    | .pairs xs => do
      let vs ← xs.mapM fun (k, v) => do
        let k ← value fillings fuel path k
        let v ← value fillings fuel path v
        return Opened.mk (.pair k.value v.value) (k.labels ++ v.labels)
      return ⟨.list (vs.map (·.value)), vs.flatMap (·.labels)⟩
    | .map es => do
      let vs ← es.mapM fun (k, v) => return (k, ← value fillings fuel path v)
      return ⟨.map (vs.map fun (k, v) => (k, v.value)), vs.flatMap (·.2.labels)⟩
    | .set ms => return unlabelled (.set ms)

end

end Unfold

/-- The value of a document by the number of its node. -/
def Graph.toValue (calls : Nat) (g : Graph) (root : NodeId) : Except Fault Value := do
  let (o, s) ← (Build.document root).run (.of calls g)
  let size := g.nodes.size
  return ((Unfold.value s.fillings (2 * size + 2) [] o).run (.replicate size none)).1.value

end TransitionAudit.Yaml
