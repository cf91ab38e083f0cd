import TransitionAudit.Data.Value

/-!
# Collections that are part of themselves

What stands in a list or mapping, on its own: where the collection around it was meant by a label, that
collection stands itself. So every value that is taken out of another one is whole.
-/

namespace TransitionAudit.Value

def isList : Value → Bool
  | .list _ => true
  | .cyclic _ body => isList body
  | .again _ isList => isList
  | _ => false

mutual

/-- A value inside of the collections of some labels, for which the labels stand. -/
def within (labels : List Nat) : Value → Value
  | .scalar s => .scalar s
  | .list xs => .list (allWithin labels xs)
  | .map es => .map (entriesWithin labels es)
  | .pair k v => .pair (within labels k) (within labels v)
  | .set ms => .set ms
  | .cyclic l body => if labels.contains l then .again l body.isList else .cyclic l (within labels body)
  | .again l isList => .again l isList

def allWithin (labels : List Nat) : List Value → List Value
  | [] => []
  | x :: xs => within labels x :: allWithin labels xs

def entriesWithin (labels : List Nat) : Entries → Entries
  | [] => []
  | (k, v) :: es => (k, within labels v) :: entriesWithin labels es

end

mutual

/-- Puts a collection in the place of its label in a value, which is inside of the collections of some
other labels. -/
def restore (label : Nat) (whole : Value) (labels : List Nat) : Value → Value
  | .scalar s => .scalar s
  | .list xs => .list (restoreAll label whole labels xs)
  | .map es => .map (restoreEntries label whole labels es)
  | .pair k v => .pair (restore label whole labels k) (restore label whole labels v)
  | .set ms => .set ms
  | .cyclic l body => .cyclic l (restore label whole (l :: labels) body)
  | .again l isList => if l = label then within labels whole else .again l isList

def restoreAll (label : Nat) (whole : Value) (labels : List Nat) : List Value → List Value
  | [] => []
  | x :: xs => restore label whole labels x :: restoreAll label whole labels xs

def restoreEntries (label : Nat) (whole : Value) (labels : List Nat) : Entries → Entries
  | [] => []
  | (k, v) :: es => (k, restore label whole labels v) :: restoreEntries label whole labels es

end

/-- The items of a list. -/
def items? : Value → Option (List Value)
  | .list xs => some xs
  | .cyclic l (.list xs) => some (restoreAll l (.cyclic l (.list xs)) [] xs)
  | _ => none

/-- The entries of a mapping. -/
def entries? : Value → Option Entries
  | .map es => some es
  | .cyclic l (.map es) => some (restoreEntries l (.cyclic l (.map es)) [] es)
  | _ => none

/-- A mapping without one of its keys, also inside of itself. -/
def eraseKey (key : Scalar) : Value → Value
  | .map es => .map (Entries.erase es key)
  | .cyclic l (.map es) => .cyclic l (.map (Entries.erase es key))
  | v => v

mutual

/-- The number of values that a value consists of. -/
def size : Value → Nat
  | .scalar _ | .set _ | .again .. => 1
  | .list xs => sizeOfAll xs + 1
  | .map es => sizeOfEntries es + 1
  | .pair k v => size k + size v + 1
  | .cyclic _ body => size body + 1

def sizeOfAll : List Value → Nat
  | [] => 0
  | x :: xs => size x + sizeOfAll xs

def sizeOfEntries : Entries → Nat
  | [] => 0
  | (_, v) :: es => size v + sizeOfEntries es

end

/-- A value with its mappings taken out of themselves as far as another value has mappings in the same
places, `none` if that goes on for more levels than the fuel. -/
def unrolled : Nat → Value → Value → Option Value
  | 0, _, _ => none
  | fuel + 1, v, below =>
    match v.entries?, below.entries? with
    | some es, some base => do
      let es ← es.mapM fun (key, v) =>
        match Entries.value? base key with
        | some b => (unrolled fuel v b).map (key, ·)
        | none => some (key, v)
      return .map es
    | _, _ => some v

/-- A value taken out of itself as far as another one goes. There are no more places in which both are
mappings than pairs of their values, unless they go on for ever. -/
def unrolledOver (v below : Value) : Option Value := unrolled (v.size * below.size + 1) v below

end TransitionAudit.Value
