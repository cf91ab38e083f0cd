import TransitionAudit.Data.Moment
import TransitionAudit.Json.Basic

/-!
# Document values

The values of a rule document: scalars, lists and mappings whose keys are scalars, in the order in
which they were written. Every JSON value is one. A list or mapping may be part of itself; it has a
label then, which stands for it in its inside.
-/

namespace TransitionAudit

inductive Scalar
  | null
  | bool (b : Bool)
  | int (i : Int)
  | double (x : Double)
  /-- A NaN that came out of a computation; as a key it is the same as no other. -/
  | loneNan
  | text (t : Text)
  | bytes (octets : List UInt8)
  | date (d : Date)
  | moment (m : Moment)
  deriving DecidableEq, Repr, Inhabited

inductive Value
  | scalar (s : Scalar)
  | list (items : List Value)
  | map (entries : List (Scalar × Value))
  /-- One entry of an ordered list of pairs. -/
  | pair (key value : Value)
  | set (members : List Scalar)
  /-- A list or mapping that is part of itself. -/
  | cyclic (label : Nat) (body : Value)
  /-- The list or mapping of a label, inside of itself. -/
  | again (label : Nat) (isList : Bool)
  deriving Inhabited, BEq

/-- The entries of a mapping in their order. -/
abbrev Entries := List (Scalar × Value)

namespace Scalar

/-- The number a scalar is equal to, if it is a whole one: `true` counts as one. -/
def whole? : Scalar → Option Int
  | .bool b => some (if b then 1 else 0)
  | .int i => some i
  | .double (.finite negative m e) =>
    let (n, d) := Double.magnitude m e
    if n % d = 0 then some (if negative then -((n / d : Nat) : Int) else (n / d : Nat)) else none
  | _ => none

/-- Whether two scalars are the same key. Numbers are the same by value, moments with an offset by
instant; the NaN that documents can write is the same as itself. -/
def sameKey (a b : Scalar) : Bool :=
  match a.whole?, b.whole? with
  | some i, some j => i = j
  | _, _ =>
    match a, b with
    | .loneNan, _ | _, .loneNan => false
    | .double .nan, .double .nan => true
    | .double x, .double y => x.sameValue y
    | .moment m, .moment n =>
      if m.offset.isSome && n.offset.isSome then m.instant = n.instant else m = n
    | a, b => a = b

end Scalar

namespace Entries

/-- The value of a key. -/
def value? (es : Entries) (key : Scalar) : Option Value :=
  (List.find? (fun e => e.1.sameKey key) es).map (·.2)

/-- The value of a key that is a text. -/
def get? (es : Entries) (name : Text) : Option Value := value? es (.text name)

/-- Sets a key: a known key keeps its place and its spelling, a new one comes last. -/
def put (key : Scalar) (value : Value) : Entries → Entries
  | [] => [(key, value)]
  | (k, v) :: rest => if k.sameKey key then (k, value) :: rest else (k, v) :: put key value rest

/-- Leaves a key out. -/
def erase (es : Entries) (key : Scalar) : Entries := List.filter (fun e => !e.1.sameKey key) es

end Entries

/-! ## JSON values -/

mutual

/-- A JSON value as a document value. -/
def Json.toValue : Json → Value
  | .null => .scalar .null
  | .bool b => .scalar (.bool b)
  | .int i => .scalar (.int i)
  | .double x => .scalar (.double x)
  | .str s => .scalar (.text s)
  | .arr xs => .list (Json.toValues xs)
  | .obj ms => .map (Json.toEntries ms)

def Json.toValues : List Json → List Value
  | [] => []
  | x :: xs => x.toValue :: Json.toValues xs

def Json.toEntries : List (Text × Json) → Entries
  | [] => []
  | (n, x) :: ms => (.text n, x.toValue) :: Json.toEntries ms

end

end TransitionAudit
