import TransitionAudit.Data.Literal
import TransitionAudit.Data.RunSort

/-!
# The order of keys

Numbers are ordered by value, texts by code points, octets, dates and moments each among themselves.
Keys of different kinds have no order, so keys that mix them cannot be sorted.
-/

namespace TransitionAudit

/-- Why two keys have no order. -/
inductive OrderFault
  | differentKinds (a b : Scalar)
  | dateAndMoment
  /-- One moment has an offset and the other has none. -/
  | mixedOffsets
  deriving DecidableEq, Repr

def OrderFault.message : OrderFault → Text
  | .differentKinds a b =>
    "'<' not supported between instances of '" ++ a.kindName ++ "' and '" ++ b.kindName ++ "'"
  | .dateAndMoment => "can't compare datetime.datetime to datetime.date"
  | .mixedOffsets => "can't compare offset-naive and offset-aware datetimes"

/-! ## Comparing two keys -/

/-- A number on the extended line: a quotient, or an end of the line. -/
inductive Magnitude
  | bottom
  | ratio (num : Int) (den : Nat)
  | top
  | unordered

/-- Where a number lies; `true` counts as one. -/
def Scalar.magnitude? : Scalar → Option Magnitude
  | .bool b => some (.ratio (if b then 1 else 0) 1)
  | .int i => some (.ratio i 1)
  | .double .nan | .loneNan => some .unordered
  | .double (.infinite negative) => some (if negative then .bottom else .top)
  | .double (.finite negative m e) =>
    let (n, d) := Double.magnitude m e
    some (.ratio (if negative then -(n : Int) else n) d)
  | _ => none

def Magnitude.less : Magnitude → Magnitude → Bool
  | .unordered, _ | _, .unordered => false
  | _, .bottom | .top, _ => false
  | .bottom, _ | _, .top => true
  | .ratio n d, .ratio n' d' => n * d' < n' * d

/-- The calendar fields of a moment, the greatest unit first. -/
def Moment.fields (m : Moment) : List Nat :=
  [m.date.year, m.date.month, m.date.day, m.hour, m.minute, m.second, m.microsecond]

def Moment.less (m n : Moment) : Except OrderFault Bool :=
  match m.offset, n.offset with
  | none, none => .ok (m.fields < n.fields)
  | some _, some _ => .ok (m.instant < n.instant)
  | _, _ => .error .mixedOffsets

/-- Whether one key comes before another. -/
def Scalar.less (a b : Scalar) : Except OrderFault Bool :=
  match a.magnitude?, b.magnitude? with
  | some x, some y => .ok (x.less y)
  | _, _ =>
    match a, b with
    | .text s, .text t => .ok (s < t)
    | .bytes s, .bytes t => .ok (s < t)
    | .date d, .date e => .ok ([d.year, d.month, d.day] < [e.year, e.month, e.day])
    | .moment m, .moment n => m.less n
    | .date _, .moment _ | .moment _, .date _ => .error .dateAndMoment
    | a, b => .error (.differentKinds a b)

/-! ## Sorting by key -/

section
variable {β : Type}

/-- An entry under its key as a text, if the key is one. -/
def textEntry? (e : Scalar × β) : Option (Text × β) :=
  match e.1 with
  | .text s => some (s, e.2)
  | _ => none

/-- Entries sorted by key. If they are not all texts, two keys that are compared may have no order. -/
def sortEntries (entries : List (Scalar × β)) : Except OrderFault (List (Scalar × β)) :=
  match entries.mapM textEntry? with
  | some named =>
    .ok ((named.mergeSort fun a b => a.1 ≤ b.1).map fun (name, x) => (.text name, x))
  | none => RunSort.sort (fun a b => a.1.less b.1) entries

end

end TransitionAudit
