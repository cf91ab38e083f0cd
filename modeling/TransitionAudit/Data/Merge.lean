import TransitionAudit.Data.Cycle
import TransitionAudit.Data.Order

/-!
# Merging documents

An overlay laid over a base: where both hold a mapping the two are merged, anything else in the
overlay replaces what is below it. Keys of the base keep their places; keys that only the overlay has
follow in sorted order.
-/

namespace TransitionAudit

/-- Sets entries one after the other, the first fault among their values being the fault of all. -/
def Entries.putAll (base : Entries) :
    List (Scalar × Except OrderFault Value) → Except OrderFault Entries
  | [] => .ok base
  | (key, v) :: rest => do Entries.putAll (Entries.put key (← v) base) rest

mutual

/-- A value of the overlay laid over the value that the base has in its place, if there is one. -/
def Value.over : Value → Option Value → Except OrderFault Value
  | .map overlay, below =>
    match below.bind Value.entries? with
    | some base => do
      return .map (← Entries.putAll base (← sortEntries (Entries.over base overlay)))
    | none => .ok (.map overlay)
  | v, _ => .ok v

/-- Every entry of an overlay laid over its place in the base. -/
def Entries.over (base : Entries) : Entries → List (Scalar × Except OrderFault Value)
  | [] => []
  | (key, v) :: rest => (key, v.over (Entries.value? base key)) :: Entries.over base rest

end

/-- An overlay laid over a base. -/
def Entries.merge (base overlay : Entries) : Except OrderFault Entries := do
  Entries.putAll base (← sortEntries (Entries.over base overlay))

/-- Why a document cannot be laid over another one. -/
inductive MergeFault
  | order (fault : OrderFault)
  /-- Mappings in both are part of themselves in the same places, so that merging has no end. -/
  | endless
  deriving DecidableEq, Repr

def MergeFault.message : MergeFault → Text
  | .order fault => fault.message
  | .endless => "maximum recursion depth exceeded while calling a Python object"

/-- A document laid over another one. Mappings of it that are part of themselves are merged as far as
the other one goes. -/
def Entries.layOver (base overlay : Entries) : Except MergeFault Entries :=
  match (Value.map overlay).unrolledOver (.map base) with
  | some (.map overlay) => (Entries.merge base overlay).mapError .order
  | _ => .error .endless

theorem Value.over_map (overlay base : Entries) :
    (Value.map overlay).over (some (.map base)) = (Entries.merge base overlay).map .map := by
  simp only [Value.over, Entries.merge, Option.bind_some, Value.entries?]
  cases sortEntries (Entries.over base overlay) with
  | error => rfl
  | ok sorted =>
    simp only [bind, Except.bind]
    cases Entries.putAll base sorted <;> rfl

end TransitionAudit
