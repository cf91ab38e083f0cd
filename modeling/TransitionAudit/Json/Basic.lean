import TransitionAudit.Number.Double

/-!
# JSON values

Integers and doubles are different numbers: `1.0` is not `1`. An object keeps its members in the
order in which their names first came up, and holds each name once.
-/

namespace TransitionAudit

inductive Json
  | null
  | bool (b : Bool)
  | int (i : Int)
  | double (x : Double)
  | str (s : Text)
  | arr (items : List Json)
  | obj (members : List (Text × Json))
  deriving Inhabited, BEq

namespace Json

/-- The member of a name. -/
def find? (members : List (Text × Json)) (name : Text) : Option Json :=
  (members.find? (·.1 == name)).map (·.2)

/-- Sets a member: a known name keeps its place, a new one comes last. -/
def put (name : Text) (value : Json) : List (Text × Json) → List (Text × Json)
  | [] => [(name, value)]
  | (n, v) :: rest => if n = name then (n, value) :: rest else (n, v) :: put name value rest

/-- The object of members written one after the other; the last of a repeated name counts. -/
def object (members : List (Text × Json)) : Json :=
  .obj (members.foldl (fun acc (n, v) => put n v acc) [])

/-- A member that is absent reads as `null`. -/
def get (members : List (Text × Json)) (name : Text) : Json :=
  (find? members name).getD .null

end Json

end TransitionAudit
