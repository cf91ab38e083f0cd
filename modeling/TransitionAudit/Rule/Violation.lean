import TransitionAudit.Clock.Reading

/-!
# Violations

What a check found wrong: a message, and where it has them the moment, what was expected and what was
there instead.
-/

namespace TransitionAudit

structure Violation where
  message : Text
  moment : Option Stamp := none
  expected : Option Json := none
  observed : Option Json := none

namespace Violation

/-- A member that is left out when there is no value. -/
def optional (name : Text) (x : Option Json) : List (Text × Json) :=
  match x with
  | none => []
  | some v => [(name, v)]

def toJson (v : Violation) : Json :=
  .obj (("message", .str v.message) ::
    (optional "timestamp" (v.moment.map Stamp.toJson) ++ optional "expected" v.expected ++
      optional "observed" v.observed))

end Violation

end TransitionAudit
