import TransitionAudit.Rule.Table

/-!
# Findings

The result of one rule on one transition.
-/

namespace TransitionAudit

structure Finding where
  transitionId : Int
  transitionType : Text
  ruleId : Text
  passed : Bool
  detail : Option Text := none
  errorCode : Option Text := none
  violations : List Violation := []

namespace Finding

def verdict (passed : Bool) : Text := if passed then "PASS" else "FAIL"

def status (f : Finding) : Text := verdict f.passed

/-- The finding on what a rule answered: nothing found, violations, or no answer at all. -/
def of (t : Transition) (r : Rule) (answer : Except EvaluationFault (List Violation)) : Finding :=
  let base : Finding :=
    { transitionId := t.id, transitionType := t.type.text, ruleId := r.id, passed := false }
  match answer with
  | .error fault => { base with detail := some fault.message, errorCode := some fault.code.text }
  | .ok [] => { base with passed := true }
  | .ok violations =>
    { base with
      detail := some (List.intercalate "; " (violations.map (·.message)))
      violations := violations }

def toJson (f : Finding) : Json :=
  .obj (List.append
    [("transition_id", .int f.transitionId), ("transition_type", .str f.transitionType),
      ("rule_id", .str f.ruleId), ("status", .str f.status),
      ("violations", .arr (f.violations.map Violation.toJson))]
    (Violation.optional "detail" (f.detail.map .str) ++
      Violation.optional "error_code" (f.errorCode.map .str)))

end Finding

end TransitionAudit
