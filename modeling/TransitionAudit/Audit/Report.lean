import TransitionAudit.Audit.Run
import TransitionAudit.Json.Printer

/-!
# Reports

The findings of a run grouped and counted, and the report as a JSON document.
-/

namespace TransitionAudit

structure Report where
  findings : List Finding

/-- Findings under a key each, in the order in which the keys first come up. -/
def Finding.groupBy {κ : Type} [BEq κ] (key : Finding → κ) (fs : List Finding) :
    List (κ × List Finding) :=
  (fs.map key).eraseDups.map fun k => (k, fs.filter fun f => key f == k)

/-- What a report counts. -/
structure Summary where
  transitions : Nat
  assertions : Nat
  passed : Nat
  failed : Nat
  errors : Nat

namespace Summary

def allPassed (s : Summary) : Bool := s.failed == 0

def toJson (s : Summary) : Json :=
  .obj [("transitions", .int s.transitions), ("assertions", .int s.assertions),
    ("passed", .int s.passed), ("failed", .int s.failed), ("errors", .int s.errors),
    ("status", .str (Finding.verdict s.allPassed))]

end Summary

namespace Report

def failures (r : Report) : List Finding := r.findings.filter fun f => !f.passed

def passed (r : Report) : Bool := r.findings.all (·.passed)

def byTransition (r : Report) : List (Int × List Finding) := Finding.groupBy (·.transitionId) r.findings

def byRule (r : Report) : List (Text × List Finding) := Finding.groupBy (·.ruleId) r.findings

def summary (r : Report) : Summary where
  transitions := r.byTransition.length
  assertions := r.findings.length
  passed := r.findings.length - r.failures.length
  failed := r.failures.length
  errors := r.findings.countP (·.errorCode.isSome)

/-- The type of a group of findings is that of its first one. -/
def typeOf (fs : List Finding) : Text := (fs.head?.map (·.transitionType)).getD ""

/-- The version of the document's shape. -/
def schemaVersion : Text := "1"

def toJson (r : Report) : Json :=
  .obj [("report_schema_version", .str schemaVersion), ("summary", r.summary.toJson),
    ("transitions", .arr (r.byTransition.map fun (id, fs) =>
      .obj [("transition_id", .int id), ("transition_type", .str (typeOf fs)),
        ("results", .arr (fs.map Finding.toJson))]))]

/-- The document with a line for each value. -/
def jsonText (r : Report) : Text := Json.text Json.indented r.toJson

end Report

end TransitionAudit
