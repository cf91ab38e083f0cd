import TransitionAudit.Audit.Finding

/-!
# One transition

The rules for a transition, run on the slices of both traces inside its time window. A rule that gives
no answer is one failed finding; only a slice that is no trace is a fault of the transition.
-/

namespace TransitionAudit

/-- What a run has to say while it works. -/
inductive Event
  | started
  | skipped (transition : Transition)
  | planned (rules : Nat) (transition : Transition)
  | failed (rule : Rule) (transition : Transition) (fault : EvaluationFault)

def Event.message : Event → Text
  | .started => "AssertionEngine#analyze"
  | .skipped t => "Skipping running assertions on incomplete transition " ++ t.text
  | .planned rules t => Numeral.nat rules ++ " assertions to check for " ++ t.text
  | .failed r t fault =>
    "Rule " ++ r.id ++ " failed to run on transition #" ++ Numeral.int t.id ++ ": " ++
    "[" ++ fault.code.text ++ "] " ++ fault.message

/-- The findings on one transition, and what was said while they were made. -/
structure Block where
  findings : List Finding
  events : List Event

/-- The event of a rule that gave no answer. -/
def failureOf (t : Transition) (r : Rule) (answer : Except EvaluationFault (List Violation)) :
    List Event :=
  match answer with
  | .error fault => [.failed r t fault]
  | .ok _ => []

/-- Runs rules one after the other on given slices. -/
def assess (rules : List Rule) (t : Transition) (windows : WindowTrace) (layers : LayerTrace) :
    Block :=
  let scenario : Scenario := ⟨some t, windows, layers⟩
  ⟨rules.map fun r => .of t r (r.evaluate scenario),
    rules.flatMap fun r => failureOf t r (r.evaluate scenario)⟩

/-- Both traces cut down to the time window of a transition. -/
def slices (t : Transition) (windows : WindowTrace) (layers : LayerTrace) :
    Except Disorder (WindowTrace × LayerTrace) := do
  let w ← windows.within t.start t.stop
  let l ← layers.within t.start t.stop
  return (w, l)

/-- The rules for a transition, run on its slices. -/
def auditOne (table : RuleTable) (windows : WindowTrace) (layers : LayerTrace) (t : Transition) :
    Except Disorder Block := do
  let (w, l) ← slices t windows layers
  let rules := table.rulesFor t.type
  let block := assess rules t w l
  return ⟨block.findings, .planned rules.length t :: block.events⟩

end TransitionAudit
