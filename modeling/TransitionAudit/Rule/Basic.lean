import TransitionAudit.Rule.Check

/-!
# Rules

A rule is a check, the component it is about, and a name of its own if it has one.
-/

namespace TransitionAudit

/-- Why parts make no rule. -/
inductive RuleFault
  | unknownCheck (name : Text)
  | componentRequired (check : Check)
  | unknownComponent (name : Text)

namespace RuleFault

def message : RuleFault → Text
  | .unknownCheck name =>
    "Unknown check " ++ Text.quote name ++ ". Known checks: " ++
      List.intercalate ", " (Text.sortNames (Check.all.map Check.name))
  | .componentRequired check => "Check " ++ Text.quote check.name ++ " requires a component"
  | .unknownComponent name =>
    "Unknown component " ++ Text.quote name ++ ". Known components: " ++
      List.intercalate ", " (Text.sortNames (Component.known.map (·.name)))

end RuleFault

/-- A check that is about a component comes with one. -/
structure Rule where
  check : Check
  component : Option Component
  name : Option Text
  complete : check.needsComponent → component.isSome
  deriving DecidableEq

/-- Why a rule gives no answer. -/
inductive EvaluationFault
  | unresolved (fault : ResolutionFault)
  | noState (fault : LookupFault)

namespace EvaluationFault

def message : EvaluationFault → Text
  | .unresolved fault => fault.message
  | .noState fault => fault.message

def code : EvaluationFault → ErrorCode
  | .unresolved fault => fault.code
  | .noState _ => .execution

end EvaluationFault

/-- A component by name. -/
def Component.lookup (name : Text) : Except RuleFault Component :=
  match Component.ofName? name with
  | some c => .ok c
  | none => .error (.unknownComponent name)

namespace Rule

/-- A rule for a check, if it has the component it needs. -/
def ofCheck (check : Check) (component : Option Component) (name : Option Text) :
    Except RuleFault Rule :=
  if h : check.needsComponent → component.isSome then .ok ⟨check, component, name, h⟩
  else .error (.componentRequired check)

/-- A rule for a check given by name. -/
def of (check : Text) (component : Option Component) (name : Option Text) :
    Except RuleFault Rule :=
  match Check.ofName? check with
  | some c => ofCheck c component name
  | none => .error (.unknownCheck check)

/-- The rule's own name, or one made up of check and component. -/
def id (r : Rule) : Text :=
  match r.name, r.component with
  | none, none | some "", none => r.check.name
  | none, some c | some "", some c => r.check.name ++ "(" ++ c.name ++ ")"
  | some name, _ => name

/-- The matcher of the rule's component; a rule without one looks for nothing. -/
def matcher (r : Rule) (t : Option Transition) : Except ResolutionFault Matcher :=
  match r.component with
  | none => .ok .nothing
  | some c => c.resolve t

/-- What the check reports for the component, once that is resolved. -/
def evaluate (r : Rule) (s : Scenario) : Except EvaluationFault (List Violation) :=
  match r.matcher s.transition with
  | .error fault => .error (.unresolved fault)
  | .ok m =>
    match r.check.run s m with
    | .error fault => .error (.noState fault)
    | .ok violations => .ok violations

def toJson (r : Rule) : Json :=
  .obj (("id", .str r.id) :: ("check", .str r.check.name) ::
    Violation.optional "component" (r.component.map fun c => .str c.name))

end Rule

end TransitionAudit
