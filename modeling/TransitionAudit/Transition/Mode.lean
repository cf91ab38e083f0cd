import TransitionAudit.Text.CodePoint

/-!
# Kinds of transition

The thirteen modes in which a window can change, and the types of whole transitions: one mode, or
several different ones joined by a bar. The order of the modes is part of the type.
-/

namespace TransitionAudit

inductive Mode
  | none
  | open
  | close
  | toFront
  | toBack
  | relaunch
  | change
  | keyguardGoingAway
  | keyguardOcclude
  | keyguardUnocclude
  | pip
  | wake
  | sleep
  deriving DecidableEq, Repr

namespace Mode

def all : List Mode :=
  [.none, .open, .close, .toFront, .toBack, .relaunch, .change, .keyguardGoingAway,
   .keyguardOcclude, .keyguardUnocclude, .pip, .wake, .sleep]

def name : Mode → Text
  | .none => "NONE"
  | .open => "OPEN"
  | .close => "CLOSE"
  | .toFront => "TO_FRONT"
  | .toBack => "TO_BACK"
  | .relaunch => "RELAUNCH"
  | .change => "CHANGE"
  | .keyguardGoingAway => "KEYGUARD_GOING_AWAY"
  | .keyguardOcclude => "KEYGUARD_OCCLUDE"
  | .keyguardUnocclude => "KEYGUARD_UNOCCLUDE"
  | .pip => "PIP"
  | .wake => "WAKE"
  | .sleep => "SLEEP"

def ofName? (s : Text) : Option Mode := all.find? fun m => m.name == s

theorem mem_all (m : Mode) : m ∈ all := by cases m <;> decide

theorem ofName?_name (m : Mode) : ofName? m.name = some m := by cases m <;> decide

theorem name_of_ofName? {s : Text} {m : Mode} (h : ofName? s = some m) : m.name = s := by
  simpa using List.find?_some h

end Mode

/-- One mode or several different ones. -/
structure TransitionType where
  modes : List Mode
  nonempty : modes ≠ []
  distinct : modes.Nodup
  deriving DecidableEq

namespace TransitionType

/-- The type of a transition in one mode. -/
def single (m : Mode) : TransitionType := ⟨[m], by simp, by simp⟩

def text (t : TransitionType) : Text := List.intercalate "|" (t.modes.map Mode.name)

/-- The parts of a text between bars. -/
def parts (s : Text) : List Text := s.splitOn (.char '|')

/-- Reads mode names with bars between them. -/
def ofText? (s : Text) : Option TransitionType :=
  match (parts s).mapM Mode.ofName? with
  | none => none
  | some modes =>
    if h : modes ≠ [] ∧ modes.Nodup then some ⟨modes, h.1, h.2⟩ else none

end TransitionType

end TransitionAudit
