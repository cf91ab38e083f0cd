import TransitionAudit.Component.Basic
import TransitionAudit.Rule.Violation
import TransitionAudit.Trace.Screen
import TransitionAudit.Text.Sorted

/-!
# Checks

What can be demanded of the screen during a transition. A check looks at the slice of a trace that
belongs to the transition; if the slice is empty, that is the one thing it reports.
-/

namespace TransitionAudit

/-- What a check looks at: a transition, unless there is none, and the traces cut down to it. -/
structure Scenario where
  transition : Option Transition := none
  windows : WindowTrace := Trace.empty
  layers : LayerTrace := Trace.empty

/-- The two recordings of a screen. -/
inductive Side
  | windows
  | layers
  deriving DecidableEq, Repr

inductive Check
  /-- The slice holds a snapshot. -/
  | notEmpty (side : Side)
  /-- The component is visible when the transition ends. -/
  | visibleAtEnd (side : Side)
  /-- The component is not visible when the transition ends. -/
  | invisibleAtEnd (side : Side)
  /-- The component is visible in every snapshot. -/
  | alwaysVisible (side : Side)
  /-- The component has the focus when the transition ends. -/
  | focusedAtEnd
  /-- The component's layer turns visible, or invisible, and then stays so. -/
  | becomes (visible : Bool)
  deriving DecidableEq, Repr

namespace Check

/-- The checks in the order in which they are listed. -/
def all : List Check :=
  [.notEmpty .windows, .notEmpty .layers, .visibleAtEnd .windows, .invisibleAtEnd .windows,
   .alwaysVisible .windows, .focusedAtEnd, .visibleAtEnd .layers, .invisibleAtEnd .layers,
   .alwaysVisible .layers, .becomes true, .becomes false]

def name : Check → Text
  | .notEmpty .windows => "wm_trace_not_empty"
  | .notEmpty .layers => "layers_trace_not_empty"
  | .visibleAtEnd .windows => "window_visible_at_end"
  | .visibleAtEnd .layers => "layer_visible_at_end"
  | .invisibleAtEnd .windows => "window_invisible_at_end"
  | .invisibleAtEnd .layers => "layer_invisible_at_end"
  | .alwaysVisible .windows => "window_always_visible"
  | .alwaysVisible .layers => "layer_always_visible"
  | .focusedAtEnd => "window_focused_at_end"
  | .becomes true => "layer_becomes_visible"
  | .becomes false => "layer_becomes_invisible"

def description : Check → Text
  | .notEmpty .windows => "Window manager slice has entries"
  | .notEmpty .layers => "Layers slice has entries"
  | .visibleAtEnd .windows => "Component window visible when the transition ends"
  | .visibleAtEnd .layers => "Component layer visible when the transition ends"
  | .invisibleAtEnd .windows => "Component window not visible when the transition ends"
  | .invisibleAtEnd .layers => "Component layer not visible when the transition ends"
  | .alwaysVisible .windows => "Component window visible in every WM entry"
  | .alwaysVisible .layers => "Component layer visible in every layers entry"
  | .focusedAtEnd => "Component window focused when the transition ends"
  | .becomes true => "Component layer turns visible once and stays visible"
  | .becomes false => "Component layer turns invisible once and stays invisible"

/-- Whether the check is about a component. -/
def needsComponent : Check → Bool
  | .notEmpty _ => false
  | _ => true

def ofName? (s : Text) : Option Check := all.find? fun c => c.name == s

theorem mem_all (c : Check) : c ∈ all := by
  cases c <;> (first | (rename_i x; cases x) | skip) <;> decide

/-! ## Single snapshots -/

variable {α : Type} [Snapshot α]

/-- Whether a snapshot shows something of the component. -/
def shows (m : Matcher) (x : α) : Bool := (Snapshot.visible x).any m.recognises

/-- What is visible in a snapshot, as evidence. -/
def evidence (x : α) : Json := .arr ((Snapshot.visible x).map .str)

/-- The report of a slice without snapshots. -/
def emptySlice (words : Vocabulary) : Violation :=
  { message := "No " ++ words.slice ++ " entries inside the transition window" }

/-- The state when the transition ended: the last one at or before its end. -/
def endState (t : Trace α) (transition : Option Transition) : Except LookupFault α :=
  match transition with
  | none => t.last
  | some tr => t.latest tr.stop

/-! ## Slices -/

def notEmptyIn (t : Trace α) : List Violation :=
  if t.isEmpty then [emptySlice (Snapshot.words α)] else []

/-- Demands that the component is visible, or is not, in the end state. -/
def atEnd (wanted : Bool) (t : Trace α) (transition : Option Transition) (m : Matcher) :
    Except LookupFault (List Violation) := do
  if t.isEmpty then return [emptySlice (Snapshot.words α)]
  let x ← endState t transition
  if shows m x = wanted then return []
  let subject := (Snapshot.words α).subject
  let state := if wanted then "is not visible" else "is still visible"
  let expected := if wanted then m.windowName else "not " ++ m.windowName
  return [{ message := subject ++ " " ++ m.windowName ++ " " ++ state ++ " at the end of the transition"
            moment := some (stamp x)
            expected := some (.str expected)
            observed := some (evidence x) }]

def alwaysIn (t : Trace α) (m : Matcher) : List Violation :=
  if t.isEmpty then [emptySlice (Snapshot.words α)]
  else (t.entries.filter fun x => !shows m x).map fun x =>
    { message := (Snapshot.words α).subject ++ " " ++ m.windowName ++ " is not visible"
      moment := some (stamp x)
      expected := some (.str m.windowName)
      observed := some (evidence x) }

def focusedIn (t : WindowTrace) (transition : Option Transition) (m : Matcher) :
    Except LookupFault (List Violation) := do
  if t.isEmpty then return [emptySlice (Snapshot.words WindowState)]
  let x ← endState t transition
  if x.focused.any m.recognises then return []
  return [{ message := "Window " ++ m.windowName ++ " is not focused at the end of the transition"
            moment := some (stamp x)
            expected := some (.str m.windowName)
            observed := x.focused.map .str }]

def visibility (visible : Bool) : Text := if visible then "visible" else "invisible"

/-- The snapshots that fall back out of the wanted state once it has been reached. -/
def relapses (wanted : Bool) (m : Matcher) (reached : Bool) : List α → List α
  | [] => []
  | x :: rest =>
    if shows m x = wanted then relapses wanted m true rest
    else if reached then x :: relapses wanted m reached rest
    else relapses wanted m reached rest

/-- Demands that the component gets into the wanted state and stays there: every relapse is a
flicker, and without one the last snapshot has to be in the state. -/
def becomesIn (wanted : Bool) (t : Trace α) (m : Matcher) : List Violation :=
  let words := Snapshot.words α
  match t.entries.getLast? with
  | none => [emptySlice words]
  | some last =>
    let report (x : α) (message : Text) : Violation :=
      { message := message
        moment := some (stamp x)
        expected := some (.str (visibility wanted))
        observed := some (evidence x) }
    match relapses wanted m false t.entries with
    | [] =>
      if shows m last = wanted then []
      else [report last (words.subject ++ " " ++ m.windowName ++ " never became " ++
        visibility wanted ++ " (" ++ (Check.becomes wanted).name ++ ")")]
    | back => back.map fun x => report x (words.subject ++ " " ++ m.windowName ++ " became " ++
        visibility (!wanted) ++ " again after the transition reached its target state")

/-! ## Running a check -/

/-- What a check reports for a component; checks of slices alone do not look at the matcher. -/
def run (c : Check) (s : Scenario) (m : Matcher) : Except LookupFault (List Violation) :=
  match c with
  | .notEmpty .windows => .ok (notEmptyIn s.windows)
  | .notEmpty .layers => .ok (notEmptyIn s.layers)
  | .visibleAtEnd .windows => atEnd true s.windows s.transition m
  | .visibleAtEnd .layers => atEnd true s.layers s.transition m
  | .invisibleAtEnd .windows => atEnd false s.windows s.transition m
  | .invisibleAtEnd .layers => atEnd false s.layers s.transition m
  | .alwaysVisible .windows => .ok (alwaysIn s.windows m)
  | .alwaysVisible .layers => .ok (alwaysIn s.layers m)
  | .focusedAtEnd => focusedIn s.windows s.transition m
  | .becomes wanted => .ok (becomesIn wanted s.layers m)

end Check

end TransitionAudit
