import TransitionAudit.Transition.Mode
import TransitionAudit.Clock.Reading

/-!
# Transitions

One recorded change of the screen, with the windows that took part in it, and the whole log of them.
The log keeps the order of recording; its numbers are unique.
-/

namespace TransitionAudit

/-- What happened to one window. -/
structure Change where
  window : Text
  mode : Mode
  deriving DecidableEq, Repr

structure Transition where
  id : Int
  start : Stamp
  stop : Stamp
  type : TransitionType
  changes : List Change
  isIncomplete : Bool
  deriving DecidableEq

/-- Why values are no transition. -/
inductive TransitionFault
  | badMode (window mode : Text)
  | badType (type : Text)

def TransitionFault.message : TransitionFault → Text
  | .badMode window mode =>
    "Unsupported transit mode for " ++ Text.quote window ++ ": " ++ Text.quote mode
  | .badType type => "Unsupported transition type: " ++ Text.quote type

def Change.of (window mode : Text) : Except TransitionFault Change :=
  match Mode.ofName? mode with
  | some m => .ok ⟨window, m⟩
  | none => .error (.badMode window mode)

namespace Transition

/-- A transition whose type is given by name. -/
def of (id : Int) (start stop : Stamp) (type : Text) (changes : List Change)
    (isIncomplete : Bool) : Except TransitionFault Transition :=
  match TransitionType.ofText? type with
  | some t => .ok ⟨id, start, stop, t, changes, isIncomplete⟩
  | none => .error (.badType type)

/-- A transition on one line. -/
def text (t : Transition) : Text :=
  let state := if t.isIncomplete then "incomplete" else "complete"
  "Transition#" ++ Numeral.int t.id ++ "(" ++ t.type.text ++ ", " ++ state ++ ", start=" ++ t.start.text ++ ", " ++
  "end=" ++ t.stop.text ++ ", changes=" ++ Numeral.nat t.changes.length ++ ")"

end Transition

/-! ## The log -/

/-- A transition with the number of an earlier one. -/
structure DuplicateId where
  id : Int
  index : Nat

def DuplicateId.message (d : DuplicateId) : Text :=
  "Duplicate transition id " ++ Numeral.int d.id ++ " at entry " ++ Numeral.nat d.index

/-- The first number that came up before; the list starts in place `index` after numbers `seen`. -/
def duplicate? (seen : List Int) (index : Nat) : List Int → Option DuplicateId
  | [] => none
  | id :: rest =>
    if id ∈ seen then some ⟨id, index⟩ else duplicate? (id :: seen) (index + 1) rest

theorem duplicate?_eq_none_iff (seen : List Int) (index : Nat) (ids : List Int) :
    duplicate? seen index ids = none ↔ ids.Nodup ∧ ∀ id ∈ ids, id ∉ seen := by
  induction ids generalizing seen index with
  | nil => simp [duplicate?]
  | cons id ids ih =>
    by_cases h : id ∈ seen
    · simp [duplicate?, h]
    · simp only [duplicate?, h, ↓reduceIte, ih, List.nodup_cons, List.mem_cons, forall_eq_or_imp,
        not_or]
      constructor
      · rintro ⟨hn, hs⟩
        exact ⟨⟨fun hm => (hs id hm).1 rfl, hn⟩, not_false, fun i hi => (hs i hi).2⟩
      · rintro ⟨⟨hm, hn⟩, _, hs⟩
        exact ⟨hn, fun i hi => ⟨fun e => hm (e ▸ hi), hs i hi⟩⟩

/-- Transitions in the order of recording, each with a number of its own. -/
structure TransitionLog where
  entries : List Transition
  unique : (entries.map (·.id)).Nodup

namespace TransitionLog

def of (entries : List Transition) : Except DuplicateId TransitionLog :=
  match h : duplicate? [] 0 (entries.map (·.id)) with
  | none => .ok ⟨entries, ((duplicate?_eq_none_iff [] 0 _).1 h).1⟩
  | some d => .error d

def complete (l : TransitionLog) : List Transition := l.entries.filter fun t => !t.isIncomplete

def incomplete (l : TransitionLog) : List Transition := l.entries.filter (·.isIncomplete)

def text (l : TransitionLog) : Text :=
  "TransitionsTrace(entries=" ++ Numeral.nat l.entries.length ++ ")"

end TransitionLog

end TransitionAudit
