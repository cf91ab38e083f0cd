import TransitionAudit.Proofs.Audit.Sequence
import TransitionAudit.Proofs.Rule.Answer

/-!
# How checks agree with each other

On slices what a check says depends on nothing but the sequence of the component's visibilities. Read off this
sequence, the checks follow from each other and exclude each other as their names suggest.
-/

namespace TransitionAudit

/-! ## Sequences of visibilities -/

theorem Settles.getLast? {wanted : Bool} {states : List Bool} (h : Settles wanted states) :
    states.getLast? = some wanted :=
  (settles_iff_getLast?.mp h).2

theorem Settles.unique {a b : Bool} {states : List Bool} (ha : Settles a states) (hb : Settles b states) :
    a = b :=
  Option.some.inj (ha.getLast?.symm.trans hb.getLast?)

/-- A sequence that is in the wanted state from the start has settled. -/
theorem settles_of_forall {wanted : Bool} {states : List Bool} (hne : states ≠ [])
    (h : ∀ b ∈ states, b = wanted) : Settles wanted states := by
  have hall : states = List.replicate states.length wanted := List.eq_replicate_iff.mpr ⟨rfl, h⟩
  cases hlength : states.length with
  | zero => exact absurd (List.eq_nil_of_length_eq_zero hlength) hne
  | succ k =>
      rw [hlength] at hall
      exact ⟨0, k, hall⟩

/-! ## Sides of a scenario -/

def Side.words : Side → Vocabulary
  | .windows => Snapshot.words WindowState
  | .layers => Snapshot.words LayerState

namespace Scenario

/-- Whether the component is visible, snapshot by snapshot of one side. -/
def states (s : Scenario) (m : Matcher) : Side → List Bool
  | .windows => s.windows.entries.map (Check.shows m)
  | .layers => s.layers.entries.map (Check.shows m)

def IsEmpty (s : Scenario) : Side → Prop
  | .windows => s.windows.entries = []
  | .layers => s.layers.entries = []

theorem states_eq_nil_iff {s : Scenario} {m : Matcher} {side : Side} :
    s.states m side = [] ↔ s.IsEmpty side := by
  cases side <;> exact List.map_eq_nil_iff

end Scenario

namespace Check

/-- The side that a check looks at. -/
def side : Check → Side
  | .notEmpty side => side
  | .visibleAtEnd side => side
  | .invisibleAtEnd side => side
  | .alwaysVisible side => side
  | .focusedAtEnd => .windows
  | .becomes _ => .layers

/-- Whether a check has nothing to report. -/
def Passes (c : Check) (s : Scenario) (m : Matcher) : Prop := c.run s m = .ok []

/-! ## Checks of a component by its visibilities -/

section
variable {α : Type} [Snapshot α] {t : Trace α} {m : Matcher}

theorem alwaysIn_eq_nil_iff : alwaysIn t m = [] ↔ t.entries ≠ [] ∧ ∀ x ∈ t.entries, shows m x = true := by
  by_cases h : t.entries = [] <;> simp [alwaysIn, Trace.isEmpty, h, List.filter_eq_nil_iff]

theorem atEnd_eq_nil_iff_getLast? {wanted : Bool} {tr : Transition} (h : ∀ x ∈ t.entries, stamp x ≤ tr.stop) :
    atEnd wanted t (some tr) m = .ok [] ↔ (t.entries.map (shows m)).getLast? = some wanted := by
  rw [atEnd_eq_nil_iff h, List.getLast?_map, Option.map_eq_some_iff]

end

section
variable {s : Scenario} {m : Matcher}

theorem passes_alwaysVisible_iff {side : Side} :
    (Check.alwaysVisible side).Passes s m ↔ s.states m side ≠ [] ∧ ∀ b ∈ s.states m side, b = true := by
  cases side <;>
    simp only [Passes, run, Except.ok.injEq, alwaysIn_eq_nil_iff, Scenario.states, ne_eq, List.map_eq_nil_iff,
      List.forall_mem_map]

theorem passes_becomes_iff {wanted : Bool} :
    (Check.becomes wanted).Passes s m ↔ Settles wanted (s.states m .layers) := by
  simp only [Passes, run, Except.ok.injEq, becomesIn_eq_nil_iff, Scenario.states]

end

section
variable {t : Transition} {w : WindowTrace} {l : LayerTrace} {m : Matcher}
  (hw : ∀ x ∈ w.entries, stamp x ≤ t.stop) (hl : ∀ x ∈ l.entries, stamp x ≤ t.stop)
include hw hl

theorem passes_visibleAtEnd_iff {side : Side} :
    (Check.visibleAtEnd side).Passes ⟨some t, w, l⟩ m ↔
      (Scenario.states ⟨some t, w, l⟩ m side).getLast? = some true := by
  cases side with
  | windows => exact atEnd_eq_nil_iff_getLast? hw
  | layers => exact atEnd_eq_nil_iff_getLast? hl

theorem passes_invisibleAtEnd_iff {side : Side} :
    (Check.invisibleAtEnd side).Passes ⟨some t, w, l⟩ m ↔
      (Scenario.states ⟨some t, w, l⟩ m side).getLast? = some false := by
  cases side with
  | windows => exact atEnd_eq_nil_iff_getLast? hw
  | layers => exact atEnd_eq_nil_iff_getLast? hl

end

/-! ## Empty slices -/

section
variable {α : Type} [Snapshot α] {t : Trace α} (h : t.entries = [])
include h

theorem notEmptyIn_of_nil : notEmptyIn t = [emptySlice (Snapshot.words α)] := by
  simp [notEmptyIn, Trace.isEmpty, h]

theorem atEnd_of_nil (wanted : Bool) (transition : Option Transition) (m : Matcher) :
    atEnd wanted t transition m = .ok [emptySlice (Snapshot.words α)] := by
  simp [atEnd, Trace.isEmpty, h, pure, Except.pure]

theorem alwaysIn_of_nil (m : Matcher) : alwaysIn t m = [emptySlice (Snapshot.words α)] := by
  simp [alwaysIn, Trace.isEmpty, h]

theorem becomesIn_of_nil (wanted : Bool) (m : Matcher) :
    becomesIn wanted t m = [emptySlice (Snapshot.words α)] := by
  simp [becomesIn, h]

end

theorem focusedIn_of_nil {t : WindowTrace} (h : t.entries = []) (transition : Option Transition)
    (m : Matcher) : focusedIn t transition m = .ok [emptySlice (Snapshot.words WindowState)] := by
  simp [focusedIn, Trace.isEmpty, h, pure, Except.pure]

/-- Every check that looks at an empty slice reports just that. -/
theorem run_of_isEmpty {c : Check} {s : Scenario} (h : s.IsEmpty c.side) (m : Matcher) :
    c.run s m = .ok [emptySlice c.side.words] := by
  cases c with
  | notEmpty side => cases side <;> exact congrArg _ (notEmptyIn_of_nil h)
  | visibleAtEnd side => cases side <;> exact atEnd_of_nil h true s.transition m
  | invisibleAtEnd side => cases side <;> exact atEnd_of_nil h false s.transition m
  | alwaysVisible side => cases side <;> exact congrArg _ (alwaysIn_of_nil h m)
  | focusedAtEnd => exact focusedIn_of_nil h s.transition m
  | becomes wanted => exact congrArg _ (becomesIn_of_nil h wanted m)

/-! ## Consistency -/

/-- What the answers of the checks say of each other. -/
structure Consistent (s : Scenario) (m : Matcher) : Prop where
  answers : ∀ c : Check, ∃ violations, c.run s m = .ok violations
  becomes_of_always : (alwaysVisible .layers).Passes s m → (becomes true).Passes s m
  visible_of_becomes : (becomes true).Passes s m → (visibleAtEnd .layers).Passes s m
  invisible_of_becomes : (becomes false).Passes s m → (invisibleAtEnd .layers).Passes s m
  visible_of_always : (alwaysVisible .windows).Passes s m → (visibleAtEnd .windows).Passes s m
  becomes_unique : ¬ ((becomes true).Passes s m ∧ (becomes false).Passes s m)
  /-- With a snapshot to look at, the component is either visible at the end or it is not. -/
  one_at_end : ∀ side, ¬ s.IsEmpty side →
    ((visibleAtEnd side).Passes s m ↔ ¬ (invisibleAtEnd side).Passes s m)
  one_violation : ∀ c : Check, s.IsEmpty c.side → ∃ violation, c.run s m = .ok [violation]

/-- On the slices of a transition the checks agree with each other, whatever the component. -/
theorem consistent_of_slices {windows w : WindowTrace} {layers l : LayerTrace} {t : Transition}
    (h : slices t windows layers = .ok (w, l)) (m : Matcher) : Consistent ⟨some t, w, l⟩ m := by
  obtain ⟨hwindows, hlayers⟩ := slices_eq_ok_iff.mp h
  have hw : ∀ x ∈ w.entries, stamp x ≤ t.stop := fun x hx => Trace.le_of_mem_within hwindows hx
  have hl : ∀ x ∈ l.entries, stamp x ≤ t.stop := fun x hx => Trace.le_of_mem_within hlayers hx
  refine ⟨fun c => run_ok hw hl c m, ?_, ?_, ?_, ?_, ?_, ?_, ?_⟩
  · rw [passes_alwaysVisible_iff, passes_becomes_iff]
    exact fun ⟨hne, hall⟩ => settles_of_forall hne hall
  · rw [passes_becomes_iff, passes_visibleAtEnd_iff hw hl]
    exact Settles.getLast?
  · rw [passes_becomes_iff, passes_invisibleAtEnd_iff hw hl]
    exact Settles.getLast?
  · rw [passes_alwaysVisible_iff, passes_visibleAtEnd_iff hw hl]
    exact fun ⟨hne, hall⟩ => (settles_of_forall hne hall).getLast?
  · rw [passes_becomes_iff, passes_becomes_iff]
    exact fun ⟨htrue, hfalse⟩ => absurd (htrue.unique hfalse) (by decide)
  · intro side hne
    rw [passes_visibleAtEnd_iff hw hl, passes_invisibleAtEnd_iff hw hl]
    rw [← Scenario.states_eq_nil_iff (m := m), ← List.getLast?_eq_none_iff] at hne
    rcases hlast : (Scenario.states ⟨some t, w, l⟩ m side).getLast? with _ | b
    · exact absurd hlast hne
    · cases b <;> simp
  · exact fun c hc => ⟨_, run_of_isEmpty hc m⟩

theorem consistent_of_slices_launch :
    slices launch launchWindows launchLayers = .ok (launchWindows, launchLayers) ∧
      Consistent ⟨some launch, launchWindows, launchLayers⟩ ⟨"a", "a.B"⟩ := by
  have h : slices launch launchWindows launchLayers = .ok (launchWindows, launchLayers) := by rfl
  exact ⟨h, consistent_of_slices h ⟨"a", "a.B"⟩⟩

end Check

end TransitionAudit
