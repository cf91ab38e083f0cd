import TransitionAudit.Proofs.Audit.Sequence
import TransitionAudit.Proofs.Rule.Answer

/-!
# The state at the end of a transition

Whatever clocks the stamps hold, the latest snapshot of a slice at the end of its transition is the last one. So the
checks of the state at the end report the same whether the state is looked up by time or by place.
-/

namespace TransitionAudit

section
variable {α : Type} [Snapshot α] {t : Trace α} {tr : Transition} (h : ∀ x ∈ t.entries, stamp x ≤ tr.stop)
include h

namespace Check

theorem endState_eq_last (hne : t.isEmpty = false) : endState t (some tr) = t.last := by
  obtain ⟨x, hlast, hend⟩ := endState_ok h hne
  rw [hend, Trace.last, hlast]

theorem atEnd_eq_without_transition (wanted : Bool) (m : Matcher) :
    atEnd wanted t (some tr) m = atEnd wanted t none m := by
  unfold atEnd
  cases hne : t.isEmpty with
  | true => rfl
  | false => rw [endState_eq_last h hne, endState]

end Check

end

theorem Check.focusedIn_eq_without_transition {t : WindowTrace} {tr : Transition}
    (h : ∀ x ∈ t.entries, stamp x ≤ tr.stop) (m : Matcher) : focusedIn t (some tr) m = focusedIn t none m := by
  unfold focusedIn
  cases hne : t.isEmpty with
  | true => rfl
  | false => rw [endState_eq_last h hne, endState]

/-- On the slices of a transition every check reports the same with the transition, at whose end it looks for the
latest snapshot, and without one, where it takes the last snapshot: in a slice that is not empty the latest
snapshot at the end is found and is the last one. -/
theorem Check.run_eq_without_transition {windows w : WindowTrace} {layers l : LayerTrace} {t : Transition}
    (h : slices t windows layers = .ok (w, l)) :
    (∀ (c : Check) (m : Matcher), ∃ violations,
      c.run ⟨some t, w, l⟩ m = .ok violations ∧ c.run ⟨none, w, l⟩ m = .ok violations) ∧
    (w.entries ≠ [] → ∃ x, w.entries.getLast? = some x ∧ w.last = .ok x ∧ w.latest t.stop = .ok x) ∧
    (l.entries ≠ [] → ∃ x, l.entries.getLast? = some x ∧ l.last = .ok x ∧ l.latest t.stop = .ok x) := by
  obtain ⟨hwindows, hlayers⟩ := slices_eq_ok_iff.mp h
  have hw : ∀ x ∈ w.entries, stamp x ≤ t.stop := fun x hx => Trace.le_of_mem_within hwindows hx
  have hl : ∀ x ∈ l.entries, stamp x ≤ t.stop := fun x hx => Trace.le_of_mem_within hlayers hx
  refine ⟨fun c m => ?_, Trace.exists_latest_of_within hwindows, Trace.exists_latest_of_within hlayers⟩
  obtain ⟨violations, hrun⟩ := run_ok hw hl c m
  refine ⟨violations, hrun, ?_⟩
  rw [← hrun]
  cases c with
  | visibleAtEnd side =>
      cases side with
      | windows => exact (atEnd_eq_without_transition hw true m).symm
      | layers => exact (atEnd_eq_without_transition hl true m).symm
  | invisibleAtEnd side =>
      cases side with
      | windows => exact (atEnd_eq_without_transition hw false m).symm
      | layers => exact (atEnd_eq_without_transition hl false m).symm
  | focusedAtEnd => exact (focusedIn_eq_without_transition hw m).symm
  | notEmpty side => cases side <;> rfl
  | alwaysVisible side => cases side <;> rfl
  | becomes wanted => rfl

/-- Windows of which the second one is after the end of a transition on the one clock that both read, and the third
one is at its end on the other clock. -/
def interruptedWindows : WindowTrace :=
  ⟨[⟨{ elapsed := 5, uptime := 3 }, [⟨"a/.B", true⟩], some "a/.B"⟩, ⟨{ elapsed := 10, uptime := 3 }, [], none⟩,
    ⟨{ uptime := 4 }, [], none⟩], by decide⟩

def interruptedLaunch : Transition :=
  ⟨1, { uptime := 1 }, { elapsed := 9, uptime := 4 }, .single .open, [⟨"a/.B", .open⟩], false⟩

/-- The windows without the one after the end. -/
def interruptedSlice : WindowTrace :=
  ⟨[⟨{ elapsed := 5, uptime := 3 }, [⟨"a/.B", true⟩], some "a/.B"⟩, ⟨{ uptime := 4 }, [], none⟩], by decide⟩

theorem Check.run_eq_without_transition_interruptedLaunch :
    slices interruptedLaunch interruptedWindows Trace.empty = .ok (interruptedSlice, Trace.empty) ∧
    (∃ violations,
      (Check.visibleAtEnd .windows).run ⟨some interruptedLaunch, interruptedSlice, Trace.empty⟩ ⟨"a", "a.B"⟩ =
        .ok violations ∧
      (Check.visibleAtEnd .windows).run ⟨none, interruptedSlice, Trace.empty⟩ ⟨"a", "a.B"⟩ = .ok violations) ∧
    ∃ x, interruptedSlice.entries.getLast? = some x ∧ interruptedSlice.last = .ok x ∧
      interruptedSlice.latest interruptedLaunch.stop = .ok x := by
  have hslices : slices interruptedLaunch interruptedWindows Trace.empty = .ok (interruptedSlice, Trace.empty) := by
    rfl
  obtain ⟨hrun, hwindows, -⟩ := run_eq_without_transition hslices
  exact ⟨hslices, hrun _ _, hwindows (by decide)⟩

end TransitionAudit
