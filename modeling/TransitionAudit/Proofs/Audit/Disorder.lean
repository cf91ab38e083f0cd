import TransitionAudit.Proofs.Audit.Decomposition

/-!
# Runs that fail

A run fails only on a slice that is no trace. This happens exactly if the window of a complete transition
holds two snapshots out of order, and none of those that kept them apart in the trace. The snapshots of a trace may
clash so, since they need only be in order with their neighbours.
-/

namespace TransitionAudit

section
variable {table : RuleTable} {windows : WindowTrace} {layers : LayerTrace} {log : TransitionLog}
  {workers : Option Nat} {turns : List Nat}

theorem slices_ok_iff_not_clashes {t : Transition} :
    (∃ s, slices t windows layers = .ok s) ↔
      ¬ windows.Clashes t.start t.stop ∧ ¬ layers.Clashes t.start t.stop := by
  rw [slices_ok_iff_ordered, ← Trace.not_ordered_clip_iff_clashes, ← Trace.not_ordered_clip_iff_clashes,
    not_not, not_not]

theorem audit_ok_iff_slices :
    (∃ findings, (audit table windows layers log workers turns).outcome = .ok findings) ↔
      ∀ t ∈ log.complete, ∃ s, slices t windows layers = .ok s := by
  simp only [audit_eq_ok_iff, exists_and_left, exists_eq, and_true]

theorem audit_fault {fault : RunFault}
    (h : (audit table windows layers log workers turns).outcome = .error fault) :
    ∃ d, fault = .disorder d := by
  rw [audit_outcome, outcomeOf_map_eq_error_iff] at h
  obtain ⟨-, -, -, d, -, -, -, hd⟩ := h
  exact ⟨d, hd⟩

end

/-- A run has findings exactly if in no window of a complete transition two snapshots clash. Otherwise
it ends with two snapshots out of order, and with no other fault. -/
theorem audit_ok_iff_not_clashes (table : RuleTable) (windows : WindowTrace) (layers : LayerTrace)
    (log : TransitionLog) (workers : Option Nat) (turns : List Nat) :
    ((∃ findings, (audit table windows layers log workers turns).outcome = .ok findings) ↔
      ∀ t ∈ log.complete, ¬ windows.Clashes t.start t.stop ∧ ¬ layers.Clashes t.start t.stop) ∧
    ((∃ d, (audit table windows layers log workers turns).outcome = .error (.disorder d)) ↔
      ∃ t ∈ log.complete, windows.Clashes t.start t.stop ∨ layers.Clashes t.start t.stop) := by
  have hok : (∃ findings, (audit table windows layers log workers turns).outcome = .ok findings) ↔
      ∀ t ∈ log.complete, ¬ windows.Clashes t.start t.stop ∧ ¬ layers.Clashes t.start t.stop := by
    simp only [audit_ok_iff_slices, slices_ok_iff_not_clashes]
  -- the one kind of fault, so to fail with it is to have no findings
  have hfail : (∃ d, (audit table windows layers log workers turns).outcome = .error (.disorder d)) ↔
      ¬ ∃ findings, (audit table windows layers log workers turns).outcome = .ok findings := by
    cases h : (audit table windows layers log workers turns).outcome with
    | ok findings => simp
    | error fault =>
        obtain ⟨d, rfl⟩ := audit_fault h
        simp
  refine ⟨hok, ?_⟩
  rw [hfail, hok]
  push Not
  simp only [or_iff_not_imp_left]

/-- Snapshots that read different clocks: the second one is not before the first on the one clock
that both read, and the third not before the second on the raw numbers, but it is before the first. -/
def mixedWindows : WindowTrace :=
  ⟨[⟨{ elapsed := 10, uptime := 5 }, [], none⟩, ⟨{ uptime := 6 }, [], none⟩,
    ⟨{ elapsed := 3 }, [], none⟩], by decide⟩

/-- A transition whose window holds the first and the third of the snapshots. -/
def mixedChange : Transition := ⟨1, { elapsed := 1 }, { elapsed := 20 }, .single .change, [], false⟩

theorem audit_mixedWindows_outcome :
    (audit .builtIn mixedWindows launchLayers (.single mixedChange) none).outcome =
      .error (.disorder ⟨"WindowManagerTrace", 1, { elapsed := 3 }, { elapsed := 10, uptime := 5 }⟩) := by
  rfl

end TransitionAudit
