import TransitionAudit.Proofs.Audit.Decomposition
import TransitionAudit.Proofs.Rule.Offender

/-!
# What findings point at

A finding reports nothing if the app that its rule is about was not found, and only that the slice is empty if
there is nothing in it to look at. Otherwise it reports the snapshots that offend the check of the rule, each one
from the window of the transition.
-/

namespace TransitionAudit

/-- What a finding on a rule reports. -/
inductive Finding.Reports (r : Rule) (s : Scenario) (f : Finding) : Prop
  | unresolved {fault : ResolutionFault} (app : r.matcher s.transition = .error fault) (nothing : f.violations = [])
  | empty {m : Matcher} (app : r.matcher s.transition = .ok m) (slice : s.IsEmpty r.check.side)
      (only : f.violations = [Check.emptySlice r.check.side.words])
  | offenders {m : Matcher} (app : r.matcher s.transition = .ok m) (slice : ¬ s.IsEmpty r.check.side)
      (each : List.Forall₂ Violation.IsAt f.violations (r.check.offenders (r.check.sightings s m)))

section
variable {t : Transition} {w : WindowTrace} {l : LayerTrace} {r : Rule}

theorem Finding.reports_of_evaluate (hw : ∀ x ∈ w.entries, stamp x ≤ t.stop)
    (hl : ∀ x ∈ l.entries, stamp x ≤ t.stop) :
    (Finding.of t r (r.evaluate ⟨some t, w, l⟩)).Reports r ⟨some t, w, l⟩ := by
  unfold Rule.evaluate
  cases hm : r.matcher (some t) with
  | error fault => exact .unresolved hm rfl
  | ok m =>
      obtain ⟨violations, hrun⟩ := Check.run_ok hw hl r.check m
      simp only [hrun]
      by_cases hempty : Scenario.IsEmpty ⟨some t, w, l⟩ r.check.side
      · refine .empty hm hempty ?_
        rw [Finding.of_violations]
        exact Except.ok.inj (hrun.symm.trans (Check.run_of_isEmpty hempty m))
      · refine .offenders hm hempty ?_
        rw [Finding.of_violations]
        exact Check.forall₂_isAt_run hw hl hempty hrun

theorem Finding.Reports.located {s : Scenario} {f : Finding} (h : f.Reports r s) {v : Violation}
    (hv : v ∈ f.violations) :
    (s.IsEmpty r.check.side ∧ f.violations = [v] ∧ v = Check.emptySlice r.check.side.words) ∨
      ∃ m, r.matcher s.transition = .ok m ∧ ∃ x ∈ r.check.sightings s m, v.IsAt x := by
  cases h with
  | unresolved app nothing => rw [nothing] at hv; cases hv
  | empty app slice only =>
      obtain rfl := List.mem_singleton.mp (only ▸ hv)
      exact .inl ⟨slice, only, rfl⟩
  | @offenders m app slice each =>
      obtain ⟨x, hx, hat⟩ := each.exists_of_mem_left hv
      exact .inr ⟨m, app, x, (Check.offenders_sublist _ _).subset hx, hat⟩

end

/-- Every finding of a run belongs to one of the rules that the run goes through, in their order, and each of its
violations either is the only one, carries no time and is there because the slice is empty, or is about a snapshot
of the slice, with its time, which is inside the window of the transition, and with what is to be seen in it. Of the
snapshots in the slice just those are reported that offend the check, once each and in their order. -/
theorem audit_violations_located {table : RuleTable} {windows : WindowTrace} {layers : LayerTrace}
    {log : TransitionLog} {workers : Option Nat} {turns : List Nat} {findings : List Finding}
    (h : (audit table windows layers log workers turns).outcome = .ok findings) :
    List.Forall₂
      (fun run f => f.transitionId = run.1.id ∧ f.ruleId = run.2.id ∧
        ∃ w l, slices run.1 windows layers = .ok (w, l) ∧ f.Reports run.2 ⟨some run.1, w, l⟩ ∧
          ∀ v ∈ f.violations,
            (Scenario.IsEmpty ⟨some run.1, w, l⟩ run.2.check.side ∧ f.violations = [v] ∧
              v = Check.emptySlice run.2.check.side.words) ∨
            ∃ m, run.2.matcher (some run.1) = .ok m ∧ ∃ x ∈ run.2.check.sightings ⟨some run.1, w, l⟩ m,
              v.IsAt x ∧ run.1.start ≤ x.taken ∧ x.taken ≤ run.1.stop)
      (table.plan log) findings := by
  refine (forall₂_isOf_of_audit h).imp ?_
  rintro ⟨t, r⟩ f ⟨w, l, hs, rfl⟩
  obtain ⟨hw, hl⟩ := slices_eq_ok_iff.mp hs
  have hwindows : ∀ x ∈ w.entries, t.start ≤ stamp x ∧ stamp x ≤ t.stop :=
    fun x hx => (Trace.mem_of_mem_within hw hx).2
  have hlayers : ∀ x ∈ l.entries, t.start ≤ stamp x ∧ stamp x ≤ t.stop :=
    fun x hx => (Trace.mem_of_mem_within hl hx).2
  obtain ⟨hid, -, hrule⟩ := Finding.of_header t r (r.evaluate ⟨some t, w, l⟩)
  have hreports := Finding.reports_of_evaluate (r := r) (fun x hx => (hwindows x hx).2) (fun x hx => (hlayers x hx).2)
  refine ⟨hid, hrule, w, l, hs, hreports, fun v hv => ?_⟩
  refine (hreports.located hv).imp_right ?_
  rintro ⟨m, hm, x, hx, hat⟩
  have hinside : t.start ≤ x.taken ∧ x.taken ≤ t.stop :=
    Check.taken_of_mem_sightings (fun taken => t.start ≤ taken ∧ taken ≤ t.stop) hwindows hlayers x hx
  exact ⟨m, hm, x, hx, hat, hinside⟩

/-- The app that opens has a layer that is visible all the time. -/
def steadyRules : RuleTable :=
  .of [(RuleTable.everyType, [⟨.alwaysVisible .layers, some .openingApp, none, by decide⟩])] none

/-- What such a rule reports of an app whose layer comes up late. -/
def lateLayer : Violation where
  message := "Layer a/a.B is not visible"
  moment := some { elapsed := 2 }
  expected := some (.str "a/a.B")
  observed := some (.arr [])

def lateLayerFindings : List Finding :=
  [⟨1, "OPEN", "layer_always_visible(OPENING_APP)", false, some lateLayer.message, none, [lateLayer]⟩]

theorem audit_violations_located_lateLayer :
    (audit steadyRules launchWindows launchLayers (.single launch) none).outcome = .ok lateLayerFindings ∧
      ∃ m, Component.openingApp.resolve (some launch) = .ok m ∧
        ∃ x ∈ (Check.alwaysVisible .layers).sightings ⟨some launch, launchWindows, launchLayers⟩ m,
          lateLayer.IsAt x ∧ launch.start ≤ x.taken ∧ x.taken ≤ launch.stop := by
  have houtcome : (audit steadyRules launchWindows launchLayers (.single launch) none).outcome =
      .ok lateLayerFindings := by rfl
  have hplan : steadyRules.plan (.single launch) =
      [(launch, ⟨.alwaysVisible .layers, some .openingApp, none, by decide⟩)] := by rfl
  have hslices : slices launch launchWindows launchLayers = .ok (launchWindows, launchLayers) := by rfl
  have hfindings := audit_violations_located houtcome
  rw [hplan] at hfindings
  obtain ⟨⟨-, -, w, l, hs, -, hlocated⟩, -⟩ := List.forall₂_cons.mp hfindings
  obtain ⟨rfl, rfl⟩ := Prod.mk.inj (Except.ok.inj (hslices.symm.trans hs))
  refine ⟨houtcome, ?_⟩
  rcases hlocated lateLayer List.mem_cons_self with ⟨hempty, -⟩ | hat
  · cases hempty
  · exact hat

end TransitionAudit
