import TransitionAudit.Proofs.Audit.Decomposition
import TransitionAudit.Proofs.Rule.Slice
import TransitionAudit.Proofs.Transition.Mode

/-!
# Verdicts of the built-in rules

When all findings of a transition under the built-in rules pass. Every transition needs snapshots in both
of its slices. A transition that opens or closes an app needs in addition that the app is found, that its
layer settles in the wanted state, and that its window is in that state in the last snapshot.
-/

namespace TransitionAudit

/-! ## Rules for a type -/

namespace RuleTable

theorem builtIn_rows : builtIn.rows =
    [(everyType, notEmptyRules), (Mode.name .open, openingRules), (Mode.name .toFront, openingRules),
      (Mode.name .close, closingRules), (Mode.name .toBack, closingRules)] := by
  rfl

theorem text_ne_everyType (type : TransitionType) : everyType ≠ type.text := by
  intro h
  have hread : TransitionType.ofText? everyType = some type := by rw [h, TransitionType.ofText?_text]
  have hnone : TransitionType.ofText? everyType = none := by decide
  rw [hnone] at hread
  cases hread

theorem rulesFor_builtIn_of_other {type : TransitionType}
    (h : ∀ m ∈ [Mode.open, Mode.toFront, Mode.close, Mode.toBack], type ≠ .single m) :
    builtIn.rulesFor type = notEmptyRules := by
  have hmode : ∀ m ∈ [Mode.open, Mode.toFront, Mode.close, Mode.toBack], m.name ≠ type.text := by
    intro m hm heq
    rw [← TransitionType.text_single] at heq
    exact h m hm (TransitionType.text_injective heq).symm
  have hnone : builtIn.rows.find? (fun row => row.1 == type.text) = none := by
    simp only [List.forall_mem_cons] at hmode
    obtain ⟨hopen, htoFront, hclose, htoBack, -⟩ := hmode
    simp [builtIn_rows, text_ne_everyType, hopen, htoFront, hclose, htoBack]
  rw [rulesFor, under, under, hnone]
  rfl

theorem rulesFor_builtIn_of_opening {type : TransitionType}
    (h : type = .single .open ∨ type = .single .toFront) :
    builtIn.rulesFor type = notEmptyRules ++ openingRules := by
  rcases h with rfl | rfl <;> rfl

theorem rulesFor_builtIn_of_closing {type : TransitionType}
    (h : type = .single .close ∨ type = .single .toBack) :
    builtIn.rulesFor type = notEmptyRules ++ closingRules := by
  rcases h with rfl | rfl <;> rfl

end RuleTable

/-! ## Rules without complaint -/

/-- The app in a role is found, its layer gets into the wanted state and stays there, and its window is in
the state in the last snapshot. -/
def AppSettles (role : Role) (visible : Bool) (t : Transition) (w : WindowTrace) (l : LayerTrace) : Prop :=
  ∃ m last, t.resolve role = .ok m ∧ Settles visible (l.entries.map (Check.shows m)) ∧
    w.entries.getLast? = some last ∧ Check.shows m last = visible

section
variable {t : Transition} {w : WindowTrace} {l : LayerTrace}

theorem notEmptyRules_ok_iff :
    (∀ r ∈ RuleTable.notEmptyRules, r.evaluate ⟨some t, w, l⟩ = .ok []) ↔
      w.entries ≠ [] ∧ l.entries ≠ [] := by
  simp [RuleTable.notEmptyRules, Rule.evaluate_eq_ok_iff, Rule.matcher, Check.run,
    Check.notEmptyIn_eq_nil_iff]

/-- A check that the app's layer settles, and one of its window at the end, resolve the same app. -/
theorem appRules_ok_iff {role : Role} {visible : Bool} {settles atEnd : Rule}
    (hstop : ∀ x ∈ w.entries, stamp x ≤ t.stop)
    (hsettles : settles.matcher (some t) = t.resolve role) (hatEnd : atEnd.matcher (some t) = t.resolve role)
    (hrun : ∀ m, settles.check.run ⟨some t, w, l⟩ m = .ok (Check.becomesIn visible l m))
    (hrun' : ∀ m, atEnd.check.run ⟨some t, w, l⟩ m = Check.atEnd visible w (some t) m) :
    (∀ r ∈ [settles, atEnd], r.evaluate ⟨some t, w, l⟩ = .ok []) ↔ AppSettles role visible t w l := by
  simp only [List.forall_mem_cons, Rule.evaluate_eq_ok_iff, hsettles, hatEnd, hrun, hrun',
    Except.ok.injEq, Check.becomesIn_eq_nil_iff, Check.atEnd_eq_nil_iff hstop]
  constructor
  · rintro ⟨⟨m, hm, hlayers⟩, ⟨m', hm', last, hlast, hshows⟩, -⟩
    obtain rfl : m = m' := Except.ok.inj (hm.symm.trans hm')
    exact ⟨m, last, hm, hlayers, hlast, hshows⟩
  · rintro ⟨m, last, hm, hlayers, hlast, hshows⟩
    exact ⟨⟨m, hm, hlayers⟩, ⟨m, hm, last, hlast, hshows⟩, by simp⟩

theorem openingRules_ok_iff (hstop : ∀ x ∈ w.entries, stamp x ≤ t.stop) :
    (∀ r ∈ RuleTable.openingRules, r.evaluate ⟨some t, w, l⟩ = .ok []) ↔
      AppSettles .opening true t w l :=
  appRules_ok_iff hstop rfl rfl (fun _ => rfl) fun _ => rfl

theorem closingRules_ok_iff (hstop : ∀ x ∈ w.entries, stamp x ≤ t.stop) :
    (∀ r ∈ RuleTable.closingRules, r.evaluate ⟨some t, w, l⟩ = .ok []) ↔
      AppSettles .closing false t w l :=
  appRules_ok_iff hstop rfl rfl (fun _ => rfl) fun _ => rfl

end

/-! ## The verdict -/

/-- The findings on a complete transition with slices, alone or among others, are four or two. All pass
exactly if both slices hold snapshots and, where an app opens or closes, it settles. -/
theorem builtIn_passed_iff {windows w : WindowTrace} {layers l : LayerTrace} {t : Transition}
    (hc : t.isIncomplete = false) (hs : slices t windows layers = .ok (w, l)) :
    ∃ findings, (audit .builtIn windows layers (.single t) none).outcome = .ok findings ∧
      (∀ log workers turns all, t ∈ log.complete →
        (audit .builtIn windows layers log workers turns).outcome = .ok all →
        all.filter (·.transitionId = t.id) = findings) ∧
      (t.type = .single .open ∨ t.type = .single .toFront → findings.length = 4 ∧
        ((∀ f ∈ findings, f.passed = true) ↔
          (w.entries ≠ [] ∧ l.entries ≠ []) ∧ AppSettles .opening true t w l)) ∧
      (t.type = .single .close ∨ t.type = .single .toBack → findings.length = 4 ∧
        ((∀ f ∈ findings, f.passed = true) ↔
          (w.entries ≠ [] ∧ l.entries ≠ []) ∧ AppSettles .closing false t w l)) ∧
      ((∀ m ∈ [Mode.open, Mode.toFront, Mode.close, Mode.toBack], t.type ≠ .single m) →
        findings.length = 2 ∧
        ((∀ f ∈ findings, f.passed = true) ↔ w.entries ≠ [] ∧ l.entries ≠ [])) := by
  have hstop : ∀ x ∈ w.entries, stamp x ≤ t.stop :=
    fun x hx => Trace.le_of_mem_within (slices_eq_ok_iff.mp hs).1 hx
  have hblock : findingsOf (auditOne .builtIn windows layers t) = (blockOn .builtIn t w l).findings := by
    rw [auditOne_of_slices hs, findingsOf]
  refine ⟨(blockOn .builtIn t w l).findings, ?_, ?_, ?_, ?_, ?_⟩
  · rw [audit_single hc hs, hblock]
  · intro log workers turns all ht hall
    rw [filter_transitionId hall ht, hblock]
  · intro htype
    rw [blockOn_length, blockOn_passed_iff, RuleTable.rulesFor_builtIn_of_opening htype,
      List.forall_mem_append, notEmptyRules_ok_iff, openingRules_ok_iff hstop]
    exact ⟨rfl, Iff.rfl⟩
  · intro htype
    rw [blockOn_length, blockOn_passed_iff, RuleTable.rulesFor_builtIn_of_closing htype,
      List.forall_mem_append, notEmptyRules_ok_iff, closingRules_ok_iff hstop]
    exact ⟨rfl, Iff.rfl⟩
  · intro htype
    rw [blockOn_length, blockOn_passed_iff, RuleTable.rulesFor_builtIn_of_other htype, notEmptyRules_ok_iff]
    exact ⟨rfl, Iff.rfl⟩

theorem builtIn_passed_iff_launch :
    launch.isIncomplete = false ∧
    slices launch launchWindows launchLayers = .ok (launchWindows, launchLayers) ∧
    launch.type = .single .open ∧
    ∃ findings, (audit .builtIn launchWindows launchLayers (.single launch) none).outcome = .ok findings ∧
      findings.length = 4 ∧ ∀ f ∈ findings, f.passed = true := by
  have hs : slices launch launchWindows launchLayers = .ok (launchWindows, launchLayers) := by rfl
  have happ : AppSettles .opening true launch launchWindows launchLayers :=
    ⟨⟨"a", "a.B"⟩, ⟨{ elapsed := 5 }, [⟨"a/.B", true⟩], some "a/.B"⟩, rfl, ⟨1, 0, rfl⟩, rfl, rfl⟩
  obtain ⟨findings, haudit, -, hopening, -, -⟩ := builtIn_passed_iff rfl hs
  obtain ⟨hlength, hpassed⟩ := hopening (Or.inl rfl)
  exact ⟨rfl, hs, rfl, findings, haudit, hlength, hpassed.mpr ⟨by decide, happ⟩⟩

end TransitionAudit
