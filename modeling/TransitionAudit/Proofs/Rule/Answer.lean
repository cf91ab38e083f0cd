import TransitionAudit.Proofs.Component.Resolution
import TransitionAudit.Proofs.Rule.Slice

/-!
# What rules answer on slices

No snapshot of a slice is stamped after the end of the transition, so the end state is found in every slice
that is not empty and every check gives its report. A rule is left without an answer only if its component
has to be found in the transition and is not.
-/

namespace TransitionAudit

variable {α : Type} [Snapshot α]

/-! ## Checks -/

namespace Check

theorem endState_ok {t : Trace α} {tr : Transition} (h : ∀ x ∈ t.entries, stamp x ≤ tr.stop)
    (hne : t.isEmpty = false) : ∃ x, t.entries.getLast? = some x ∧ endState t (some tr) = .ok x := by
  have hlast : t.entries.getLast?.isSome := by simpa [Trace.isEmpty] using hne
  obtain ⟨x, hx⟩ := Option.isSome_iff_exists.mp hlast
  exact ⟨x, hx, Trace.latest_eq_last h hx⟩

theorem atEnd_ok {wanted : Bool} {t : Trace α} {tr : Transition} {m : Matcher}
    (h : ∀ x ∈ t.entries, stamp x ≤ tr.stop) : ∃ violations, atEnd wanted t (some tr) m = .ok violations := by
  unfold atEnd
  cases hne : t.isEmpty with
  | true => exact ⟨_, rfl⟩
  | false =>
      obtain ⟨x, -, hx⟩ := endState_ok h hne
      rw [hx]
      by_cases hs : shows m x = wanted <;> simp [bind, Except.bind, pure, Except.pure, hs]

theorem focusedIn_ok {t : WindowTrace} {tr : Transition} {m : Matcher}
    (h : ∀ x ∈ t.entries, stamp x ≤ tr.stop) : ∃ violations, focusedIn t (some tr) m = .ok violations := by
  unfold focusedIn
  cases hne : t.isEmpty with
  | true => exact ⟨_, rfl⟩
  | false =>
      obtain ⟨x, -, hx⟩ := endState_ok h hne
      rw [hx]
      by_cases hf : x.focused.any m.recognises = true <;>
        simp [bind, Except.bind, pure, Except.pure, hf]

/-- On slices no check looks for a state that is not there. -/
theorem run_ok {t : Transition} {w : WindowTrace} {l : LayerTrace}
    (hw : ∀ x ∈ w.entries, stamp x ≤ t.stop) (hl : ∀ x ∈ l.entries, stamp x ≤ t.stop) (c : Check)
    (m : Matcher) : ∃ violations, c.run ⟨some t, w, l⟩ m = .ok violations := by
  cases c with
  | notEmpty side => cases side <;> exact ⟨_, rfl⟩
  | visibleAtEnd side =>
      cases side with
      | windows => exact atEnd_ok hw
      | layers => exact atEnd_ok hl
  | invisibleAtEnd side =>
      cases side with
      | windows => exact atEnd_ok hw
      | layers => exact atEnd_ok hl
  | alwaysVisible side => cases side <;> exact ⟨_, rfl⟩
  | focusedAtEnd => exact focusedIn_ok hw
  | becomes wanted => exact ⟨_, rfl⟩

end Check

/-! ## Components -/

/-- The codes of the faults that keep the app of a transition from being found. -/
def ErrorCode.ofTransition : List ErrorCode := [.ambiguousComponent, .noComponent, .malformedName]

theorem Transition.resolve_code {role : Role} {t : Transition} {fault : ResolutionFault}
    (h : t.resolve role = .error fault) : fault.code ∈ ErrorCode.ofTransition := by
  have hfails : t.FailsWith role fault.code := ⟨fault, h, rfl⟩
  rcases namesIn_cases role t with hnone | ⟨window, hone⟩ | hseveral
  · rw [(failsWith_of_empty hnone).mp hfails]
    decide
  · rw [code_of_singleton hone hfails]
    decide
  · rw [(failsWith_of_nontrivial hseveral).mp hfails]
    decide

/-- Whether the component of a rule is the app that plays some part in the transition. -/
def Rule.LooksForApp (r : Rule) : Prop := ∃ c role, r.component = some c ∧ c.origin = .fromTransition role

theorem Rule.matcher_error {r : Rule} {t : Transition} {fault : ResolutionFault}
    (h : r.matcher (some t) = .error fault) : r.LooksForApp ∧ fault.code ∈ ErrorCode.ofTransition := by
  unfold Rule.matcher at h
  cases hc : r.component with
  | none => simp [hc] at h
  | some c =>
      simp only [hc, Component.resolve] at h
      cases ho : c.origin with
      | fixed m => simp [ho] at h
      | fromTransition role =>
          simp only [ho] at h
          exact ⟨⟨c, role, hc, ho⟩, Transition.resolve_code h⟩

theorem ResolutionFault.message_ne_nil (fault : ResolutionFault) : fault.message ≠ [] := by
  cases fault <;> simp [ResolutionFault.message, Text.ofString, Text.ofChars]

/-! ## Rules -/

/-- On slices a rule answers, or the app it is about was not found. -/
theorem Rule.evaluate_cases {t : Transition} {w : WindowTrace} {l : LayerTrace}
    (hw : ∀ x ∈ w.entries, stamp x ≤ t.stop) (hl : ∀ x ∈ l.entries, stamp x ≤ t.stop) (r : Rule) :
    (∃ violations, r.evaluate ⟨some t, w, l⟩ = .ok violations) ∨
      ∃ fault, r.evaluate ⟨some t, w, l⟩ = .error (.unresolved fault) ∧ r.LooksForApp ∧
        fault.code ∈ ErrorCode.ofTransition := by
  unfold Rule.evaluate
  cases hm : r.matcher (some t) with
  | error fault => exact Or.inr ⟨fault, rfl, Rule.matcher_error hm⟩
  | ok m =>
      obtain ⟨violations, hrun⟩ := Check.run_ok hw hl r.check m
      exact Or.inl ⟨violations, by simp only [hrun]⟩

end TransitionAudit
