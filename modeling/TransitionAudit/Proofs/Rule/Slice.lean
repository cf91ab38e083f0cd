import TransitionAudit.Proofs.Trace.Window
import TransitionAudit.Rule.Basic

/-!
# When checks are content

What a slice has to look like for a check to report nothing. A component gets into a state and stays there
exactly if the sequence of its visibilities turns at most once and ends in the state; the checks at the end
look at the last snapshot of the slice.
-/

namespace TransitionAudit

variable {α : Type} [Snapshot α]

/-- A sequence that is in the other state for a while, if at all, and then in the wanted one to its end,
at least once. -/
def Settles (wanted : Bool) (states : List Bool) : Prop :=
  ∃ before after,
    states = List.replicate before (!wanted) ++ List.replicate (after + 1) wanted

theorem settles_iff_getLast? {wanted : Bool} {states : List Bool} :
    Settles wanted states ↔
      (∃ n k, states = List.replicate n (!wanted) ++ List.replicate k wanted) ∧
        states.getLast? = some wanted := by
  constructor
  · rintro ⟨n, k, rfl⟩
    exact ⟨⟨n, k + 1, rfl⟩, by simp [List.replicate_succ']⟩
  · rintro ⟨⟨n, k, rfl⟩, hlast⟩
    cases k with
    | zero =>
        -- without the wanted state the last one would be the other state
        cases n <;> simp [List.replicate_succ'] at hlast
    | succ k => exact ⟨n, k, rfl⟩

namespace Check

/-! ## Relapses -/

theorem relapses_reached (wanted : Bool) (m : Matcher) (xs : List α) :
    relapses wanted m true xs = xs.filter fun x => shows m x != wanted := by
  induction xs with
  | nil => rfl
  | cons x xs ih => by_cases hx : shows m x = wanted <;> simp [relapses, hx, ih]

theorem relapses_reached_eq_nil_iff {wanted : Bool} {m : Matcher} {xs : List α} :
    relapses wanted m true xs = [] ↔ ∀ x ∈ xs, shows m x = wanted := by
  simp [relapses_reached]

/-- The relapses are the snapshots out of the state, from the first one in it on. -/
theorem relapses_eq_filter_dropWhile (wanted : Bool) (m : Matcher) (xs : List α) :
    relapses wanted m false xs =
      (xs.dropWhile fun x => shows m x != wanted).filter fun x => shows m x != wanted := by
  induction xs with
  | nil => rfl
  | cons x xs ih => by_cases hx : shows m x = wanted <;> simp [relapses, relapses_reached, hx, ih]

theorem all_eq_iff_map_eq_replicate {b : Bool} {m : Matcher} {xs : List α} :
    (∀ x ∈ xs, shows m x = b) ↔ xs.map (shows m) = List.replicate xs.length b := by
  rw [List.eq_replicate_iff]
  simp

/-- There is no relapse exactly if the visibilities turn at most once. -/
theorem relapses_eq_nil_iff {wanted : Bool} {m : Matcher} {xs : List α} :
    relapses wanted m false xs = [] ↔
      ∃ n k, xs.map (shows m) = List.replicate n (!wanted) ++ List.replicate k wanted := by
  induction xs with
  | nil => exact ⟨fun _ => ⟨0, 0, rfl⟩, fun _ => rfl⟩
  | cons x xs ih =>
      by_cases hx : shows m x = wanted
      · -- from here on the state is reached, so the rest has to stay in it
        simp only [relapses, hx, ↓reduceIte, relapses_reached_eq_nil_iff, List.map_cons]
        constructor
        · intro h
          refine ⟨0, xs.length + 1, ?_⟩
          rw [all_eq_iff_map_eq_replicate.mp h]
          rfl
        · rintro ⟨n, k, h⟩
          cases n with
          | zero =>
              have hall : wanted :: xs.map (shows m) = List.replicate k wanted := by simpa using h
              intro y hy
              exact List.eq_of_mem_replicate (hall ▸ List.mem_cons_of_mem _ (List.mem_map_of_mem hy))
          | succ n => cases wanted <;> simp [List.replicate_succ] at h
      · have hx' : shows m x = !wanted := by cases wanted <;> simpa using hx
        have hstep : relapses wanted m false (x :: xs) = relapses wanted m false xs := by
          simp [relapses, hx]
        rw [hstep, ih, List.map_cons, hx']
        constructor
        · rintro ⟨n, k, h⟩
          exact ⟨n + 1, k, by simp [h, List.replicate_succ]⟩
        · rintro ⟨n, k, h⟩
          cases n with
          | zero => cases k <;> cases wanted <;> simp [List.replicate_succ] at h
          | succ n => exact ⟨n, k, by simpa [List.replicate_succ] using h⟩

/-! ## Single checks -/

theorem notEmptyIn_eq_nil_iff {t : Trace α} : notEmptyIn t = [] ↔ t.entries ≠ [] := by
  by_cases h : t.entries = [] <;> simp [notEmptyIn, Trace.isEmpty, h]

theorem becomesIn_eq_nil_iff {wanted : Bool} {t : Trace α} {m : Matcher} :
    becomesIn wanted t m = [] ↔ Settles wanted (t.entries.map (shows m)) := by
  rw [settles_iff_getLast?, ← relapses_eq_nil_iff, List.getLast?_map]
  unfold becomesIn
  cases t.entries.getLast? with
  | none => simp
  | some last =>
      cases relapses wanted m false t.entries with
      | nil => by_cases hl : shows m last = wanted <;> simp [hl]
      | cons x rest => simp

/-- On a slice the demand at the end of the transition is one on the last snapshot. -/
theorem atEnd_eq_nil_iff {wanted : Bool} {t : Trace α} {tr : Transition} {m : Matcher}
    (h : ∀ x ∈ t.entries, stamp x ≤ tr.stop) :
    atEnd wanted t (some tr) m = .ok [] ↔
      ∃ last, t.entries.getLast? = some last ∧ shows m last = wanted := by
  unfold atEnd
  cases hlast : t.entries.getLast? with
  | none =>
      rw [List.getLast?_eq_none_iff] at hlast
      simp [Trace.isEmpty, hlast, pure, Except.pure]
  | some last =>
      have hne : t.isEmpty = false := by
        cases he : t.entries with
        | nil => simp [he] at hlast
        | cons => simp [Trace.isEmpty, he]
      by_cases hs : shows m last = wanted <;>
        simp [hne, endState, Trace.latest_eq_last h hlast, hs, bind, Except.bind, pure, Except.pure]

end Check

/-! ## Rules -/

theorem Rule.evaluate_eq_ok_iff {r : Rule} {s : Scenario} {violations : List Violation} :
    r.evaluate s = .ok violations ↔ ∃ m, r.matcher s.transition = .ok m ∧ r.check.run s m = .ok violations := by
  unfold Rule.evaluate
  cases r.matcher s.transition with
  | error fault => simp
  | ok m => cases h : r.check.run s m <;> simp [h]

end TransitionAudit
