import TransitionAudit.Proofs.Rule.Consistency
import TransitionAudit.Proofs.Rule.Flicker

/-!
# Which snapshots are reported

What a check sees of a snapshot is a stamp, whether the component is as the check looks for it, and something to
show for it. From the sequence of what it sees follows which snapshots offend the check, and on slices that hold
any a check reports just those, in their order.
-/

namespace TransitionAudit

/-- What a check sees of a snapshot. -/
structure Sighting where
  taken : Stamp
  /-- Whether the component is visible, or has the focus. -/
  holds : Bool
  /-- What is there: the names of all that is visible, or of the window with the focus if there is one. -/
  seen : Option Json

/-- Whether a violation is about a snapshot. -/
def Violation.IsAt (v : Violation) (x : Sighting) : Prop := v.moment = some x.taken ∧ v.observed = x.seen

variable {α : Type} [Snapshot α]

/-- What is visible of a component in a snapshot. -/
def Sighting.of (m : Matcher) (x : α) : Sighting where
  taken := stamp x
  holds := (Snapshot.visible x).any m.recognises
  seen := some (.arr ((Snapshot.visible x).map .str))

/-- Whether a component has the focus in a snapshot. -/
def Sighting.ofFocus (m : Matcher) (x : WindowState) : Sighting where
  taken := x.taken
  holds := x.focused.any m.recognises
  seen := x.focused.map .str

namespace Check

/-- What a check sees of the slice that it looks at, snapshot by snapshot. -/
def sightings (c : Check) (s : Scenario) (m : Matcher) : List Sighting :=
  match c, c.side with
  | .focusedAtEnd, _ => s.windows.entries.map (.ofFocus m)
  | _, .windows => s.windows.entries.map (.of m)
  | _, .layers => s.layers.entries.map (.of m)

/-- The last snapshot, unless it is as wanted. -/
def lastUnless (wanted : Bool) (xs : List Sighting) : List Sighting :=
  xs.getLast?.toList.filter fun x => x.holds != wanted

/-- The snapshots that offend a check, out of all that it sees. -/
def offenders : Check → List Sighting → List Sighting
  | .notEmpty _, _ => []
  | .visibleAtEnd _, xs => lastUnless true xs
  | .invisibleAtEnd _, xs => lastUnless false xs
  | .alwaysVisible _, xs => xs.filter fun x => !x.holds
  | .focusedAtEnd, xs => lastUnless true xs
  | .becomes wanted, xs =>
    match xs.dropWhile fun x => x.holds != wanted with
    | [] => xs.getLast?.toList
    | _ :: after => after.filter fun x => x.holds != wanted

theorem getLast?_toList_sublist {β : Type} (xs : List β) : xs.getLast?.toList.Sublist xs := by
  cases h : xs.getLast? with
  | none => exact List.nil_sublist _
  | some x =>
      obtain ⟨before, rfl⟩ := List.getLast?_eq_some_iff.mp h
      exact List.sublist_append_right before [x]

theorem lastUnless_sublist (wanted : Bool) (xs : List Sighting) : (lastUnless wanted xs).Sublist xs :=
  List.filter_sublist.trans (getLast?_toList_sublist xs)

theorem lastUnless_of_getLast? {wanted : Bool} {xs : List Sighting} {x : Sighting} (h : xs.getLast? = some x) :
    lastUnless wanted xs = if x.holds = wanted then [] else [x] := by
  by_cases hx : x.holds = wanted <;> simp [lastUnless, h, hx]

theorem offenders_sublist (c : Check) (xs : List Sighting) : (c.offenders xs).Sublist xs := by
  cases c with
  | notEmpty side => exact List.nil_sublist _
  | visibleAtEnd side => exact lastUnless_sublist true xs
  | invisibleAtEnd side => exact lastUnless_sublist false xs
  | alwaysVisible side => exact List.filter_sublist
  | focusedAtEnd => exact lastUnless_sublist true xs
  | becomes wanted =>
      simp only [offenders]
      split
      · exact getLast?_toList_sublist xs
      · rename_i first after hreached
        have hafter : (first :: after).Sublist xs := hreached ▸ List.dropWhile_sublist _
        exact List.filter_sublist.trans ((List.sublist_cons_self first after).trans hafter)

theorem taken_of_mem_sightings {c : Check} {s : Scenario} {m : Matcher} (P : Stamp → Prop)
    (hw : ∀ x ∈ s.windows.entries, P (stamp x)) (hl : ∀ x ∈ s.layers.entries, P (stamp x)) :
    ∀ x ∈ c.sightings s m, P x.taken := by
  cases c with
  | focusedAtEnd => exact List.forall_mem_map.mpr hw
  | becomes wanted => exact List.forall_mem_map.mpr hl
  | notEmpty side | visibleAtEnd side | invisibleAtEnd side | alwaysVisible side =>
      cases side with
      | windows => exact List.forall_mem_map.mpr hw
      | layers => exact List.forall_mem_map.mpr hl

/-! ## The reports on a slice -/

section
variable {t : Trace α} {tr : Transition} {m : Matcher} {violations : List Violation}

theorem forall₂_isAt_notEmptyIn (hne : t.isEmpty = false) : List.Forall₂ Violation.IsAt (notEmptyIn t) [] := by
  simp [notEmptyIn, hne]

theorem forall₂_isAt_alwaysIn (hne : t.isEmpty = false) :
    List.Forall₂ Violation.IsAt (alwaysIn t m) ((t.entries.map (Sighting.of m)).filter fun x => !x.holds) := by
  simp only [alwaysIn, hne, Bool.false_eq_true, ↓reduceIte, List.filter_map, List.forall₂_map_left_iff,
    List.forall₂_map_right_iff]
  exact List.forall₂_same.mpr fun x _ => ⟨rfl, rfl⟩

theorem forall₂_isAt_atEnd {wanted : Bool} (h : ∀ x ∈ t.entries, stamp x ≤ tr.stop) (hne : t.isEmpty = false)
    (hrun : atEnd wanted t (some tr) m = .ok violations) :
    List.Forall₂ Violation.IsAt violations (lastUnless wanted (t.entries.map (Sighting.of m))) := by
  obtain ⟨last, hlast, hend⟩ := endState_ok h hne
  have hsighted : (t.entries.map (Sighting.of m)).getLast? = some (.of m last) := by
    rw [List.getLast?_map, hlast, Option.map_some]
  have hholds : (Sighting.of m last).holds = shows m last := rfl
  rw [lastUnless_of_getLast? hsighted, hholds]
  simp only [atEnd, hne, hend, bind, Except.bind, Bool.false_eq_true, ↓reduceIte] at hrun
  by_cases hstate : shows m last = wanted
  · rw [if_pos hstate] at hrun ⊢
    cases hrun
    exact .nil
  · rw [if_neg hstate] at hrun ⊢
    cases hrun
    exact .cons ⟨rfl, rfl⟩ .nil

end

section
variable {w : WindowTrace} {l : LayerTrace} {tr : Transition} {m : Matcher} {violations : List Violation}

theorem forall₂_isAt_focusedIn (h : ∀ x ∈ w.entries, stamp x ≤ tr.stop) (hne : w.isEmpty = false)
    (hrun : focusedIn w (some tr) m = .ok violations) :
    List.Forall₂ Violation.IsAt violations (lastUnless true (w.entries.map (Sighting.ofFocus m))) := by
  obtain ⟨last, hlast, hend⟩ := endState_ok h hne
  have hsighted : (w.entries.map (Sighting.ofFocus m)).getLast? = some (.ofFocus m last) := by
    rw [List.getLast?_map, hlast, Option.map_some]
  have hholds : (Sighting.ofFocus m last).holds = last.focused.any m.recognises := rfl
  rw [lastUnless_of_getLast? hsighted, hholds]
  simp only [focusedIn, hne, hend, bind, Except.bind, Bool.false_eq_true, ↓reduceIte] at hrun
  by_cases hfocus : last.focused.any m.recognises = true
  · rw [if_pos hfocus] at hrun ⊢
    cases hrun
    exact .nil
  · rw [if_neg hfocus] at hrun ⊢
    cases hrun
    exact .cons ⟨rfl, rfl⟩ .nil

theorem forall₂_isAt_becomesIn (wanted : Bool) (hne : l.isEmpty = false) :
    List.Forall₂ Violation.IsAt (becomesIn wanted l m)
      ((becomes wanted).offenders (l.entries.map (Sighting.of m))) := by
  have hdrop : (l.entries.map (Sighting.of m)).dropWhile (fun x => x.holds != wanted) =
      (l.entries.dropWhile fun x => shows m x != wanted).map (Sighting.of m) := List.dropWhile_map
  simp only [offenders, hdrop]
  cases hreached : l.entries.dropWhile fun x => shows m x != wanted with
  | nil =>
      have hnever : ∀ x ∈ l.entries, shows m x ≠ wanted := by
        simpa using List.dropWhile_eq_nil_iff.mp hreached
      obtain ⟨last, hlast⟩ : ∃ last, l.entries.getLast? = some last :=
        Option.isSome_iff_exists.mp (by simpa [Trace.isEmpty] using hne)
      rw [becomesIn_of_never hlast hnever, List.getLast?_map, hlast]
      exact .cons ⟨rfl, rfl⟩ .nil
  | cons first after =>
      rw [becomesIn_of_reached hreached]
      simp only [List.map_cons, List.filter_map, List.forall₂_map_left_iff, List.forall₂_map_right_iff]
      exact List.forall₂_same.mpr fun x _ => ⟨rfl, rfl⟩

end

/-- On slices that hold snapshots a check reports those that offend it, in their order. -/
theorem forall₂_isAt_run {c : Check} {t : Transition} {w : WindowTrace} {l : LayerTrace} {m : Matcher}
    {violations : List Violation} (hw : ∀ x ∈ w.entries, stamp x ≤ t.stop) (hl : ∀ x ∈ l.entries, stamp x ≤ t.stop)
    (hne : ¬ Scenario.IsEmpty ⟨some t, w, l⟩ c.side) (hrun : c.run ⟨some t, w, l⟩ m = .ok violations) :
    List.Forall₂ Violation.IsAt violations (c.offenders (c.sightings ⟨some t, w, l⟩ m)) := by
  have hwindows : c.side = .windows → w.isEmpty = false := by
    intro hside
    rw [hside] at hne
    exact List.isEmpty_eq_false_iff.mpr hne
  have hlayers : c.side = .layers → l.isEmpty = false := by
    intro hside
    rw [hside] at hne
    exact List.isEmpty_eq_false_iff.mpr hne
  cases c with
  | notEmpty side =>
      cases side with
      | windows => exact Except.ok.inj hrun ▸ forall₂_isAt_notEmptyIn (hwindows rfl)
      | layers => exact Except.ok.inj hrun ▸ forall₂_isAt_notEmptyIn (hlayers rfl)
  | visibleAtEnd side =>
      cases side with
      | windows => exact forall₂_isAt_atEnd hw (hwindows rfl) hrun
      | layers => exact forall₂_isAt_atEnd hl (hlayers rfl) hrun
  | invisibleAtEnd side =>
      cases side with
      | windows => exact forall₂_isAt_atEnd hw (hwindows rfl) hrun
      | layers => exact forall₂_isAt_atEnd hl (hlayers rfl) hrun
  | alwaysVisible side =>
      cases side with
      | windows => exact Except.ok.inj hrun ▸ forall₂_isAt_alwaysIn (hwindows rfl)
      | layers => exact Except.ok.inj hrun ▸ forall₂_isAt_alwaysIn (hlayers rfl)
  | focusedAtEnd => exact forall₂_isAt_focusedIn hw (hwindows rfl) hrun
  | becomes wanted => exact Except.ok.inj hrun ▸ forall₂_isAt_becomesIn wanted (hlayers rfl)

end Check

end TransitionAudit
