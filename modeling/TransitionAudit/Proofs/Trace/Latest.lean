import TransitionAudit.Proofs.Trace.Order
import Mathlib.Data.List.Infix

/-!
# The latest snapshot at a moment

The search for the latest snapshot at a moment stops at the first one stamped after it. What it finds is the last
of all snapshots that are not after the moment, unless the trace crosses back over the moment: a snapshot after it
has a right neighbour that is not, which takes comparisons that different clocks decide.
-/

namespace TransitionAudit

/-! ## Tests on lists in order -/

section
variable {β : Type} {p : β → Bool} {xs : List β}

theorem filter_eq_takeWhile_of_pairwise (h : xs.Pairwise fun x y => p y = true → p x = true) :
    xs.filter p = xs.takeWhile p := by
  induction h with
  | nil => rfl
  | @cons x xs hx _ ih =>
      cases hp : p x with
      | true => rw [List.filter_cons_of_pos hp, List.takeWhile_cons_of_pos hp, ih]
      | false =>
          rw [List.filter_cons_of_neg (by simp [hp]), List.takeWhile_cons_of_neg (by simp [hp]),
            List.filter_eq_nil_iff]
          exact fun y hy hpy => by simp [hx y hy hpy] at hp

/-- A test fails everywhere behind the start on which it holds exactly if it holds of all elements before one
for which it holds. -/
theorem forall_mem_dropWhile_iff_pairwise :
    (∀ y ∈ xs.dropWhile p, p y = false) ↔ xs.Pairwise fun x y => p y = true → p x = true := by
  induction xs with
  | nil => simp
  | cons x xs ih =>
      rw [List.pairwise_cons]
      cases hp : p x with
      | true => simpa [hp] using ih
      | false =>
          simp only [hp, Bool.false_eq_true, not_false_eq_true, List.dropWhile_cons_of_neg,
            List.forall_mem_cons, true_and, imp_false, Bool.not_eq_true, iff_self_and]
          exact fun h => List.pairwise_of_forall_mem_list fun y hy z hz hpz => by simp [h z hz] at hpz

theorem getLast?_filter_eq_some_iff {x : β} :
    (xs.filter p).getLast? = some x ↔
      ∃ before after, xs = before ++ x :: after ∧ p x = true ∧ ∀ y ∈ after, p y = false := by
  rw [← List.head?_reverse, ← List.filter_reverse, List.head?_filter, List.find?_eq_some_iff_append]
  constructor
  · rintro ⟨hx, after, before, hxs, hafter⟩
    refine ⟨before.reverse, after.reverse, ?_, hx, fun y hy => by simpa using hafter y (List.mem_reverse.mp hy)⟩
    rw [← List.reverse_reverse xs, hxs]
    simp
  · rintro ⟨before, after, rfl, hx, hafter⟩
    exact ⟨hx, after.reverse, before.reverse, by simp, fun y hy => by simpa using hafter y (List.mem_reverse.mp hy)⟩

end

namespace Trace

variable {α : Type} [Snapshot α] {t : Trace α} {moment : Stamp}

/-! ## Crossing back -/

/-- A snapshot after the moment, and its right neighbour that is not, although the two are in order with each
other. The comparisons among the two and the moment are not decided alike. -/
def CrossesBack (t : Trace α) (moment : Stamp) : Prop :=
  ∃ before x y after, t.entries = before ++ x :: y :: after ∧
    moment < stamp x ∧ stamp x ≤ stamp y ∧ stamp y ≤ moment ∧
    ¬ Stamp.DecidedAlike (stamp x) (stamp y) moment

theorem crossesBack_iff_neighbours :
    t.CrossesBack moment ↔ ∃ before x y after, t.entries = before ++ x :: y :: after ∧
      moment < stamp x ∧ stamp y ≤ moment := by
  constructor
  · rintro ⟨before, x, y, after, ht, hx, -, hy, -⟩
    exact ⟨before, x, y, after, ht, hx, hy⟩
  · rintro ⟨before, x, y, after, ht, hx, hy⟩
    have hneighbours : stamp x ≤ stamp y := by
      have hchain := ordered_iff_isChain.mp t.ordered
      rw [ht, List.isChain_append_cons_cons] at hchain
      exact hchain.2.1
    refine ⟨before, x, y, after, ht, hx, hneighbours, hy, fun halike => ?_⟩
    exact Stamp.not_le.mpr hx (Stamp.le_trans_of_decidedAlike halike hneighbours hy)

theorem not_crossesBack_iff_pairwise :
    ¬ t.CrossesBack moment ↔ t.entries.Pairwise fun x y => stamp y ≤ moment → stamp x ≤ moment := by
  have : IsTrans α fun x y => stamp y ≤ moment → stamp x ≤ moment := ⟨fun _ _ _ hxy hyz hz => hxy (hyz hz)⟩
  rw [← List.isChain_iff_pairwise, List.isChain_iff_forall_rel_of_append_cons_cons, crossesBack_iff_neighbours]
  simp only [← Stamp.not_le]
  constructor
  · intro h x y before after ht hy
    by_contra hx
    exact h ⟨before, x, y, after, ht, hx, hy⟩
  · rintro h ⟨before, x, y, after, ht, hx, hy⟩
    exact hx (h ht hy)

/-! ## What the search finds -/

theorem latest_eq_takeWhile (t : Trace α) (moment : Stamp) :
    t.latest moment = (t.entries.takeWhile fun x => decide (stamp x ≤ moment)).getLast?.elim
      (.error (.noneBefore (Snapshot.words α).trace moment)) .ok := by
  have htest : (fun x : α => !decide (moment < stamp x)) = fun x => decide (stamp x ≤ moment) := by
    funext x
    rw [← decide_not, decide_eq_decide]
    exact Stamp.not_lt
  rw [latest, htest]
  cases (t.entries.takeWhile fun x => decide (stamp x ≤ moment)).getLast? <;> rfl

section
variable (h : ¬ t.CrossesBack moment)
include h

/-- The search misses nothing. -/
theorem latest_eq_filter : t.latest moment = (t.entries.filter fun x => decide (stamp x ≤ moment)).getLast?.elim
    (.error (.noneBefore (Snapshot.words α).trace moment)) .ok := by
  have hpairwise := not_crossesBack_iff_pairwise.mp h
  rw [latest_eq_takeWhile, filter_eq_takeWhile_of_pairwise (by simpa only [decide_eq_true_eq] using hpairwise)]

theorem latest_eq_ok_iff {x : α} :
    t.latest moment = .ok x ↔ ∃ before after, t.entries = before ++ x :: after ∧ stamp x ≤ moment ∧
      ∀ y ∈ after, moment < stamp y := by
  have hlast : (t.entries.filter fun x => decide (stamp x ≤ moment)).getLast? = some x ↔ _ :=
    getLast?_filter_eq_some_iff
  simp only [decide_eq_true_eq, decide_eq_false_iff_not, Stamp.not_le] at hlast
  rw [latest_eq_filter h, ← hlast]
  cases (t.entries.filter fun x => decide (stamp x ≤ moment)).getLast? <;> simp

theorem latest_eq_error_iff {fault : LookupFault} :
    t.latest moment = .error fault ↔
      fault = .noneBefore (Snapshot.words α).trace moment ∧ ∀ x ∈ t.entries, moment < stamp x := by
  have hnone : (t.entries.filter fun x => decide (stamp x ≤ moment)).getLast? = none ↔
      ∀ x ∈ t.entries, moment < stamp x := by
    simp only [List.getLast?_eq_none_iff, List.filter_eq_nil_iff, decide_eq_true_eq, Stamp.not_le]
  rw [latest_eq_filter h, ← hnone]
  cases (t.entries.filter fun x => decide (stamp x ≤ moment)).getLast? <;> simp [eq_comm]

end

/-- The search passes the snapshots up to the first one after the moment and finds the last one it has passed.
All others are after the moment exactly if the trace does not cross back over it. Then what is found is the last
of all snapshots that are not after the moment, and there is a fault only if all of them are. -/
theorem latest_exact_iff_not_crossesBack (t : Trace α) (moment : Stamp) :
    (∃ passed rest, t.entries = passed ++ rest ∧
      (∀ x ∈ passed, stamp x ≤ moment) ∧ (∀ y ∈ rest.head?, moment < stamp y) ∧
      t.latest moment = passed.getLast?.elim (.error (.noneBefore (Snapshot.words α).trace moment)) .ok ∧
      ((∀ y ∈ rest, moment < stamp y) ↔ ¬ t.CrossesBack moment)) ∧
    (¬ t.CrossesBack moment →
      (∀ x, t.latest moment = .ok x ↔ ∃ before after, t.entries = before ++ x :: after ∧ stamp x ≤ moment ∧
        ∀ y ∈ after, moment < stamp y) ∧
      ∀ fault, t.latest moment = .error fault ↔
        fault = .noneBefore (Snapshot.words α).trace moment ∧ ∀ x ∈ t.entries, moment < stamp x) := by
  refine ⟨?_, fun h => ⟨fun x => latest_eq_ok_iff h, fun fault => latest_eq_error_iff h⟩⟩
  let passes : α → Bool := fun x => decide (stamp x ≤ moment)
  refine ⟨t.entries.takeWhile passes, t.entries.dropWhile passes, List.takeWhile_append_dropWhile.symm, ?_, ?_,
    latest_eq_takeWhile t moment, ?_⟩
  · intro x hx
    have hpasses : passes x = true := List.mem_takeWhile_imp hx
    exact of_decide_eq_true hpasses
  · intro y hy
    have hfails := List.head?_dropWhile_not passes t.entries
    rw [Option.mem_def.mp hy] at hfails
    exact Stamp.not_le.mp (of_decide_eq_false hfails)
  · rw [not_crossesBack_iff_pairwise]
    have hrest : (∀ y ∈ t.entries.dropWhile passes, passes y = false) ↔ _ := forall_mem_dropWhile_iff_pairwise
    simpa only [passes, decide_eq_true_eq, decide_eq_false_iff_not, Stamp.not_le] using hrest

/-- All layers but the first are stamped at or before the moment, and the first one hides them. -/
theorem latest_backwardLayers :
    ∃ t, Trace.of backwardLayers = .ok t ∧
      t.latest { elapsed := 4 } = .error (.noneBefore "LayersTrace" { elapsed := 4 }) ∧
      ∃ before x, t.entries = before ++ [x] ∧ stamp x ≤ { elapsed := 4 } := by
  have hordered : Ordered backwardLayers := by decide
  exact ⟨⟨backwardLayers, hordered⟩, of_eq_ok_iff.mpr rfl, by rfl, backwardLayers.take 2, _, rfl, by decide⟩

end Trace

end TransitionAudit
