import TransitionAudit.Proofs.Clock.Order
import TransitionAudit.Proofs.Trace.Window
import TransitionAudit.Trace.Screen

/-!
# The order of a trace

A trace is in order from neighbour to neighbour. It is in order as a whole unless it falls back behind an
earlier snapshot in a step from one neighbour to the next, which takes a third snapshot and comparisons that
different clocks decide.
-/

namespace TransitionAudit

variable {α : Type} [Snapshot α]

/-- Whether the comparisons among three stamps are all decided on one clock, or all on the raw numbers. -/
def Stamp.DecidedAlike (a b c : Stamp) : Prop :=
  a.sharedClock? b = a.sharedClock? c ∧ b.sharedClock? c = a.sharedClock? c

theorem Stamp.le_trans_of_decidedAlike {a b c : Stamp} (h : Stamp.DecidedAlike a b c) (hab : a ≤ b)
    (hbc : b ≤ c) : a ≤ c :=
  le_trans_of_sharedClock? h.1 h.2 rfl hab hbc

/-- A snapshot and two later ones that are neighbours, each in order with the next, of which the last one
is stamped before the first one. The comparisons among the three are not decided alike. -/
def FallsBack (xs : List α) : Prop :=
  ∃ before x between y z after, xs = before ++ x :: between ++ y :: z :: after ∧
    stamp x ≤ stamp y ∧ stamp y ≤ stamp z ∧ stamp z < stamp x ∧
    ¬ Stamp.DecidedAlike (stamp x) (stamp y) (stamp z)

theorem FallsBack.cons {x : α} {xs : List α} (h : FallsBack xs) : FallsBack (x :: xs) := by
  obtain ⟨before, x', between, y, z, after, rfl, h⟩ := h
  exact ⟨x :: before, x', between, y, z, after, by simp, h⟩

theorem not_fallsBack_of_pairwise {xs : List α} (h : xs.Pairwise fun x y => stamp x ≤ stamp y) :
    ¬ FallsBack xs := by
  rintro ⟨before, x, between, y, z, after, rfl, -, -, hlt, -⟩
  rw [List.append_assoc, List.pairwise_append, List.cons_append, List.pairwise_cons] at h
  have hle : stamp x ≤ stamp z := h.2.1.1 z (by simp)
  exact Stamp.not_lt.mpr hle hlt

/-- What comes after a snapshot is in order with it, as long as the snapshots do not fall back. -/
theorem le_of_not_fallsBack {x : α} {xs : List α} (hchain : (x :: xs).IsChain fun x y => stamp x ≤ stamp y)
    (hback : ¬ FallsBack (x :: xs)) : ∀ y ∈ xs, stamp x ≤ stamp y := by
  intro y hy
  obtain ⟨between, after, hxs⟩ := List.append_of_mem hy
  clear hy
  -- along the snapshots between the two, from each one to its right neighbour
  induction between using List.reverseRecOn generalizing y after with
  | nil =>
      rw [hxs, List.nil_append, List.isChain_cons_cons] at hchain
      exact hchain.1
  | append_singleton between w ih =>
      have hw : stamp x ≤ stamp w := ih w (y :: after) (by simp [hxs])
      have hneighbours : stamp w ≤ stamp y := by
        have hsplit : x :: xs = (x :: between) ++ w :: y :: after := by simp [hxs]
        rw [hsplit, List.isChain_append_cons_cons] at hchain
        exact hchain.2.1
      by_contra hle
      refine hback ⟨[], x, between, w, y, after, by simp [hxs], hw, hneighbours, Stamp.not_le.mp hle, ?_⟩
      exact fun halike => hle (Stamp.le_trans_of_decidedAlike halike hw hneighbours)

theorem pairwise_of_not_fallsBack {xs : List α} (hchain : xs.IsChain fun x y => stamp x ≤ stamp y)
    (hback : ¬ FallsBack xs) : xs.Pairwise fun x y => stamp x ≤ stamp y := by
  induction xs with
  | nil => exact .nil
  | cons x xs ih =>
      exact .cons (le_of_not_fallsBack hchain hback) (ih hchain.tail fun h => hback h.cons)

/-- Snapshots are in order as a whole exactly if they are accepted as a trace and do not fall back behind
an earlier one. -/
theorem pairwise_le_iff_accepted (entries : List α) :
    (entries.Pairwise fun x y => stamp x ≤ stamp y) ↔
      (∃ t, Trace.of entries = .ok t) ∧ ¬ FallsBack entries := by
  rw [Trace.of_ok_iff_ordered, Trace.ordered_iff_isChain]
  constructor
  · intro h
    exact ⟨h.isChain, not_fallsBack_of_pairwise h⟩
  · rintro ⟨hchain, hback⟩
    exact pairwise_of_not_fallsBack hchain hback

/-- Layers at moments that are read on different clocks: the second one shares its clock with the first
one only, and the third one is before the first one. -/
def backwardLayers : List LayerState :=
  [⟨{ elapsed := 10, uptime := 5 }, []⟩, ⟨{ uptime := 6 }, []⟩, ⟨{ elapsed := 3 }, []⟩]

theorem backwardLayers_not_pairwise :
    (∃ t, Trace.of backwardLayers = .ok t ∧ t.entries = backwardLayers) ∧
      ¬ backwardLayers.Pairwise fun x y => stamp x ≤ stamp y := by
  have hordered : Ordered backwardLayers := by decide
  exact ⟨⟨⟨backwardLayers, hordered⟩, Trace.of_eq_ok_iff.mpr rfl, rfl⟩, by decide⟩

end TransitionAudit
