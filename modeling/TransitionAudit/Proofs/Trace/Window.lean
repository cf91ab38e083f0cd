import TransitionAudit.Trace.Basic
import Mathlib.Data.List.Chain
import Mathlib.Data.List.TakeWhile

/-!
# Slices of traces

Cutting a trace down to a time window keeps the snapshots inside the window in their order. The slice is
a trace of its own only if they are in order without the snapshots between them. A slice is its own slice,
and no snapshot in it is stamped after the window, so the end state of a slice is its last snapshot.
-/

namespace TransitionAudit

variable {α : Type} [Snapshot α]

namespace Trace

/-- The snapshots inside a time window, its ends included. -/
def clip (t : Trace α) (start stop : Stamp) : List α :=
  t.entries.filter fun x => start ≤ stamp x && stamp x ≤ stop

theorem mem_clip {t : Trace α} {start stop : Stamp} {x : α} :
    x ∈ t.clip start stop ↔ x ∈ t.entries ∧ start ≤ stamp x ∧ stamp x ≤ stop := by
  simp [clip]

/-! ## When a slice is a trace -/

theorem of_ok_iff_ordered {xs : List α} : (∃ t, of xs = .ok t) ↔ Ordered xs := by
  constructor
  · rintro ⟨t, h⟩
    exact of_eq_ok_iff.mp h ▸ t.ordered
  · intro h
    exact ⟨⟨xs, h⟩, of_eq_ok_iff.mpr rfl⟩

theorem within_eq_ok_iff {t u : Trace α} {start stop : Stamp} :
    t.within start stop = .ok u ↔ u.entries = t.clip start stop :=
  of_eq_ok_iff

theorem within_ok_iff_ordered {t : Trace α} {start stop : Stamp} :
    (∃ u, t.within start stop = .ok u) ↔ Ordered (t.clip start stop) :=
  of_ok_iff_ordered

theorem ordered_iff_isChain {xs : List α} :
    Ordered xs ↔ xs.IsChain fun x y => stamp x ≤ stamp y := by
  induction xs with
  | nil => exact iff_of_true trivial .nil
  | cons x xs ih =>
      cases xs with
      | nil => exact iff_of_true trivial (.singleton x)
      | cons y rest => rw [List.isChain_cons_cons, ← ih, Ordered, Stamp.not_lt]

/-- A trace whose snapshots are in order pairwise, not just from neighbour to neighbour, can be cut
down to any time window. -/
theorem ordered_clip_of_pairwise {t : Trace α} (h : t.entries.Pairwise fun x y => stamp x ≤ stamp y)
    (start stop : Stamp) : Ordered (t.clip start stop) :=
  ordered_iff_isChain.mpr (h.sublist List.filter_sublist).isChain

/-- Two snapshots inside a time window of which the later one is stamped before the earlier one, while
all snapshots between them, of which there are some, are outside the window. -/
def Clashes (t : Trace α) (start stop : Stamp) : Prop :=
  ∃ before x between y after,
    t.entries = before ++ x :: between ++ y :: after ∧ between ≠ [] ∧
    (∀ z ∈ between, ¬ (start ≤ stamp z ∧ stamp z ≤ stop)) ∧
    (start ≤ stamp x ∧ stamp x ≤ stop) ∧ (start ≤ stamp y ∧ stamp y ≤ stop) ∧ stamp y < stamp x

theorem not_ordered_iff_exists_neighbours {xs : List α} :
    ¬ Ordered xs ↔ ∃ before x y after, xs = before ++ x :: y :: after ∧ stamp y < stamp x := by
  rw [ordered_iff_isChain, List.isChain_iff_forall_rel_of_append_cons_cons]
  simp only [← Stamp.not_lt]
  push Not
  constructor
  · rintro ⟨x, y, before, after, hxs, hlt⟩
    exact ⟨before, x, y, after, hxs, hlt⟩
  · rintro ⟨before, x, y, after, hxs, hlt⟩
    exact ⟨x, y, before, after, hxs, hlt⟩

/-- A slice is out of order exactly if the snapshots that it leaves out had kept two others apart. -/
theorem not_ordered_clip_iff_clashes {t : Trace α} {start stop : Stamp} :
    ¬ Ordered (t.clip start stop) ↔ t.Clashes start stop := by
  rw [not_ordered_iff_exists_neighbours]
  constructor
  · rintro ⟨kept, x, y, kept', hclip, hlt⟩
    obtain ⟨before, rest, ht, -, hrest⟩ := List.filter_eq_append_iff.mp hclip
    obtain ⟨skipped, rest', rfl, -, hx, hrest'⟩ := List.filter_eq_cons_iff.mp hrest
    obtain ⟨between, after, rfl, hout, hy, -⟩ := List.filter_eq_cons_iff.mp hrest'
    refine ⟨before ++ skipped, x, between, y, after, by simp [ht], ?_, by simpa using hout,
      by simpa using hx, by simpa using hy, hlt⟩
    rintro rfl
    -- as neighbours in the trace, the two would be in order
    exact not_ordered_iff_exists_neighbours.mpr ⟨before ++ skipped, x, y, after, by simp [ht], hlt⟩ t.ordered
  · rintro ⟨before, x, between, y, after, ht, -, hout, hx, hy, hlt⟩
    let inside : α → Bool := fun z => start ≤ stamp z && stamp z ≤ stop
    have hbetween : between.filter inside = [] := by simpa [inside, List.filter_eq_nil_iff] using hout
    have hclip : t.clip start stop = before.filter inside ++ x :: y :: after.filter inside := by
      rw [clip, ht, List.filter_append, List.filter_append, List.filter_cons_of_pos (by simpa using hx),
        List.filter_cons_of_pos (by simpa using hy), hbetween, List.append_assoc]
      rfl
    exact ⟨_, x, y, _, hclip, hlt⟩

/-! ## Slices of slices -/

theorem clip_of_within {t u : Trace α} {start stop : Stamp} (h : t.within start stop = .ok u) :
    u.clip start stop = u.entries := by
  rw [clip, within_eq_ok_iff.mp h, clip, List.filter_filter]
  simp only [Bool.and_self]

theorem within_of_within {t u : Trace α} {start stop : Stamp} (h : t.within start stop = .ok u) :
    u.within start stop = .ok u :=
  within_eq_ok_iff.mpr (clip_of_within h).symm

theorem within_congr {t u : Trace α} {start stop : Stamp} (h : t.clip start stop = u.clip start stop) :
    t.within start stop = u.within start stop :=
  congrArg of h

/-! ## The end of a slice -/

theorem mem_of_mem_within {t u : Trace α} {start stop : Stamp} (h : t.within start stop = .ok u) {x : α}
    (hx : x ∈ u.entries) : x ∈ t.entries ∧ start ≤ stamp x ∧ stamp x ≤ stop :=
  mem_clip.mp (within_eq_ok_iff.mp h ▸ hx)

theorem le_of_mem_within {t u : Trace α} {start stop : Stamp} (h : t.within start stop = .ok u) {x : α}
    (hx : x ∈ u.entries) : stamp x ≤ stop :=
  (mem_of_mem_within h hx).2.2

/-- Where nothing is stamped after the moment, the search for the latest snapshot runs to the end. -/
theorem latest_eq_last {t : Trace α} {moment : Stamp} {x : α} (h : ∀ x ∈ t.entries, stamp x ≤ moment)
    (hx : t.entries.getLast? = some x) : t.latest moment = .ok x := by
  have hall : t.entries.takeWhile (fun x => !decide (moment < stamp x)) = t.entries := by
    rw [List.takeWhile_eq_self_iff]
    intro y hy
    simpa using Stamp.not_lt.mpr (h y hy)
  simp only [latest, hall, hx]

theorem exists_latest_of_within {t u : Trace α} {start stop : Stamp} (h : t.within start stop = .ok u)
    (hne : u.entries ≠ []) : ∃ x, u.entries.getLast? = some x ∧ u.last = .ok x ∧ u.latest stop = .ok x := by
  have hlast := List.getLast?_eq_some_getLast hne
  exact ⟨u.entries.getLast hne, hlast, by rw [last, hlast], latest_eq_last (fun x => le_of_mem_within h) hlast⟩

end Trace

end TransitionAudit
