import TransitionAudit.Text.CodePoint
import Mathlib.Logic.Function.Basic
import Mathlib.Data.List.Basic

/-!
# Texts in order

Different code points have different numbers, so of two different texts one comes before the other. Things with
different names that are sorted by name stand strictly in order.
-/

namespace TransitionAudit

namespace CodePoint

theorem ofNumber?_number (p : CodePoint) : ofNumber? p.number = some p := by
  cases p with
  | char c =>
      have hvalid : c.toNat.isValidChar := c.valid
      simp [ofNumber?, number, hvalid]
  | surrogate n =>
      have hinvalid : ¬ (firstSurrogate + n).isValidChar := by
        simp only [firstSurrogate, Nat.isValidChar]
        omega
      simp [ofNumber?, number, hinvalid]

theorem number_injective : Function.Injective number := by
  intro p q h
  have hsome : some p = some q := by rw [← ofNumber?_number p, h, ofNumber?_number q]
  exact Option.some.inj hsome

instance : Trans (α := CodePoint) (· < ·) (· < ·) (· < ·) := ⟨fun h h' => Nat.lt_trans h h'⟩

instance : Std.Irrefl (α := CodePoint) (· < ·) := ⟨fun p => Nat.lt_irrefl p.number⟩

instance : Std.Asymm (α := CodePoint) (· < ·) := ⟨fun _ _ => Nat.lt_asymm⟩

instance : Std.Trichotomous (α := CodePoint) (· < ·) :=
  ⟨fun _ _ h h' => number_injective (Nat.le_antisymm (Nat.le_of_not_lt h') (Nat.le_of_not_lt h))⟩

end CodePoint

namespace Text

theorem ne_of_lt {s t : Text} (h : s < t) : s ≠ t := fun heq => List.lt_irrefl t (heq ▸ h)

theorem le_trans {s t u : Text} (hst : s ≤ t) (htu : t ≤ u) : s ≤ u := by
  rcases List.le_iff_lt_or_eq.mp hst with hst | rfl
  · rcases List.le_iff_lt_or_eq.mp htu with htu | rfl
    · exact List.le_iff_lt_or_eq.mpr (.inl (List.lt_trans hst htu))
    · exact List.le_iff_lt_or_eq.mpr (.inl hst)
  · exact htu

/-- Things with different names stand strictly in order once they are sorted by name. -/
theorem pairwise_lt_mergeSort {β : Type} {named : List (Text × β)} (h : (named.map (·.1)).Nodup) :
    ((named.mergeSort fun a b => a.1 ≤ b.1).map (·.1)).Pairwise (· < ·) := by
  have hsorted : (named.mergeSort fun a b => a.1 ≤ b.1).Pairwise fun a b => decide (a.1 ≤ b.1) = true :=
    List.pairwise_mergeSort (fun a b c hab hbc => by simpa using le_trans (by simpa using hab) (by simpa using hbc))
      (fun a b => by simpa using List.le_total a.1 b.1) named
  have hnodup : (named.mergeSort fun a b => a.1 ≤ b.1).Pairwise fun a b => a.1 ≠ b.1 := by
    have hperm := (List.mergeSort_perm named fun a b => a.1 ≤ b.1).map (·.1)
    exact List.pairwise_map.mp (hperm.nodup_iff.mpr h)
  refine List.pairwise_map.mpr ((hsorted.and hnodup).imp fun ⟨hle, hne⟩ => ?_)
  exact (List.le_iff_lt_or_eq.mp (of_decide_eq_true hle)).resolve_right hne

end Text

end TransitionAudit
