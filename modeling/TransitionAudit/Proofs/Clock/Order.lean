import Mathlib.Data.Prod.Lex
import TransitionAudit.Clock.Stamp

/-!
# Comparing stamps

Among stamps whose comparisons are all decided on one clock the order is that of the readings of this
clock, and among stamps that share no clock it is that of the raw numbers; both are transitive. The order
fails to be transitive only where different clocks decide.
-/

namespace TransitionAudit.Stamp

variable {a b c : Stamp}

theorem le_refl (a : Stamp) : a ≤ a := by
  rw [← not_lt, lt_def]
  intro h
  have hswap := order_swap a a
  rw [h] at hswap
  cases hswap

theorem le_of_lt (h : a < b) : a ≤ b := by
  rw [le_def, lt_def.mp h]
  decide

theorem not_le : ¬ a ≤ b ↔ b < a := by
  rw [← not_lt, Decidable.not_not]

/-! ## The deciding clock -/

theorem le_iff_of_sharedClock?_eq_some {d : Clock} (h : a.sharedClock? b = some d) :
    a ≤ b ↔ a.on d ≤ b.on d := by
  rw [le_def, order, h]
  exact Nat.compare_ne_gt

/-- The numbers of a stamp, of which the earlier ones count before the later ones. -/
def numbers (s : Stamp) : ℕ ×ₗ ℕ ×ₗ ℕ := toLex (s.elapsed, toLex (s.uptime, s.unix))

theorem compareRaw_eq (a b : Stamp) : a.compareRaw b = compare a.numbers b.numbers := rfl

theorem le_iff_numbers_le (h : a.sharedClock? b = none) : a ≤ b ↔ a.numbers ≤ b.numbers := by
  rw [le_def, order, h]
  simp only [compareRaw_eq]
  exact compare_le_iff_le

theorem le_iff_of_sharedClock?_eq_none (h : a.sharedClock? b = none) :
    a ≤ b ↔ a.elapsed < b.elapsed ∨ a.elapsed = b.elapsed ∧
      (a.uptime < b.uptime ∨ a.uptime = b.uptime ∧ a.unix ≤ b.unix) := by
  rw [le_iff_numbers_le h]
  simp only [numbers, Prod.Lex.toLex_le_toLex]

/-- Comparisons that are decided alike can be chained. -/
theorem le_trans_of_sharedClock? {d : Option Clock} (hab : a.sharedClock? b = d)
    (hbc : b.sharedClock? c = d) (hac : a.sharedClock? c = d) (h : a ≤ b) (h' : b ≤ c) : a ≤ c := by
  cases d with
  | some d =>
      rw [le_iff_of_sharedClock?_eq_some hab] at h
      rw [le_iff_of_sharedClock?_eq_some hbc] at h'
      rw [le_iff_of_sharedClock?_eq_some hac]
      exact Nat.le_trans h h'
  | none =>
      rw [le_iff_numbers_le hab] at h
      rw [le_iff_numbers_le hbc] at h'
      rw [le_iff_numbers_le hac]
      exact h.trans h'

end TransitionAudit.Stamp
