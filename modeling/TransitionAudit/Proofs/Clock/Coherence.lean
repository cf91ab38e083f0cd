import TransitionAudit.Proofs.Clock.Order

/-!
# Coherence of the comparison

A comparison is decided by the first clock that was read for both stamps, and by all their numbers in turn if there
is none. It has one of three answers, which is turned round when the stamps change places. Two stamps that share no
clock have the same numbers only if neither has a reading. Comparisons that are decided alike can be chained.
-/

namespace TransitionAudit.Stamp

variable {a b c : Stamp} {d : Clock} {decider : Option Clock}

/-! ## The decider -/

/-- Whether a clock was read for both of two stamps. -/
def Shares (a b : Stamp) (d : Clock) : Prop := a.on d ≠ 0 ∧ b.on d ≠ 0

/-- What decides the comparison of two stamps: the first clock that they share or, written `none`, their numbers
in turn. -/
inductive DecidedBy (a b : Stamp) : Option Clock → Prop
  | clock {d : Clock} (before after : List Clock) (split : Clock.all = before ++ d :: after)
      (shared : a.Shares b d) (first : ∀ e ∈ before, ¬ a.Shares b e) : DecidedBy a b (some d)
  | numbers (unshared : ∀ d, ¬ a.Shares b d) : DecidedBy a b none

theorem shares_iff : (a.on d != 0 && b.on d != 0) = true ↔ a.Shares b d := by
  simp [Shares]

theorem decidedBy_iff : DecidedBy a b decider ↔ a.sharedClock? b = decider := by
  constructor
  · intro h
    cases h with
    | clock before after split shared first =>
        refine List.find?_eq_some_iff_append.mpr ⟨shares_iff.mpr shared, before, after, split, fun e he => ?_⟩
        rw [Bool.not_eq_true', Bool.eq_false_iff, ne_eq, shares_iff]
        exact first e he
    | numbers unshared =>
        exact List.find?_eq_none.mpr fun d _ => mt shares_iff.mp (unshared d)
  · rintro rfl
    cases h : a.sharedClock? b with
    | none => exact .numbers fun d => mt shares_iff.mpr (List.find?_eq_none.mp h d d.mem_all)
    | some d =>
        obtain ⟨shared, before, after, split, first⟩ := List.find?_eq_some_iff_append.mp h
        refine .clock before after split (shares_iff.mp shared) fun e he hshares => ?_
        simpa [shares_iff.mpr hshares] using first e he

/-! ## The answer -/

theorem order_eq_iff {answer : Ordering} :
    a.order b = answer ↔ (∃ d, DecidedBy a b (some d) ∧ compare (a.on d) (b.on d) = answer) ∨
      DecidedBy a b none ∧ compare a.numbers b.numbers = answer := by
  simp only [decidedBy_iff, order, ← compareRaw_eq]
  cases a.sharedClock? b <;> simp

theorem lt_iff :
    a < b ↔ (∃ d, DecidedBy a b (some d) ∧ a.on d < b.on d) ∨ DecidedBy a b none ∧ a.numbers < b.numbers := by
  rw [lt_def, order_eq_iff]
  simp only [compare_lt_iff_lt]

theorem lt_iff_order_eq_gt : a < b ↔ b.order a = .gt := by
  rw [lt_def, ← order_swap a b, Ordering.swap_eq_gt]

/-! ## Stamps that coincide -/

theorem isEmpty_iff {s : Stamp} : s.isEmpty ↔ ∀ d, s.on d = 0 := by
  simp [isEmpty, Clock.mem_all]

theorem numbers_eq_iff : a.numbers = b.numbers ↔ ∀ d, a.on d = b.on d := by
  constructor
  · intro h d
    cases a
    cases b
    cases h
    rfl
  · intro h
    have helapsed : a.elapsed = b.elapsed := h .elapsed
    have huptime : a.uptime = b.uptime := h .uptime
    have hunix : a.unix = b.unix := h .unix
    rw [numbers, numbers, helapsed, huptime, hunix]

/-- A reading that is the same for two stamps is shared by them, so two stamps that share no clock have the same
numbers only without any reading. -/
theorem numbers_eq_iff_isEmpty (h : ∀ d, ¬ a.Shares b d) :
    a.numbers = b.numbers ↔ a.isEmpty ∧ b.isEmpty := by
  rw [numbers_eq_iff, isEmpty_iff, isEmpty_iff]
  constructor
  · intro hsame
    have hzero : ∀ d, a.on d = 0 := by
      intro d
      by_contra hread
      exact h d ⟨hread, hsame d ▸ hread⟩
    exact ⟨hzero, fun d => hsame d ▸ hzero d⟩
  · rintro ⟨ha, hb⟩ d
    rw [ha d, hb d]

theorem coincides_iff :
    a.coincides b ↔ (∃ d, DecidedBy a b (some d) ∧ a.on d = b.on d) ∨
      DecidedBy a b none ∧ a.isEmpty ∧ b.isEmpty := by
  rw [coincides, beq_iff_eq, order_eq_iff]
  simp only [compare_eq_iff_eq]
  refine or_congr_right (and_congr_right fun h => ?_)
  cases h with
  | numbers unshared => exact numbers_eq_iff_isEmpty unshared

/-! ## Coherence -/

theorem count_answers (a b : Stamp) :
    [decide (a < b), a.coincides b, decide (a.order b = .gt)].count true = 1 := by
  simp only [lt_def, coincides]
  cases a.order b <;> rfl

/-- A stamp is before another one exactly if its reading on the deciding clock is less, or its numbers in turn are. The
two coincide exactly if their readings on this clock are the same, or if there is no such clock and neither of them
has a reading. Exactly one of before, coinciding and after holds; a stamp is before another one exactly if the other
one is after it, and at or before it exactly if the other one is not before it. Comparisons with the same decider can
be chained. -/
theorem comparison_coherent (a b c : Stamp) :
    (a < b ↔ (∃ d, DecidedBy a b (some d) ∧ a.on d < b.on d) ∨ DecidedBy a b none ∧ a.numbers < b.numbers) ∧
      (a.coincides b ↔ (∃ d, DecidedBy a b (some d) ∧ a.on d = b.on d) ∨
        DecidedBy a b none ∧ a.isEmpty ∧ b.isEmpty) ∧
      [decide (a < b), a.coincides b, decide (a.order b = .gt)].count true = 1 ∧
      (a < b ↔ b.order a = .gt) ∧ (a ≤ b ↔ ¬ b < a) ∧
      ((∃ decider, DecidedBy a b decider ∧ DecidedBy b c decider ∧ DecidedBy a c decider) →
        a ≤ b → b ≤ c → a ≤ c) := by
  refine ⟨lt_iff, coincides_iff, count_answers a b, lt_iff_order_eq_gt, not_lt.symm, ?_⟩
  rintro ⟨decider, hab, hbc, hac⟩ h h'
  exact le_trans_of_sharedClock? (decidedBy_iff.mp hab) (decidedBy_iff.mp hbc) (decidedBy_iff.mp hac) h h'

def elapsedUptime : Stamp := { elapsed := 50, uptime := 7 }

def uptimeOnly : Stamp := { uptime := 9 }

def uptimeUnix : Stamp := { uptime := 9, unix := 3 }

/-- Stamps of which two share no more than the uptime, although no two of them hold the same clocks. -/
theorem comparison_coherent_uptime :
    (∃ decider, DecidedBy elapsedUptime uptimeOnly decider ∧ DecidedBy uptimeOnly uptimeUnix decider ∧
        DecidedBy elapsedUptime uptimeUnix decider) ∧
      elapsedUptime ≤ uptimeOnly ∧ uptimeOnly ≤ uptimeUnix ∧ elapsedUptime ≤ uptimeUnix := by
  have hdecided : ∃ decider, DecidedBy elapsedUptime uptimeOnly decider ∧
      DecidedBy uptimeOnly uptimeUnix decider ∧ DecidedBy elapsedUptime uptimeUnix decider :=
    ⟨some .uptime, decidedBy_iff.mpr rfl, decidedBy_iff.mpr rfl, decidedBy_iff.mpr rfl⟩
  have hfirst : elapsedUptime ≤ uptimeOnly := by decide
  have hsecond : uptimeOnly ≤ uptimeUnix := by decide
  obtain ⟨-, -, -, -, -, hchain⟩ := comparison_coherent elapsedUptime uptimeOnly uptimeUnix
  exact ⟨hdecided, hfirst, hsecond, hchain hdecided hfirst hsecond⟩

-- with two deciders not even coinciding can be chained
example : elapsedUptime.coincides { uptime := 7 } ∧ coincides { uptime := 7 } { elapsed := 60, uptime := 7 } ∧
    elapsedUptime < { elapsed := 60, uptime := 7 } := by
  decide

end TransitionAudit.Stamp
