import TransitionAudit.Clock.Reading
import TransitionAudit.Proofs.Clock.Order
import TransitionAudit.Proofs.Trace.FullRow

/-!
# The bounds of stamps

A stamp can have any readings. The stamp without readings is at or before all others. The greatest stamp is at or
after those whose first reading is a signed 64-bit number, and no stamp is at or after all of them.
-/

namespace TransitionAudit.Stamp

/-- The first clock that was read. -/
def firstClock? (s : Stamp) : Option Clock := Clock.all.find? fun c => s.on c != 0

/-- The greatest signed 64-bit number. -/
def maxReading : Nat := 0x7fffffffffffffff

theorem on_greatest (c : Clock) : greatest.on c = maxReading := by cases c <;> rfl

theorem on_least (c : Clock) : least.on c = 0 := by cases c <;> rfl

theorem on_eq_zero_of_firstClock? {s : Stamp} (h : s.firstClock? = none) (c : Clock) : s.on c = 0 := by
  have hc := List.find?_eq_none.mp h c c.mem_all
  simpa using hc

/-! ## Both ends -/

theorem sharedClock?_least (s : Stamp) : least.sharedClock? s = none :=
  List.find?_eq_none.mpr fun c _ => by simp [on_least]

theorem least_le (s : Stamp) : least ≤ s := by
  rw [le_iff_of_sharedClock?_eq_none (sharedClock?_least s)]
  simp only [least]
  omega

/-- Every clock of the greatest stamp is read, so the first reading of the other one decides. -/
theorem sharedClock?_greatest (s : Stamp) : s.sharedClock? greatest = s.firstClock? := by
  simp [sharedClock?, firstClock?, on_greatest, maxReading]

theorem le_greatest_iff {s : Stamp} : s ≤ greatest ↔ ∀ c ∈ s.firstClock?, s.on c ≤ maxReading := by
  have hshared := sharedClock?_greatest s
  cases hfirst : s.firstClock? with
  | none =>
      rw [le_iff_of_sharedClock?_eq_none (hshared.trans hfirst)]
      have helapsed : s.elapsed = 0 := on_eq_zero_of_firstClock? hfirst .elapsed
      simp [helapsed, greatest]
  | some c =>
      rw [le_iff_of_sharedClock?_eq_some (hshared.trans hfirst), on_greatest]
      simp

theorem exists_gt (s : Stamp) : ∃ later, s < later := by
  refine ⟨{ elapsed := s.elapsed + 1 }, ?_⟩
  rw [← not_le]
  by_cases h : s.elapsed = 0
  · have hshared : sharedClock? { elapsed := s.elapsed + 1 } s = none := by
      simp [sharedClock?, Clock.all, on, h]
    rw [le_iff_of_sharedClock?_eq_none hshared]
    simp only
    omega
  · have hshared : sharedClock? { elapsed := s.elapsed + 1 } s = some .elapsed := by
      simp [sharedClock?, Clock.all, on, h]
    rw [le_iff_of_sharedClock?_eq_some hshared]
    simp only [on]
    omega

/-! ## Readings of any size -/

theorem reading_toMembers (s : Stamp) (c : Clock) : reading s.toMembers c = .ok (s.on c) := by
  by_cases h : s.on c = 0
  · simp [reading, find?_toMembers, h]
  · rw [reading, find?_toMembers, if_neg h]

theorem ofMembers_toMembers (s : Stamp) : ofMembers s.toMembers = .ok s := by
  simp only [ofMembers, reading_toMembers]
  rfl

/-- Every stamp can be built from its readings and be read from a row, whatever their size. It is at or after the least
stamp, and at or before the greatest one exactly if its first reading is a signed 64-bit number. No stamp could take
the place of the greatest one for all, since after every stamp there is a later one. -/
theorem bounds_exact (s : Stamp) :
    (ofMembers s.toMembers = .ok s ∧ ∀ field, Row.stamp field s.toJson = .ok s) ∧
      least ≤ s ∧ (s ≤ greatest ↔ ∀ c ∈ s.firstClock?, s.on c ≤ maxReading) ∧ ∃ later, s < later :=
  ⟨⟨ofMembers_toMembers s, fun _ => Row.stamp_eq_ok_iff.mpr s.isStamp_toJson⟩, least_le s, le_greatest_iff,
    exists_gt s⟩

/-- A stamp whose only reading is one nanosecond more than the greatest signed 64-bit number. -/
def lateStamp : Stamp := { elapsed := 0x8000000000000000 }

/-- A stamp that is built from a number, and read from a row with it, can be after the greatest one. -/
theorem lateStamp_not_le_greatest :
    ofMembers [("elapsed_nanos", .int 9223372036854775808)] = .ok lateStamp ∧
      Row.stamp "timestamp" (.int 9223372036854775808) = .ok lateStamp ∧ ¬ lateStamp ≤ greatest :=
  ⟨rfl, rfl, by decide⟩

end TransitionAudit.Stamp
