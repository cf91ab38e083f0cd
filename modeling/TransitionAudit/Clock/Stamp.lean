import TransitionAudit.Number.Numeral

/-!
# Time stamps

A stamp gives nanoseconds on up to three clocks; zero means that the clock was not read. Two stamps
are compared on the first clock read for both, and on all three numbers in turn if there is none.
Since the deciding clock depends on the pair, the order is not transitive across different clocks.
-/

namespace TransitionAudit

inductive Clock
  /-- Time since boot, running on in sleep. -/
  | elapsed
  /-- Time since boot, standing still in sleep. -/
  | uptime
  /-- Wall-clock time. -/
  | unix
  deriving DecidableEq, Repr

namespace Clock

/-- The clocks in the order in which they decide a comparison. -/
def all : List Clock := [.elapsed, .uptime, .unix]

/-- The name of a clock in recordings. -/
def key : Clock → Text
  | .elapsed => "elapsed_nanos"
  | .uptime => "system_uptime_nanos"
  | .unix => "unix_nanos"

/-- The name of a clock in the text of a stamp. -/
def label : Clock → Text
  | .elapsed => "elapsed"
  | .uptime => "uptime"
  | .unix => "unix"

theorem mem_all (c : Clock) : c ∈ all := by cases c <;> decide

end Clock

/-- Nanoseconds on each clock, zero for a clock that was not read. -/
structure Stamp where
  elapsed : Nat := 0
  uptime : Nat := 0
  unix : Nat := 0
  deriving DecidableEq, Repr, Inhabited

namespace Stamp

def on (s : Stamp) : Clock → Nat
  | .elapsed => s.elapsed
  | .uptime => s.uptime
  | .unix => s.unix

/-- A stamp that holds no clock. -/
def least : Stamp := {}

/-- All three clocks at the greatest signed 64-bit number. -/
def greatest : Stamp := ⟨0x7fffffffffffffff, 0x7fffffffffffffff, 0x7fffffffffffffff⟩

def isEmpty (s : Stamp) : Bool := Clock.all.all fun c => s.on c == 0

/-! ## Order -/

/-- The first clock read for both stamps. -/
def sharedClock? (a b : Stamp) : Option Clock :=
  Clock.all.find? fun c => a.on c != 0 && b.on c != 0

/-- The comparison of all three numbers in turn. -/
def compareRaw (a b : Stamp) : Ordering :=
  (compare a.elapsed b.elapsed).then
    ((compare a.uptime b.uptime).then (compare a.unix b.unix))

/-- The comparison of two stamps: on the clock they share, else on the raw numbers. -/
def order (a b : Stamp) : Ordering :=
  match a.sharedClock? b with
  | some c => compare (a.on c) (b.on c)
  | none => a.compareRaw b

instance : LT Stamp := ⟨fun a b => a.order b = .lt⟩

instance : LE Stamp := ⟨fun a b => a.order b ≠ .gt⟩

instance (a b : Stamp) : Decidable (a < b) := inferInstanceAs (Decidable (a.order b = .lt))

instance (a b : Stamp) : Decidable (a ≤ b) := inferInstanceAs (Decidable (a.order b ≠ .gt))

/-- Whether the comparison cannot tell two stamps apart; they may still differ in a clock. -/
def coincides (a b : Stamp) : Bool := a.order b == .eq

theorem lt_def {a b : Stamp} : a < b ↔ a.order b = .lt := Iff.rfl

theorem le_def {a b : Stamp} : a ≤ b ↔ a.order b ≠ .gt := Iff.rfl

theorem compareRaw_swap (a b : Stamp) : (a.compareRaw b).swap = b.compareRaw a := by
  simp only [compareRaw, Ordering.swap_then]
  rw [Nat.compare_swap, Nat.compare_swap, Nat.compare_swap]

theorem sharedClock?_comm (a b : Stamp) : a.sharedClock? b = b.sharedClock? a := by
  simp only [sharedClock?, Bool.and_comm]

theorem order_swap (a b : Stamp) : (a.order b).swap = b.order a := by
  unfold order
  rw [sharedClock?_comm b a]
  cases a.sharedClock? b with
  | none => exact compareRaw_swap a b
  | some c => exact Nat.compare_swap _ _

theorem not_lt {a b : Stamp} : ¬ a < b ↔ b ≤ a := by
  rw [lt_def, le_def, ← order_swap a b]
  cases a.order b <;> decide

/-! ## Text -/

/-- The clocks that were read, or `<empty>`. -/
def text (s : Stamp) : Text :=
  let read := Clock.all.filter fun c => s.on c != 0
  if read.isEmpty then "<empty>"
  else List.intercalate " " (read.map fun c => c.label ++ "=" ++ Numeral.nat (s.on c) ++ "ns")

end Stamp

end TransitionAudit
