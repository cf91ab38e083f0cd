import TransitionAudit.Json.Printer
import TransitionAudit.Json.Reader
import Mathlib

/-!
# Integers written and read

An integer that is written comes back when it is read, unless it has too many digits; one that is read has
no more digits than are written.
-/

namespace TransitionAudit.Json

/-- Whether a text does not go on with a number that stands before it. -/
def EndsNumber (rest : List Char) : Prop :=
  ∀ c ∈ rest.head?, c.isDigit = false ∧ c ≠ '.' ∧ c ≠ 'e' ∧ c ≠ 'E'

theorem digitSpan_append {ds rest : List Char} (hds : ∀ c ∈ ds, c.isDigit = true)
    (hrest : ∀ c ∈ rest.head?, c.isDigit = false) : digitSpan (ds ++ rest) = (ds, rest) := by
  unfold digitSpan
  rw [List.span_eq_takeWhile_dropWhile, List.takeWhile_append_of_pos hds, List.dropWhile_append_of_pos hds]
  cases rest with
  | nil => simp
  | cons c rest =>
      have hc := hrest c rfl
      simp [hc]

theorem isDigit_of_mem_digitSpan {s : List Char} {c : Char} (h : c ∈ (digitSpan s).1) : c.isDigit = true := by
  rw [digitSpan, List.span_eq_takeWhile_dropWhile] at h
  exact List.mem_takeWhile_imp h

theorem isDigit_of_mem_toDigits {n : Nat} : ∀ c ∈ Nat.toDigits 10 n, c.isDigit = true :=
  fun _ hc => Nat.isDigit_of_mem_toDigits (by decide) (by decide) hc

/-- Only zero is written with a zero in front. -/
theorem head?_toDigits_ne_zero {n : Nat} (h : 0 < n) : (Nat.toDigits 10 n).head? ≠ some '0' := by
  induction n using Nat.strongRecOn with
  | ind n ih =>
      by_cases hlt : n < 10
      · have hdigits : ∀ d < 10, 0 < d → Nat.digitChar d ≠ '0' := by decide
        rw [Nat.toDigits_of_lt_base hlt, List.head?_cons, Ne, Option.some.injEq]
        exact hdigits n hlt h
      · have hge : 10 ≤ n := Nat.le_of_not_lt hlt
        rw [Nat.toDigits_of_base_le (by decide) hge, List.head?_append]
        have hhead := ih (n / 10) (by omega) (by omega)
        cases hfront : (Nat.toDigits 10 (n / 10)).head? with
        | none => exact absurd (List.head?_eq_none_iff.mp hfront) Nat.toDigits_ne_nil
        | some c => rwa [hfront] at hhead

theorem wholePart_toDigits (n : Nat) {rest : List Char} (hrest : ∀ c ∈ rest.head?, c.isDigit = false) :
    wholePart (Nat.toDigits 10 n ++ rest) = some (Nat.toDigits 10 n, rest) := by
  by_cases hn : n = 0
  · subst hn
    rfl
  · have hhead := head?_toDigits_ne_zero (Nat.pos_of_ne_zero hn)
    have hspan := digitSpan_append (isDigit_of_mem_toDigits (n := n)) hrest
    cases hds : Nat.toDigits 10 n with
    | nil => exact absurd hds Nat.toDigits_ne_nil
    | cons d ds =>
        rw [hds] at hhead hspan
        unfold wholePart
        split
        · rename_i heq
          simp only [List.cons_append, List.cons.injEq] at heq
          simp [heq.1] at hhead
        · rw [hspan]

theorem fractionPart_of_endsNumber {rest : List Char} (h : EndsNumber rest) :
    fractionPart rest = ([], rest) := by
  unfold fractionPart
  split
  · exact absurd rfl (h _ rfl).2.1
  · rfl

theorem exponentPart_of_endsNumber {rest : List Char} (h : EndsNumber rest) :
    exponentPart rest = (none, rest) := by
  unfold exponentPart
  split
  · obtain ⟨-, -, hlower, hupper⟩ := h _ rfl
    simp [hlower, hupper]
  · rfl

theorem isWritable_iff {i : Int} : Numeral.isWritable i = true ↔ i.natAbs < 10 ^ Numeral.maxDigits := by
  rw [Numeral.isWritable, decide_eq_true_eq, Nat.pow_eq]

theorem length_toDigits_le {n : Nat} (h : n < 10 ^ Numeral.maxDigits) :
    (Nat.toDigits 10 n).length ≤ Numeral.maxDigits :=
  (Nat.length_toDigits_le_iff (by decide) (by decide)).mpr h

theorem number_toDigits (negative : Bool) {n : Nat} (hn : n < 10 ^ Numeral.maxDigits) {rest : List Char}
    (hrest : EndsNumber rest) :
    number negative (Nat.toDigits 10 n ++ rest) = .ok (.int (if negative then -(n : Int) else n), rest) := by
  have hvalue : digitsValue (Nat.toDigits 10 n) = n := Nat.ofDigitChars_toDigits (by decide) (by decide)
  have hlength := Nat.not_lt.mpr (length_toDigits_le hn)
  simp only [number, wholePart_toDigits n fun c hc => (hrest c hc).1, fractionPart_of_endsNumber hrest,
    exponentPart_of_endsNumber hrest, hvalue, hlength, List.isEmpty_nil, Option.isNone_none, Bool.and_self,
    ↓reduceIte]

theorem scalar_of_isDigit {c : Char} (hc : c.isDigit = true) (s : List Char) :
    scalar (c :: s) = some (number false (c :: s)) := by
  unfold scalar
  split <;> simp_all

theorem scalar_minus {c : Char} (hc : c.isDigit = true) (s : List Char) :
    scalar ('-' :: c :: s) = some (number true (c :: s)) := by
  unfold scalar
  split <;> simp_all

theorem exists_cons_toDigits (n : Nat) : ∃ d ds, Nat.toDigits 10 n = d :: ds ∧ d.isDigit = true := by
  obtain ⟨d, ds, hds⟩ := List.exists_cons_of_ne_nil (Nat.toDigits_ne_nil (n := n) (b := 10))
  exact ⟨d, ds, hds, isDigit_of_mem_toDigits d (hds ▸ List.mem_cons_self)⟩

theorem toChars_int_ofNat (n : Nat) : (Numeral.int (.ofNat n)).toChars = Nat.toDigits 10 n :=
  Text.toChars_ofChars _

theorem toChars_int_negSucc (n : Nat) :
    (Numeral.int (.negSucc n)).toChars = '-' :: Nat.toDigits 10 (n + 1) := by
  simp [Numeral.int, Numeral.nat, Text.toChars, Text.ofString, Text.ofChars, CodePoint.shown,
    Function.comp_def]

/-- An integer is read from the text that is written for it. -/
theorem scalar_int {i : Int} (h : Numeral.isWritable i = true) {rest : List Char} (hrest : EndsNumber rest) :
    scalar ((Numeral.int i).toChars ++ rest) = some (.ok (.int i, rest)) := by
  rw [isWritable_iff] at h
  cases i with
  | ofNat n =>
      have hnumber := number_toDigits false (n := n) h hrest
      obtain ⟨d, ds, hds, hd⟩ := exists_cons_toDigits n
      rw [toChars_int_ofNat]
      rw [hds] at hnumber ⊢
      rw [List.cons_append, scalar_of_isDigit hd]
      exact congrArg some hnumber
  | negSucc n =>
      have hnumber := number_toDigits true (n := n + 1) h hrest
      obtain ⟨d, ds, hds, hd⟩ := exists_cons_toDigits (n + 1)
      rw [toChars_int_negSucc]
      rw [hds] at hnumber ⊢
      rw [List.cons_append, List.cons_append, scalar_minus hd]
      exact congrArg some hnumber

/-! ## Integers that are read -/

theorem ofDigitChars_lt {ds : List Char} (h : ∀ c ∈ ds, c.isDigit = true) (init : Nat) :
    Nat.ofDigitChars 10 ds init < (init + 1) * 10 ^ ds.length := by
  induction ds generalizing init with
  | nil => simp
  | cons d ds ih =>
      obtain ⟨hd, hds⟩ := List.forall_mem_cons.mp h
      have hdigit : d.toNat - '0'.toNat < 10 := by
        have hnine : '0'.toNat = 48 := rfl
        simp only [Char.isDigit, Bool.and_eq_true, decide_eq_true_eq, ge_iff_le, UInt32.le_iff_toNat_le] at hd
        have hle : d.toNat ≤ 57 := hd.2
        omega
      calc Nat.ofDigitChars 10 (d :: ds) init
          = Nat.ofDigitChars 10 ds (10 * init + (d.toNat - '0'.toNat)) := Nat.ofDigitChars_cons
        _ < (10 * init + (d.toNat - '0'.toNat) + 1) * 10 ^ ds.length := ih hds _
        _ ≤ (10 * (init + 1)) * 10 ^ ds.length := Nat.mul_le_mul_right _ (by omega)
        _ = (init + 1) * 10 ^ (d :: ds).length := by
            rw [List.length_cons, Nat.pow_succ', ← Nat.mul_assoc, Nat.mul_comm 10]

theorem isDigit_of_wholePart {s whole rest : List Char} (h : wholePart s = some (whole, rest)) :
    ∀ c ∈ whole, c.isDigit = true := by
  unfold wholePart at h
  split at h
  · cases h
    exact List.forall_mem_singleton.mpr rfl
  · split at h
    · cases h
    · rename_i hspan
      cases h
      intro c hc
      refine isDigit_of_mem_digitSpan (s := s) ?_
      rwa [hspan]

theorem isWritable_of_number {negative : Bool} {s rest : List Char} {i : Int}
    (h : number negative s = .ok (.int i, rest)) : Numeral.isWritable i = true := by
  unfold number at h
  cases hwhole : wholePart s with
  | none => simp [hwhole] at h
  | some read =>
      obtain ⟨whole, after⟩ := read
      have hlt := ofDigitChars_lt (isDigit_of_wholePart hwhole) 0
      simp only [hwhole] at h
      split at h
      · split at h
        · cases h
        · rename_i hlength
          simp only [Except.ok.injEq, Prod.mk.injEq, Json.int.injEq] at h
          have habs : i.natAbs = digitsValue whole := by
            rw [← h.1]
            cases negative <;> simp
          have hmono : 10 ^ whole.length ≤ 10 ^ Numeral.maxDigits :=
            Nat.pow_le_pow_right (by decide) (Nat.not_lt.mp hlength)
          rw [Nat.zero_add, Nat.one_mul] at hlt
          rw [isWritable_iff, habs]
          exact Nat.lt_of_lt_of_le hlt hmono
      · cases h

end TransitionAudit.Json
