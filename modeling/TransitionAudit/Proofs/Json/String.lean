import TransitionAudit.Json.Printer
import TransitionAudit.Json.Reader
import TransitionAudit.Proofs.Text.Order
import Mathlib

/-!
# Strings written and read

A string that is written comes back when it is read, whatever code points it holds, unless a high surrogate
stands right before a low one: as escapes these two are one character. No string that is read has them so.
-/

namespace TransitionAudit.Json

/-! ## Code units -/

theorem pointOf_number (p : CodePoint) : pointOf p.number = p := by
  rw [pointOf, p.ofNumber?_number, Option.getD_some]

theorem number_pointOf {n : Nat} (h : n < 0x110000) : (pointOf n).number = n := by
  unfold pointOf CodePoint.ofNumber?
  by_cases hvalid : n.isValidChar
  · simp [hvalid, CodePoint.number, Char.ofNat, Char.ofNatAux, Char.toNat, UInt32.toNat]
  · have hsurrogate : CodePoint.firstSurrogate ≤ n ∧ n - CodePoint.firstSurrogate < 0x800 := by
      simp only [Nat.isValidChar] at hvalid
      simp only [CodePoint.firstSurrogate]
      omega
    simp only [hvalid, ↓reduceIte, hsurrogate, and_self, ↓reduceDIte, Option.getD_some, CodePoint.number]
    omega

theorem pointOf_of_ge {n : Nat} (h : 0x110000 ≤ n) : pointOf n = '\ufffd' := by
  have hvalid : ¬ n.isValidChar := by
    simp only [Nat.isValidChar]
    omega
  have hsurrogate : ¬ (CodePoint.firstSurrogate ≤ n ∧ n - CodePoint.firstSurrogate < 0x800) := by
    simp only [CodePoint.firstSurrogate]
    omega
  simp only [pointOf, CodePoint.ofNumber?, hvalid, ↓reduceIte, hsurrogate, ↓reduceDIte, Option.getD_none]

theorem isHighSurrogate_iff {n : Nat} : isHighSurrogate n = true ↔ 0xd800 ≤ n ∧ n ≤ 0xdbff := by
  simp [isHighSurrogate]

theorem isLowSurrogate_iff {n : Nat} : isLowSurrogate n = true ↔ 0xdc00 ≤ n ∧ n ≤ 0xdfff := by
  simp [isLowSurrogate]

/-- A code point has the number of the unit it is read from, if that is a surrogate on either side. -/
theorem number_pointOf_cases (n : Nat) :
    (pointOf n).number = n ∨ 0x110000 ≤ n ∧ (pointOf n).number = 0xfffd := by
  by_cases h : n < 0x110000
  · exact .inl (number_pointOf h)
  · have hge : 0x110000 ≤ n := Nat.le_of_not_lt h
    exact .inr ⟨hge, by rw [pointOf_of_ge hge]; rfl⟩

/-- Whether two code points are a high and a low surrogate. -/
def IsSplit (p q : CodePoint) : Prop := isHighSurrogate p.number = true ∧ isLowSurrogate q.number = true

/-- Whether no character of a text stands there as its two surrogates. -/
def Joined (s : Text) : Prop := s.IsChain fun p q => ¬ IsSplit p q

theorem joinUnits_cons {n : Nat} {rest : List Nat}
    (h : ∀ low ∈ rest.head?, ¬ (isHighSurrogate n = true ∧ isLowSurrogate low = true)) :
    joinUnits (n :: rest) = pointOf n :: joinUnits rest := by
  cases rest with
  | nil => rfl
  | cons low rest =>
      have hpair := h low rfl
      rw [← Bool.and_eq_true] at hpair
      rw [joinUnits, if_neg hpair]

theorem joinUnits_pair {high low : Nat} (hhigh : isHighSurrogate high = true)
    (hlow : isLowSurrogate low = true) (rest : List Nat) :
    joinUnits (high :: low :: rest) =
      pointOf (0x10000 + (high - 0xd800) * 0x400 + (low - 0xdc00)) :: joinUnits rest := by
  rw [joinUnits, if_pos (by rw [hhigh, hlow]; rfl)]

/-- The code units that a code point is written with. -/
def unitsOf : CodePoint → List Nat
  | .char c =>
    if c.toNat < 0x10000 then [c.toNat]
    else [0xd800 + (c.toNat - 0x10000) / 0x400, 0xdc00 + (c.toNat - 0x10000) % 0x400]
  | .surrogate n => [(CodePoint.surrogate n).number]

theorem toNat_lt (c : Char) : c.toNat < 0xd800 ∨ 0xdfff < c.toNat ∧ c.toNat < 0x110000 := c.valid

/-- A text whose first unit is a low surrogate starts with it. -/
theorem head?_flatMap_unitsOf {s : Text} {low : Nat} (h : (s.flatMap unitsOf).head? = some low)
    (hlow : isLowSurrogate low = true) : ∃ q, s.head? = some q ∧ isLowSurrogate q.number = true := by
  rw [isLowSurrogate_iff] at hlow
  cases s with
  | nil => simp at h
  | cons q s =>
      refine ⟨q, rfl, isLowSurrogate_iff.mpr ?_⟩
      cases q with
      | char c =>
          have hrange := toNat_lt c
          simp only [List.flatMap_cons, unitsOf] at h
          split at h
          · simp only [List.cons_append, List.head?_cons, Option.some.injEq] at h
            omega
          · simp only [List.cons_append, List.head?_cons, Option.some.injEq] at h
            omega
      | surrogate n =>
          simp only [List.flatMap_cons, unitsOf, List.cons_append, List.head?_cons, Option.some.injEq] at h
          exact h ▸ hlow

theorem joinUnits_flatMap_unitsOf {s : Text} (h : Joined s) : joinUnits (s.flatMap unitsOf) = s := by
  induction s with
  | nil => rfl
  | cons p s ih =>
      have hrest := ih h.tail
      have hsingle : ∀ n, pointOf n = p → n = p.number → unitsOf p = [n] →
          joinUnits ((p :: s).flatMap unitsOf) = p :: s := by
        intro n hpoint hnumber hunits
        rw [List.flatMap_cons, hunits, List.singleton_append, joinUnits_cons, hpoint, hrest]
        rintro low hlow ⟨hhigh, hlow'⟩
        obtain ⟨q, hq, hqlow⟩ := head?_flatMap_unitsOf hlow hlow'
        exact h.rel_head? hq ⟨hnumber ▸ hhigh, hqlow⟩
      cases p with
      | surrogate n => exact hsingle _ (pointOf_number _) rfl rfl
      | char c =>
          by_cases hc : c.toNat < 0x10000
          · exact hsingle c.toNat (pointOf_number (.char c)) rfl (by simp [unitsOf, hc])
          · have hrange := toNat_lt c
            have hhigh : isHighSurrogate (0xd800 + (c.toNat - 0x10000) / 0x400) = true := by
              rw [isHighSurrogate_iff]
              omega
            have hlow : isLowSurrogate (0xdc00 + (c.toNat - 0x10000) % 0x400) = true := by
              rw [isLowSurrogate_iff]
              omega
            have hjoin : 0x10000 + (0xd800 + (c.toNat - 0x10000) / 0x400 - 0xd800) * 0x400 +
                (0xdc00 + (c.toNat - 0x10000) % 0x400 - 0xdc00) = c.toNat := by omega
            simp only [List.flatMap_cons, unitsOf, hc, ↓reduceIte, List.cons_append, List.nil_append]
            rw [joinUnits_pair hhigh hlow, hrest, hjoin]
            exact congrArg (· :: s) (pointOf_number (.char c))

/-! ## Strings that are read -/

theorem isHighSurrogate_pointOf (n : Nat) : isHighSurrogate (pointOf n).number = isHighSurrogate n := by
  rw [Bool.eq_iff_iff, isHighSurrogate_iff, isHighSurrogate_iff]
  rcases number_pointOf_cases n with h | ⟨hge, h⟩ <;> omega

theorem isLowSurrogate_pointOf (n : Nat) : isLowSurrogate (pointOf n).number = isLowSurrogate n := by
  rw [Bool.eq_iff_iff, isLowSurrogate_iff, isLowSurrogate_iff]
  rcases number_pointOf_cases n with h | ⟨hge, h⟩ <;> omega

/-- The character of two surrogates is none itself. -/
theorem not_isSurrogate_of_ge {n : Nat} (h : 0x10000 ≤ n) :
    isHighSurrogate n = false ∧ isLowSurrogate n = false := by
  rw [← Bool.not_eq_true, ← Bool.not_eq_true, isHighSurrogate_iff, isLowSurrogate_iff]
  omega

/-- A text that starts with a low surrogate is read from units that do. -/
theorem isLowSurrogate_of_head?_joinUnits {units : List Nat} {q : CodePoint}
    (h : (joinUnits units).head? = some q) (hlow : isLowSurrogate q.number = true) :
    ∃ low, units.head? = some low ∧ isLowSurrogate low = true := by
  cases units with
  | nil => simp [joinUnits] at h
  | cons n rest =>
      refine ⟨n, rfl, ?_⟩
      by_cases hpair : ∃ low ∈ rest.head?, isHighSurrogate n = true ∧ isLowSurrogate low = true
      · obtain ⟨low, hhead, hhigh, hlow'⟩ := hpair
        obtain ⟨rest, rfl⟩ := List.head?_eq_some_iff.mp hhead
        rw [joinUnits_pair hhigh hlow', List.head?_cons, Option.some.injEq] at h
        rw [← h, isLowSurrogate_pointOf, (not_isSurrogate_of_ge (by omega)).2] at hlow
        exact absurd hlow Bool.false_ne_true
      · rw [joinUnits_cons fun low hl hboth => hpair ⟨low, hl, hboth⟩, List.head?_cons, Option.some.injEq] at h
        rwa [← h, isLowSurrogate_pointOf] at hlow

theorem joinUnits_joined (units : List Nat) : Joined (joinUnits units) := by
  induction units using joinUnits.induct with
  | case1 => exact .nil
  | case2 n => exact .singleton _
  | case3 high low rest hpair ih =>
      rw [Bool.and_eq_true] at hpair
      rw [joinUnits_pair hpair.1 hpair.2]
      refine List.IsChain.cons ih fun q hq hsplit => ?_
      have hge : 0x10000 ≤ 0x10000 + (high - 0xd800) * 0x400 + (low - 0xdc00) := by omega
      have hnone := (not_isSurrogate_of_ge hge).1
      rw [← isHighSurrogate_pointOf, hsplit.1] at hnone
      exact absurd hnone.symm Bool.false_ne_true
  | case4 high low rest hpair ih =>
      -- what follows is read from `low` on, which is no second half of a pair here
      have hne : ∀ l ∈ (low :: rest).head?, ¬ (isHighSurrogate high = true ∧ isLowSurrogate l = true) := by
        rintro _ ⟨⟩
        rwa [← Bool.and_eq_true]
      rw [joinUnits_cons hne]
      refine List.IsChain.cons ih fun q hq hsplit => ?_
      obtain ⟨l, hl, hlow⟩ := isLowSurrogate_of_head?_joinUnits hq hsplit.2
      exact hne l hl ⟨isHighSurrogate_pointOf high ▸ hsplit.1, hlow⟩

theorem stringBody_joined {s rest : List Char} {t : Text} (h : stringBody s = .ok (t, rest)) : Joined t := by
  unfold stringBody at h
  cases hunits : stringUnits s with
  | error fault => simp [hunits, Except.map] at h
  | ok read =>
      simp only [hunits, Except.map, Except.ok.injEq, Prod.mk.injEq] at h
      exact h.1 ▸ joinUnits_joined _

/-! ## Escapes -/

theorem hexValue?_hexDigit (n : Nat) : Text.hexValue? (Text.hexDigit n) = some (n % 16) := by
  have hdigits : ∀ d < 16, Text.hexValue? (Nat.digitChar d) = some d := by decide
  exact hdigits _ (Nat.mod_lt n (by decide))

theorem number?_hex (width n : Nat) : Text.number? 16 (Text.hex width n) = some (n % 16 ^ width) := by
  induction width generalizing n with
  | zero => simp [Text.hex, Text.number?, Nat.mod_one]
  | succ width ih =>
      have hprefix := ih (n / 16)
      unfold Text.number? at hprefix ⊢
      have hdigit : n % 16 < 16 := Nat.mod_lt n (by decide)
      rw [Text.hex, List.foldl_append, hprefix]
      simp only [List.foldl_cons, List.foldl_nil, hexValue?_hexDigit, hdigit, bind, Option.bind, ↓reduceIte,
        pure]
      rw [Nat.pow_succ', Nat.mod_mul, Nat.add_comm, Nat.mul_comm]

section
variable {tail rest : List Char} {units : List Nat}

theorem stringUnits_unitEscape {n : Nat} (hn : n < 0x10000) (h : stringUnits tail = .ok (units, rest)) :
    stringUnits (unitEscape n ++ tail) = .ok (n :: units, rest) := by
  have hnumber : Text.number? 16 (Text.hex 4 n) = some n := by
    rw [number?_hex]
    exact congrArg some (Nat.mod_eq_of_lt hn)
  have hopen : tail.isEmpty = false := by
    cases tail with
    | nil => simp [stringUnits] at h
    | cons c tail => rfl
  obtain ⟨a, b, c, d, hhex⟩ : ∃ a b c d, Text.hex 4 n = [a, b, c, d] := ⟨_, _, _, _, rfl⟩
  rw [hhex] at hnumber
  simp only [unitEscape, hhex, List.cons_append, List.nil_append]
  rw [stringUnits, hnumber, hopen, h]
  rfl

theorem stringUnits_escape {c x : Char} (hc : c ≠ 'u') (hx : escaped? c = some x)
    (h : stringUnits tail = .ok (units, rest)) :
    stringUnits ('\\' :: c :: tail) = .ok (x.toNat :: units, rest) := by
  rw [stringUnits, if_neg hc, hx]
  · simp only [h, prepend]
  · intro _ _ _ _ _ heq
    exact absurd heq hc

theorem stringUnits_plain {c : Char} (hquote : c ≠ '"') (hslash : c ≠ '\\') (hcontrol : 0x20 ≤ c.toNat)
    (h : stringUnits tail = .ok (units, rest)) : stringUnits (c :: tail) = .ok (c.toNat :: units, rest) := by
  rw [stringUnits, if_neg (Nat.not_lt.mpr hcontrol), h]
  · rfl
  all_goals simp_all

/-- A character is read from its escape. -/
theorem stringUnits_escapePoint (p : CodePoint) (h : stringUnits tail = .ok (units, rest)) :
    stringUnits (escapePoint p ++ tail) = .ok (unitsOf p ++ units, rest) := by
  cases p with
  | surrogate n =>
      have hn : (CodePoint.surrogate n).number < 0x10000 := by
        simp only [CodePoint.number, CodePoint.firstSurrogate]
        omega
      exact stringUnits_unitEscape hn h
  | char c =>
      have hrange := toNat_lt c
      have hsingle : ∀ {e x : Char}, c = x → e ≠ 'u' → escaped? e = some x → x.toNat < 0x10000 →
          stringUnits ('\\' :: e :: tail) = .ok (unitsOf (.char c) ++ units, rest) := by
        rintro e x rfl he hx hsmall
        rw [stringUnits_escape he hx h]
        simp [unitsOf, hsmall]
      simp only [escapePoint, escapeChar]
      split_ifs with hquote hslash hline hreturn htab hback hfeed hplain hsmall
      · exact hsingle hquote (by decide) rfl (by decide)
      · exact hsingle hslash (by decide) rfl (by decide)
      · exact hsingle hline (by decide) rfl (by decide)
      · exact hsingle hreturn (by decide) rfl (by decide)
      · exact hsingle htab (by decide) rfl (by decide)
      · exact hsingle hback (by decide) rfl (by decide)
      · exact hsingle hfeed (by decide) rfl (by decide)
      · rw [Bool.and_eq_true, decide_eq_true_eq, decide_eq_true_eq] at hplain
        have hsmall : c.toNat < 0x10000 := by omega
        rw [List.singleton_append, stringUnits_plain hquote hslash hplain.1 h]
        simp [unitsOf, hsmall]
      · rw [stringUnits_unitEscape hsmall h]
        simp [unitsOf, hsmall]
      · rw [List.append_assoc, stringUnits_unitEscape (by omega) (stringUnits_unitEscape (by omega) h)]
        simp [unitsOf, hsmall]

end

/-- A string is read from the text that is written for it. -/
theorem stringBody_escapes {s : Text} (h : Joined s) (rest : List Char) :
    stringBody (s.flatMap escapePoint ++ '"' :: rest) = .ok (s, rest) := by
  have hunits : ∀ s : Text,
      stringUnits (s.flatMap escapePoint ++ '"' :: rest) = .ok (s.flatMap unitsOf, rest) := by
    intro s
    induction s with
    | nil => rfl
    | cons p s ih =>
        rw [List.flatMap_cons, List.append_assoc, stringUnits_escapePoint p ih]
        rfl
  simp only [stringBody, hunits, Except.map, joinUnits_flatMap_unitsOf h]

end TransitionAudit.Json
