import TransitionAudit.Number.Numeral
import TransitionAudit.Proofs.Data.Split
import TransitionAudit.Text.Style
import TransitionAudit.Text.Utf8

/-!
# Texts that have octets

A text has octets unless it holds a surrogate. Texts that are put together from such texts, from strings and from
numerals have octets as well.
-/

namespace TransitionAudit

namespace Text

def HasOctets (t : Text) : Prop := ∀ p ∈ t, p.isSurrogate = false

@[simp] theorem hasOctets_nil : HasOctets [] := by simp [HasOctets]

@[simp] theorem hasOctets_append {s t : Text} : HasOctets (s ++ t) ↔ HasOctets s ∧ HasOctets t :=
  List.forall_mem_append

@[simp] theorem hasOctets_ofChars (s : List Char) : HasOctets (ofChars s) := by
  intro p hp
  obtain ⟨c, -, rfl⟩ := List.mem_map.mp hp
  rfl

@[simp] theorem hasOctets_ofString (s : String) : HasOctets (ofString s) := hasOctets_ofChars _

@[simp] theorem hasOctets_quote (t : Text) : HasOctets (quote t) := hasOctets_ofChars _

@[simp] theorem hasOctets_nat (n : Nat) : HasOctets (Numeral.nat n) := hasOctets_ofChars _

@[simp] theorem hasOctets_int (i : Int) : HasOctets (Numeral.int i) := by
  cases i <;> simp [Numeral.int]

theorem hasOctets_intercalate {separator : Text} {ts : List Text} (hseparator : HasOctets separator)
    (h : ∀ t ∈ ts, HasOctets t) : HasOctets (List.intercalate separator ts) := by
  intro p hp
  rcases List.of_mem_intercalate hp with hp | ⟨t, ht, hp⟩
  · exact hseparator p hp
  · exact h t ht p hp

/-! ## Styles -/

theorem sublist_of_afterStyle? {t rest : Text} (h : afterStyle? t = some rest) : rest.Sublist t := by
  unfold afterStyle? at h
  split at h
  · rename_i tail
    have htail : (tail.dropWhile isStyleNumber).Sublist tail := List.dropWhile_sublist _
    split at h
    · rename_i heq
      split at h
      · cases h
        rw [heq] at htail
        exact (((List.sublist_cons_self _ _).trans htail).cons _).cons _
      · cases h
    · cases h
  · cases h

theorem unstyled_sublist (t : Text) : (unstyled t).Sublist t := by
  fun_induction unstyled t with
  | case1 t rest h ih => exact ih.trans (sublist_of_afterStyle? h)
  | case2 => exact .slnil
  | case3 p rest h ih => exact ih.cons_cons p

/-- A text without the character that style sequences start with is free of them. -/
theorem unstyled_eq_self {t : Text} (h : .char '\x1b' ∉ t) : unstyled t = t := by
  have hstyle : ∀ s : Text, .char '\x1b' ∉ s → afterStyle? s = none := by
    intro s hs
    unfold afterStyle?
    split
    · exact absurd List.mem_cons_self hs
    · rfl
  fun_induction unstyled t with
  | case1 t rest hrest ih =>
      rw [hstyle t h] at hrest
      cases hrest
  | case2 => rfl
  | case3 p rest _ ih => rw [ih fun hmem => h (List.mem_cons_of_mem p hmem)]

theorem HasOctets.unstyled {t : Text} (h : HasOctets t) : HasOctets (Text.unstyled t) :=
  fun p hp => h p ((unstyled_sublist t).subset hp)

/-! ## Encoding -/

theorem Utf8.surrogates?_eq_none_iff {index : Nat} {t : Text} : surrogates? index t = none ↔ t.HasOctets := by
  induction t generalizing index with
  | nil => simp [surrogates?]
  | cons p t ih =>
      cases p with
      | char c => simpa [surrogates?, HasOctets, CodePoint.isSurrogate] using ih
      | surrogate n => simp [surrogates?, HasOctets, CodePoint.isSurrogate]

theorem hasOctets_of_encode {t : Text} {octets : List UInt8} (h : Utf8.encode t = .ok octets) : t.HasOctets := by
  cases hfault : Utf8.surrogates? 0 t with
  | none => exact Utf8.surrogates?_eq_none_iff.mp hfault
  | some fault => simp [Utf8.encode, hfault] at h

end Text

end TransitionAudit
