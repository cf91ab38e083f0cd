import TransitionAudit.Proofs.Json.String
import TransitionAudit.Proofs.Text.Octets

/-!
# Texts put together without splitting a character

A text in which no character stands as two surrogates can be put next to words, and two such texts next to each
other with words between them. What is put together from names in this way is read back from JSON if the names are.
-/

namespace TransitionAudit.Json

theorem not_isSplit_of_left {p q : CodePoint} (h : p.isSurrogate = false) : ¬ IsSplit p q := by
  cases p with
  | char c =>
      have hrange := toNat_lt c
      rw [IsSplit, isHighSurrogate_iff, CodePoint.number]
      omega
  | surrogate n => cases h

theorem not_isSplit_of_right {p q : CodePoint} (h : q.isSurrogate = false) : ¬ IsSplit p q := by
  cases q with
  | char c =>
      have hrange := toNat_lt c
      rw [IsSplit, isLowSurrogate_iff, CodePoint.number]
      omega
  | surrogate n => cases h

theorem joined_of_hasOctets {s : Text} (h : s.HasOctets) : Joined s := by
  induction s with
  | nil => exact .nil
  | cons p s ih =>
      obtain ⟨hp, hs⟩ := List.forall_mem_cons.mp h
      exact List.IsChain.cons (ih hs) fun _ _ => not_isSplit_of_left hp

theorem joined_ofString (s : String) : Joined (Text.ofString s) := joined_of_hasOctets (Text.hasOctets_ofString s)

/-! ## Names and words -/

theorem joined_append_iff {s t : Text} :
    Joined (s ++ t) ↔ Joined s ∧ Joined t ∧ ∀ p ∈ s.getLast?, ∀ q ∈ t.head?, ¬ IsSplit p q :=
  List.isChain_append

theorem Joined.append_words {s words : Text} (hs : Joined s) (hwords : words.HasOctets) : Joined (s ++ words) :=
  joined_append_iff.mpr
    ⟨hs, joined_of_hasOctets hwords, fun _ _ q hq => not_isSplit_of_right (hwords q (List.mem_of_mem_head? hq))⟩

theorem Joined.words_append {s words : Text} (hs : Joined s) (hwords : words.HasOctets) : Joined (words ++ s) :=
  joined_append_iff.mpr
    ⟨joined_of_hasOctets hwords, hs, fun p hp _ _ => not_isSplit_of_left (hwords p (List.mem_of_getLast? hp))⟩

/-- Words between two texts keep them apart. -/
theorem Joined.append_words_append {s words t : Text} (hs : Joined s) (hwords : words.HasOctets)
    (hne : words ≠ []) (ht : Joined t) : Joined (s ++ words ++ t) := by
  refine joined_append_iff.mpr ⟨hs.append_words hwords, ht, fun p hp _ _ => not_isSplit_of_left (hwords p ?_)⟩
  rw [List.getLast?_append_of_ne_nil _ hne] at hp
  exact List.mem_of_getLast? hp

theorem joined_intercalate {separator : Text} {ts : List Text} (hseparator : separator.HasOctets)
    (hne : separator ≠ []) (h : ∀ t ∈ ts, Joined t) : Joined (List.intercalate separator ts) := by
  induction ts with
  | nil => exact .nil
  | cons t ts ih =>
      obtain ⟨ht, hts⟩ := List.forall_mem_cons.mp h
      cases ts with
      | nil => simpa using ht
      | cons t' ts =>
          rw [List.intercalate_cons_cons]
          exact ht.append_words_append hseparator hne (ih hts)

end TransitionAudit.Json
