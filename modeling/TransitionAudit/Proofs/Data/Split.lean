import Mathlib.Data.List.Infix

/-!
# Pieces between separators

What lists with a separator between them hold, what the pieces look like that a list is split into, and how they come
from the parts of a list.
-/

namespace List

variable {α : Type} {a : α} {p s piece separator : List α} {ls : List (List α)}

/-! ## Putting together -/

theorem intercalate_cons_eq_flatMap (first : List α) :
    separator.intercalate (first :: ls) = first ++ ls.flatMap (separator ++ ·) := by
  induction ls generalizing first with
  | nil => simp
  | cons l ls ih => rw [intercalate_cons_cons, ih, flatMap_cons, append_assoc, append_assoc]

theorem of_mem_intercalate {x : α} (h : x ∈ separator.intercalate ls) : x ∈ separator ∨ ∃ l ∈ ls, x ∈ l := by
  cases ls with
  | nil => cases h
  | cons first ls =>
      rw [intercalate_cons_eq_flatMap, mem_append, mem_flatMap] at h
      rcases h with hfirst | ⟨l, hl, hx⟩
      · exact Or.inr ⟨first, mem_cons_self, hfirst⟩
      · exact (mem_append.mp hx).imp_right fun hx => ⟨l, mem_cons_of_mem _ hl, hx⟩

theorem infix_intercalate_of_mem {l : List α} (h : l ∈ ls) : l <:+: separator.intercalate ls := by
  cases ls with
  | nil => cases h
  | cons first ls =>
      rw [intercalate_cons_eq_flatMap]
      rcases mem_cons.mp h with rfl | h
      · exact (prefix_append _ _).isInfix
      · have hpart : l <:+: ls.flatMap (separator ++ ·) := by
          obtain ⟨before, after, rfl⟩ := append_of_mem h
          exact ⟨before.flatMap (separator ++ ·) ++ separator, after.flatMap (separator ++ ·), by simp⟩
        exact hpart.trans (suffix_append _ _).isInfix

/-! ## Stretches of what is put together -/

/-- What starts with something that the first of two parts does not hold stands in the second one. -/
theorem infix_of_infix_append {t : List α} (h : a :: p <:+: s ++ t) (ha : a ∉ s) : a :: p <:+: t := by
  rcases infix_append_iff_ne_nil.mp h with h | h | ⟨l, l', hne, -, heq, hsuffix, -⟩
  · exact absurd (h.subset mem_cons_self) ha
  · exact h
  · obtain ⟨b, rest, rfl⟩ := exists_cons_of_ne_nil hne
    obtain ⟨rfl, -⟩ := cons.inj heq
    exact absurd (hsuffix.subset mem_cons_self) ha

/-- What does not hold the thing between two parts stands in one of them. -/
theorem infix_or_infix_of_append_cons {t : List α} (h : p <:+: s ++ a :: t) (ha : a ∉ p) : p <:+: s ∨ p <:+: t := by
  have hstart : ∀ q, q <:+ p → q <+: a :: t → q = [] := by
    intro q hq hprefix
    cases q with
    | nil => rfl
    | cons b rest =>
        obtain ⟨rfl, -⟩ := cons_prefix_cons.mp hprefix
        exact absurd (hq.subset mem_cons_self) ha
  rcases infix_append_iff_ne_nil.mp h with h | h | ⟨l, l', -, hne, rfl, -, hprefix⟩
  · exact .inl h
  · rcases infix_cons_iff.mp h with h | h
    · exact .inl (hstart p (suffix_refl p) h ▸ nil_infix)
    · exact .inr h
  · exact absurd (hstart l' (suffix_append l l') hprefix) hne

/-- What starts with something that a separator does not hold, and does not hold what the separator starts with, stands
in one of the lists between which the separator is put. -/
theorem exists_infix_of_infix_intercalate {b : α} (h : b :: p <:+: (a :: separator).intercalate ls)
    (hb : b ∉ separator) (ha : a ∉ b :: p) : ∃ l ∈ ls, b :: p <:+: l := by
  induction ls with
  | nil => simp at h
  | cons l ls ih =>
      cases ls with
      | nil => exact ⟨l, mem_cons_self, by simpa using h⟩
      | cons l' ls =>
          rw [intercalate_cons_cons, append_assoc, cons_append] at h
          rcases infix_or_infix_of_append_cons h ha with h | h
          · exact ⟨l, mem_cons_self, h⟩
          · obtain ⟨k, hk, hinfix⟩ := ih (infix_of_infix_append h hb)
            exact ⟨k, mem_cons_of_mem l hk, hinfix⟩

/-! ## Splitting -/

variable [BEq α] [LawfulBEq α]

/-- A piece holds what the list holds, but no separator. -/
theorem of_mem_of_mem_splitOn (hpiece : piece ∈ splitOn a s) {x : α} (hx : x ∈ piece) : x ≠ a ∧ x ∈ s := by
  induction s generalizing piece with
  | nil => simp_all
  | cons y s ih =>
      rw [splitOn_cons_eq_if_modifyHead] at hpiece
      split at hpiece
      · rcases mem_cons.mp hpiece with rfl | hpiece
        · cases hx
        · exact (ih hpiece hx).imp_right (mem_cons_of_mem _)
      · rename_i hne
        obtain ⟨first, rest, hsplit⟩ := exists_cons_of_ne_nil (splitOn_ne_nil a s)
        rw [hsplit] at ih
        rw [hsplit, modifyHead_cons] at hpiece
        rcases mem_cons.mp hpiece with rfl | hpiece
        · rcases mem_cons.mp hx with rfl | hx
          · exact ⟨by simpa using hne, mem_cons_self⟩
          · exact (ih mem_cons_self hx).imp_right (mem_cons_of_mem _)
        · exact (ih (mem_cons_of_mem _ hpiece) hx).imp_right (mem_cons_of_mem _)

/-- What holds no separator and stands in front goes to the first piece. -/
theorem splitOn_append_of_not_mem (h : a ∉ p) : splitOn a (p ++ s) = (splitOn a s).modifyHead (p ++ ·) := by
  induction p with
  | nil =>
      obtain ⟨first, rest, hsplit⟩ := exists_cons_of_ne_nil (splitOn_ne_nil a s)
      rw [nil_append, hsplit]
      rfl
  | cons x p ih =>
      rw [mem_cons, not_or] at h
      have hne : (x == a) = false := by simpa using Ne.symm h.1
      rw [cons_append, splitOn_cons_eq_if_modifyHead, hne, ih h.2, modifyHead_modifyHead]
      rfl

/-- Lists with a separator between them are split into the pieces of each of them. -/
theorem splitOn_intercalate_flatMap (h : ls ≠ []) : splitOn a ([a].intercalate ls) = ls.flatMap (splitOn a) := by
  induction ls with
  | nil => exact absurd rfl h
  | cons l ls ih =>
      cases ls with
      | nil => simp
      | cons l' ls =>
          rw [intercalate_cons_cons, append_assoc, singleton_append, splitOn_append_cons_self,
            ih (cons_ne_nil _ _), flatMap_cons (x := l)]

/-- Among the pieces after the first one there is one that starts with something exactly if it stands behind a
separator. -/
theorem exists_prefix_mem_tail_splitOn_iff (h : a ∉ p) :
    (∃ l ∈ (splitOn a s).tail, p <+: l) ↔ a :: p <:+: s := by
  constructor
  · rintro ⟨l, hl, rest, rfl⟩
    obtain ⟨first, others, hsplit⟩ := exists_cons_of_ne_nil (splitOn_ne_nil a s)
    rw [hsplit, tail_cons] at hl
    obtain ⟨before, after, rfl⟩ := append_of_mem hl
    have hs : s = first ++ (before ++ (p ++ rest) :: after).flatMap ([a] ++ ·) := by
      rw [← intercalate_cons_eq_flatMap, ← hsplit, intercalate_splitOn]
    refine ⟨first ++ before.flatMap ([a] ++ ·), rest ++ after.flatMap ([a] ++ ·), ?_⟩
    rw [hs]
    simp
  · rintro ⟨before, after, rfl⟩
    obtain ⟨first, others, hsplit⟩ := exists_cons_of_ne_nil (splitOn_ne_nil a after)
    obtain ⟨first', others', hsplit'⟩ := exists_cons_of_ne_nil (splitOn_ne_nil a before)
    refine ⟨p ++ first, ?_, prefix_append _ _⟩
    rw [append_assoc, cons_append, splitOn_append_cons_self, splitOn_append_of_not_mem h, hsplit, hsplit']
    simp

end List
