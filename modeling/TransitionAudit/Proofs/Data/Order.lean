import TransitionAudit.Data.Order
import TransitionAudit.Proofs.Data.Merge
import TransitionAudit.Proofs.Data.RunSort

/-!
# Keys that can be sorted

Two keys have an order if they are of one kind. So entries can be sorted exactly if the keys of any two of them are
of one kind, and a lone entry can be sorted whatever its key is.
-/

namespace TransitionAudit

/-- The kinds of keys that have an order among themselves. -/
inductive OrderKind
  | number
  | text
  | bytes
  | date
  | moment (hasOffset : Bool)
  deriving DecidableEq, Repr

namespace Scalar

def orderKind? : Scalar → Option OrderKind
  | .null => none
  | .bool _ | .int _ | .double _ | .loneNan => some .number
  | .text _ => some .text
  | .bytes _ => some .bytes
  | .date _ => some .date
  | .moment m => some (.moment m.offset.isSome)

/-- Whether two keys are of one kind. -/
def Ordered (a b : Scalar) : Prop := ∃ kind, a.orderKind? = some kind ∧ b.orderKind? = some kind

theorem isSome_magnitude?_iff {a : Scalar} : a.magnitude?.isSome = true ↔ a.orderKind? = some .number := by
  cases a with
  | double x => cases x <;> simp [magnitude?, orderKind?]
  | _ => simp [magnitude?, orderKind?]

theorem not_ordered_of_magnitude? {a b : Scalar}
    (h : ∀ x y, a.magnitude? = some x → b.magnitude? = some y → False) :
    ¬ (a.orderKind? = some .number ∧ b.orderKind? = some .number) := by
  rw [← isSome_magnitude?_iff, ← isSome_magnitude?_iff, Option.isSome_iff_exists, Option.isSome_iff_exists]
  rintro ⟨⟨x, hx⟩, y, hy⟩
  exact h x y hx hy

theorem exists_less_iff {a b : Scalar} : (∃ r, a.less b = .ok r) ↔ a.Ordered b := by
  unfold less
  split
  · rename_i x y hx hy
    exact iff_of_true ⟨_, rfl⟩
      ⟨.number, isSome_magnitude?_iff.mp (by simp [hx]), isSome_magnitude?_iff.mp (by simp [hy])⟩
  · rename_i hmagnitude
    have hnumber := not_ordered_of_magnitude? hmagnitude
    split
    · simp [Ordered, orderKind?]
    · simp [Ordered, orderKind?]
    · simp [Ordered, orderKind?]
    · rename_i m n
      simp only [Moment.less, Ordered, orderKind?]
      cases m.offset <;> cases n.offset <;> simp
    · simp [Ordered, orderKind?]
    · simp [Ordered, orderKind?]
    · refine iff_of_false (by simp) ?_
      rintro ⟨kind, ha, hb⟩
      have hsame : a.orderKind? = b.orderKind? := ha.trans hb.symm
      clear hb hmagnitude
      cases a <;> cases b <;> simp_all [orderKind?]

end Scalar

/-! ## Sorted entries -/

section
variable {β : Type} {es sorted : List (Scalar × β)}

theorem comparable_iff {a b : Scalar × β} :
    RunSort.Comparable (fun a b : Scalar × β => a.1.less b.1) a b ↔ a.1.Ordered b.1 :=
  Scalar.exists_less_iff

instance : Std.Symm (RunSort.Comparable fun a b : Scalar × β => a.1.less b.1) where
  symm a b h := by
    rw [comparable_iff] at h ⊢
    obtain ⟨kind, ha, hb⟩ := h
    exact ⟨kind, hb, ha⟩

instance : IsTrans (Scalar × β) (RunSort.Comparable fun a b : Scalar × β => a.1.less b.1) where
  trans a b c hab hbc := by
    rw [comparable_iff] at hab hbc ⊢
    obtain ⟨kind, ha, hb⟩ := hab
    obtain ⟨kind', hb', hc⟩ := hbc
    obtain rfl := Option.some.inj (hb.symm.trans hb')
    exact ⟨kind, ha, hc⟩

theorem sortEntries_of_not_text (h : ¬ ∀ e ∈ es, ∃ s, e.1 = .text s) :
    sortEntries es = RunSort.sort (fun a b => a.1.less b.1) es := by
  have hnone : es.mapM textEntry? = none := by
    induction es with
    | nil => simp at h
    | cons e es ih =>
        obtain ⟨key, x⟩ := e
        rw [List.mapM_cons]
        by_cases hkey : ∃ s, key = .text s
        · have hes : ¬ ∀ e ∈ es, ∃ s, e.1 = .text s := fun hes => h (List.forall_mem_cons.mpr ⟨hkey, hes⟩)
          rw [ih hes]
          cases textEntry? (key, x) <;> rfl
        · cases key with
          | text s => exact absurd ⟨s, rfl⟩ hkey
          | _ => rfl
  rw [sortEntries, hnone]

theorem perm_of_sortEntries (h : sortEntries es = .ok sorted) : sorted.Perm es := by
  by_cases htext : ∀ e ∈ es, ∃ s, e.1 = .text s
  · obtain ⟨_, hsorted, hperm⟩ := sortEntries_of_text htext
    rw [h] at hsorted
    exact Except.ok.inj hsorted ▸ hperm
  · rw [sortEntries_of_not_text htext] at h
    exact RunSort.perm_of_sort h

/-- Entries are sorted exactly if any two of their keys are of one kind. -/
theorem exists_sortEntries_iff :
    (∃ sorted, sortEntries es = .ok sorted) ↔ es.Pairwise fun a b => a.1.Ordered b.1 := by
  by_cases htext : ∀ e ∈ es, ∃ s, e.1 = .text s
  · obtain ⟨sorted, hsorted, -⟩ := sortEntries_of_text htext
    refine iff_of_true ⟨sorted, hsorted⟩ (List.pairwise_of_forall_mem_list fun a ha b hb => ?_)
    obtain ⟨s, hs⟩ := htext a ha
    obtain ⟨t, ht⟩ := htext b hb
    exact ⟨.text, by rw [hs]; rfl, by rw [ht]; rfl⟩
  · rw [sortEntries_of_not_text htext, RunSort.exists_sort_iff]
    exact List.Pairwise.iff fun a b => comparable_iff

end

end TransitionAudit
