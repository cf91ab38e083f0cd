/-!
# Lists without their repetitions

Leaving out what came up before makes a list no longer and leaves each thing once. Doing so in two parts of a list,
and then in what is left of both, is doing so once in the whole list.
-/

namespace TransitionAudit

variable {κ : Type} [BEq κ]

theorem length_eraseDups_le : ∀ ks : List κ, ks.eraseDups.length ≤ ks.length
  | [] => by simp
  | k :: ks => by
      have hfilter : (ks.filter fun j => !j == k).length ≤ ks.length := List.length_filter_le _ _
      have hrest := length_eraseDups_le (ks.filter fun j => !j == k)
      rw [List.eraseDups_cons, List.length_cons, List.length_cons]
      omega
termination_by ks => ks.length
decreasing_by exact Nat.lt_succ_of_le (List.length_filter_le _ _)

theorem nodup_eraseDups [LawfulBEq κ] : ∀ ks : List κ, ks.eraseDups.Nodup
  | [] => by simp
  | k :: ks => by
      rw [List.eraseDups_cons, List.nodup_cons]
      have hrest := nodup_eraseDups (ks.filter fun j => !j == k)
      exact ⟨by simp, hrest⟩
termination_by ks => ks.length
decreasing_by exact Nat.lt_succ_of_le (List.length_filter_le _ _)

theorem eraseDups_of_nodup [LawfulBEq κ] {ks : List κ} (h : ks.Nodup) : ks.eraseDups = ks := by
  induction ks with
  | nil => rfl
  | cons k ks ih =>
      rw [List.nodup_cons] at h
      have hrest : ks.filter (fun j => !j == k) = ks :=
        List.filter_eq_self.mpr fun j hj => by simpa using fun heq : j = k => h.1 (heq ▸ hj)
      rw [List.eraseDups_cons, hrest, ih h.2]

theorem eraseDups_filter [LawfulBEq κ] (p : κ → Bool) :
    ∀ ks : List κ, (ks.filter p).eraseDups = ks.eraseDups.filter p
  | [] => rfl
  | k :: ks => by
      have hrest := eraseDups_filter p (ks.filter fun j => !j == k)
      rw [List.filter_filter] at hrest
      rw [List.eraseDups_cons]
      by_cases hk : p k
      · rw [List.filter_cons_of_pos hk, List.filter_cons_of_pos hk, List.eraseDups_cons, List.filter_filter, ← hrest]
        simp only [Bool.and_comm]
      · -- nothing that is kept is equal to the first thing
        have hsame : ks.filter (fun j => p j && !j == k) = ks.filter p := by
          refine List.filter_congr fun j _ => ?_
          by_cases hj : j = k <;> simp_all
        rw [List.filter_cons_of_neg hk, List.filter_cons_of_neg hk, ← hrest, hsame]
termination_by ks => ks.length
decreasing_by exact Nat.lt_succ_of_le (List.length_filter_le _ _)

theorem eraseDups_append_eq_filter [LawfulBEq κ] [DecidableEq κ] (ks js : List κ) :
    (ks ++ js).eraseDups = ks.eraseDups ++ js.eraseDups.filter (· ∉ ks) := by
  rw [List.eraseDups_append, List.removeAll, eraseDups_filter]
  simp

/-- One more thing at the end stays unless it came up before. -/
theorem eraseDups_concat [LawfulBEq κ] (ks : List κ) (k : κ) :
    (ks ++ [k]).eraseDups = if k ∈ ks then ks.eraseDups else ks.eraseDups ++ [k] := by
  rw [List.eraseDups_append, List.removeAll]
  by_cases h : k ∈ ks <;> simp [h, List.eraseDups_cons]

theorem eraseDups_of_forall_eq [LawfulBEq κ] {k : κ} {ks : List κ} (h : ∀ k' ∈ ks, k' = k) :
    ks.eraseDups = if ks.isEmpty then [] else [k] := by
  cases ks with
  | nil => rfl
  | cons k' ks =>
      obtain ⟨rfl, hks⟩ := List.forall_mem_cons.mp h
      have hnone : ks.filter (fun j => !j == k') = [] :=
        List.filter_eq_nil_iff.mpr fun j hj => by simp [hks j hj]
      rw [List.eraseDups_cons, hnone]
      rfl

end TransitionAudit
