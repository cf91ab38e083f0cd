import TransitionAudit.Audit.Report
import TransitionAudit.Proofs.Data.Distinct
import Mathlib.Data.List.Induction

/-!
# Groups of findings

Findings that come in blocks, each with a key of its own, are grouped into just these blocks, in their order; a
block without findings makes no group. Grouping is the same as filling the groups in one pass over the findings.
-/

namespace TransitionAudit

section
variable {β γ κ : Type} [BEq κ] [LawfulBEq κ] {label : β → κ} {key : γ → κ} {block : β → List γ} {xs : List β}

/-- What has the key of a block is the block, if the keys of the blocks differ. -/
theorem filter_key_flatMap (hlabels : (xs.map label).Nodup) (hkeys : ∀ x ∈ xs, ∀ y ∈ block x, key y = label x)
    {x : β} (hx : x ∈ xs) : (xs.flatMap block).filter (fun y => key y == label x) = block x := by
  induction xs with
  | nil => cases hx
  | cons z zs ih =>
      obtain ⟨hz, hzs⟩ := List.forall_mem_cons.mp hkeys
      rw [List.map_cons, List.nodup_cons] at hlabels
      rw [List.flatMap_cons, List.filter_append]
      by_cases hxz : label z = label x
      · have hfirst : (block z).filter (fun y => key y == label x) = block z :=
          List.filter_eq_self.mpr fun y hy => beq_iff_eq.mpr ((hz y hy).trans hxz)
        have hothers : (zs.flatMap block).filter (fun y => key y == label x) = [] := by
          refine List.filter_eq_nil_iff.mpr fun y hy hkey => ?_
          obtain ⟨w, hw, hyw⟩ := List.mem_flatMap.mp hy
          have hlabel : label w = label z := ((hzs w hw y hyw).symm.trans (beq_iff_eq.mp hkey)).trans hxz.symm
          exact hlabels.1 (hlabel ▸ List.mem_map_of_mem hw)
        rcases List.mem_cons.mp hx with rfl | hmem
        · rw [hfirst, hothers, List.append_nil]
        · exact absurd (hxz ▸ List.mem_map_of_mem hmem) hlabels.1
      · have hfirst : (block z).filter (fun y => key y == label x) = [] :=
          List.filter_eq_nil_iff.mpr fun y hy hkey => hxz ((hz y hy).symm.trans (beq_iff_eq.mp hkey))
        rcases List.mem_cons.mp hx with rfl | hmem
        · exact absurd rfl hxz
        · rw [hfirst, List.nil_append, ih hlabels.2 hzs hmem]

/-- The keys of blocks without repetitions are the labels of the blocks that are not empty. -/
theorem eraseDups_map_flatMap (hlabels : (xs.map label).Nodup)
    (hkeys : ∀ x ∈ xs, ∀ y ∈ block x, key y = label x) :
    ((xs.flatMap block).map key).eraseDups = (xs.filter fun x => !(block x).isEmpty).map label := by
  induction xs with
  | nil => rfl
  | cons x xs ih =>
      obtain ⟨hx, hxs⟩ := List.forall_mem_cons.mp hkeys
      rw [List.map_cons, List.nodup_cons] at hlabels
      have hothers : ((xs.flatMap block).map key).removeAll ((block x).map key) = (xs.flatMap block).map key := by
        rw [List.removeAll, List.filter_eq_self, List.forall_mem_map]
        intro y hy
        rw [Bool.not_eq_true', ← Bool.not_eq_true, List.elem_iff]
        intro hmem
        obtain ⟨z, hz, hkey⟩ := List.mem_map.mp hmem
        obtain ⟨w, hw, hyw⟩ := List.mem_flatMap.mp hy
        have hlabel : label w = label x := (hxs w hw y hyw).symm.trans (hkey.symm.trans (hx z hz))
        exact hlabels.1 (hlabel ▸ List.mem_map_of_mem hw)
      have hown : ((block x).map key).eraseDups = if (block x).isEmpty then [] else [label x] := by
        rw [eraseDups_of_forall_eq (List.forall_mem_map.mpr hx), List.isEmpty_map]
      rw [List.flatMap_cons, List.map_append, List.eraseDups_append, hothers, ih hlabels.2 hxs, hown, List.filter_cons]
      cases (block x).isEmpty <;> rfl

theorem flatMap_filter_isEmpty : (xs.filter fun x => !(block x).isEmpty).flatMap block = xs.flatMap block := by
  induction xs with
  | nil => rfl
  | cons x xs ih =>
      rw [List.filter_cons, List.flatMap_cons, ← ih]
      cases hx : block x with
      | nil => simp
      | cons y ys => simp [hx]

end

namespace Finding

section
variable {β κ : Type} [BEq κ] [LawfulBEq κ] {label : β → κ} {key : Finding → κ} {block : β → List Finding}
  {xs : List β} (hlabels : (xs.map label).Nodup) (hkeys : ∀ x ∈ xs, ∀ f ∈ block x, key f = label x)
include hlabels hkeys

theorem groupBy_flatMap :
    groupBy key (xs.flatMap block) = (xs.filter fun x => !(block x).isEmpty).map fun x => (label x, block x) := by
  rw [groupBy, eraseDups_map_flatMap hlabels hkeys, List.map_map]
  refine List.map_congr_left fun x hx => ?_
  exact congrArg (Prod.mk _) (filter_key_flatMap hlabels hkeys (List.mem_filter.mp hx).1)

/-- The groups hold all findings, one block after the other. -/
theorem flatMap_groupBy : (groupBy key (xs.flatMap block)).flatMap (·.2) = xs.flatMap block := by
  rw [groupBy_flatMap hlabels hkeys, List.flatMap_map, flatMap_filter_isEmpty]

end

theorem length_groupBy_le {κ : Type} [BEq κ] (key : Finding → κ) (fs : List Finding) :
    (groupBy key fs).length ≤ fs.length := by
  rw [groupBy, List.length_map]
  exact Nat.le_trans (length_eraseDups_le _) (Nat.le_of_eq (List.length_map key))

theorem exists_key_of_mem_groupBy {κ : Type} [BEq κ] [LawfulBEq κ] {key : Finding → κ} {fs : List Finding}
    {g : κ × List Finding} (hg : g ∈ groupBy key fs) : ∃ f ∈ fs, key f = g.1 := by
  obtain ⟨k, hk, rfl⟩ := List.mem_map.mp hg
  exact List.mem_map.mp (List.mem_eraseDups.mp hk)

theorem mem_of_mem_groupBy {κ : Type} [BEq κ] {key : Finding → κ} {fs : List Finding} {g : κ × List Finding}
    (hg : g ∈ groupBy key fs) {f : Finding} (hf : f ∈ g.2) : f ∈ fs := by
  obtain ⟨k, -, rfl⟩ := List.mem_map.mp hg
  exact (List.mem_filter.mp hf).1

theorem exists_mem_groupBy {κ : Type} [BEq κ] [LawfulBEq κ] (key : Finding → κ) {fs : List Finding} {f : Finding}
    (hf : f ∈ fs) : ∃ g ∈ groupBy key fs, f ∈ g.2 := by
  refine ⟨(key f, fs.filter fun x => key x == key f), ?_, List.mem_filter.mpr ⟨hf, beq_self_eq_true _⟩⟩
  exact List.mem_map_of_mem (List.mem_eraseDups.mpr (List.mem_map_of_mem hf))

/-! ## One pass -/

section
variable {κ : Type} [BEq κ] [LawfulBEq κ] {key : Finding → κ} {f : Finding} {ks : List κ} {members : κ → List Finding}

/-- Puts a finding at the end of the group with its key; if there is none, it opens one after all others. -/
def insertGroup (key : Finding → κ) (f : Finding) : List (κ × List Finding) → List (κ × List Finding)
  | [] => [(key f, [f])]
  | (k, fs) :: groups => if k == key f then (k, fs ++ [f]) :: groups else (k, fs) :: insertGroup key f groups

theorem insertGroup_of_not_mem (h : key f ∉ ks) :
    insertGroup key f (ks.map fun k => (k, members k)) = (ks.map fun k => (k, members k)) ++ [(key f, [f])] := by
  induction ks with
  | nil => rfl
  | cons k ks ih =>
      obtain ⟨hk, hks⟩ := List.ne_and_not_mem_of_not_mem_cons h
      rw [List.map_cons, insertGroup, if_neg (by simpa using Ne.symm hk), ih hks, List.cons_append]

theorem insertGroup_of_mem (hnodup : ks.Nodup) (h : key f ∈ ks) :
    insertGroup key f (ks.map fun k => (k, members k)) =
      ks.map fun k => (k, members k ++ if key f == k then [f] else []) := by
  induction ks with
  | nil => cases h
  | cons k ks ih =>
      obtain ⟨hnew, hks⟩ := List.nodup_cons.mp hnodup
      rw [List.map_cons, List.map_cons, insertGroup]
      by_cases hk : k = key f
      · -- no other group has this key, so the others stay as they are
        have hothers : ks.map (fun k => (k, members k ++ if key f == k then [f] else [])) =
            ks.map fun k => (k, members k) := by
          refine List.map_congr_left fun j hj => ?_
          have hne : key f ≠ j := fun heq => hnew (hk.trans heq ▸ hj)
          rw [if_neg (by simpa using hne), List.append_nil]
        rw [hothers, if_pos (by simpa using hk), if_pos (by simpa using hk.symm)]
      · have hmem : key f ∈ ks := (List.mem_cons.mp h).resolve_left (Ne.symm hk)
        rw [if_neg (by simpa using hk), ih hks hmem, if_neg (by simpa using Ne.symm hk), List.append_nil]

theorem insertGroup_groupBy {fs : List Finding} : insertGroup key f (groupBy key fs) = groupBy key (fs ++ [f]) := by
  have hmembers : ∀ k, (fs ++ [f]).filter (fun x => key x == k) =
      fs.filter (fun x => key x == k) ++ if key f == k then [f] else [] := by
    intro k
    rw [List.filter_append, List.filter_cons, List.filter_nil]
  simp only [groupBy, hmembers, List.map_append, List.map_singleton, eraseDups_concat]
  split
  · rename_i hknown
    exact insertGroup_of_mem (nodup_eraseDups _) (List.mem_eraseDups.mpr hknown)
  · rename_i hnew
    have hnone : fs.filter (fun x => key x == key f) = [] :=
      List.filter_eq_nil_iff.mpr fun x hx hkey => hnew (beq_iff_eq.mp hkey ▸ List.mem_map_of_mem hx)
    rw [insertGroup_of_not_mem (mt List.mem_eraseDups.mp hnew), List.map_append, List.map_singleton, hnone]
    congr 1
    · refine List.map_congr_left fun k hk => ?_
      have hne : key f ≠ k := fun heq => hnew (heq ▸ List.mem_eraseDups.mp hk)
      rw [if_neg (by simpa using hne), List.append_nil]
    · rw [if_pos (beq_self_eq_true _), List.nil_append]

/-- Groups filled in one pass over the findings. -/
theorem foldl_insertGroup (key : Finding → κ) (fs : List Finding) :
    fs.foldl (fun groups f => insertGroup key f groups) [] = groupBy key fs := by
  induction fs using List.reverseRecOn with
  | nil => rfl
  | append_singleton fs f ih => rw [List.foldl_append, List.foldl_cons, List.foldl_nil, ih, insertGroup_groupBy]

end

end Finding

end TransitionAudit
