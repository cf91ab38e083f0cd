import TransitionAudit.Proofs.Data.Order
import TransitionAudit.Proofs.Data.Result

/-!
# Documents that cannot be laid over each other

An overlay is laid over a base unless its keys are of several kinds, so that they cannot be sorted, or it has a
mapping, over a mapping of the base, of which the same is true. Documents that are part of themselves may have no end.
-/

namespace TransitionAudit

/-- Whether an overlay has keys of several kinds, or a mapping that has them over a mapping of the base. -/
inductive Entries.Clash : Entries → Entries → Prop
  | keys {base overlay : Entries} (mixed : ¬ overlay.Pairwise fun a b => a.1.Ordered b.1) : Clash base overlay
  | inside {base overlay below inner : Entries} {key : Scalar} (mem : (key, .map inner) ∈ overlay)
      (found : (value? base key).bind Value.entries? = some below) (clash : Clash below inner) : Clash base overlay

theorem Value.over_map_of_entries? {overlay base : Entries} {below : Option Value}
    (h : below.bind entries? = some base) :
    (Value.map overlay).over below = (Entries.merge base overlay).map .map := by
  rw [← over_map]
  simp only [Value.over, h, Option.bind_some, entries?]

theorem Value.exists_over_iff {v : Value} {below : Option Value} :
    (∃ x, v.over below = .ok x) ↔ ∀ overlay base, v = .map overlay → below.bind entries? = some base →
      ∃ merged, Entries.merge base overlay = .ok merged := by
  constructor
  · rintro ⟨x, hx⟩ overlay base rfl hbase
    rw [over_map_of_entries? hbase, Except.map_eq_ok_iff] at hx
    obtain ⟨merged, hmerged, -⟩ := hx
    exact ⟨merged, hmerged⟩
  · intro h
    by_cases hmap : ∃ overlay, v = .map overlay
    · obtain ⟨overlay, rfl⟩ := hmap
      cases hbase : below.bind entries? with
      | none => exact ⟨.map overlay, by simp only [Value.over, hbase]⟩
      | some base =>
          obtain ⟨merged, hmerged⟩ := h overlay base rfl hbase
          exact ⟨.map merged, by rw [over_map_of_entries? hbase, hmerged]; rfl⟩
    · refine ⟨v, ?_⟩
      cases v with
      | map overlay => exact absurd ⟨overlay, rfl⟩ hmap
      | _ => simp only [Value.over]

namespace Entries

variable {base overlay : Entries}

theorem exists_putAll_iff {es : List (Scalar × Except OrderFault Value)} :
    (∃ merged, putAll base es = .ok merged) ↔ ∀ e ∈ es, ∃ v, e.2 = .ok v := by
  induction es generalizing base with
  | nil => simp [putAll]
  | cons e es ih =>
      obtain ⟨key, x⟩ := e
      simp only [putAll, Except.bind_eq_ok_iff, List.forall_mem_cons]
      constructor
      · rintro ⟨merged, v, hv, hmerged⟩
        exact ⟨⟨v, hv⟩, ih.mp ⟨merged, hmerged⟩⟩
      · rintro ⟨⟨v, hv⟩, hes⟩
        obtain ⟨merged, hmerged⟩ := ih.mpr hes
        exact ⟨merged, v, hv, hmerged⟩

theorem pairwise_over_iff :
    ((Entries.over base overlay).Pairwise fun a b => a.1.Ordered b.1) ↔ overlay.Pairwise fun a b => a.1.Ordered b.1 := by
  rw [over_eq_map, List.pairwise_map]

theorem exists_merge_iff_over :
    (∃ merged, merge base overlay = .ok merged) ↔ (overlay.Pairwise fun a b => a.1.Ordered b.1) ∧
      ∀ e ∈ overlay, ∃ x, e.2.over (value? base e.1) = .ok x := by
  simp only [merge, Except.bind_eq_ok_iff]
  have hvalues : ∀ sorted, sortEntries (Entries.over base overlay) = .ok sorted →
      ((∃ merged, putAll base sorted = .ok merged) ↔ ∀ e ∈ overlay, ∃ x, e.2.over (value? base e.1) = .ok x) := by
    intro sorted hsorted
    have hperm := perm_of_sortEntries hsorted
    rw [exists_putAll_iff, over_eq_map] at *
    simp only [hperm.mem_iff, List.forall_mem_map]
  rw [← pairwise_over_iff, ← exists_sortEntries_iff]
  constructor
  · rintro ⟨merged, sorted, hsorted, hmerged⟩
    exact ⟨⟨sorted, hsorted⟩, (hvalues sorted hsorted).mp ⟨merged, hmerged⟩⟩
  · rintro ⟨⟨sorted, hsorted⟩, hover⟩
    obtain ⟨merged, hmerged⟩ := (hvalues sorted hsorted).mpr hover
    exact ⟨merged, sorted, hsorted, hmerged⟩

/-- An overlay is laid over a base exactly if they do not clash. -/
theorem exists_merge_iff : (∃ merged, merge base overlay = .ok merged) ↔ ¬ Clash base overlay := by
  constructor
  · intro hmerge hclash
    induction hclash with
    | keys mixed => exact mixed (exists_merge_iff_over.mp hmerge).1
    | @inside base overlay below inner key mem found clash ih =>
        have hover := (exists_merge_iff_over.mp hmerge).2 _ mem
        exact ih (Value.exists_over_iff.mp hover inner below rfl found)
  · intro hclash
    induction hsize : Value.sizeOfEntries overlay using Nat.strongRecOn generalizing base overlay with
    | ind size ih =>
        refine exists_merge_iff_over.mpr ⟨by_contra fun h => hclash (.keys h), fun e he => ?_⟩
        refine Value.exists_over_iff.mpr fun inner below hinner hbelow => ?_
        have hmem : (e.1, .map inner) ∈ overlay := hinner ▸ he
        have hlt : Value.sizeOfEntries inner < size := by
          have hle := Value.size_le_of_mem hmem
          rw [Value.size, hsize] at hle
          exact hle
        exact ih _ hlt (fun h => hclash (.inside hmem hbelow h)) rfl

/-- Whether a document cannot be laid over another one: there is no end to merging them, or they clash as far as
the overlay is taken out of itself. -/
inductive Collides (base overlay : Entries) : Prop
  | endless (unrolled : (Value.map overlay).unrolledOver (.map base) = none)
  | clash {es : Entries} (unrolled : (Value.map overlay).unrolledOver (.map base) = some (.map es))
      (clash : Clash base es)

theorem exists_eq_map_of_unrolledOver {v : Value}
    (h : (Value.map overlay).unrolledOver (.map base) = some v) : ∃ es, v = .map es := by
  simp only [Value.unrolledOver, Value.unrolled, Value.entries?, Option.bind_eq_bind, Option.bind_eq_some_iff,
    Option.pure_def, Option.some.injEq] at h
  obtain ⟨es, -, rfl⟩ := h
  exact ⟨es, rfl⟩

theorem exists_layOver_error_iff : (∃ fault, layOver base overlay = .error fault) ↔ Collides base overlay := by
  cases hunrolled : (Value.map overlay).unrolledOver (.map base) with
  | none => exact iff_of_true ⟨.endless, by simp only [layOver, hunrolled]⟩ (.endless hunrolled)
  | some v =>
      obtain ⟨es, rfl⟩ := exists_eq_map_of_unrolledOver hunrolled
      have hclash : Collides base overlay ↔ Clash base es := by
        constructor
        · rintro (hnone | ⟨hsome, hclash⟩)
          · rw [hnone] at hunrolled
            cases hunrolled
          · rw [hsome] at hunrolled
            cases hunrolled
            exact hclash
        · exact .clash hunrolled
      rw [hclash, ← not_iff_not, ← exists_merge_iff]
      simp only [layOver, hunrolled, Except.mapError_eq_error_iff]
      cases merge base es <;> simp

end Entries

end TransitionAudit
