import TransitionAudit.Proofs.Rule.WellFormed
import Mathlib.Data.List.Induction
import Mathlib.Data.List.Sort

/-!
# Rules that come up again

Of rules with the same parts the first one stays. A table leaves out repetitions under each heading, and again in the
rules for a transition, which comes to leaving them out once of all that is listed for it.
-/

namespace TransitionAudit

/-! ## Places where rules first come up -/

/-- Whether a rule stands in a place of a list, and none with the same parts in a place before. -/
def ComesUpAt (rules : List Rule) (place : Nat) (r : Rule) : Prop :=
  rules[place]? = some r ∧ ∀ earlier < place, ∀ r', rules[earlier]? = some r' → r'.parts ≠ r.parts

/-- Whether rules are those of a list, each in the first of its places, in the order of these places. -/
def Firsts (rules kept : List Rule) : Prop :=
  ∃ places : List Nat, places.Pairwise (· < ·) ∧ (∀ i, i ∈ places ↔ ∃ r, ComesUpAt rules i r) ∧
    kept.map some = places.map (rules[·]?)

variable {rules kept : List Rule} {r : Rule}

theorem comesUpAt_iff {place : Nat} :
    ComesUpAt rules place r ↔ rules[place]? = some r ∧ r ∉ rules.take place := by
  refine and_congr_right fun _ => ⟨fun hnone hmem => ?_, fun hmem earlier hearlier r' hr' hparts => ?_⟩
  · obtain ⟨earlier, hr⟩ := List.mem_iff_getElem?.mp hmem
    rw [List.getElem?_take] at hr
    split at hr
    · rename_i hearlier
      exact hnone earlier hearlier r hr rfl
    · cases hr
  · obtain rfl := Rule.parts_injective hparts
    exact hmem (List.mem_iff_getElem?.mpr ⟨earlier, by rw [List.getElem?_take, if_pos hearlier, hr']⟩)

theorem ComesUpAt.lt_length {place : Nat} (h : ComesUpAt rules place r) : place < rules.length :=
  (List.getElem?_eq_some_iff.mp h.1).1

/-- One more rule at the end comes up there if it does not come up before, and changes nothing about the others. -/
theorem comesUpAt_concat_iff {place : Nat} {r' : Rule} :
    ComesUpAt (rules ++ [r]) place r' ↔ ComesUpAt rules place r' ∨ place = rules.length ∧ r' = r ∧ r ∉ rules := by
  rw [comesUpAt_iff, comesUpAt_iff]
  rcases Nat.lt_trichotomy place rules.length with hlt | rfl | hgt
  · rw [List.getElem?_append_left hlt, List.take_append_of_le_length hlt.le]
    simp [hlt.ne]
  · rw [List.getElem?_concat_length, List.take_append_of_le_length le_rfl, List.take_length]
    simp only [Option.some.injEq, List.getElem?_length, reduceCtorEq, false_and, true_and, false_or]
    exact ⟨fun ⟨hr, hnew⟩ => ⟨hr.symm, hr ▸ hnew⟩, fun ⟨hr, hnew⟩ => ⟨hr.symm, hr ▸ hnew⟩⟩
  · have hlength : (rules ++ [r]).length ≤ place := by
      rw [List.length_append, List.length_singleton]
      exact hgt
    have hnone : (rules ++ [r])[place]? = none := List.getElem?_eq_none hlength
    have hnone' : rules[place]? = none := List.getElem?_eq_none hgt.le
    simp [hnone, hnone', hgt.ne']

theorem dedupe_concat : dedupe (rules ++ [r]) = if r ∈ rules then dedupe rules else dedupe rules ++ [r] :=
  eraseDups_concat rules r

/-- Leaving out repetitions keeps the rules in the places where they first come up: by induction from the end, where
one more rule adds its place or none. -/
theorem firsts_dedupe : Firsts rules (dedupe rules) := by
  induction rules using List.reverseRecOn with
  | nil => exact ⟨[], .nil, by simp [ComesUpAt], rfl⟩
  | append_singleton rules r ih =>
      obtain ⟨places, hlt, hplaces, hkept⟩ := ih
      have hbound : ∀ i ∈ places, i < rules.length := by
        intro i hi
        obtain ⟨_, hr⟩ := (hplaces i).mp hi
        exact hr.lt_length
      have hsame : places.map ((rules ++ [r])[·]?) = places.map (rules[·]?) :=
        List.map_congr_left fun i hi => List.getElem?_append_left (hbound i hi)
      rw [dedupe_concat]
      split
      · rename_i hr
        refine ⟨places, hlt, fun i => ?_, hkept.trans hsame.symm⟩
        simp [hplaces, comesUpAt_concat_iff, hr]
      · rename_i hr
        refine ⟨places ++ [rules.length], ?_, fun i => ?_, ?_⟩
        · refine List.pairwise_append.mpr ⟨hlt, List.pairwise_singleton _ _, fun i hi j hj => ?_⟩
          exact List.mem_singleton.mp hj ▸ hbound i hi
        · simp [hplaces, comesUpAt_concat_iff, hr, exists_or]
        · rw [List.map_append, List.map_append, hkept, hsame, List.map_singleton, List.map_singleton,
            List.getElem?_concat_length]

theorem Firsts.unique {kept' : List Rule} (h : Firsts rules kept) (h' : Firsts rules kept') : kept = kept' := by
  obtain ⟨places, hlt, hplaces, hkept⟩ := h
  obtain ⟨places', hlt', hplaces', hkept'⟩ := h'
  obtain rfl := hlt.eq_of_mem_iff hlt' fun i => (hplaces i).trans (hplaces' i).symm
  exact List.map_injective_iff.mpr (Option.some_injective _) (hkept.trans hkept'.symm)

/-! ## Rules for a transition -/

namespace RuleTable

/-- What rows list under a heading: the rules of the last row with it, and none if there is no such row. -/
def listed (rows : List (Text × List Rule)) (heading : Text) : List Rule := (row? rows.reverse heading).getD []

variable {rows : List (Text × List Rule)} {source : Option Text}

theorem under_eq_dedupe_listed (heading : Text) :
    (RuleTable.of rows source).under heading = dedupe (listed rows heading) := by
  rw [under_of, listed]
  cases row? rows.reverse heading <;> rfl

theorem dedupe_dedupe : dedupe (dedupe rules) = dedupe rules := eraseDups_of_nodup (nodup_eraseDups rules)

theorem dedupe_append (others : List Rule) :
    dedupe (rules ++ others) = dedupe rules ++ (dedupe others).filter (· ∉ rules) :=
  eraseDups_append_eq_filter rules others

theorem dedupe_append_dedupe (others : List Rule) :
    dedupe (dedupe rules ++ dedupe others) = dedupe (rules ++ others) := by
  have hmem : ∀ r, r ∈ dedupe rules ↔ r ∈ rules := fun r => List.mem_eraseDups
  rw [dedupe_append, dedupe_append, dedupe_dedupe, dedupe_dedupe]
  simp only [hmem]

/-- Leaving out repetitions keeps each rule in the first of its places and does nothing the second time. The rules for
a transition are those that all transitions and its type have in the rows of the table, without repetitions: those for
all, and then those for the type that are not among them. -/
theorem rulesFor_exact :
    (∀ rules kept, Firsts rules kept ↔ kept = dedupe rules) ∧
      (∀ rules, dedupe (dedupe rules) = dedupe rules) ∧
      ∀ (rows : List (Text × List Rule)) (source : Option Text) (t : Transition),
        (RuleTable.of rows source).rulesFor t.type =
            dedupe (listed rows everyType ++ listed rows t.type.text) ∧
          (RuleTable.of rows source).rulesFor t.type =
            dedupe (listed rows everyType) ++
              (dedupe (listed rows t.type.text)).filter (· ∉ listed rows everyType) := by
  refine ⟨fun rules kept => ⟨fun h => h.unique firsts_dedupe, fun h => h ▸ firsts_dedupe⟩,
    fun rules => dedupe_dedupe, fun rows source t => ?_⟩
  have hrules : (RuleTable.of rows source).rulesFor t.type =
      dedupe (listed rows everyType ++ listed rows t.type.text) := by
    rw [rulesFor, under_eq_dedupe_listed, under_eq_dedupe_listed, dedupe_append_dedupe]
  exact ⟨hrules, hrules.trans (dedupe_append _)⟩

end RuleTable

end TransitionAudit
