import TransitionAudit.Proofs.Audit.Grouping
import Mathlib.Data.Finset.Card
import Mathlib.Data.List.Induction
import Mathlib.Data.List.Perm.Basic

/-!
# Groups and counts of a report

Grouping divides findings up: every place of the list is in one group, groups come in the order in which their keys
first come up, and each keeps the order of the list. The counts of a report, its verdict and its document agree with
that division and with each other.
-/

namespace TransitionAudit

/-! ## Divisions -/

namespace Finding

variable {κ : Type} {key : Finding → κ} {fs : List Finding} {f : Finding} {k : κ} {place : Nat}

/-- Whether findings are divided up into groups with a key each, the groups standing in given places of the list. -/
structure Divides (key : Finding → κ) (fs : List Finding) (groups : List (κ × List Finding))
    (places : List (List Nat)) : Prop where
  /-- A group holds the findings in its places. -/
  holds : groups.map (fun g => g.2.map some) = places.map (List.map (fs[·]?))
  /-- Each place of the list is in one group, once. -/
  once : places.flatten.Perm (List.range fs.length)
  /-- No group is empty, and the findings in it have its key. -/
  keyed : ∀ g ∈ groups, g.2 ≠ [] ∧ ∀ f ∈ g.2, key f = g.1
  /-- No two groups have the same key. -/
  apart : (groups.map (·.1)).Nodup
  /-- Within a group the findings are in the order of the list. -/
  inOrder : ∀ ps ∈ places, ps.Pairwise (· < ·)
  /-- The groups are in the order of their first findings. -/
  firstSeen : places.Pairwise fun ps ps' => ∃ i ∈ ps.head?, ∃ j ∈ ps'.head?, i < j

variable [BEq κ] [LawfulBEq κ]

/-- The places of the findings with a key. -/
def placesOf (key : Finding → κ) (fs : List Finding) (k : κ) : List Nat :=
  (List.range fs.length).filter fun place => fs[place]?.any fun f => key f == k

theorem mem_placesOf : place ∈ placesOf key fs k ↔ ∃ f, fs[place]? = some f ∧ key f = k := by
  simp only [placesOf, List.mem_filter, List.mem_range, Option.any_eq_true, beq_iff_eq]
  constructor
  · rintro ⟨-, h⟩
    exact h
  · rintro ⟨f, hf, hkey⟩
    exact ⟨(List.getElem?_eq_some_iff.mp hf).1, f, hf, hkey⟩

/-- One more finding adds its own place to those with its key. -/
theorem placesOf_concat :
    placesOf key (fs ++ [f]) k = placesOf key fs k ++ if key f == k then [fs.length] else [] := by
  have hbefore : (List.range fs.length).filter (fun i => (fs ++ [f])[i]?.any fun x => key x == k) =
      placesOf key fs k := by
    refine List.filter_congr fun i hi => ?_
    rw [List.getElem?_append_left (List.mem_range.mp hi)]
  rw [placesOf, List.length_append, List.length_singleton, List.range_succ, List.filter_append, hbefore]
  by_cases h : key f = k <;> simp [h]

theorem map_getElem?_placesOf : (placesOf key fs k).map (fs[·]?) = (fs.filter fun f => key f == k).map some := by
  induction fs using List.reverseRecOn with
  | nil => rfl
  | append_singleton fs f ih =>
      have hsame : (placesOf key fs k).map ((fs ++ [f])[·]?) = (placesOf key fs k).map (fs[·]?) := by
        refine List.map_congr_left fun i hi => ?_
        obtain ⟨x, hx, -⟩ := mem_placesOf.mp hi
        exact List.getElem?_append_left (List.getElem?_eq_some_iff.mp hx).1
      rw [placesOf_concat, List.map_append, hsame, ih, List.filter_append, List.map_append]
      by_cases h : key f = k <;> simp [h]

omit [LawfulBEq κ] in
theorem pairwise_placesOf : (placesOf key fs k).Pairwise (· < ·) :=
  List.pairwise_lt_range.filter _

theorem placesOf_ne_nil (h : k ∈ fs.map key) : placesOf key fs k ≠ [] := by
  obtain ⟨f, hf, hkey⟩ := List.mem_map.mp h
  obtain ⟨i, hi⟩ := List.mem_iff_getElem?.mp hf
  exact List.ne_nil_of_mem (mem_placesOf.mpr ⟨f, hi, hkey⟩)

/-- The places with the keys of a list are all places, each of them once. -/
theorem flatMap_placesOf_perm : ((fs.map key).eraseDups.flatMap (placesOf key fs)).Perm (List.range fs.length) := by
  have hnodup : ((fs.map key).eraseDups.flatMap (placesOf key fs)).Nodup := by
    refine List.nodup_flatMap.mpr ⟨fun k _ => pairwise_placesOf.nodup, ?_⟩
    refine (nodup_eraseDups _).imp fun {k k'} hne i hi hi' => ?_
    obtain ⟨f, hf, hkey⟩ := mem_placesOf.mp hi
    obtain ⟨f', hf', hkey'⟩ := mem_placesOf.mp hi'
    obtain rfl := Option.some.inj (hf.symm.trans hf')
    exact hne (hkey.symm.trans hkey')
  refine (List.perm_ext_iff_of_nodup hnodup List.nodup_range).mpr fun i => ?_
  simp only [List.mem_flatMap, List.mem_eraseDups, List.mem_map, mem_placesOf, List.mem_range]
  constructor
  · rintro ⟨_, _, f, hf, -⟩
    exact (List.getElem?_eq_some_iff.mp hf).1
  · intro hi
    exact ⟨_, ⟨fs[i], List.getElem_mem hi, rfl⟩, fs[i], List.getElem?_eq_getElem hi, rfl⟩

/-- Keys come in the order of their first places: one more finding has its place after all others, and opens a group
there only if its key is new. -/
theorem pairwise_placesOf_eraseDups :
    (fs.map key).eraseDups.Pairwise fun k k' =>
      ∃ i ∈ (placesOf key fs k).head?, ∃ j ∈ (placesOf key fs k').head?, i < j := by
  induction fs using List.reverseRecOn with
  | nil => simp
  | append_singleton fs f ih =>
      have hhead : ∀ k ∈ (fs.map key).eraseDups,
          (placesOf key (fs ++ [f]) k).head? = (placesOf key fs k).head? := by
        intro k hk
        rw [placesOf_concat, List.head?_append_of_ne_nil _ (placesOf_ne_nil (List.mem_eraseDups.mp hk))]
      have hkept : (fs.map key).eraseDups.Pairwise fun k k' =>
          ∃ i ∈ (placesOf key (fs ++ [f]) k).head?, ∃ j ∈ (placesOf key (fs ++ [f]) k').head?, i < j := by
        refine ih.imp_of_mem fun {k k'} hk hk' h => ?_
        rw [hhead k hk, hhead k' hk']
        exact h
      rw [List.map_append, List.map_singleton, eraseDups_concat]
      split
      · exact hkept
      · rename_i hnew
        refine List.pairwise_append.mpr ⟨hkept, List.pairwise_singleton _ _, fun k hk k' hk' => ?_⟩
        obtain rfl := List.mem_singleton.mp hk'
        have hnone : placesOf key fs (key f) = [] := by
          refine List.eq_nil_iff_forall_not_mem.mpr fun i hi => hnew ?_
          obtain ⟨x, hx, hkey⟩ := mem_placesOf.mp hi
          exact List.mem_map.mpr ⟨x, List.mem_of_getElem? hx, hkey⟩
        obtain ⟨i, rest, hplaces⟩ := List.exists_cons_of_ne_nil (placesOf_ne_nil (List.mem_eraseDups.mp hk))
        obtain ⟨x, hx, -⟩ := mem_placesOf.mp (hplaces ▸ List.mem_cons_self : i ∈ placesOf key fs k)
        refine ⟨i, ?_, fs.length, ?_, (List.getElem?_eq_some_iff.mp hx).1⟩
        · rw [hhead k hk, hplaces]
          rfl
        · rw [placesOf_concat, hnone]
          simp

/-- Grouping divides findings up. -/
theorem divides_groupBy :
    Divides key fs (groupBy key fs) ((fs.map key).eraseDups.map (placesOf key fs)) where
  holds := by
    rw [groupBy, List.map_map, List.map_map]
    exact List.map_congr_left fun k _ => map_getElem?_placesOf.symm
  once := by
    rw [← List.flatMap_def]
    exact flatMap_placesOf_perm
  keyed := by
    rw [groupBy, List.forall_mem_map]
    refine fun k hk => ⟨?_, fun f hf => beq_iff_eq.mp (List.mem_filter.mp hf).2⟩
    obtain ⟨f, hf, hkey⟩ := List.mem_map.mp (List.mem_eraseDups.mp hk)
    exact List.ne_nil_of_mem (List.mem_filter.mpr ⟨hf, beq_iff_eq.mpr hkey⟩)
  apart := by
    have hkeys : (groupBy key fs).map (·.1) = (fs.map key).eraseDups := by
      rw [groupBy, List.map_map]
      exact List.map_id _
    exact hkeys ▸ nodup_eraseDups _
  inOrder := by
    rw [List.forall_mem_map]
    exact fun k _ => pairwise_placesOf
  firstSeen := List.pairwise_map.mpr pairwise_placesOf_eraseDups

omit [BEq κ] [LawfulBEq κ] in
/-- Groups hold each of the findings once. -/
theorem Divides.perm {groups : List (κ × List Finding)} {places : List (List Nat)}
    (h : Divides key fs groups places) : (groups.flatMap (·.2)).Perm fs := by
  have hsome : (groups.flatMap (·.2)).map some = places.flatten.map (fs[·]?) := by
    rw [List.map_flatMap, List.flatMap_def, h.holds, List.map_flatten]
  have hall : (List.range fs.length).map (fs[·]?) = fs.map some := by
    refine List.ext_getElem? fun i => ?_
    by_cases hi : i < fs.length <;> simp [hi]
  rw [← List.map_perm_map_iff (Option.some_injective _), hsome, ← hall]
  exact h.once.map _

end Finding

/-! ## Counts -/

/-- Whether a summary counts findings: each of them as passed or failed, and each transition once. -/
structure Summary.Counts (s : Summary) (fs : List Finding) : Prop where
  assertions : s.assertions = fs.length
  total : s.passed + s.failed = s.assertions
  failed : s.failed = fs.countP (!·.passed)
  transitions : s.transitions = (fs.map (·.transitionId)).toFinset.card

/-- The items of the list that an object has under a name. -/
def Json.listed (name : Text) : Json → List Json
  | .obj members =>
    match Json.get members name with
    | .arr items => items
    | _ => []
  | _ => []

namespace Report

/-- The results in a document, one transition after the other. -/
def resultsIn (document : Json) : List Json := (document.listed "transitions").flatMap (Json.listed "results")

variable (r : Report)

theorem counts_summary : r.summary.Counts r.findings where
  assertions := rfl
  total := Nat.sub_add_cancel (List.length_filter_le _ _)
  failed := List.countP_eq_length_filter.symm
  transitions := by
    have hids : (r.findings.map (·.transitionId)).eraseDups.toFinset = (r.findings.map (·.transitionId)).toFinset := by
      ext id
      simp
    rw [← hids, List.toFinset_card_of_nodup (nodup_eraseDups _)]
    exact List.length_map _

theorem passed_iff_failures : r.passed = true ↔ r.failures = [] := by
  simp [passed, failures, List.filter_eq_nil_iff]

theorem allPassed_iff_failures : r.summary.allPassed = true ↔ r.failures = [] := by
  simp [summary, Summary.allPassed]

theorem verdict_eq_pass_iff {passed : Bool} : Finding.verdict passed = ("PASS" : Text) ↔ passed = true := by
  cases passed <;> decide

theorem resultsIn_toJson : resultsIn r.toJson = (r.byTransition.flatMap (·.2)).map Finding.toJson := by
  have hlisted : r.toJson.listed "transitions" = r.byTransition.map fun g =>
      .obj [("transition_id", .int g.1), ("transition_type", .str (typeOf g.2)),
        ("results", .arr (g.2.map Finding.toJson))] := rfl
  rw [resultsIn, hlisted, List.flatMap_map, List.map_flatMap]
  rfl

/-- Grouped by transition or by rule, the findings of a report are divided up. Its summary counts them, it has passed
exactly if the summary says so and exactly if nothing failed, and its document holds the result of each of them once. -/
theorem divides_and_counts :
    (∃ places, Finding.Divides (·.transitionId) r.findings r.byTransition places) ∧
      (∃ places, Finding.Divides (·.ruleId) r.findings r.byRule places) ∧
      r.summary.Counts r.findings ∧
      (r.passed = true ↔ Finding.verdict r.summary.allPassed = ("PASS" : Text)) ∧
      (r.passed = true ↔ r.failures = []) ∧
      (resultsIn r.toJson).Perm (r.findings.map Finding.toJson) := by
  have hperm : (r.byTransition.flatMap (·.2)).Perm r.findings := Finding.divides_groupBy.perm
  refine ⟨⟨_, Finding.divides_groupBy⟩, ⟨_, Finding.divides_groupBy⟩, r.counts_summary, ?_, r.passed_iff_failures, ?_⟩
  · rw [verdict_eq_pass_iff, passed_iff_failures, allPassed_iff_failures]
  · rw [resultsIn_toJson]
    exact hperm.map _

end Report

end TransitionAudit
