import TransitionAudit.Proofs.Data.Merge
import TransitionAudit.Proofs.Data.Result
import TransitionAudit.Proofs.Text.Order
import Mathlib

/-!
# What an overlay makes of a base

Which entries an overlay and a base make together is said by the two alone, from one level of mappings to the next,
and merging gives just these. Laying the same overlay over them once more changes nothing.
-/

namespace TransitionAudit

namespace Entries

/-- Whether entries have the keys of a base in their places, and behind them those that only an overlay has, in the
order of their code points. -/
def KeysOverlaid (base overlay merged : Entries) : Prop :=
  ∃ added : List Text, merged.map (·.1) = base.map (·.1) ++ added.map .text ∧ added.Pairwise (· < ·) ∧
    ∀ s, s ∈ added ↔ get? base s = none ∧ get? overlay s ≠ none

/-- Whether entries are those of a base with those of an overlay over them: where both have a mapping, one that is
made of the two in the same way, else what the overlay has, and what the base has where the overlay has nothing. -/
inductive Overlaid : Entries → Entries → Entries → Prop
  | level {base overlay merged : Entries} (keys : KeysOverlaid base overlay merged)
      (kept : ∀ s, get? overlay s = none → get? merged s = get? base s)
      (replaced : ∀ s v, get? overlay s = some v → (∀ b o, get? base s = some (.map b) → v ≠ .map o) →
        get? merged s = some v)
      (mapping : ∀ s b o, get? base s = some (.map b) → get? overlay s = some (.map o) →
        ∃ m, get? merged s = some (.map m))
      (inside : ∀ s b o m, get? base s = some (.map b) → get? overlay s = some (.map o) →
        get? merged s = some (.map m) → Overlaid b o m) : Overlaid base overlay merged

/-! ## Keys -/

theorem get?_eq_none_iff_notMem {es : Entries} {s : Text} : get? es s = none ↔ Scalar.text s ∉ es.map (·.1) := by
  rw [get?_eq_none_iff]
  simp

/-- Entries with texts as keys are sorted by code points. -/
theorem exists_names_of_sortEntries {β : Type} {es sorted : List (Scalar × β)} (h : TextKeyed es)
    (hsorted : sortEntries es = .ok sorted) :
    ∃ names : List Text, sorted.map (·.1) = names.map .text ∧ names.Pairwise (· < ·) := by
  obtain ⟨named, hnamed, hmap⟩ := exists_named_of_text h.1
  have hnodup : (named.map (·.1)).Nodup := by
    have hkeys := h.2
    rw [← hmap, List.map_map] at hkeys
    exact List.Nodup.of_map Scalar.text (by rwa [List.map_map])
  unfold sortEntries at hsorted
  rw [hnamed, Except.ok.injEq] at hsorted
  refine ⟨_, ?_, Text.pairwise_lt_mergeSort hnodup⟩
  rw [← hsorted, List.map_map, List.map_map]
  rfl

/-- Setting entries keeps the keys of the base in their places; new ones come last, in the order in which they are
set. -/
theorem map_fst_putAll {es : List (Scalar × Except OrderFault Value)} {base merged : Entries} (h : TextKeyed es)
    (hput : putAll base es = .ok merged) :
    merged.map (·.1) = base.map (·.1) ++ (es.map (·.1)).filter (· ∉ base.map (·.1)) := by
  induction es generalizing base with
  | nil =>
      cases hput
      simp
  | cons e es ih =>
      obtain ⟨key, x⟩ := e
      obtain ⟨⟨k, rfl⟩, htexts⟩ := List.forall_mem_cons.mp h.1
      rw [TextKeyed, List.map_cons, List.nodup_cons] at h
      obtain ⟨v, rfl, hput⟩ := Except.bind_eq_ok_iff.mp hput
      rw [ih ⟨htexts, h.2.2⟩ hput, map_fst_put, List.map_cons]
      split
      · rename_i hknown
        rw [List.filter_cons_of_neg (by simpa using hknown)]
      · rename_i hnew
        -- no later entry has the key that has just been added
        have hrest : ((es.map (·.1)).filter fun key => key ∉ base.map (·.1) ++ [Scalar.text k]) =
            (es.map (·.1)).filter fun key => key ∉ base.map (·.1) := by
          refine List.filter_congr fun key hkey => ?_
          have hne : key ≠ .text k := fun heq => h.2.1 (heq ▸ hkey)
          simp [hne]
        rw [List.filter_cons_of_pos (by simpa using hnew), hrest, List.append_assoc]
        rfl

variable {base overlay merged : Entries}

theorem textKeyed_over (hkeys : TextKeyed overlay) : TextKeyed (Entries.over base overlay) := by
  have hfst : (Entries.over base overlay).map (·.1) = overlay.map (·.1) := by
    rw [over_eq_map, List.map_map]
    rfl
  refine ⟨?_, hfst ▸ hkeys.2⟩
  rw [over_eq_map, List.forall_mem_map]
  exact hkeys.1

theorem keysOverlaid_of_merge (hkeys : TextKeyed overlay) (h : merge base overlay = .ok merged) :
    KeysOverlaid base overlay merged := by
  obtain ⟨sorted, hsorted, hput⟩ := Except.bind_eq_ok_iff.mp h
  have hover : TextKeyed (Entries.over base overlay) := textKeyed_over hkeys
  obtain ⟨names, hnames, hlt⟩ := exists_names_of_sortEntries hover hsorted
  obtain ⟨_, hsorted', hperm⟩ := sortEntries_of_text hover.1
  obtain rfl := Except.ok.inj (hsorted.symm.trans hsorted')
  have hfst : (sorted.map (·.1)).Perm (overlay.map (·.1)) := by
    have hmap := hperm.map (·.1)
    rwa [over_eq_map, List.map_map] at hmap
  have htextKeyed : TextKeyed sorted :=
    ⟨fun e he => hover.1 e (hperm.mem_iff.mp he), hfst.nodup_iff.mpr hkeys.2⟩
  refine ⟨names.filter fun s => Scalar.text s ∉ base.map (·.1), ?_, hlt.filter _, fun s => ?_⟩
  · rw [map_fst_putAll htextKeyed hput, hnames, List.filter_map]
    rfl
  · have hmem : s ∈ names ↔ Scalar.text s ∈ overlay.map (·.1) := by
      rw [← hfst.mem_iff, hnames, List.mem_map_of_injective fun _ _ => Scalar.text.inj]
    rw [List.mem_filter, decide_eq_true_eq, hmem, get?_eq_none_iff_notMem, ne_eq, get?_eq_none_iff_notMem, not_not,
      and_comm]

theorem KeysOverlaid.get?_eq_none_iff (h : KeysOverlaid base overlay merged) {s : Text} :
    get? merged s = none ↔ get? base s = none ∧ get? overlay s = none := by
  obtain ⟨added, hkeys, -, hmem⟩ := h
  have hadded : Scalar.text s ∈ added.map .text ↔ get? base s = none ∧ get? overlay s ≠ none := by
    rw [List.mem_map_of_injective fun _ _ => Scalar.text.inj, hmem]
  rw [get?_eq_none_iff_notMem, hkeys, List.mem_append, hadded, not_or, ← get?_eq_none_iff_notMem]
  exact and_congr_right fun hbase => by simp [hbase]

/-! ## Values -/

end Entries

theorem Value.IsTree.over_of_ne {v : Value} (hv : v.IsTree) {below : Option Value}
    (hbelow : ∀ b, below = some b → b.IsTree) (hne : ∀ b o, below = some (.map b) → v ≠ .map o) :
    v.over below = .ok v := by
  cases hv with
  | leaf h => exact over_of_leaf h below
  | @map es keys values =>
      cases hbase : below.bind entries? with
      | none => simp only [Value.over, hbase]
      | some base =>
          obtain ⟨b, hb, hentries⟩ := Option.bind_eq_some_iff.mp hbase
          obtain rfl := (hbelow b hb).eq_map hentries
          exact absurd rfl (hne base es hb)

namespace Entries

variable {base overlay merged : Entries}

/-- Merging lays the overlay over the base, at every level. -/
theorem overlaid_of_merge (hbase : (Value.map base).IsTree) (hoverlay : (Value.map overlay).IsTree)
    (h : merge base overlay = .ok merged) : Overlaid base overlay merged := by
  generalize hv : Value.map overlay = v at hoverlay
  induction hoverlay generalizing base overlay merged with
  | leaf hleaf =>
      subst hv
      cases hleaf
  | @map es keys values ih =>
      obtain rfl := Value.map.inj hv
      obtain ⟨_, hmerge, -, hkept, hset⟩ := merge_ok hbase (.map keys values)
      obtain rfl := Except.ok.inj (h.symm.trans hmerge)
      have hinside : ∀ s b o, get? base s = some (.map b) → get? overlay s = some (.map o) →
          ∃ m, merge b o = .ok m ∧ get? merged s = some (.map m) := by
        intro s b o hb ho
        obtain ⟨x, hx, hget⟩ := hset s _ ho
        rw [hb, Value.over_map, Except.map_eq_ok_iff] at hx
        obtain ⟨m, hm, rfl⟩ := hx
        exact ⟨m, hm, hget⟩
      refine .level (keysOverlaid_of_merge keys h) hkept ?_ ?_ ?_
      · intro s v hs hne
        obtain ⟨x, hx, hget⟩ := hset s v hs
        have hv := values _ (mem_of_get? hs)
        rw [hv.over_of_ne (fun b hb => hbase.get? hb) hne] at hx
        exact hget.trans (congrArg some (Except.ok.inj hx).symm)
      · intro s b o hb ho
        obtain ⟨m, -, hget⟩ := hinside s b o hb ho
        exact ⟨m, hget⟩
      · intro s b o m hb ho hm
        obtain ⟨m', hmerge', hget⟩ := hinside s b o hb ho
        obtain rfl := Value.map.inj (Option.some.inj (hm.symm.trans hget))
        exact ih _ (mem_of_get? ho) (hbase.get? hb) hmerge' rfl

/-! ## Only one result -/

theorem KeysOverlaid.unique {merged' : Entries} (h : KeysOverlaid base overlay merged)
    (h' : KeysOverlaid base overlay merged') : merged.map (·.1) = merged'.map (·.1) := by
  obtain ⟨added, hkeys, hlt, hmem⟩ := h
  obtain ⟨added', hkeys', hlt', hmem'⟩ := h'
  have hsame : added = added' := hlt.eq_of_mem_iff hlt' fun s => (hmem s).trans (hmem' s).symm
  rw [hkeys, hkeys', hsame]

/-- The keys of a base that are distinct texts stay so with those of an overlay. -/
theorem KeysOverlaid.textKeyed (h : KeysOverlaid base overlay merged) (hbase : TextKeyed base) : TextKeyed merged := by
  obtain ⟨added, hkeys, hlt, hmem⟩ := h
  have htexts : ∀ key ∈ merged.map (·.1), ∃ s, key = .text s := by
    rw [hkeys, List.forall_mem_append]
    exact ⟨by simpa using hbase.1, by simp⟩
  refine ⟨by simpa using htexts, ?_⟩
  rw [hkeys, List.nodup_append]
  refine ⟨hbase.2, (hlt.imp Text.ne_of_lt).map _ fun _ _ hne heq => hne (Scalar.text.inj heq), ?_⟩
  rintro key hkey _ hadded rfl
  obtain ⟨s, hs, rfl⟩ := List.mem_map.mp hadded
  exact get?_eq_none_iff_notMem.mp ((hmem s).mp hs).1 hkey

/-- Entries with the same keys in the same places, and the same values under them, are the same. -/
theorem eq_of_get? {es es' : Entries} (h : TextKeyed es) (hkeys : es.map (·.1) = es'.map (·.1))
    (hget : ∀ s, get? es s = get? es' s) : es = es' := by
  induction es generalizing es' with
  | nil => exact (List.map_eq_nil_iff.mp hkeys.symm).symm
  | cons e es ih =>
      obtain ⟨key, v⟩ := e
      obtain ⟨e', es', rfl⟩ := List.exists_cons_of_ne_nil fun hnil : es' = [] => by simp [hnil] at hkeys
      obtain ⟨key', v'⟩ := e'
      obtain ⟨⟨k, rfl⟩, htexts⟩ := List.forall_mem_cons.mp h.1
      rw [TextKeyed, List.map_cons, List.nodup_cons] at h
      obtain ⟨hkey, hrest⟩ := List.cons.inj hkeys
      have hfirst := hget k
      rw [get?_cons, get?_cons, if_pos rfl, if_pos hkey.symm, Option.some.injEq] at hfirst
      have htail : es = es' := by
        refine ih ⟨htexts, h.2.2⟩ hrest fun s => ?_
        by_cases hs : s = k
        · subst hs
          rw [get?_eq_none_iff_notMem.mpr h.2.1, get?_eq_none_iff_notMem.mpr (hrest ▸ h.2.1)]
        · have hother := hget s
          rwa [get?_cons, get?_cons, if_neg, if_neg] at hother
          · exact fun heq => hs (Scalar.text.inj (hkey.trans heq)).symm
          · exact fun heq => hs (Scalar.text.inj heq).symm
      exact congrArg₂ List.cons (Prod.ext hkey hfirst) htail

theorem Overlaid.unique {merged' : Entries} (hbase : (Value.map base).IsTree) (h : Overlaid base overlay merged)
    (h' : Overlaid base overlay merged') : merged = merged' := by
  induction h generalizing merged' with
  | @level base overlay merged keys kept replaced mapping inside ih =>
      obtain ⟨keys', kept', replaced', mapping', inside'⟩ := h'
      refine eq_of_get? (keys.textKeyed hbase.keys) (keys.unique keys') fun s => ?_
      cases ho : get? overlay s with
      | none => rw [kept s ho, kept' s ho]
      | some v =>
          by_cases hboth : ∀ b o, get? base s = some (.map b) → v ≠ .map o
          · rw [replaced s v ho hboth, replaced' s v ho hboth]
          · push Not at hboth
            obtain ⟨b, o, hb, rfl⟩ := hboth
            obtain ⟨m, hm⟩ := mapping s b o hb ho
            obtain ⟨m', hm'⟩ := mapping' s b o hb ho
            rw [hm, hm', ih s b o m hb ho hm (hbase.get? hb) (inside' s b o m' hb ho hm')]

/-! ## The same overlay once more -/

/-- Entries laid over themselves are what they were. -/
theorem overlaid_self (h : (Value.map base).IsTree) : Overlaid base base base := by
  generalize hv : Value.map base = v at h
  induction h generalizing base with
  | leaf hleaf =>
      subst hv
      cases hleaf
  | @map es keys values ih =>
      obtain rfl := Value.map.inj hv
      refine .level ⟨[], by simp, .nil, by simp⟩ (fun _ _ => rfl) (fun _ _ hs _ => hs) (fun _ b _ hb _ => ⟨b, hb⟩) ?_
      intro s b o m hb ho hm
      obtain rfl := Value.map.inj (Option.some.inj (hb.symm.trans ho))
      obtain rfl := Value.map.inj (Option.some.inj (hb.symm.trans hm))
      exact ih _ (mem_of_get? hb) rfl

/-- What an overlay has made of a base is not changed by the same overlay. -/
theorem Overlaid.again (h : Overlaid base overlay merged) (hoverlay : (Value.map overlay).IsTree) :
    Overlaid merged overlay merged := by
  induction h with
  | @level base overlay merged keys kept replaced mapping inside ih =>
      refine .level ⟨[], by simp, .nil, fun s => ?_⟩ (fun _ _ => rfl) ?_ ?_ ?_
      · simpa using fun hnone => (keys.get?_eq_none_iff.mp hnone).2
      · intro s v hs hne
        refine replaced s v hs fun b o hb => ?_
        rintro rfl
        obtain ⟨m, hm⟩ := mapping s b o hb hs
        exact hne m o hm rfl
      · exact fun _ m _ hm _ => ⟨m, hm⟩
      · intro s b o m hb ho hm
        obtain rfl := Value.map.inj (Option.some.inj (hb.symm.trans hm))
        by_cases hmapping : ∃ below, get? base s = some (.map below)
        · obtain ⟨below, hbelow⟩ := hmapping
          exact ih s below o b hbelow ho hm (hoverlay.get? ho)
        · -- the overlay's mapping has been taken whole
          have hwhole := replaced s _ ho fun below _ hbelow => absurd ⟨below, hbelow⟩ hmapping
          obtain rfl := Value.map.inj (Option.some.inj (hm.symm.trans hwhole))
          exact overlaid_self (hoverlay.get? ho)

/-- A document laid over another one can always be merged with it. The result is the one document with the keys and
values of both, level by level, and the same overlay changes it no more, not even the order of its keys. -/
theorem merge_exact (hbase : (Value.map base).IsTree) (hoverlay : (Value.map overlay).IsTree) :
    ∃ merged, merge base overlay = .ok merged ∧ (∀ result, Overlaid base overlay result ↔ result = merged) ∧
      merge merged overlay = .ok merged := by
  obtain ⟨merged, hmerge, htree, -, -⟩ := merge_ok hbase hoverlay
  have hoverlaid := overlaid_of_merge hbase hoverlay hmerge
  refine ⟨merged, hmerge, fun result => ⟨fun h => h.unique hbase hoverlaid, fun h => h ▸ hoverlaid⟩, ?_⟩
  obtain ⟨again, hagain, -, -, -⟩ := merge_ok htree hoverlay
  rw [hagain, (overlaid_of_merge htree hoverlay hagain).unique htree (hoverlaid.again hoverlay)]

/-- A document whose rules are not listed yet. -/
def draft : Entries :=
  [(.text "transitions", .scalar .null), (.text "limits", .map [(.text "depth", .scalar (.int 1))])]

/-- A document with rules for the draft, and with headings and keys that are not in order. -/
def additions : Entries :=
  [(.text "title", .scalar (.text "audit")), (.text "notes", .list []),
    (.text "limits", .map [(.text "width", .scalar (.int 3)), (.text "depth", .scalar (.int 2))]),
    (.text "transitions", .map [(.text "OPEN", .list []), (.text "ALL", .list [])])]

/-- The draft with the additions: a list of headings in the place of nothing keeps its own order. -/
def completed : Entries :=
  [(.text "transitions", .map [(.text "OPEN", .list []), (.text "ALL", .list [])]),
    (.text "limits", .map [(.text "depth", .scalar (.int 2)), (.text "width", .scalar (.int 3))]),
    (.text "notes", .list []), (.text "title", .scalar (.text "audit"))]

theorem isTree_draft : (Value.map draft).IsTree := by
  have hlimits : (Value.map [(.text "depth", .scalar (.int 1))]).IsTree :=
    .map (by simp [TextKeyed]) (by simpa using .leaf rfl)
  refine .map ⟨by simp [draft], by decide⟩ ?_
  simpa [draft] using ⟨.leaf rfl, hlimits⟩

theorem isTree_additions : (Value.map additions).IsTree := by
  have hlimits : (Value.map [(.text "width", .scalar (.int 3)), (.text "depth", .scalar (.int 2))]).IsTree :=
    .map ⟨by simp, by decide⟩ (by simpa using ⟨.leaf rfl, .leaf rfl⟩)
  have htransitions : (Value.map [(.text "OPEN", .list []), (.text "ALL", .list [])]).IsTree :=
    .map ⟨by simp, by decide⟩ (by simpa using .leaf rfl)
  refine .map ⟨by simp [additions], by decide⟩ ?_
  simpa [additions] using ⟨.leaf rfl, .leaf rfl, hlimits, htransitions⟩

theorem merge_exact_draft :
    (Value.map draft).IsTree ∧ (Value.map additions).IsTree ∧ merge draft additions = .ok completed ∧
      Overlaid draft additions completed ∧ merge completed additions = .ok completed := by
  have hcompleted : merge draft additions = .ok completed := by cbv
  obtain ⟨merged, hmerge, hoverlaid, hagain⟩ := merge_exact isTree_draft isTree_additions
  obtain rfl := Except.ok.inj (hcompleted.symm.trans hmerge)
  exact ⟨isTree_draft, isTree_additions, hcompleted, (hoverlaid _).mpr rfl, hagain⟩

end Entries

end TransitionAudit
