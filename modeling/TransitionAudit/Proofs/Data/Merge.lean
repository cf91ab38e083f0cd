import TransitionAudit.Data.Merge
import Mathlib.Data.List.Nodup

/-!
# Merging trees of mappings

Documents whose mappings have texts as keys, and are not part of themselves, can always be laid over each
other. Under each key the result has what the overlay has there laid over what the base has there, or what
only one of them has.
-/

namespace TransitionAudit

/-! ## Keys that are texts -/

theorem Scalar.sameKey_text_right (a : Scalar) (t : Text) : a.sameKey (.text t) = decide (a = .text t) := by
  cases a <;> simp [sameKey, whole?]

namespace Entries

/-- All keys are texts, each of them written once. -/
def TextKeyed {β : Type} (es : List (Scalar × β)) : Prop :=
  (∀ e ∈ es, ∃ s, e.1 = .text s) ∧ (es.map (·.1)).Nodup

theorem get?_nil (s : Text) : get? [] s = none := rfl

theorem get?_cons (k : Scalar) (v : Value) (es : Entries) (s : Text) :
    get? ((k, v) :: es) s = if k = .text s then some v else get? es s := by
  simp only [get?, value?, List.find?_cons, Scalar.sameKey_text_right]
  by_cases h : k = .text s <;> simp [h]

theorem get?_put (k : Text) (v : Value) (es : Entries) (s : Text) :
    get? (put (.text k) v es) s = if k = s then some v else get? es s := by
  induction es with
  | nil => simp [put, get?_cons]
  | cons e es ih =>
      obtain ⟨k', v'⟩ := e
      simp only [put, Scalar.sameKey_text_right, decide_eq_true_eq]
      by_cases hk : k' = .text k
      · by_cases hs : k = s <;> simp [get?_cons, hk, hs]
      · by_cases hs : k = s
        · subst hs
          simp [get?_cons, hk, ih]
        · simp [get?_cons, hk, hs, ih]

theorem mem_of_get? {es : Entries} {s : Text} {v : Value} (h : get? es s = some v) : (.text s, v) ∈ es := by
  induction es with
  | nil => simp [get?_nil] at h
  | cons e es ih =>
      obtain ⟨k, v'⟩ := e
      rw [get?_cons] at h
      by_cases hk : k = .text s
      · simp only [hk, ↓reduceIte, Option.some.injEq] at h
        simp [hk, h]
      · simp only [hk, ↓reduceIte] at h
        exact List.mem_cons_of_mem _ (ih h)

theorem get?_eq_none_iff {es : Entries} {s : Text} : get? es s = none ↔ ∀ v, (.text s, v) ∉ es := by
  induction es with
  | nil => simp [get?_nil]
  | cons e es ih =>
      obtain ⟨k, v⟩ := e
      by_cases hk : k = .text s
      · subst hk
        simp only [get?_cons, ↓reduceIte, reduceCtorEq, false_iff, not_forall, not_not]
        exact ⟨v, List.mem_cons_self⟩
      · simp only [get?_cons, hk, ↓reduceIte, ih, List.mem_cons, Prod.mk.injEq, Ne.symm hk, false_and,
          false_or]

theorem get?_of_mem {es : Entries} (h : TextKeyed es) {s : Text} {v : Value} (hmem : (.text s, v) ∈ es) :
    get? es s = some v := by
  cases hg : get? es s with
  | none => exact absurd hmem (get?_eq_none_iff.mp hg v)
  | some v' =>
      have hsame := List.inj_on_of_nodup_map h.2 (mem_of_get? hg) hmem rfl
      exact congrArg some (Prod.mk.inj hsame).2

/-! ## Keys of the result -/

theorem mem_put {k : Scalar} {v : Value} {es : Entries} {e : Scalar × Value} (h : e ∈ put k v es) :
    e.2 = v ∨ e ∈ es := by
  induction es with
  | nil =>
      simp only [put, List.mem_singleton] at h
      simp [h]
  | cons e' es ih =>
      obtain ⟨k', v'⟩ := e'
      simp only [put] at h
      split at h
      · rcases List.mem_cons.mp h with rfl | h
        · exact Or.inl rfl
        · exact Or.inr (List.mem_cons_of_mem _ h)
      · rcases List.mem_cons.mp h with rfl | h
        · exact Or.inr List.mem_cons_self
        · exact (ih h).imp_right (List.mem_cons_of_mem _)

/-- A known key keeps its place, a new one comes last. -/
theorem map_fst_put (k : Text) (v : Value) (es : Entries) :
    (put (.text k) v es).map (·.1) =
      if Scalar.text k ∈ es.map (·.1) then es.map (·.1) else es.map (·.1) ++ [.text k] := by
  induction es with
  | nil => rfl
  | cons e es ih =>
      obtain ⟨k', v'⟩ := e
      simp only [put, Scalar.sameKey_text_right, decide_eq_true_eq]
      by_cases hk : k' = .text k
      · simp [hk]
      · rw [if_neg hk, List.map_cons, ih]
        by_cases hmem : Scalar.text k ∈ es.map (·.1) <;> simp [hmem, Ne.symm hk]

theorem TextKeyed.put {es : Entries} (h : TextKeyed es) (k : Text) (v : Value) :
    TextKeyed (put (.text k) v es) := by
  have htext : ∀ key ∈ es.map (·.1), ∃ s, key = .text s := by simpa using h.1
  have hkeys : ∀ key ∈ (Entries.put (.text k) v es).map (·.1), ∃ s, key = .text s := by
    rw [map_fst_put]
    split
    · exact htext
    · intro key hkey
      rcases List.mem_append.mp hkey with hkey | hkey
      · exact htext key hkey
      · exact ⟨k, List.mem_singleton.mp hkey⟩
  refine ⟨fun e he => hkeys e.1 (List.mem_map_of_mem he), ?_⟩
  rw [map_fst_put]
  split
  · exact h.2
  · rename_i hnew
    rw [List.nodup_append]
    exact ⟨h.2, List.nodup_singleton _, fun a ha b hb hab => hnew (by simp_all)⟩

end Entries

/-! ## Trees -/

/-- A value that is no mapping, or a mapping with distinct texts as keys down to values of the first kind.
Lists and other collections that are no mappings are taken as they are. -/
inductive Value.IsTree : Value → Prop
  | leaf {v : Value} (h : v.entries? = none) : IsTree v
  | map {es : Entries} (keys : Entries.TextKeyed es) (values : ∀ e ∈ es, IsTree e.2) : IsTree (.map es)

theorem Value.IsTree.eq_map {v : Value} {es : Entries} (h : v.IsTree) (hes : v.entries? = some es) :
    v = .map es := by
  cases h with
  | leaf h => simp [h] at hes
  | map keys values =>
      simp only [entries?, Option.some.injEq] at hes
      rw [hes]

theorem Value.IsTree.keys {es : Entries} (h : (Value.map es).IsTree) : Entries.TextKeyed es := by
  cases h with
  | leaf h => simp [entries?] at h
  | map keys values => exact keys

theorem Value.IsTree.values {es : Entries} (h : (Value.map es).IsTree) : ∀ e ∈ es, e.2.IsTree := by
  cases h with
  | leaf h => simp [entries?] at h
  | map keys values => exact values

theorem Value.IsTree.get? {es : Entries} (h : (Value.map es).IsTree) {s : Text} {v : Value}
    (hv : Entries.get? es s = some v) : v.IsTree :=
  h.values _ (Entries.mem_of_get? hv)

theorem Value.over_of_leaf {v : Value} (h : v.entries? = none) (below : Option Value) :
    v.over below = .ok v := by
  cases v <;> simp_all [Value.over, entries?]

theorem Value.IsTree.put {es : Entries} (h : (Value.map es).IsTree) (k : Text) {v : Value} (hv : v.IsTree) :
    (Value.map (Entries.put (.text k) v es)).IsTree := by
  refine .map (h.keys.put k v) ?_
  intro e he
  rcases Entries.mem_put he with hev | he
  · exact hev ▸ hv
  · exact h.values e he

/-! ## Sorting and setting entries -/

theorem exists_named_of_text {β : Type} {es : List (Scalar × β)} (h : ∀ e ∈ es, ∃ s, e.1 = .text s) :
    ∃ named : List (Text × β), es.mapM textEntry? = some named ∧
      named.map (fun e => (Scalar.text e.1, e.2)) = es := by
  induction es with
  | nil => exact ⟨[], rfl, rfl⟩
  | cons e es ih =>
      obtain ⟨⟨s, hs⟩, hes⟩ := List.forall_mem_cons.mp h
      obtain ⟨named, hnamed, hmap⟩ := ih hes
      obtain ⟨k, x⟩ := e
      simp only at hs
      exact ⟨(s, x) :: named, by simp [hs, hnamed, textEntry?], by simp [hs, hmap]⟩

theorem sortEntries_of_text {β : Type} {es : List (Scalar × β)} (h : ∀ e ∈ es, ∃ s, e.1 = .text s) :
    ∃ sorted, sortEntries es = .ok sorted ∧ sorted.Perm es := by
  obtain ⟨named, hnamed, hmap⟩ := exists_named_of_text h
  unfold sortEntries
  rw [hnamed]
  refine ⟨_, rfl, ?_⟩
  rw [← hmap]
  exact (List.mergeSort_perm _ _).map _

theorem Entries.putAll_ok {es : List (Scalar × Except OrderFault Value)} {base : Entries} (hes : TextKeyed es)
    (hvalues : ∀ e ∈ es, ∃ v, e.2 = .ok v ∧ v.IsTree) (hbase : (Value.map base).IsTree) :
    ∃ merged, putAll base es = .ok merged ∧ (Value.map merged).IsTree ∧
      (∀ s v, (.text s, .ok v) ∈ es → get? merged s = some v) ∧
      ∀ s, (∀ x, (.text s, x) ∉ es) → get? merged s = get? base s := by
  induction es generalizing base with
  | nil => exact ⟨base, rfl, hbase, by simp, fun _ _ => rfl⟩
  | cons e es ih =>
      obtain ⟨key, x⟩ := e
      obtain ⟨⟨v, rfl, hv⟩, hrest⟩ := List.forall_mem_cons.mp hvalues
      obtain ⟨⟨k, rfl⟩, htexts⟩ := List.forall_mem_cons.mp hes.1
      rw [TextKeyed, List.map_cons, List.nodup_cons] at hes
      obtain ⟨merged, hput, htree, hset, hkept⟩ := ih ⟨htexts, hes.2.2⟩ hrest (hbase.put k hv)
      -- no later entry has the key of the first one
      have hfirst : get? merged k = some v := by
        rw [hkept k fun x hx => hes.2.1 (List.mem_map.mpr ⟨_, hx, rfl⟩), get?_put, if_pos rfl]
      refine ⟨merged, hput, htree, ?_, ?_⟩
      · intro s v' hmem
        rcases List.mem_cons.mp hmem with heq | hmem
        · obtain ⟨rfl, rfl⟩ : s = k ∧ v' = v := by simpa using heq
          exact hfirst
        · exact hset s v' hmem
      · intro s hs
        have hne : k ≠ s := by
          rintro rfl
          exact hs (.ok v) List.mem_cons_self
        rw [hkept s fun x hx => hs x (List.mem_cons_of_mem _ hx), get?_put, if_neg hne]

/-! ## Merging -/

theorem Entries.over_eq_map (base overlay : Entries) :
    Entries.over base overlay = overlay.map fun e => (e.1, e.2.over (value? base e.1)) := by
  induction overlay with
  | nil => rfl
  | cons e overlay ih => rw [List.map_cons, ← ih, Entries.over]

/-- Entries laid over a base, given that each of their values can be laid over any tree. -/
theorem Entries.merge_of_values {base overlay : Entries} (hbase : (Value.map base).IsTree)
    (hkeys : TextKeyed overlay)
    (hvalues : ∀ e ∈ overlay, ∀ below, (∀ b, below = some b → b.IsTree) →
      ∃ x, e.2.over below = .ok x ∧ x.IsTree) :
    ∃ merged, Entries.merge base overlay = .ok merged ∧ (Value.map merged).IsTree ∧
      (∀ s, get? overlay s = none → get? merged s = get? base s) ∧
      ∀ s v, get? overlay s = some v → ∃ x, v.over (get? base s) = .ok x ∧ get? merged s = some x := by
  have htexts : ∀ e ∈ Entries.over base overlay, ∃ s, e.1 = .text s := by
    rw [over_eq_map, List.forall_mem_map]
    exact hkeys.1
  have hkeep : (Entries.over base overlay).map (·.1) = overlay.map (·.1) := by
    rw [over_eq_map, List.map_map]
    rfl
  obtain ⟨sorted, hsort, hperm⟩ := sortEntries_of_text htexts
  have hsorted : TextKeyed sorted := by
    refine ⟨fun e he => htexts e (hperm.mem_iff.mp he), ?_⟩
    rw [(hperm.map _).nodup_iff, hkeep]
    exact hkeys.2
  have hover : ∀ e ∈ overlay, ∃ x, e.2.over (value? base e.1) = .ok x ∧ x.IsTree := by
    intro e he
    obtain ⟨s, hs⟩ := hkeys.1 e he
    refine hvalues e he _ fun b hb => ?_
    rw [hs] at hb
    exact hbase.get? hb
  have hok : ∀ e ∈ sorted, ∃ v, e.2 = .ok v ∧ v.IsTree := by
    intro e he
    have hmem := hperm.mem_iff.mp he
    rw [over_eq_map, List.mem_map] at hmem
    obtain ⟨e', he', rfl⟩ := hmem
    exact hover e' he'
  obtain ⟨merged, hput, htree, hset, hkept⟩ := putAll_ok hsorted hok hbase
  refine ⟨merged, by rw [Entries.merge, hsort]; exact hput, htree, ?_, ?_⟩
  · intro s hs
    refine hkept s fun x hx => ?_
    have hmem := hperm.mem_iff.mp hx
    rw [over_eq_map, List.mem_map] at hmem
    obtain ⟨e, he, heq⟩ := hmem
    obtain ⟨hk, -⟩ := Prod.mk.inj heq
    exact get?_eq_none_iff.mp hs e.2 (hk ▸ he)
  · intro s v hv
    have hmem := mem_of_get? hv
    obtain ⟨x, hx, -⟩ := hover _ hmem
    refine ⟨x, hx, hset s x (hperm.mem_iff.mpr ?_)⟩
    rw [over_eq_map, List.mem_map]
    exact ⟨_, hmem, by rw [← hx]⟩

/-- A tree can be laid over any tree, and over nothing. -/
theorem Value.IsTree.over {v : Value} (hv : v.IsTree) (below : Option Value)
    (hbelow : ∀ b, below = some b → b.IsTree) : ∃ x, v.over below = .ok x ∧ x.IsTree := by
  induction hv generalizing below with
  | leaf h => exact ⟨_, over_of_leaf h below, .leaf h⟩
  | @map es keys values ih =>
      cases hbase : below.bind entries? with
      | none => exact ⟨.map es, by simp only [Value.over, hbase], .map keys values⟩
      | some base =>
          obtain ⟨b, hb, hentries⟩ := Option.bind_eq_some_iff.mp hbase
          obtain rfl := (hbelow b hb).eq_map hentries
          subst hb
          obtain ⟨merged, hmerge, htree, -, -⟩ := Entries.merge_of_values (hbelow _ rfl) keys ih
          exact ⟨.map merged, by rw [over_map, hmerge]; rfl, htree⟩

/-- One document laid over another one: what it has under a key is laid over what the other one has there,
and where it has nothing the other one shows. -/
theorem Entries.merge_ok {base overlay : Entries} (hbase : (Value.map base).IsTree)
    (hoverlay : (Value.map overlay).IsTree) :
    ∃ merged, Entries.merge base overlay = .ok merged ∧ (Value.map merged).IsTree ∧
      (∀ s, get? overlay s = none → get? merged s = get? base s) ∧
      ∀ s v, get? overlay s = some v → ∃ x, v.over (get? base s) = .ok x ∧ get? merged s = some x :=
  merge_of_values hbase hoverlay.keys fun e he => (hoverlay.values e he).over

/-! ## Trees are not part of themselves -/

theorem Value.size_le_of_mem {es : Entries} {e : Scalar × Value} (h : e ∈ es) :
    e.2.size ≤ sizeOfEntries es := by
  induction es with
  | nil => cases h
  | cons e' es ih =>
      obtain ⟨k, v⟩ := e'
      simp only [sizeOfEntries]
      rcases List.mem_cons.mp h with rfl | h
      · exact Nat.le_add_right _ _
      · exact Nat.le_trans (ih h) (Nat.le_add_left _ _)

theorem Value.size_pos (v : Value) : 0 < v.size := by
  cases v <;> simp [size]

theorem mapM_eq_some_self {β : Type} {f : β → Option β} {xs : List β} (h : ∀ x ∈ xs, f x = some x) :
    xs.mapM f = some xs := by
  induction xs with
  | nil => rfl
  | cons x xs ih =>
      obtain ⟨hx, hxs⟩ := List.forall_mem_cons.mp h
      rw [List.mapM_cons, hx, ih hxs]
      rfl

theorem Value.IsTree.unrolled {v : Value} (hv : v.IsTree) {fuel : Nat} (hfuel : v.size < fuel)
    (below : Value) :
    Value.unrolled fuel v below = some v := by
  induction hv generalizing fuel below with
  | leaf h =>
      cases fuel with
      | zero => cases hfuel
      | succ fuel => simp only [Value.unrolled, h]
  | @map es keys values ih =>
      cases fuel with
      | zero => cases hfuel
      | succ fuel =>
          have hentries : (Value.map es).entries? = some es := rfl
          cases hbelow : below.entries? with
          | none => simp only [Value.unrolled, hentries, hbelow]
          | some base =>
              simp only [Value.unrolled, hentries, hbelow]
              rw [mapM_eq_some_self]
              · rfl
              · intro e he
                have hsize : e.2.size < fuel :=
                  Nat.lt_of_le_of_lt (size_le_of_mem he) (by simpa [size] using hfuel)
                cases Entries.value? base e.1 with
                | none => rfl
                | some b => simp only [ih e he hsize, Option.map_some]

theorem Entries.layOver_eq_merge {overlay : Entries} (h : (Value.map overlay).IsTree) (base : Entries) :
    Entries.layOver base overlay = (Entries.merge base overlay).mapError .order := by
  have hfuel : (Value.map overlay).size < (Value.map overlay).size * (Value.map base).size + 1 :=
    Nat.lt_succ_of_le (Nat.le_mul_of_pos_right _ (Value.size_pos _))
  rw [layOver, Value.unrolledOver, h.unrolled hfuel]

end TransitionAudit
