import TransitionAudit.Data.RunSort
import TransitionAudit.Proofs.Data.Result
import Mathlib.Data.List.Pairwise
import Mathlib.Data.List.Perm.Basic
import Mathlib.Order.Defs.Unbundled

/-!
# When elements are sorted

A sort by runs gives its elements in some order, or fails at a comparison without a result. It does not compare all
elements with each other; but runs are made and merged by comparisons, so that where having a result is symmetric
and transitive, elements are sorted exactly if any two of them compare.
-/

namespace TransitionAudit.RunSort

open Except

variable {α ε : Type} {less : α → α → Except ε Bool}

/-! ## Searching -/

/-- Whether a comparison of two elements has a result. -/
def Comparable (less : α → α → Except ε Bool) (a b : α) : Prop := ∃ r, less a b = .ok r

theorem yields_less (a b : α) : (less a b).Yields (Comparable less a b) fun _ => Comparable less a b := by
  cases h : less a b with
  | error fault =>
      rintro ⟨r, hr⟩
      cases h.symm.trans hr
  | ok r => exact ⟨r, h⟩

theorem yields_search {safe : Prop} {test : Nat → Except ε Bool} {T : Nat → Prop}
    (h : ∀ place, (test place).Yields safe fun _ => T place) (low high : Nat) :
    (search test low high).Yields safe fun _ =>
      low < high → ∃ place, low ≤ place ∧ place < high ∧ T place := by
  fun_induction search test low high with
  | case1 low high hlt middle ihAbove ihBelow =>
      have hmiddle : low ≤ middle ∧ middle < high := by omega
      refine (h middle).bind fun isLess hT => ?_
      have hhere : low < high → ∃ place, low ≤ place ∧ place < high ∧ T place :=
        fun _ => ⟨middle, hmiddle.1, hmiddle.2, hT⟩
      split
      · exact ihAbove.mono id fun _ _ => hhere
      · exact ihBelow.mono id fun _ _ => hhere
  | case2 low high hge => exact fun hlt => absurd hlt hge

theorem yields_leap {safe : Prop} {test : Nat → Except ε Bool} {T : Nat → Prop}
    (h : ∀ place, (test place).Yields safe fun _ => T place) (most last step : Nat) :
    (leap test most last step).Yields safe fun _ => True := by
  fun_induction leap test most last step with
  | case1 last step hlt ih =>
      refine (h step).bind fun goesOn _ => ?_
      split
      · exact ih
      · trivial
  | case2 => trivial

theorem yields_inPlace {safe : Prop} {test : α → Except ε Bool} {T : α → Prop} {xs : List α}
    (h : ∀ x ∈ xs, (test x).Yields safe fun _ => T x) (place : Nat) :
    (match xs[place]? with
      | some x => test x
      | none => .ok false).Yields safe fun _ => ∀ x, xs[place]? = some x → T x := by
  cases hx : xs[place]? with
  | none => exact fun _ hnone => nomatch hnone
  | some x =>
      refine (h x (List.mem_of_getElem? hx)).mono id fun _ hT y hy => ?_
      exact Option.some.inj hy ▸ hT

theorem yields_lessThanKey (key : α) (xs : List α) (place : Nat) :
    (lessThanKey less key xs place).Yields (∀ x ∈ xs, Comparable less x key)
      fun _ => ∀ x, xs[place]? = some x → Comparable less x key :=
  yields_inPlace (fun x hx => (yields_less x key).mono (fun h => h x hx) fun _ => id) place

theorem yields_keyLessThan (key : α) (xs : List α) (place : Nat) :
    (keyLessThan less key xs place).Yields (∀ x ∈ xs, Comparable less key x)
      fun _ => ∀ x, xs[place]? = some x → Comparable less key x :=
  yields_inPlace (fun x hx => (yields_less key x).mono (fun h => h x hx) fun _ => id) place

theorem yields_placeBefore (key : α) (xs : List α) (near : Nat) :
    (placeBefore less key xs near).Yields (∀ x ∈ xs, Comparable less x key) fun _ => True := by
  have htest := @yields_lessThanKey α ε less key xs
  refine (htest near).bind fun isLess _ => ?_
  split
  · exact (yields_leap (fun step => htest (near + step)) _ _ _).bind fun _ _ =>
      (yields_search htest _ _).mono id fun _ _ => trivial
  · exact (yields_leap (fun step => (htest (near - step)).map fun _ => id) _ _ _).bind fun _ _ =>
      (yields_search htest _ _).mono id fun _ _ => trivial

theorem yields_placeAfter (key : α) (xs : List α) (near : Nat) :
    (placeAfter less key xs near).Yields (∀ x ∈ xs, Comparable less key x)
      fun _ => ∀ x, xs[near]? = some x → Comparable less key x := by
  have htest := @yields_keyLessThan α ε less key xs
  have hnot : ∀ place, ((keyLessThan less key xs place).map not).Yields (∀ x ∈ xs, Comparable less key x)
      fun _ => ∀ x, xs[place]? = some x → Comparable less key x :=
    fun place => (htest place).map fun _ => id
  refine (htest near).bind fun isGreater hnear => ?_
  split
  · exact (yields_leap (fun step => htest (near - step)) _ _ _).bind fun _ _ =>
      (yields_search hnot _ _).mono id fun _ _ => hnear
  · exact (yields_leap (fun step => hnot (near + step)) _ _ _).bind fun _ _ =>
      (yields_search hnot _ _).mono id fun _ _ => hnear

/-! ## Runs -/

section
variable [Std.Symm (Comparable less)]

theorem yields_takeRun (falling : Bool) (x : α) (rest : List α) :
    (takeRun less falling x rest).Yields ((x :: rest).Pairwise (Comparable less)) fun p =>
      p.1 ++ p.2 = x :: rest ∧ p.1.head? = some x ∧ p.1.IsChain (Comparable less) := by
  induction rest generalizing x with
  | nil => exact ⟨rfl, rfl, .singleton x⟩
  | cons y rest ih =>
      have hless : (less y x).Yields ((x :: y :: rest).Pairwise (Comparable less)) fun _ => Comparable less x y :=
        (yields_less y x).mono (fun h => symm ((List.pairwise_cons.mp h).1 y List.mem_cons_self)) fun _ => symm
      refine hless.bind fun goesOn hxy => ?_
      split
      · refine ((ih y).mono (fun h => (List.pairwise_cons.mp h).2) fun _ => id).bind fun p hp => ?_
        obtain ⟨run, more⟩ := p
        obtain ⟨happend, hhead, hchain⟩ := hp
        refine ⟨congrArg (x :: ·) happend, rfl, ?_⟩
        cases run with
        | nil => cases hhead
        | cons z run =>
            cases hhead
            exact List.isChain_cons_cons.mpr ⟨hxy, hchain⟩
      · exact ⟨rfl, rfl, .singleton x⟩

variable [IsTrans α (Comparable less)]

/-- A run of elements is one of which any two compare; only of no elements it is empty. -/
structure IsRun (less : α → α → Except ε Bool) (xs run rest : List α) : Prop where
  perm : (run ++ rest).Perm xs
  pairwise : run.Pairwise (Comparable less)
  nonempty : xs ≠ [] → run ≠ []

theorem yields_firstRun (xs : List α) :
    (firstRun less xs).Yields (xs.Pairwise (Comparable less)) fun p => IsRun less xs p.1 p.2 := by
  match xs with
  | [] => exact ⟨.refl _, .nil, id⟩
  | [x] => exact ⟨.refl _, List.pairwise_singleton _ x, id⟩
  | x :: y :: rest =>
      have hless : (less y x).Yields ((x :: y :: rest).Pairwise (Comparable less)) fun _ => True :=
        (yields_less y x).mono (fun h => symm ((List.pairwise_cons.mp h).1 y List.mem_cons_self)) fun _ _ => trivial
      refine hless.bind fun falling _ => (yields_takeRun falling x (y :: rest)).bind fun p hp => ?_
      obtain ⟨run, more⟩ := p
      obtain ⟨happend, hhead, hchain⟩ := hp
      have hpairwise := List.isChain_iff_pairwise.mp hchain
      have hnonempty : run ≠ [] := by
        rintro rfl
        cases hhead
      cases falling with
      | false => exact ⟨.of_eq happend, hpairwise, fun _ => hnonempty⟩
      | true =>
          refine ⟨(List.reverse_perm run).append_right more |>.trans (.of_eq happend), ?_, fun _ => ?_⟩
          · exact List.pairwise_reverse.mpr (hpairwise.imp symm)
          · simpa using hnonempty

theorem comparable_of_mem {xs : List α} (h : xs.Pairwise (Comparable less)) {key x y : α} (hx : x ∈ xs)
    (hkey : Comparable less key x) (hy : y ∈ xs) : Comparable less key y := by
  by_cases hxy : x = y
  · exact hxy ▸ hkey
  · exact IsTrans.trans _ _ _ hkey (h.forall hx hy hxy)

theorem pairwise_append_of_mem {left right : List α} (hleft : left.Pairwise (Comparable less))
    (hright : right.Pairwise (Comparable less)) {x y : α} (hx : x ∈ left) (hy : y ∈ right)
    (h : Comparable less y x) : (left ++ right).Pairwise (Comparable less) :=
  List.pairwise_append.mpr ⟨hleft, hright, fun _ ha _ hb =>
    comparable_of_mem hright hy (symm (comparable_of_mem hleft hx h ha)) hb⟩

theorem yields_insert (run : List α) (x : α) :
    (insert less run x).Yields (∀ y ∈ run, Comparable less x y) fun inserted =>
      inserted.Perm (x :: run) ∧ (run.Pairwise (Comparable less) → inserted.Pairwise (Comparable less)) := by
  have hnot : ∀ place, ((keyLessThan less x run place).map not).Yields (∀ y ∈ run, Comparable less x y)
      fun _ => ∀ y, run[place]? = some y → Comparable less x y :=
    fun place => (yields_keyLessThan x run place).map fun _ => id
  refine (yields_search hnot 0 run.length).bind fun place hplace => ?_
  have hperm : (run.take place ++ x :: run.drop place).Perm (x :: run) := by
    refine List.perm_middle.trans ?_
    rw [List.take_append_drop]
  refine ⟨hperm, fun hrun => ?_⟩
  rw [hperm.pairwise_iff symm, List.pairwise_cons]
  refine ⟨fun y hy => ?_, hrun⟩
  obtain ⟨other, -, hlt, hother⟩ := hplace (List.length_pos_of_mem hy)
  exact comparable_of_mem hrun (List.getElem_mem hlt) (hother _ (List.getElem?_eq_getElem hlt)) hy

theorem yields_foldlM_insert (run ys : List α) :
    (ys.foldlM (insert less) run).Yields ((run ++ ys).Pairwise (Comparable less)) fun longer =>
      longer.Perm (run ++ ys) ∧ (run.Pairwise (Comparable less) → longer.Pairwise (Comparable less)) := by
  induction ys generalizing run with
  | nil => exact ⟨.of_eq (List.append_nil run).symm, id⟩
  | cons y ys ih =>
      rw [List.foldlM_cons]
      have hsafe : (run ++ y :: ys).Pairwise (Comparable less) → ∀ z ∈ run, Comparable less y z :=
        fun h z hz => symm ((List.pairwise_append.mp h).2.2 z hz y List.mem_cons_self)
      refine ((yields_insert run y).mono hsafe fun _ => id).bind fun inserted hinserted => ?_
      obtain ⟨hperm, hpairwise⟩ := hinserted
      have hall : (inserted ++ ys).Perm (run ++ y :: ys) :=
        (hperm.append_right ys).trans List.perm_middle.symm
      exact (ih inserted).mono (hall.pairwise_iff symm).mpr fun _ h =>
        ⟨h.1.trans hall, fun hrun => h.2 (hpairwise hrun)⟩

theorem yields_longRun (least : Nat) (xs : List α) :
    (longRun less least xs).Yields (xs.Pairwise (Comparable less)) fun p => IsRun less xs p.1 p.2 := by
  -- a run that is too short takes the elements after it in, which does not change the elements of both
  refine (yields_firstRun xs).bind fun p hp => ?_
  obtain ⟨run, rest⟩ := p
  obtain ⟨hperm, hpairwise, hnonempty⟩ := hp
  have htake : ∀ n, (run ++ rest.take n ++ rest.drop n).Perm xs := by
    intro n
    rw [List.append_assoc, List.take_append_drop]
    exact hperm
  have hsafe : xs.Pairwise (Comparable less) →
      (run ++ rest.take (least - run.length)).Pairwise (Comparable less) := fun h =>
    (List.pairwise_append.mp (((htake (least - run.length)).pairwise_iff symm).mpr h)).1
  refine ((yields_foldlM_insert run _).mono hsafe fun _ => id).bind fun longer hlonger => ?_
  refine ⟨(hlonger.1.append_right _).trans (htake _), hlonger.2 hpairwise, fun hxs hnil => ?_⟩
  simp only at hnil
  subst hnil
  have hrun := (List.append_eq_nil_iff.mp hlonger.1.symm.eq_nil).1
  exact hnonempty hxs hrun

end

/-! ## Merging -/

/-- Whether a merge of two runs has what was merged before and what was left of both. -/
def Merge.Keeps (merged left right : List α) : Merge α → Prop
  | .done all => all.Perm (merged ++ left ++ right)
  | .open more left' right' =>
    (more ++ left' ++ right').Perm (merged ++ left ++ right) ∧ left' ⊆ left ∧ right' ⊆ right

@[grind =] theorem Merge.keeps_done {merged left right all : List α} :
    (Merge.done all).Keeps merged left right ↔ all.Perm (merged ++ left ++ right) := Iff.rfl

theorem Merge.Keeps.of_perm {merged left right merged' left' right' : List α} {m : Merge α}
    (h : m.Keeps merged' left' right') (hperm : (merged' ++ left' ++ right').Perm (merged ++ left ++ right))
    (hleft : left' ⊆ left) (hright : right' ⊆ right) : m.Keeps merged left right := by
  cases m with
  | done all => exact h.trans hperm
  | «open» more left'' right'' =>
      exact ⟨h.1.trans hperm, List.Subset.trans h.2.1 hleft, List.Subset.trans h.2.2 hright⟩

/-- Whether every element of one run can be compared to those of another one. -/
def Across (less : α → α → Except ε Bool) (left right : List α) : Prop :=
  ∀ x ∈ left, ∀ y ∈ right, Comparable less y x

theorem Across.mono {left right left' right' : List α} (h : Across less left right) (hleft : left' ⊆ left)
    (hright : right' ⊆ right) : Across less left' right' :=
  fun x hx y hy => h x (hleft hx) y (hright hy)

theorem yields_less_of_across {left right : List α} {x y : α} (hx : x ∈ left) (hy : y ∈ right) :
    (less y x).Yields (Across less left right) fun _ => True :=
  (yields_less y x).mono (fun h => h x hx y hy) fun _ _ => trivial

theorem yields_stepFront (limit : Nat) (leads : Nat × Nat) (merged left right : List α) :
    (stepFront less limit leads merged left right).Yields (Across less left right)
      fun m => m.Keeps merged left right := by
  classical
  fun_induction stepFront less limit leads merged left right with
  | case1 leads merged x left y right ihRight ihLeft =>
      refine (yields_less_of_across List.mem_cons_self List.mem_cons_self).bind fun _ _ => ?_
      have hright : (y :: merged ++ x :: left ++ right).Perm (merged ++ x :: left ++ y :: right) :=
        List.perm_middle.symm
      have hleft : (x :: merged ++ left ++ y :: right).Perm (merged ++ x :: left ++ y :: right) :=
        List.perm_middle.symm.append_right (y :: right)
      split
      · split
        · rename_i hempty
          rw [List.isEmpty_iff.mp hempty] at hright ⊢
          grind
        · split
          · exact ⟨hright, List.Subset.refl _, List.subset_cons_self y right⟩
          · exact ihRight.mono (fun h => h.mono (List.Subset.refl _) (List.subset_cons_self y right)) fun m hm =>
              hm.of_perm hright (List.Subset.refl _) (List.subset_cons_self y right)
      · split
        · grind
        · split
          · exact ⟨hleft, List.subset_cons_self x left, List.Subset.refl _⟩
          · exact ihLeft.mono (fun h => h.mono (List.subset_cons_self x left) (List.Subset.refl _)) fun m hm =>
              hm.of_perm hleft (List.subset_cons_self x left) (List.Subset.refl _)
  | case2 limit merged left right hends =>
      grind

theorem exists_parts (n : Nat) (xs : List α) :
    ∃ front back, xs.take n = front ∧ xs.drop n = back ∧ xs = front ++ back :=
  ⟨_, _, rfl, rfl, (List.take_append_drop n xs).symm⟩

theorem yields_leapFront (fuel limit : Nat) (merged left right : List α) :
    (leapFront less fuel limit merged left right).Yields (Across less left right)
      fun m => m.1.Keeps merged left right := by
  classical
  fun_induction leapFront less fuel limit merged left right with
  | case1 fuel limit merged left y right limit' ih =>
      refine ((yields_placeAfter y left 0).mono
        (fun (h : Across less left (y :: right)) x hx => h x hx y List.mem_cons_self)
        fun _ => id).bind fun ahead _ => ?_
      obtain ⟨passed, left', hpassed, hleft', hleft⟩ := exists_parts ahead left
      specialize ih ahead
      simp only [hpassed, hleft'] at ih ⊢
      split
      · grind
      · split
        · grind
        · grind
        · rename_i x left'' _ _
          refine ((yields_placeBefore x right 0).mono
            (fun (h : Across less left (y :: right)) z hz => h x (by grind) z (List.mem_cons_of_mem _ hz))
            fun _ => id).bind fun behind _ => ?_
          obtain ⟨passed', right', hpassed', hright', hright⟩ := exists_parts behind right
          specialize ih x left'' right behind
          simp only [hpassed', hright'] at ih ⊢
          split
          · grind
          · split
            · grind
            · have hperm : (x :: (passed'.reverse ++ y :: (passed.reverse ++ merged)) ++ left'' ++ right').Perm
                  (merged ++ left ++ y :: right) := by grind
              have hleftSub : left'' ⊆ left := by grind
              have hrightSub : right' ⊆ y :: right := by grind
              split
              · exact ih.mono (fun h => h.mono hleftSub hrightSub) fun m hm => hm.of_perm hperm hleftSub hrightSub
              · exact ⟨hperm, hleftSub, hrightSub⟩
  | case2 =>
      grind

theorem yields_mergeFront (fuel limit : Nat) (merged left right : List α) :
    (mergeFront less fuel limit merged left right).Yields (Across less left right)
      fun m => m.1.Perm (merged ++ left ++ right) := by
  induction fuel generalizing limit merged left right with
  | zero => exact ((List.reverse_perm merged).append_right left).append_right right
  | succ fuel ih =>
      refine (yields_stepFront limit (0, 0) merged left right).bind fun m hm => ?_
      cases m with
      | done all => exact hm
      | «open» more left' right' =>
          obtain ⟨hperm, hleft, hright⟩ := hm
          refine ((yields_leapFront _ _ more left' right').mono (fun h : Across less left right => h.mono hleft hright)
            fun _ => id).bind fun m hm => ?_
          obtain ⟨m, limit'⟩ := m
          cases m with
          | done all => exact hm.trans hperm
          | «open» more' left'' right'' =>
              exact (ih limit' more' left'' right'').mono
                (fun h => (h.mono hleft hright).mono hm.2.1 hm.2.2) fun _ h => (h.trans hm.1).trans hperm

theorem yields_stepBack (limit : Nat) (leads : Nat × Nat) (merged left right : List α) :
    (stepBack less limit leads merged left right).Yields (Across less left right)
      fun m => m.Keeps merged left right := by
  classical
  fun_induction stepBack less limit leads merged left right with
  | case1 leads merged x left y right ihLeft ihRight =>
      refine (yields_less_of_across List.mem_cons_self List.mem_cons_self).bind fun _ _ => ?_
      have hright : (y :: merged ++ x :: left ++ right).Perm (merged ++ x :: left ++ y :: right) :=
        List.perm_middle.symm
      have hleft : (x :: merged ++ left ++ y :: right).Perm (merged ++ x :: left ++ y :: right) :=
        List.perm_middle.symm.append_right (y :: right)
      split
      · split
        · grind
        · split
          · exact ⟨hleft, List.subset_cons_self x left, List.Subset.refl _⟩
          · exact ihLeft.mono (fun h => h.mono (List.subset_cons_self x left) (List.Subset.refl _)) fun m hm =>
              hm.of_perm hleft (List.subset_cons_self x left) (List.Subset.refl _)
      · split
        · grind
        · split
          · exact ⟨hright, List.Subset.refl _, List.subset_cons_self y right⟩
          · exact ihRight.mono (fun h => h.mono (List.Subset.refl _) (List.subset_cons_self y right)) fun m hm =>
              hm.of_perm hright (List.Subset.refl _) (List.subset_cons_self y right)
  | case2 limit merged left right hends =>
      grind

theorem yields_leapBack (fuel limit : Nat) (merged left right : List α) :
    (leapBack less fuel limit merged left right).Yields (Across less left right)
      fun m => m.1.Keeps merged left right := by
  classical
  fun_induction leapBack less fuel limit merged left right with
  | case1 fuel limit merged left y right limit' ih =>
      refine ((yields_placeAfter y left.reverse (left.length - 1)).mono
        (fun (h : Across less left (y :: right)) x hx => h x (List.mem_reverse.mp hx) y List.mem_cons_self)
        fun _ => id).bind fun place _ => ?_
      obtain ⟨passed, left', hpassed, hleft', hleft⟩ := exists_parts (left.length - place) left
      specialize ih place
      simp only [hpassed, hleft'] at ih ⊢
      split
      · grind
      · split
        · grind
        · cases left' with
          | nil =>
              grind
          | cons x left'' =>
              refine ((yields_placeBefore x right.reverse (right.length - 1)).mono
                (fun (h : Across less left (y :: right)) z hz =>
                  h x (by grind) z (List.mem_cons_of_mem _ (List.mem_reverse.mp hz)))
                fun _ => id).bind fun place' _ => ?_
              obtain ⟨passed', right', hpassed', hright', hright⟩ := exists_parts (right.length - place') right
              specialize ih x left'' place'
              simp only [hpassed', hright'] at ih ⊢
              split
              · grind
              · split
                · grind
                · have hperm : (x :: (passed'.reverse ++ y :: (passed.reverse ++ merged)) ++ left'' ++ right').Perm
                      (merged ++ left ++ y :: right) := by grind
                  have hleftSub : left'' ⊆ left := by grind
                  have hrightSub : right' ⊆ y :: right := by grind
                  split
                  · exact ih.mono (fun h => h.mono hleftSub hrightSub) fun m hm =>
                      hm.of_perm hperm hleftSub hrightSub
                  · exact ⟨hperm, hleftSub, hrightSub⟩
  | case2 =>
      change List.Perm _ _
      grind

theorem yields_mergeBack (fuel limit : Nat) (merged left right : List α) :
    (mergeBack less fuel limit merged left right).Yields (Across less left right)
      fun m => m.1.Perm (merged ++ left ++ right) := by
  classical
  induction fuel generalizing limit merged left right with
  | zero =>
      change List.Perm _ _
      grind
  | succ fuel ih =>
      refine (yields_stepBack limit (0, 0) merged left right).bind fun m hm => ?_
      cases m with
      | done all => exact hm
      | «open» more left' right' =>
          obtain ⟨hperm, hleft, hright⟩ := hm
          refine ((yields_leapBack _ _ more left' right').mono (fun h : Across less left right => h.mono hleft hright)
            fun _ => id).bind fun m hm => ?_
          obtain ⟨m, limit'⟩ := m
          cases m with
          | done all => exact hm.trans hperm
          | «open» more' left'' right'' =>
              exact (ih limit' more' left'' right'').mono
                (fun h => (h.mono hleft hright).mono hm.2.1 hm.2.2) fun _ h => (h.trans hm.1).trans hperm

theorem yields_mergeInner (limit : Nat) (left right : List α) :
    (mergeInner less limit left right).Yields (Across less left right) fun m => m.1.Perm (left ++ right) := by
  classical
  unfold mergeInner
  simp only
  split
  · split
    · grind
    · grind
    · rename_i y right _ _ _
      refine (yields_mergeFront _ limit [y] left right).mono
        (fun h => h.mono (List.Subset.refl _) (List.subset_cons_self y right)) fun m hm => hm.trans ?_
      grind
    · grind
  · obtain ⟨left, rfl⟩ := List.reverse_surjective left
    obtain ⟨right, rfl⟩ := List.reverse_surjective right
    rw [List.reverse_reverse, List.reverse_reverse]
    split
    · grind
    · grind
    · rename_i x left _ _ _
      refine (yields_mergeBack _ limit [x] left right).mono
        (fun h => h.mono (by grind) (by grind)) fun m hm => hm.trans ?_
      grind
    · grind

section
variable [Std.Symm (Comparable less)] [IsTrans α (Comparable less)]

theorem yields_merge (limit : Nat) (left right : List α) :
    (merge less limit left right).Yields (Across less left right) fun m =>
      m.1.Perm (left ++ right) ∧
        (left.Pairwise (Comparable less) → right.Pairwise (Comparable less) → m.1.Pairwise (Comparable less)) := by
  classical
  unfold merge
  split
  · rename_i y x hy hx
    have hyMem := List.mem_of_head? hy
    have hxMem := List.mem_of_getLast? hx
    refine ((yields_placeAfter y left 0).mono (fun (h : Across less left right) z hz => h z hz y hyMem)
      fun _ => id).bind fun start hstart => ?_
    -- the first comparison is of an element of one run with one of the other, so that all of both compare
    have hjoined : ∀ all : List α, all.Perm (left ++ right) → all.Perm (left ++ right) ∧
        (left.Pairwise (Comparable less) → right.Pairwise (Comparable less) → all.Pairwise (Comparable less)) := by
      intro all hall
      refine ⟨hall, fun hleft hright => (hall.pairwise_iff symm).mpr ?_⟩
      have hfirst := List.length_pos_of_mem hxMem
      exact pairwise_append_of_mem hleft hright (List.getElem_mem hfirst) hyMem
        (hstart _ (List.getElem?_eq_getElem hfirst))
    split
    · exact hjoined _ (.refl _)
    · refine ((yields_placeBefore x right _).mono (fun (h : Across less left right) z hz => h x hxMem z hz)
        fun _ => id).bind fun stop _ => ?_
      split
      · exact hjoined _ (.refl _)
      · obtain ⟨low, left', hlow, hleft', rfl⟩ := exists_parts start left
        obtain ⟨right', high, hright', hhigh, rfl⟩ := exists_parts stop right
        rw [hlow, hleft', hright', hhigh]
        refine ((yields_mergeInner limit left' right').mono
          (fun (h : Across less (low ++ left') (right' ++ high)) => h.mono (List.subset_append_right _ _)
            (List.subset_append_left _ _)) fun _ => id).bind fun m hm => ?_
        refine hjoined _ ?_
        grind
  · rename_i hempty
    cases left with
    | nil => exact ⟨.refl _, fun _ h => h⟩
    | cons x left =>
        cases right with
        | nil => exact ⟨.refl _, fun h _ => (List.append_nil (x :: left)).symm ▸ h⟩
        | cons y right => exact absurd (List.getLast?_eq_some_getLast (by simp)) (hempty y _ rfl)

end

/-! ## All runs -/

/-- Whether some elements are those of runs and a rest, and any two of one run compare. -/
structure AreRuns (less : α → α → Except ε Bool) (xs : List α) (runs : List (Run α)) (rest : List α) :
    Prop where
  perm : (runs.flatMap (·.items) ++ rest).Perm xs
  pairwise : ∀ run ∈ runs, run.items.Pairwise (Comparable less)

variable {xs rest : List α} {runs : List (Run α)}

theorem AreRuns.of_perm {runs' : List (Run α)} (h : AreRuns less xs runs rest) (hperm : runs'.Perm runs) :
    AreRuns less xs runs' rest :=
  ⟨((hperm.flatMap_right _).append_right rest).trans h.perm, fun run hrun => h.pairwise run (hperm.subset hrun)⟩

theorem AreRuns.push {ys items : List α} (h : AreRuns less xs runs ys) (hrun : IsRun less ys items rest)
    (start : Nat) : AreRuns less xs ({ start := start, items := items } :: runs) rest := by
  refine ⟨?_, List.forall_mem_cons.mpr ⟨hrun.pairwise, h.pairwise⟩⟩
  classical
  refine List.Perm.trans ?_ h.perm
  have := hrun.perm
  simp only [List.flatMap_cons]
  grind

section
variable [Std.Symm (Comparable less)]

theorem AreRuns.pairwise_rest (h : AreRuns less xs runs rest) (hxs : xs.Pairwise (Comparable less)) :
    rest.Pairwise (Comparable less) :=
  (List.pairwise_append.mp ((h.perm.pairwise_iff symm).mpr hxs)).2.1

variable [IsTrans α (Comparable less)]

theorem AreRuns.yields_merge {left right : Run α} (h : AreRuns less xs (right :: left :: runs) rest) (limit : Nat) :
    (merge less limit left.items right.items).Yields (xs.Pairwise (Comparable less)) fun m =>
      AreRuns less xs ({ left with items := m.1 } :: runs) rest := by
  obtain ⟨hperm, hpairwise⟩ := h
  obtain ⟨hright, hleft, hruns⟩ : _ ∧ _ ∧ _ := by simpa only [List.forall_mem_cons] using hpairwise
  have hsafe : xs.Pairwise (Comparable less) → Across less left.items right.items := by
    intro hxs x hx y hy
    have hall := (hperm.pairwise_iff symm).mpr hxs
    rw [List.flatMap_cons, List.append_assoc, List.pairwise_append] at hall
    exact hall.2.2 y hy x (by simp [hx])
  refine (RunSort.yields_merge limit left.items right.items).mono hsafe fun m hm => ⟨?_, ?_⟩
  · classical
    refine List.Perm.trans ?_ hperm
    have := hm.1
    simp only [List.flatMap_cons]
    grind
  · exact List.forall_mem_cons.mpr ⟨hm.2 hleft hright, hruns⟩

theorem AreRuns.yields_mergeDeeper {last : Run α} (h : AreRuns less xs (last :: runs) rest)
    (depth fuel limit : Nat) :
    (mergeDeeper less depth fuel limit last runs).Yields (xs.Pairwise (Comparable less)) fun m =>
      AreRuns less xs (m.1 :: m.2.1) rest := by
  induction fuel generalizing limit last runs with
  | zero => exact h
  | succ fuel ih =>
      cases runs with
      | nil => exact h
      | cons before runs =>
          unfold mergeDeeper
          split
          · exact (h.yields_merge limit).bind fun m hm => ih hm m.2
          · exact h

theorem AreRuns.yields_collect {ys : List α} (h : AreRuns less xs runs ys) {fuel : Nat} (hfuel : ys.length ≤ fuel)
    (total least limit start : Nat) :
    (collect less total least fuel limit start runs ys).Yields (xs.Pairwise (Comparable less)) fun m =>
      AreRuns less xs m.1 [] := by
  induction fuel generalizing limit start runs ys with
  | zero =>
      obtain rfl := List.length_eq_zero_iff.mp (Nat.le_zero.mp hfuel)
      exact h
  | succ fuel ih =>
      cases ys with
      | nil => exact h
      | cons y ys =>
          unfold collect
          refine ((yields_longRun least (y :: ys)).mono h.pairwise_rest fun _ => id).bind fun p hp => ?_
          obtain ⟨items, rest⟩ := p
          have hrest : rest.length ≤ fuel := by
            have hlength := hp.perm.length_eq
            have hpos := List.length_pos_iff.mpr (hp.nonempty (List.cons_ne_nil y ys))
            simp only [List.length_append, List.length_cons] at hlength hfuel hpos
            omega
          cases runs with
          | nil => exact ih (h.push hp start) hrest limit _
          | cons last earlier =>
              refine (h.yields_mergeDeeper _ _ limit).bind fun m hm => ?_
              obtain ⟨last, earlier, limit⟩ := m
              have hdeep : ∀ depth, AreRuns less xs ({ last with depth := depth } :: earlier) (y :: ys) :=
                fun _ => ⟨hm.perm, by simpa using hm.pairwise⟩
              exact ih ((hdeep _).push hp start) hrest limit _

theorem AreRuns.yields_mergeAll (h : AreRuns less xs runs []) {fuel : Nat} (hfuel : runs.length ≤ fuel)
    (limit : Nat) :
    (mergeAll less fuel limit runs).Yields (xs.Pairwise (Comparable less)) fun ys =>
      ys.Perm xs ∧ ys.Pairwise (Comparable less) := by
  induction fuel generalizing limit runs with
  | zero =>
      obtain rfl := List.length_eq_zero_iff.mp (Nat.le_zero.mp hfuel)
      exact ⟨h.perm, .nil⟩
  | succ fuel ih =>
      match runs with
      | [] => exact ⟨h.perm, .nil⟩
      | [run] =>
          have hresult : mergeAll less (fuel + 1) limit [run] = .ok run.items := by simp [mergeAll]
          have hperm := h.perm
          rw [List.flatMap_singleton, List.append_nil] at hperm
          rw [hresult]
          exact ⟨hperm, h.pairwise run List.mem_cons_self⟩
      | [last, before] =>
          unfold mergeAll
          exact (h.yields_merge limit).bind fun m hm => ih hm (by simpa using hfuel) m.2
      | last :: before :: first :: others =>
          unfold mergeAll
          simp only
          split
          · have hlast : (before :: first :: last :: others).Perm (last :: before :: first :: others) := by
              classical
              grind
            refine ((h.of_perm hlast).yields_merge limit).bind fun m hm => ?_
            exact ih (hm.of_perm (.swap _ _ _)) (by simpa using hfuel) m.2
          · exact (h.yields_merge limit).bind fun m hm => ih hm (by simpa using hfuel) m.2

theorem yields_sort (xs : List α) :
    (sort less xs).Yields (xs.Pairwise (Comparable less)) fun ys =>
      ys.Perm xs ∧ ys.Pairwise (Comparable less) := by
  have hnone : AreRuns less xs [] xs := ⟨.refl xs, by simp⟩
  exact (hnone.yields_collect (Nat.le_refl _) _ _ _ _).bind fun m hm => hm.yields_mergeAll (Nat.le_refl _) _

theorem perm_of_sort {ys : List α} (h : sort less xs = .ok ys) : ys.Perm xs := by
  have hyields := @yields_sort α ε less _ _ xs
  rw [h] at hyields
  exact hyields.1

/-- Elements are sorted exactly if any two of them compare. -/
theorem exists_sort_iff : (∃ ys, sort less xs = .ok ys) ↔ xs.Pairwise (Comparable less) := by
  have hyields := @yields_sort α ε less _ _ xs
  cases hsort : sort less xs with
  | error fault =>
      rw [hsort] at hyields
      exact iff_of_false (by simp) hyields
  | ok ys =>
      rw [hsort] at hyields
      exact iff_of_true ⟨ys, rfl⟩ ((hyields.1.pairwise_iff symm).mp hyields.2)

end

end TransitionAudit.RunSort
