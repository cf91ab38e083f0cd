import TransitionAudit.Proofs.Data.Result
import TransitionAudit.Rule.Check

/-!
# What checks overlook

To a check it makes no difference in which order the things of a snapshot stand, nor what else there is that is
hidden or not the component's. The same is reported for the same moments, with the same expectations, or the same
look-up fails; only the lists of what is visible may differ.
-/

namespace TransitionAudit

/-- Lists that come out of each other by moving things about, and by putting in or taking out things that do not
count. -/
inductive Redrawn {β : Type} (counts : β → Prop) : List β → List β → Prop
  | perm {xs ys : List β} (h : xs.Perm ys) : Redrawn counts xs ys
  | add (before after : List β) {x : β} (h : ¬ counts x) : Redrawn counts (before ++ after) (before ++ x :: after)
  | remove (before after : List β) {x : β} (h : ¬ counts x) : Redrawn counts (before ++ x :: after) (before ++ after)
  | trans {xs ys zs : List β} (h : Redrawn counts xs ys) (h' : Redrawn counts ys zs) : Redrawn counts xs zs

structure WindowState.Redrawn (m : Matcher) (x y : WindowState) : Prop where
  taken : x.taken = y.taken
  focused : x.focused = y.focused
  windows : TransitionAudit.Redrawn (fun w => w.isVisible ∧ m.recognises w.title) x.windows y.windows

structure LayerState.Redrawn (m : Matcher) (x y : LayerState) : Prop where
  taken : x.taken = y.taken
  layers : TransitionAudit.Redrawn (fun l => l.isVisible ∧ m.recognises l.name) x.layers y.layers

/-- Scenarios that look the same to a component, snapshot by snapshot. -/
structure Scenario.Redrawn (m : Matcher) (s s' : Scenario) : Prop where
  transition : s.transition = s'.transition
  windows : List.Forall₂ (WindowState.Redrawn m) s.windows.entries s'.windows.entries
  layers : List.Forall₂ (LayerState.Redrawn m) s.layers.entries s'.layers.entries

/-- Violations that differ at most in what is visible, and there not in what is the component's. -/
structure Violation.Alike (m : Matcher) (v w : Violation) : Prop where
  message : v.message = w.message
  moment : v.moment = w.moment
  expected : v.expected = w.expected
  observed : v.observed = w.observed ∨ ∃ seen seen' : List Text, v.observed = some (.arr (seen.map .str)) ∧
    w.observed = some (.arr (seen'.map .str)) ∧ (seen.filter m.recognises).Perm (seen'.filter m.recognises)

/-! ## Lists in step -/

section
variable {β : Type} {R : β → β → Prop} {xs ys : List β} (h : List.Forall₂ R xs ys)
include h

theorem isEmpty_of_forall₂ : xs.isEmpty = ys.isEmpty := by
  cases h <;> rfl

theorem getLast?_of_forall₂ : Option.Rel R xs.getLast? ys.getLast? := by
  induction h with
  | nil => exact .none
  | cons hxy _ ih =>
      rw [List.getLast?_cons, List.getLast?_cons]
      generalize List.getLast? _ = x at ih ⊢
      generalize List.getLast? _ = y at ih ⊢
      cases ih with
      | none => exact .some hxy
      | some h => exact .some h

theorem takeWhile_of_forall₂ {p : β → Bool} (hp : ∀ x y, R x y → p x = p y) :
    List.Forall₂ R (xs.takeWhile p) (ys.takeWhile p) := by
  induction h with
  | nil => exact .nil
  | cons hxy _ ih =>
      rw [List.takeWhile_cons, List.takeWhile_cons, hp _ _ hxy]
      split
      · exact .cons hxy ih
      · exact .nil

end

/-! ## What the component is seen to do -/

theorem Redrawn.filter_perm {β : Type} {p : β → Bool} {counts : β → Prop} {xs ys : List β}
    (hcounts : ∀ x, p x = true ↔ counts x) (h : Redrawn counts xs ys) : (xs.filter p).Perm (ys.filter p) := by
  induction h with
  | perm h => exact h.filter p
  | add before after hx =>
      rw [List.filter_append, List.filter_append, List.filter_cons_of_neg (mt (hcounts _).mp hx)]
  | remove before after hx =>
      rw [List.filter_append, List.filter_append, List.filter_cons_of_neg (mt (hcounts _).mp hx)]
  | trans _ _ ih ih' => exact ih.trans ih'

/-- Snapshots of one moment that show the same of a component, in whatever order. -/
structure SeenAlike {α : Type} [Snapshot α] (m : Matcher) (x y : α) : Prop where
  moment : stamp x = stamp y
  names : ((Snapshot.visible x).filter m.recognises).Perm ((Snapshot.visible y).filter m.recognises)

theorem WindowState.Redrawn.seenAlike {m : Matcher} {x y : WindowState} (h : x.Redrawn m y) : SeenAlike m x y := by
  refine ⟨h.taken, ?_⟩
  have hwindows : ((x.windows.filter fun w => m.recognises w.title && w.isVisible).map (·.title)).Perm
      ((y.windows.filter fun w => m.recognises w.title && w.isVisible).map (·.title)) :=
    (h.windows.filter_perm fun w => by simp [and_comm]).map _
  simpa only [Snapshot.visible, visibleWindows, List.filter_map, List.filter_filter, Function.comp_def] using hwindows

theorem LayerState.Redrawn.seenAlike {m : Matcher} {x y : LayerState} (h : x.Redrawn m y) : SeenAlike m x y := by
  refine ⟨h.taken, ?_⟩
  have hlayers : ((x.layers.filter fun l => m.recognises l.name && l.isVisible).map (·.name)).Perm
      ((y.layers.filter fun l => m.recognises l.name && l.isVisible).map (·.name)) :=
    (h.layers.filter_perm fun l => by simp [and_comm]).map _
  simpa only [Snapshot.visible, visibleLayers, List.filter_map, List.filter_filter, Function.comp_def] using hlayers

namespace Check

variable {α : Type} [Snapshot α] {m : Matcher}

theorem shows_of_seenAlike {x y : α} (h : SeenAlike m x y) : shows m x = shows m y := by
  have hshown (z : α) : shows m z = ((Snapshot.visible z).filter m.recognises).any m.recognises := by simp [shows]
  rw [hshown, hshown, h.names.any_eq]

/-- A report on snapshots that show the same, with what is visible in them. -/
theorem alike_of_seenAlike {x y : α} (h : SeenAlike m x y) (message : Text) (expected : Option Json) :
    Violation.Alike m ⟨message, some (stamp x), expected, some (evidence x)⟩
      ⟨message, some (stamp y), expected, some (evidence y)⟩ :=
  ⟨rfl, congrArg some h.moment, rfl, .inr ⟨_, _, rfl, rfl, h.names⟩⟩

theorem alike_map_of_seenAlike {xs ys : List α} (h : List.Forall₂ (SeenAlike m) xs ys) (message : Text)
    (expected : Option Json) :
    List.Forall₂ (Violation.Alike m)
      (xs.map fun x => ⟨message, some (stamp x), expected, some (evidence x)⟩)
      (ys.map fun y => ⟨message, some (stamp y), expected, some (evidence y)⟩) := by
  induction h with
  | nil => exact .nil
  | cons hxy _ ih => exact .cons (alike_of_seenAlike hxy message expected) ih

theorem alike_refl (v : Violation) : v.Alike m v := ⟨rfl, rfl, rfl, .inl rfl⟩

theorem alike_emptySlice (words : Vocabulary) :
    List.Forall₂ (Violation.Alike m) [emptySlice words] [emptySlice words] :=
  .cons (alike_refl _) .nil

/-! ## The state at the end -/

section
variable {R : α → α → Prop} {t u : Trace α} (h : List.Forall₂ R t.entries u.entries)
include h

theorem isEmpty_congr : t.isEmpty = u.isEmpty := isEmpty_of_forall₂ h

theorem related_endState (hR : ∀ x y, R x y → stamp x = stamp y) (transition : Option Transition) :
    Except.Related R (endState t transition) (endState u transition) := by
  cases transition with
  | none =>
      simp only [endState, Trace.last]
      have hlast := getLast?_of_forall₂ h
      generalize t.entries.getLast? = x, u.entries.getLast? = y at hlast ⊢
      cases hlast with
      | none => exact .error _
      | some hxy => exact .ok hxy
  | some tr =>
      simp only [endState, Trace.latest]
      have hlast := getLast?_of_forall₂ (takeWhile_of_forall₂ h
        (p := fun x => !decide (tr.stop < stamp x)) fun x y hxy => by rw [hR x y hxy])
      generalize List.getLast? _ = x at hlast ⊢
      generalize List.getLast? _ = y at hlast ⊢
      cases hlast with
      | none => exact .error _
      | some hxy => exact .ok hxy

end

/-! ## Each check -/

theorem seenAlike_relapses {xs ys : List α} (h : List.Forall₂ (SeenAlike m) xs ys) (wanted reached : Bool) :
    List.Forall₂ (SeenAlike m) (relapses wanted m reached xs) (relapses wanted m reached ys) := by
  induction h generalizing reached with
  | nil => exact .nil
  | cons hxy _ ih =>
      simp only [relapses, shows_of_seenAlike hxy]
      split
      · exact ih true
      · split
        · exact .cons hxy (ih reached)
        · exact ih reached

section
variable {t u : Trace α} (h : List.Forall₂ (SeenAlike m) t.entries u.entries)
include h

theorem alike_notEmptyIn : List.Forall₂ (Violation.Alike m) (notEmptyIn t) (notEmptyIn u) := by
  rw [notEmptyIn, notEmptyIn, isEmpty_congr h]
  exact List.forall₂_same.mpr fun v _ => alike_refl v

theorem alike_atEnd (wanted : Bool) (transition : Option Transition) :
    Except.Related (List.Forall₂ (Violation.Alike m)) (atEnd wanted t transition m) (atEnd wanted u transition m) := by
  rw [atEnd, atEnd, isEmpty_congr h]
  cases u.isEmpty with
  | true => exact .ok (alike_emptySlice _)
  | false =>
      refine (related_endState h (fun _ _ hxy => hxy.moment) transition).bind fun x y hxy => ?_
      rw [shows_of_seenAlike hxy]
      by_cases hstate : shows m y = wanted
      · simp only [hstate, ↓reduceIte]
        exact .ok .nil
      · simp only [hstate, ↓reduceIte]
        exact .ok (.cons (alike_of_seenAlike hxy _ _) .nil)

theorem alike_alwaysIn : List.Forall₂ (Violation.Alike m) (alwaysIn t m) (alwaysIn u m) := by
  rw [alwaysIn, alwaysIn, isEmpty_congr h]
  cases u.isEmpty with
  | true => exact alike_emptySlice _
  | false =>
      have hhidden : List.Forall₂ (SeenAlike m) (t.entries.filter fun x => !shows m x)
          (u.entries.filter fun x => !shows m x) :=
        List.rel_filter (fun x y hxy => by simp only [shows_of_seenAlike hxy]) h
      exact alike_map_of_seenAlike hhidden _ _

theorem alike_becomesIn (wanted : Bool) :
    List.Forall₂ (Violation.Alike m) (becomesIn wanted t m) (becomesIn wanted u m) := by
  unfold becomesIn
  have hlast := getLast?_of_forall₂ h
  generalize t.entries.getLast? = x, u.entries.getLast? = y at hlast ⊢
  cases hlast with
  | none => exact alike_emptySlice _
  | some hxy =>
      have hback := seenAlike_relapses h wanted false
      generalize relapses wanted m false t.entries = xs, relapses wanted m false u.entries = ys at hback ⊢
      cases hback with
      | nil =>
          simp only [shows_of_seenAlike hxy]
          split
          · exact .nil
          · exact .cons (alike_of_seenAlike hxy _ _) .nil
      | cons hfirst hrest => exact alike_map_of_seenAlike (.cons hfirst hrest) _ _

end

theorem alike_focusedIn {t u : WindowTrace} (h : List.Forall₂ (WindowState.Redrawn m) t.entries u.entries)
    (transition : Option Transition) :
    Except.Related (List.Forall₂ (Violation.Alike m)) (focusedIn t transition m) (focusedIn u transition m) := by
  rw [focusedIn, focusedIn, isEmpty_congr h]
  cases u.isEmpty with
  | true => exact .ok (alike_emptySlice _)
  | false =>
      refine (related_endState h (fun _ _ hxy => hxy.taken) transition).bind fun x y hxy => ?_
      have hstamp : stamp x = stamp y := hxy.taken
      simp only [hxy.focused, hstamp]
      split
      · exact .ok .nil
      · exact .ok (.cons (alike_refl _) .nil)

theorem related_run {s s' : Scenario} (h : s.Redrawn m s') (c : Check) :
    Except.Related (List.Forall₂ (Violation.Alike m)) (c.run s m) (c.run s' m) := by
  obtain ⟨transition, w, l⟩ := s
  obtain ⟨transition', w', l'⟩ := s'
  obtain ⟨rfl, hw, hl⟩ := h
  have hwindows : List.Forall₂ (SeenAlike m) w.entries w'.entries := hw.imp fun _ _ hxy => hxy.seenAlike
  have hlayers : List.Forall₂ (SeenAlike m) l.entries l'.entries := hl.imp fun _ _ hxy => hxy.seenAlike
  cases c with
  | notEmpty side =>
      cases side with
      | windows => exact .ok (alike_notEmptyIn hwindows)
      | layers => exact .ok (alike_notEmptyIn hlayers)
  | visibleAtEnd side =>
      cases side with
      | windows => exact alike_atEnd hwindows true transition
      | layers => exact alike_atEnd hlayers true transition
  | invisibleAtEnd side =>
      cases side with
      | windows => exact alike_atEnd hwindows false transition
      | layers => exact alike_atEnd hlayers false transition
  | alwaysVisible side =>
      cases side with
      | windows => exact .ok (alike_alwaysIn hwindows)
      | layers => exact .ok (alike_alwaysIn hlayers)
  | focusedAtEnd => exact alike_focusedIn hw transition
  | becomes wanted => exact .ok (alike_becomesIn hlayers wanted)

/-- What a check reports of two scenarios that look the same to the component differs at most in the lists of what
is visible, and it finds fault with both or with neither. -/
theorem run_redrawn {s s' : Scenario} (h : s.Redrawn m s') (c : Check) :
    Except.Related (List.Forall₂ (Violation.Alike m)) (c.run s m) (c.run s' m) ∧
      (c.run s m = .ok [] ↔ c.run s' m = .ok []) := by
  have hrun := related_run h c
  refine ⟨hrun, ?_⟩
  generalize c.run s m = x, c.run s' m = y at hrun ⊢
  cases hrun with
  | ok hreports => cases hreports <;> simp
  | error fault => simp

/-- A window of the app behind one of the system. -/
def coveredWindows : WindowTrace :=
  ⟨[⟨{ elapsed := 5 }, [⟨"a/.B", true⟩, ⟨"StatusBar", true⟩], none⟩], trivial⟩

/-- The window of the app on its own, and one that is hidden. -/
def uncoveredWindows : WindowTrace :=
  ⟨[⟨{ elapsed := 5 }, [⟨"Toast", false⟩, ⟨"a/.B", true⟩], none⟩], trivial⟩

theorem run_redrawn_uncoveredWindows :
    Scenario.Redrawn ⟨"a", "a.B"⟩ ⟨none, coveredWindows, Trace.empty⟩ ⟨none, uncoveredWindows, Trace.empty⟩ ∧
    ∃ v w, (Check.invisibleAtEnd .windows).run ⟨none, coveredWindows, Trace.empty⟩ ⟨"a", "a.B"⟩ = .ok [v] ∧
      (Check.invisibleAtEnd .windows).run ⟨none, uncoveredWindows, Trace.empty⟩ ⟨"a", "a.B"⟩ = .ok [w] ∧
      v.Alike ⟨"a", "a.B"⟩ w ∧ v.observed = some (.arr [.str "a/.B", .str "StatusBar"]) ∧
      w.observed = some (.arr [.str "a/.B"]) := by
  have hredrawn :
      Scenario.Redrawn ⟨"a", "a.B"⟩ ⟨none, coveredWindows, Trace.empty⟩ ⟨none, uncoveredWindows, Trace.empty⟩ := by
    refine ⟨rfl, .cons ⟨rfl, rfl, ?_⟩ .nil, .nil⟩
    refine .trans (.remove [(⟨"a/.B", true⟩ : Window)] [] ?_) (.add [] [(⟨"a/.B", true⟩ : Window)] ?_)
    · decide
    · decide
  have hcovered : (Check.invisibleAtEnd .windows).run ⟨none, coveredWindows, Trace.empty⟩ ⟨"a", "a.B"⟩ =
      .ok [_] := rfl
  have huncovered : (Check.invisibleAtEnd .windows).run ⟨none, uncoveredWindows, Trace.empty⟩ ⟨"a", "a.B"⟩ =
      .ok [_] := rfl
  have hrun := (run_redrawn hredrawn (.invisibleAtEnd .windows)).1
  rw [hcovered, huncovered] at hrun
  cases hrun with
  | ok hreports =>
      cases hreports with
      | cons halike _ => exact ⟨hredrawn, _, _, rfl, rfl, halike, rfl, rfl⟩

end Check

end TransitionAudit
