import TransitionAudit.Proofs.Trace.Row

/-!
# Collections in place of modes

A mode is looked up by its name. A list or an object cannot be looked up at all, and this is the one fault of
a row that is not a message about the row. It comes up exactly in a transition whose changes are read up to
one with a list or an object for its mode.
-/

namespace TransitionAudit

/-- Whether a fault is a message about the row, as all are but that of a look-up. -/
def RowFault.IsAboutRow (f : RowFault) : Prop := ∀ v, f ≠ .collectionMode v

namespace Row

/-- Whether a value is a list or an object. -/
def IsCollection (v : Json) : Prop := (∃ xs, v = .arr xs) ∨ ∃ ms, v = .obj ms

/-- Whether a value has a collection in place of a mode. -/
def HasCollection (v collection : Json) : Prop :=
  ∃ ms, v = .obj ms ∧ Json.get ms "transit_mode" = collection ∧ IsCollection (Json.get ms "transit_mode")

/-- Whether the changes of a transition are read up to one with a collection in place of a mode. -/
def ReachesCollection (v collection : Json) : Prop :=
  ∃ ms, v = .obj ms ∧ (∃ id, Json.get ms "id" = .int id) ∧
    (∃ s type, Json.get ms "type" = .str s ∧ TransitionType.ofText? s = some type) ∧
    ∃ before x after, Json.get ms "changes" = .arr (before ++ x :: after) ∧
      (∀ y ∈ before, ∃ c, IsChange y c) ∧ HasCollection x collection

/-! ## Readers that look nothing up -/

section
variable {field : Text} {v w : Json}

theorem object_ne_collectionMode : object field v ≠ .error (.collectionMode w) := by
  cases v <;> simp [object]

theorem list_ne_collectionMode : list field v ≠ .error (.collectionMode w) := by
  cases v <;> simp [list]

theorem boolean_ne_collectionMode {default : Bool} : boolean field default v ≠ .error (.collectionMode w) := by
  cases v <;> simp [boolean]

theorem name_ne_collectionMode : name field v ≠ .error (.collectionMode w) := by
  cases v with
  | str s => by_cases hs : s.isEmpty <;> simp [name, hs]
  | _ => simp [name]

theorem reading_ne_collectionMode {ms : List (Text × Json)} {c : Clock} :
    reading field ms c ≠ .error (.collectionMode w) := by
  unfold reading
  split <;> simp

theorem stamp_ne_collectionMode : stamp field v ≠ .error (.collectionMode w) := by
  cases v with
  | int i => cases i <;> simp [stamp]
  | obj ms =>
      intro h
      simp only [stamp] at h
      split at h
      · cases h
      · simp only [Except.bind_eq_error_iff, reading_ne_collectionMode, Except.pure_ne_error, false_or, and_false,
          exists_false] at h
  | _ => simp [stamp]

theorem focus_ne_collectionMode : focus v ≠ .error (.collectionMode w) := by
  cases v <;> simp [focus]

theorem transitionId_ne_collectionMode : transitionId v ≠ .error (.collectionMode w) := by
  cases v <;> simp [transitionId]

theorem transitionType_ne_collectionMode {id : Int} : transitionType id v ≠ .error (.collectionMode w) := by
  cases v with
  | str s =>
      cases htype : TransitionType.ofText? s <;> simp [transitionType, htype]
  | _ => simp [transitionType]

theorem thing_ne_collectionMode {nameKey : Text} : thing nameKey field v ≠ .error (.collectionMode w) := by
  simp only [thing, ne_eq, Except.bind_eq_error_iff, object_ne_collectionMode, name_ne_collectionMode,
    boolean_ne_collectionMode, Except.pure_ne_error, false_or, and_false, exists_false, not_false_eq_true]

end

/-! ## Lists -/

theorem exists_forall₂_iff {β γ : Type} {reads : β → γ → Prop} {xs : List β} :
    (∃ ys, List.Forall₂ reads xs ys) ↔ ∀ x ∈ xs, ∃ y, reads x y := by
  induction xs with
  | nil => simp
  | cons x xs ih =>
      rw [List.forall_mem_cons, ← ih]
      simp only [List.forall₂_cons_left_iff]
      constructor
      · rintro ⟨_, y, ys, hy, hys, rfl⟩
        exact ⟨⟨y, hy⟩, ys, hys⟩
      · rintro ⟨⟨y, hy⟩, ys, hys⟩
        exact ⟨_, y, ys, hy, hys, rfl⟩

section
variable {β : Type} {field : Text} {read : Nat → Text → Json → Except RowFault β} {fault : RowFault}

/-- The fault of a list is that of the first item that has one. -/
theorem itemsFrom_eq_error_iff {index : Nat} {xs : List Json} :
    itemsFrom field read index xs = .error fault ↔ ∃ before x after, xs = before ++ x :: after ∧
      (∃ ys, itemsFrom field read index before = .ok ys) ∧
      read (index + before.length) (place field (index + before.length)) x = .error fault := by
  induction xs generalizing index with
  | nil => simp [itemsFrom]
  | cons x xs ih =>
      simp only [itemsFrom, Except.bind_eq_error_iff, ih, Except.pure_ne_error, and_false, exists_false, or_false]
      constructor
      · rintro (hx | ⟨y, hy, before, x', after, rfl, ⟨ys, hys⟩, hx'⟩)
        · exact ⟨[], x, xs, rfl, ⟨[], rfl⟩, hx⟩
        · refine ⟨x :: before, x', after, rfl, ⟨y :: ys, ?_⟩, ?_⟩
          · simp only [itemsFrom, hy, hys]
            rfl
          · rw [List.length_cons, ← Nat.add_assoc, Nat.add_right_comm]
            exact hx'
      · rintro ⟨before, x', after, hxs, ⟨ys, hys⟩, hx'⟩
        cases before with
        | nil =>
            obtain ⟨rfl, rfl⟩ := List.cons.inj hxs
            exact Or.inl hx'
        | cons z before =>
            obtain ⟨rfl, rfl⟩ := List.cons.inj hxs
            simp only [itemsFrom, Except.bind_eq_ok_iff, Except.pure_eq_ok_iff] at hys
            obtain ⟨y, hy, rest, hrest, -⟩ := hys
            rw [List.length_cons, ← Nat.add_assoc, Nat.add_right_comm] at hx'
            exact Or.inr ⟨y, hy, before, x', after, rfl, ⟨rest, hrest⟩, hx'⟩

theorem items_eq_error_iff {ms : List (Text × Json)} (hlist : list field (Json.get ms field) ≠ .error fault) :
    items field read ms = .error fault ↔ ∃ before x after, IsList (Json.get ms field) (before ++ x :: after) ∧
      (∃ ys, itemsFrom field read 0 before = .ok ys) ∧
      read before.length (place field before.length) x = .error fault := by
  simp only [items, Except.bind_eq_error_iff, hlist, false_or, list_eq_ok_iff, itemsFrom_eq_error_iff, Nat.zero_add]
  constructor
  · rintro ⟨xs, hxs, before, x, after, rfl, hbefore, hx⟩
    exact ⟨before, x, after, hxs, hbefore, hx⟩
  · rintro ⟨before, x, after, hxs, hbefore, hx⟩
    exact ⟨_, hxs, before, x, after, rfl, hbefore, hx⟩

end

/-! ## Transitions -/

theorem mode_eq_collectionMode_iff {id : Int} {index : Nat} {v w : Json} :
    mode id index v = .error (.collectionMode w) ↔ v = w ∧ IsCollection v := by
  cases v with
  | str s => cases hname : Mode.ofName? s <;> simp [mode, hname, IsCollection]
  | _ => simp [mode, IsCollection]

theorem change_eq_collectionMode_iff {id : Int} {index : Nat} {here : Text} {v w : Json} :
    change id index here v = .error (.collectionMode w) ↔ HasCollection v w := by
  simp only [change, Except.bind_eq_error_iff, object_ne_collectionMode, object_eq_ok_iff, mode_eq_collectionMode_iff,
    name_ne_collectionMode, Except.pure_ne_error, false_or, and_false, exists_false, or_false, HasCollection]

theorem changes_eq_collectionMode_iff {id : Int} {ms : List (Text × Json)} {w : Json} :
    items "changes" (change id) ms = .error (.collectionMode w) ↔
      ∃ before x after, Json.get ms "changes" = .arr (before ++ x :: after) ∧
        (∀ y ∈ before, ∃ c, IsChange y c) ∧ HasCollection x w := by
  rw [items_eq_error_iff list_ne_collectionMode]
  refine exists_congr fun before => exists_congr fun x => exists_congr fun after => ?_
  have hlist : IsList (Json.get ms "changes") (before ++ x :: after) ↔
      Json.get ms "changes" = .arr (before ++ x :: after) := by simp [IsList]
  have hread : ∀ i here v c, change id i here v = .ok c ↔ IsChange v c := fun _ _ _ _ => change_eq_ok_iff
  rw [hlist, exists_congr fun cs => itemsFrom_eq_ok_iff hread, exists_forall₂_iff, change_eq_collectionMode_iff]

/-- A transition ends in a look-up exactly if its changes are read up to one with a collection for its mode. -/
theorem toTransition_eq_collectionMode_iff {v w : Json} :
    toTransition v = .error (.collectionMode w) ↔ ReachesCollection v w := by
  simp only [toTransition, Except.bind_eq_error_iff, object_ne_collectionMode, object_eq_ok_iff,
    transitionId_ne_collectionMode, transitionId_eq_ok_iff, transitionType_ne_collectionMode,
    transitionType_eq_ok_iff, changes_eq_collectionMode_iff, stamp_ne_collectionMode, false_or]
  constructor
  · rintro ⟨ms, hv, id, hid, type, ⟨s, hs, htype⟩, hchanges | ⟨cs, -, start, -, stop, -, h⟩⟩
    · exact ⟨ms, hv, ⟨id, hid⟩, ⟨s, type, hs, htype⟩, hchanges⟩
    · -- nothing is looked up after the changes
      split at h
      · cases h
      · simp only [Except.bind_eq_error_iff, boolean_ne_collectionMode, Except.pure_ne_error, false_or, and_false,
          exists_false] at h
  · rintro ⟨ms, hv, ⟨id, hid⟩, ⟨s, type, hs, htype⟩, hchanges⟩
    exact ⟨ms, hv, id, hid, type, ⟨s, hs, htype⟩, Or.inl hchanges⟩

/-! ## Snapshots -/

theorem things_ne_collectionMode {nameKey field : Text} {ms : List (Text × Json)} {w : Json} :
    items field (fun _ => thing nameKey) ms ≠ .error (.collectionMode w) := by
  rw [ne_eq, items_eq_error_iff list_ne_collectionMode]
  rintro ⟨before, x, after, -, -, hx⟩
  exact thing_ne_collectionMode hx

theorem toWindowState_ne_collectionMode {v w : Json} : toWindowState v ≠ .error (.collectionMode w) := by
  simp only [toWindowState, ne_eq, Except.bind_eq_error_iff, object_ne_collectionMode, things_ne_collectionMode,
    focus_ne_collectionMode, stamp_ne_collectionMode, Except.pure_ne_error, false_or, and_false, exists_false,
    not_false_eq_true]

theorem toLayerState_ne_collectionMode {v w : Json} : toLayerState v ≠ .error (.collectionMode w) := by
  simp only [toLayerState, ne_eq, Except.bind_eq_error_iff, object_ne_collectionMode, things_ne_collectionMode,
    stamp_ne_collectionMode, Except.pure_ne_error, false_or, and_false, exists_false, not_false_eq_true]

end Row

end TransitionAudit
