import TransitionAudit.Proofs.Data.Result
import TransitionAudit.Trace.Row

/-!
# What rows are accepted

The grammar of rows: a value is accepted as a snapshot or as a transition exactly if it has the members that
make it one, and nothing else decides what it stands for.
-/

namespace TransitionAudit.Row

/-! ## Fields -/

/-- Whether a value stands for a list; `null` counts as an empty one. -/
def IsList (v : Json) (xs : List Json) : Prop := v = .arr xs ∨ v = .null ∧ xs = []

/-- Whether a value stands for a truth value; `null` counts as the default. -/
def IsFlag (default : Bool) (v : Json) (b : Bool) : Prop := v = .bool b ∨ v = .null ∧ b = default

/-- Whether a value stands for a stamp: it is a number of elapsed nanoseconds, or has members named for
clocks alone with their readings. -/
inductive IsStamp : Json → Stamp → Prop
  | number (n : Nat) : IsStamp (.int n) { elapsed := n }
  | readings {ms : List (Text × Json)} {s : Stamp} (known : ∀ m ∈ ms, ∃ c, m.1 = Clock.key c)
      (readings : ∀ c, (Json.find? ms c.key).getD (.int 0) = .int (s.on c)) : IsStamp (.obj ms) s

/-- Whether a value stands for something with a name under a key, visible or not. -/
def IsThing (nameKey : Text) (v : Json) (name : Text) (isVisible : Bool) : Prop :=
  ∃ ms, v = .obj ms ∧ (Json.get ms nameKey = .str name ∧ name ≠ []) ∧
    IsFlag true (Json.get ms "is_visible") isVisible

theorem object_eq_ok_iff {what : Text} {v : Json} {ms : List (Text × Json)} :
    object what v = .ok ms ↔ v = .obj ms := by
  cases v <;> simp [object]

theorem list_eq_ok_iff {field : Text} {v : Json} {xs : List Json} : list field v = .ok xs ↔ IsList v xs := by
  cases v <;> simp [list, IsList, eq_comm]

theorem boolean_eq_ok_iff {field : Text} {default b : Bool} {v : Json} :
    boolean field default v = .ok b ↔ IsFlag default v b := by
  cases v <;> simp [boolean, IsFlag, eq_comm]

theorem name_eq_ok_iff {field : Text} {v : Json} {s : Text} : name field v = .ok s ↔ v = .str s ∧ s ≠ [] := by
  cases v with
  | str t =>
      simp only [name, List.isEmpty_iff, Json.str.injEq]
      split
      · rename_i hempty
        simp only [reduceCtorEq, false_iff]
        rintro ⟨rfl, hne⟩
        exact hne hempty
      · rename_i hne
        rw [Except.ok.injEq]
        exact ⟨fun h => ⟨h, h ▸ hne⟩, And.left⟩
  | _ => simp [name]

theorem reading_eq_ok_iff {field : Text} {ms : List (Text × Json)} {c : Clock} {n : Nat} :
    reading field ms c = .ok n ↔ (Json.find? ms c.key).getD (.int 0) = .int n := by
  unfold reading
  split
  · rename_i hnone
    simp only [hnone, Option.getD_none, Except.ok.injEq, Json.int.injEq]
    omega
  · rename_i m hsome
    simp only [hsome, Option.getD_some, Except.ok.injEq, Json.int.injEq, Int.ofNat_eq_natCast]
    omega
  · rename_i v hint hsome
    have hne : v ≠ .int n := hint n
    simp [hsome, hne]

/-- Whether the names of members are those of clocks, in the way in which the others are looked for. -/
theorem unknown_isEmpty_iff {ms : List (Text × Json)} :
    ((ms.map (·.1)).filter fun n => !Clock.all.any fun c => c.key == n).isEmpty = true ↔
      ∀ m ∈ ms, ∃ c, m.1 = Clock.key c := by
  simp only [List.isEmpty_iff, List.filter_eq_nil_iff, List.forall_mem_map, Bool.not_eq_true, Bool.not_eq_false',
    List.any_eq_true, beq_iff_eq]
  refine forall₂_congr fun m _ => ⟨fun ⟨c, _, hc⟩ => ⟨c, hc.symm⟩, fun ⟨c, hc⟩ => ⟨c, c.mem_all, hc.symm⟩⟩

theorem stamp_eq_ok_iff {field : Text} {v : Json} {s : Stamp} : stamp field v = .ok s ↔ IsStamp v s := by
  cases v with
  | int i =>
      constructor
      · intro h
        cases i with
        | ofNat n =>
            cases h
            exact .number n
        | negSucc n => cases h
      · rintro ⟨n⟩
        rfl
  | obj ms =>
      by_cases hknown : ∀ m ∈ ms, ∃ c, m.1 = Clock.key c
      · have hempty := unknown_isEmpty_iff.mpr hknown
        simp only [stamp, hempty, Bool.not_true, Bool.false_eq_true, ↓reduceIte, Except.bind_eq_ok_iff,
          reading_eq_ok_iff, Except.pure_eq_ok_iff]
        constructor
        · rintro ⟨elapsed, helapsed, uptime, huptime, unix, hunix, rfl⟩
          refine .readings hknown fun c => ?_
          cases c
          · exact helapsed
          · exact huptime
          · exact hunix
        · rintro (_ | ⟨-, hreadings⟩)
          exact ⟨_, hreadings .elapsed, _, hreadings .uptime, _, hreadings .unix, rfl⟩
      · have hempty := mt unknown_isEmpty_iff.mp hknown
        simp only [stamp, hempty, Bool.not_false, ↓reduceIte, throw, throwThe, MonadExceptOf.throw, bind, Except.bind,
          reduceCtorEq, false_iff]
        rintro (_ | ⟨h, -⟩)
        exact hknown h
  | _ =>
      constructor
      · intro h
        cases h
      · intro h
        cases h

theorem thing_eq_ok_iff {nameKey here : Text} {v : Json} {name : Text} {isVisible : Bool} :
    thing nameKey here v = .ok (name, isVisible) ↔ IsThing nameKey v name isVisible := by
  simp only [thing, Except.bind_eq_ok_iff, object_eq_ok_iff, name_eq_ok_iff, boolean_eq_ok_iff,
    Except.pure_eq_ok_iff, Prod.mk.injEq, IsThing]
  constructor
  · rintro ⟨ms, hv, n, hn, b, hb, rfl, rfl⟩
    exact ⟨ms, hv, hn, hb⟩
  · rintro ⟨ms, hv, hn, hb⟩
    exact ⟨ms, hv, name, hn, isVisible, hb, rfl, rfl⟩

section
variable {β : Type} {field : Text} {read : Nat → Text → Json → Except RowFault β} {reads : Json → β → Prop}

theorem itemsFrom_eq_ok_iff (hread : ∀ i here v y, read i here v = .ok y ↔ reads v y) {index : Nat}
    {xs : List Json} {ys : List β} : itemsFrom field read index xs = .ok ys ↔ List.Forall₂ reads xs ys := by
  induction xs generalizing index ys with
  | nil => simp [itemsFrom, eq_comm]
  | cons x xs ih =>
      rw [List.forall₂_cons_left_iff]
      simp only [itemsFrom, Except.bind_eq_ok_iff, Except.pure_eq_ok_iff, hread, ih]
      constructor
      · rintro ⟨y, hy, rest, hrest, rfl⟩
        exact ⟨y, rest, hy, hrest, rfl⟩
      · rintro ⟨y, rest, hy, hrest, rfl⟩
        exact ⟨y, hy, rest, hrest, rfl⟩

theorem items_eq_ok_iff (hread : ∀ i here v y, read i here v = .ok y ↔ reads v y) {ms : List (Text × Json)}
    {ys : List β} :
    items field read ms = .ok ys ↔ ∃ xs, IsList (Json.get ms field) xs ∧ List.Forall₂ reads xs ys := by
  simp only [items, Except.bind_eq_ok_iff, list_eq_ok_iff, itemsFrom_eq_ok_iff hread]

end

/-! ## Snapshots -/

theorem focus_eq_ok_iff {v : Json} {f : Option Text} : focus v = .ok f ↔ v = Json.ofOption f := by
  cases f <;> cases v <;> simp [focus, Json.ofOption]

/-- Whether a value stands for the windows at one moment. -/
def IsWindowState (v : Json) (s : WindowState) : Prop :=
  ∃ ms, v = .obj ms ∧
    (∃ xs, IsList (Json.get ms "windows") xs ∧
      List.Forall₂ (fun x w => IsThing "title" x w.title w.isVisible) xs s.windows) ∧
    Json.get ms "focused_window" = Json.ofOption s.focused ∧ IsStamp (Json.get ms "timestamp") s.taken

/-- Whether a value stands for the layers at one moment. -/
def IsLayerState (v : Json) (s : LayerState) : Prop :=
  ∃ ms, v = .obj ms ∧
    (∃ xs, IsList (Json.get ms "layers") xs ∧
      List.Forall₂ (fun x l => IsThing "name" x l.name l.isVisible) xs s.layers) ∧
    IsStamp (Json.get ms "timestamp") s.taken

theorem things_eq_ok_iff {nameKey field : Text} {ms : List (Text × Json)} {ys : List (Text × Bool)} :
    items field (fun _ => thing nameKey) ms = .ok ys ↔ ∃ xs, IsList (Json.get ms field) xs ∧
      List.Forall₂ (fun x y => IsThing nameKey x y.1 y.2) xs ys := by
  refine items_eq_ok_iff fun _ here x y => ?_
  exact @thing_eq_ok_iff nameKey here x y.1 y.2

theorem toWindowState_eq_ok_iff {v : Json} {s : WindowState} :
    toWindowState v = .ok s ↔ IsWindowState v s := by
  simp only [toWindowState, Except.bind_eq_ok_iff, object_eq_ok_iff, things_eq_ok_iff, focus_eq_ok_iff,
    stamp_eq_ok_iff, Except.pure_eq_ok_iff, IsWindowState]
  constructor
  · rintro ⟨ms, hv, ys, ⟨xs, hxs, hys⟩, f, hf, t, ht, rfl⟩
    exact ⟨ms, hv, ⟨xs, hxs, List.forall₂_map_right_iff.mpr hys⟩, hf, ht⟩
  · rintro ⟨ms, hv, ⟨xs, hxs, hys⟩, hf, ht⟩
    refine ⟨ms, hv, s.windows.map fun w => (w.title, w.isVisible), ⟨xs, hxs, ?_⟩, _, hf, _, ht, ?_⟩
    · exact List.forall₂_map_right_iff.mpr hys
    · rw [List.map_map]
      exact congrArg (WindowState.mk _ · _) (List.map_id _)

theorem toLayerState_eq_ok_iff {v : Json} {s : LayerState} : toLayerState v = .ok s ↔ IsLayerState v s := by
  simp only [toLayerState, Except.bind_eq_ok_iff, object_eq_ok_iff, things_eq_ok_iff, stamp_eq_ok_iff,
    Except.pure_eq_ok_iff, IsLayerState]
  constructor
  · rintro ⟨ms, hv, ys, ⟨xs, hxs, hys⟩, t, ht, rfl⟩
    exact ⟨ms, hv, ⟨xs, hxs, List.forall₂_map_right_iff.mpr hys⟩, ht⟩
  · rintro ⟨ms, hv, ⟨xs, hxs, hys⟩, ht⟩
    refine ⟨ms, hv, s.layers.map fun l => (l.name, l.isVisible), ⟨xs, hxs, ?_⟩, _, ht, ?_⟩
    · exact List.forall₂_map_right_iff.mpr hys
    · rw [List.map_map]
      exact congrArg (LayerState.mk _) (List.map_id _)

/-! ## Transitions -/

/-- Whether a value stands for what happened to one window. -/
def IsChange (v : Json) (c : Change) : Prop :=
  ∃ ms, v = .obj ms ∧ Json.get ms "transit_mode" = .str c.mode.name ∧
    Json.get ms "window_name" = .str c.window ∧ c.window ≠ []

/-- Whether a value stands for a transition. -/
def IsTransition (v : Json) (t : Transition) : Prop :=
  ∃ ms, v = .obj ms ∧ Json.get ms "id" = .int t.id ∧
    (∃ s, Json.get ms "type" = .str s ∧ TransitionType.ofText? s = some t.type) ∧
    (∃ xs, IsList (Json.get ms "changes") xs ∧ List.Forall₂ IsChange xs t.changes) ∧
    IsStamp (Json.get ms "start") t.start ∧ IsStamp (Json.get ms "end") t.stop ∧ ¬ t.stop < t.start ∧
    IsFlag false (Json.get ms "is_incomplete") t.isIncomplete

theorem mode_eq_ok_iff {id : Int} {index : Nat} {v : Json} {m : Mode} :
    mode id index v = .ok m ↔ v = .str m.name := by
  cases v with
  | str s =>
      have hname : Mode.ofName? s = some m ↔ s = m.name :=
        ⟨fun h => (Mode.name_of_ofName? h).symm, fun h => h ▸ Mode.ofName?_name m⟩
      rw [Json.str.injEq, ← hname, mode]
      cases Mode.ofName? s <;> simp
  | _ => simp [mode]

theorem change_eq_ok_iff {id : Int} {index : Nat} {here : Text} {v : Json} {c : Change} :
    change id index here v = .ok c ↔ IsChange v c := by
  simp only [change, Except.bind_eq_ok_iff, object_eq_ok_iff, mode_eq_ok_iff, name_eq_ok_iff, Except.pure_eq_ok_iff,
    IsChange]
  constructor
  · rintro ⟨ms, hv, m, hm, n, hn, rfl⟩
    exact ⟨ms, hv, hm, hn⟩
  · rintro ⟨ms, hv, hm, hn⟩
    exact ⟨ms, hv, _, hm, _, hn, rfl⟩

theorem transitionId_eq_ok_iff {v : Json} {id : Int} : transitionId v = .ok id ↔ v = .int id := by
  cases v <;> simp [transitionId]

theorem transitionType_eq_ok_iff {id : Int} {v : Json} {t : TransitionType} :
    transitionType id v = .ok t ↔ ∃ s, v = .str s ∧ TransitionType.ofText? s = some t := by
  cases v with
  | str s =>
      have hstr : (∃ s', Json.str s = .str s' ∧ TransitionType.ofText? s' = some t) ↔
          TransitionType.ofText? s = some t := by simp
      rw [hstr, transitionType]
      cases TransitionType.ofText? s <;> simp
  | _ => simp [transitionType]

theorem changes_eq_ok_iff {id : Int} {ms : List (Text × Json)} {cs : List Change} :
    items "changes" (change id) ms = .ok cs ↔
      ∃ xs, IsList (Json.get ms "changes") xs ∧ List.Forall₂ IsChange xs cs := by
  refine items_eq_ok_iff fun _ _ _ _ => ?_
  exact change_eq_ok_iff

theorem toTransition_eq_ok_iff {v : Json} {t : Transition} : toTransition v = .ok t ↔ IsTransition v t := by
  simp only [toTransition, Except.bind_eq_ok_iff, object_eq_ok_iff, transitionId_eq_ok_iff,
    transitionType_eq_ok_iff, changes_eq_ok_iff, stamp_eq_ok_iff, IsTransition]
  constructor
  · rintro ⟨ms, hv, id, hid, type, htype, cs, hcs, start, hstart, stop, hstop, h⟩
    split at h
    · cases h
    · rename_i horder
      simp only [Except.bind_eq_ok_iff, boolean_eq_ok_iff, Except.pure_eq_ok_iff] at h
      obtain ⟨b, hb, rfl⟩ := h
      exact ⟨ms, hv, hid, htype, hcs, hstart, hstop, horder, hb⟩
  · rintro ⟨ms, hv, hid, htype, hcs, hstart, hstop, horder, hb⟩
    refine ⟨ms, hv, _, hid, _, htype, _, hcs, _, hstart, _, hstop, ?_⟩
    rw [if_neg horder]
    simp only [Except.bind_eq_ok_iff, boolean_eq_ok_iff, Except.pure_eq_ok_iff]
    exact ⟨_, hb, rfl⟩

end TransitionAudit.Row
