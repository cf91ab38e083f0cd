import TransitionAudit.Proofs.Json.Agreement
import TransitionAudit.Proofs.Text.Joined
import TransitionAudit.Proofs.Trace.Row
import TransitionAudit.Proofs.Transition.Mode
import Mathlib.Data.List.Nodup

/-!
# Full rows

What stands in a row that was read can be written: its integers are short enough and its texts hold no halves
of characters. The full row that is written for it stands for the same snapshot or transition, in whatever
order its members come.
-/

namespace TransitionAudit

/-! ## What can be written -/

def Stamp.Recordable (s : Stamp) : Prop := ∀ c, Numeral.isWritable (s.on c) = true

/-- Whether a text is a name that can be written. -/
def Text.IsName (s : Text) : Prop := s ≠ [] ∧ Json.Joined s

structure WindowState.Recordable (s : WindowState) : Prop where
  taken : s.taken.Recordable
  titles : ∀ w ∈ s.windows, w.title.IsName
  focused : ∀ f ∈ s.focused, Json.Joined f

structure LayerState.Recordable (s : LayerState) : Prop where
  taken : s.taken.Recordable
  names : ∀ l ∈ s.layers, l.name.IsName

structure Transition.Recordable (t : Transition) : Prop where
  id : Numeral.isWritable t.id = true
  start : t.start.Recordable
  stop : t.stop.Recordable
  order : ¬ t.stop < t.start
  names : ∀ c ∈ t.changes, c.window.IsName

namespace Json

theorem Legible.get {ms : List (Text × Json)} (h : (Json.obj ms).Legible) (name : Text) :
    (Json.get ms name).Legible := by
  unfold Json.get
  cases hfind : find? ms name with
  | none => exact .null
  | some v =>
      obtain ⟨m, hm, rfl⟩ := Option.map_eq_some_iff.mp hfind
      cases h with
      | obj values => exact values m (List.mem_of_find?_eq_some hm)

theorem Tidy.get {levels : Nat} {ms : List (Text × Json)} (h : Tidy levels (.obj ms)) (name : Text) :
    Tidy (levels - 1) (Json.get ms name) := by
  unfold Json.get
  cases hfind : find? ms name with
  | none => exact .null
  | some v =>
      obtain ⟨m, hm, rfl⟩ := Option.map_eq_some_iff.mp hfind
      cases h with
      | obj names joined values => exact values m (List.mem_of_find?_eq_some hm)

theorem Tidy.nodup {levels : Nat} {ms : List (Text × Json)} (h : Tidy levels (.obj ms)) :
    (ms.map (·.1)).Nodup := by
  cases h with
  | obj names joined values => exact names

end Json

/-! ## Rows that were read -/

namespace Row

theorem isWritable_zero : Numeral.isWritable 0 = true := by
  rw [Json.isWritable_iff]
  exact Nat.pow_pos (by decide)

theorem IsStamp.recordable {v : Json} {s : Stamp} (h : IsStamp v s) (hv : v.Legible) : s.Recordable := by
  cases h with
  | number n =>
      intro c
      cases c with
      | elapsed => exact hv.isWritable
      | uptime => exact isWritable_zero
      | unix => exact isWritable_zero
  | @readings ms _ known readings =>
      intro c
      have hc := readings c
      cases hfind : Json.find? ms c.key with
      | none =>
          rw [hfind, Option.getD_none, Json.int.injEq] at hc
          exact hc ▸ isWritable_zero
      | some x =>
          have hx := hv.get c.key
          rw [Json.get, hfind, Option.getD_some] at hx
          rw [hfind, Option.getD_some] at hc
          exact (hc ▸ hx).isWritable

theorem IsList.legible {v : Json} {xs : List Json} (h : IsList v xs) (hv : v.Legible) :
    ∀ x ∈ xs, x.Legible := by
  rcases h with rfl | ⟨-, rfl⟩
  · exact hv.mem
  · simp

/-- What holds of the values that a list field is read as, each legible item giving its own. -/
theorem forall_mem_of_forall₂ {β : Type} {reads : Json → β → Prop} {holds : β → Prop} {xs : List Json}
    {ys : List β} (h : List.Forall₂ reads xs ys) (hxs : ∀ x ∈ xs, x.Legible)
    (hreads : ∀ x y, reads x y → x.Legible → holds y) : ∀ y ∈ ys, holds y := by
  intro y hy
  obtain ⟨x, hx, hxy⟩ := h.flip.exists_of_mem_left hy
  exact hreads x y hxy (hxs x hx)

theorem IsThing.isName {nameKey name : Text} {v : Json} {isVisible : Bool}
    (h : IsThing nameKey v name isVisible) (hv : v.Legible) : name.IsName := by
  obtain ⟨ms, rfl, ⟨hname, hne⟩, -⟩ := h
  exact ⟨hne, (hname ▸ hv.get nameKey).joined⟩

theorem IsChange.isName {v : Json} {c : Change} (h : IsChange v c) (hv : v.Legible) : c.window.IsName := by
  obtain ⟨ms, rfl, -, hname, hne⟩ := h
  exact ⟨hne, (hname ▸ hv.get "window_name").joined⟩

theorem IsWindowState.recordable {v : Json} {s : WindowState} (h : IsWindowState v s) (hv : v.Legible) :
    s.Recordable := by
  obtain ⟨ms, rfl, ⟨xs, hxs, hwindows⟩, hfocused, htaken⟩ := h
  refine ⟨htaken.recordable (hv.get _), ?_, ?_⟩
  · exact forall_mem_of_forall₂ hwindows (hxs.legible (hv.get _)) fun _ _ hthing => hthing.isName
  · intro f hf
    have hlegible := hv.get "focused_window"
    rw [hfocused, hf] at hlegible
    exact hlegible.joined

theorem IsLayerState.recordable {v : Json} {s : LayerState} (h : IsLayerState v s) (hv : v.Legible) :
    s.Recordable := by
  obtain ⟨ms, rfl, ⟨xs, hxs, hlayers⟩, htaken⟩ := h
  refine ⟨htaken.recordable (hv.get _), ?_⟩
  exact forall_mem_of_forall₂ hlayers (hxs.legible (hv.get _)) fun _ _ hthing => hthing.isName

theorem IsTransition.recordable {v : Json} {t : Transition} (h : IsTransition v t) (hv : v.Legible) :
    t.Recordable := by
  obtain ⟨ms, rfl, hid, -, ⟨xs, hxs, hchanges⟩, hstart, hstop, horder, -⟩ := h
  refine ⟨(hid ▸ hv.get "id").isWritable, hstart.recordable (hv.get _), hstop.recordable (hv.get _), horder, ?_⟩
  exact forall_mem_of_forall₂ hchanges (hxs.legible (hv.get _)) fun _ _ hchange => hchange.isName

end Row

/-! ## Rows that are written -/

namespace Clock

theorem key_injective : Function.Injective key := by
  intro c d
  cases c <;> cases d <;> decide

theorem joined_key (c : Clock) : Json.Joined c.key := by
  cases c <;> exact Json.joined_ofString _

end Clock

namespace Stamp

theorem mem_toMembers {s : Stamp} {m : Text × Json} :
    m ∈ s.toMembers ↔ ∃ c, s.on c ≠ 0 ∧ (c.key, .int (s.on c)) = m := by
  simp [toMembers, Clock.mem_all]

theorem nodup_toMembers (s : Stamp) : (s.toMembers.map (·.1)).Nodup := by
  have hall : Clock.all.Nodup := by decide
  rw [toMembers, List.map_map]
  exact List.Nodup.map Clock.key_injective (hall.filter _)

theorem find?_toMembers (s : Stamp) (c : Clock) :
    Json.find? s.toMembers c.key = if s.on c = 0 then none else some (.int (s.on c)) := by
  split
  · rename_i hc
    rw [Option.eq_none_iff_forall_ne_some]
    intro v hv
    rw [Json.find?_eq_some_iff s.nodup_toMembers, mem_toMembers] at hv
    obtain ⟨d, hd, heq⟩ := hv
    exact hd (Clock.key_injective (congrArg Prod.fst heq) ▸ hc)
  · rename_i hc
    rw [Json.find?_eq_some_iff s.nodup_toMembers, mem_toMembers]
    exact ⟨c, hc, rfl⟩

theorem tidy_toJson (s : Stamp) (levels : Nat) : Json.Tidy (levels + 1) s.toJson := by
  refine .obj s.nodup_toMembers ?_ ?_
  · intro m hm
    obtain ⟨c, -, rfl⟩ := mem_toMembers.mp hm
    exact c.joined_key
  · intro m hm
    obtain ⟨c, -, rfl⟩ := mem_toMembers.mp hm
    exact .int _

theorem legible_toJson {s : Stamp} (h : s.Recordable) : s.toJson.Legible := by
  refine .obj fun m hm => ?_
  obtain ⟨c, -, rfl⟩ := mem_toMembers.mp hm
  exact .int (h c)

theorem plain_toJson {s : Stamp} (h : s.Recordable) (levels : Nat) : Json.Plain (levels + 1) s.toJson :=
  (s.tidy_toJson levels).plain (s.legible_toJson h)

theorem isStamp_toJson (s : Stamp) : Row.IsStamp s.toJson s := by
  refine .readings (fun m hm => ?_) fun c => ?_
  · obtain ⟨c, -, rfl⟩ := mem_toMembers.mp hm
    exact ⟨c, rfl⟩
  · rw [s.find?_toMembers c]
    split
    · rename_i hc
      rw [hc]
      rfl
    · rfl

end Stamp

namespace Row

/-- A list whose items are written one by one is read back as it was. -/
theorem exists_isList_full {β : Type} {f : β → Json} {reads : Json → β → Prop} {ys : List β}
    (h : ∀ y ∈ ys, reads (f y) y) : ∃ xs, IsList (.arr (ys.map f)) xs ∧ List.Forall₂ reads xs ys :=
  ⟨ys.map f, .inl rfl, List.forall₂_map_left_iff.mpr (List.forall₂_same.mpr h)⟩

theorem isThing_full {nameKey name : Text} (hkey : nameKey ≠ "is_visible") (hname : name ≠ [])
    (isVisible : Bool) :
    IsThing nameKey (.obj [(nameKey, .str name), ("is_visible", .bool isVisible)]) name isVisible := by
  refine ⟨_, rfl, ⟨?_, hname⟩, .inl ?_⟩
  · simp [Json.get, Json.find?]
  · simp [Json.get, Json.find?, hkey]

theorem plain_full {nameKey name : Text} (hkey : nameKey ≠ "is_visible") (hjoined : Json.Joined nameKey)
    (hname : Json.Joined name) (isVisible : Bool) (levels : Nat) :
    Json.Plain (levels + 1) (.obj [(nameKey, .str name), ("is_visible", .bool isVisible)]) := by
  refine .obj (by simpa using hkey) ?_ ?_
  · simp [hjoined, Json.joined_ofString]
  · simp [Json.Plain.str hname, Json.Plain.bool]

end Row

theorem plain_list {β : Type} {f : β → Json} {ys : List β} {levels : Nat}
    (h : ∀ y ∈ ys, Json.Plain levels (f y)) :
    Json.Plain (levels + 1) (.arr (ys.map f)) :=
  .arr (List.forall_mem_map.mpr h)

namespace WindowState

theorem nodup_names (s : WindowState) :
    ([("timestamp", s.taken.toJson), ("windows", .arr (s.windows.map Window.toJson)),
      ("focused_window", Json.ofOption s.focused)] : List (Text × Json)).map (·.1) |>.Nodup :=
  (by decide : (["timestamp", "windows", "focused_window"] : List Text).Nodup)

theorem isWindowState_toJson {s : WindowState} (h : ∀ w ∈ s.windows, w.title ≠ []) :
    Row.IsWindowState s.toJson s :=
  ⟨_, rfl, Row.exists_isList_full fun w hw => Row.isThing_full (by decide) (h w hw) w.isVisible, rfl,
    s.taken.isStamp_toJson⟩

theorem plain_toJson {s : WindowState} (h : s.Recordable) (levels : Nat) :
    Json.Plain (levels + 3) s.toJson := by
  have hwindows : Json.Plain (levels + 2) (.arr (s.windows.map Window.toJson)) := plain_list fun w hw =>
    Row.plain_full (by decide) (Json.joined_ofString _) (h.titles w hw).2 w.isVisible levels
  have hfocused : Json.Plain (levels + 2) (Json.ofOption s.focused) := by
    cases hf : s.focused with
    | none => exact .null
    | some f => exact .str (h.focused f hf)
  refine .obj s.nodup_names ?_ ?_
  · simp [Json.joined_ofString]
  · simpa using ⟨s.taken.plain_toJson h.taken _, hwindows, hfocused⟩

end WindowState

namespace LayerState

theorem nodup_names (s : LayerState) :
    ([("timestamp", s.taken.toJson), ("layers", .arr (s.layers.map Layer.toJson))] : List (Text × Json)).map (·.1)
      |>.Nodup :=
  (by decide : (["timestamp", "layers"] : List Text).Nodup)

theorem isLayerState_toJson {s : LayerState} (h : ∀ l ∈ s.layers, l.name ≠ []) :
    Row.IsLayerState s.toJson s :=
  ⟨_, rfl, Row.exists_isList_full fun l hl => Row.isThing_full (by decide) (h l hl) l.isVisible,
    s.taken.isStamp_toJson⟩

theorem plain_toJson {s : LayerState} (h : s.Recordable) (levels : Nat) :
    Json.Plain (levels + 3) s.toJson := by
  have hlayers : Json.Plain (levels + 2) (.arr (s.layers.map Layer.toJson)) := plain_list fun l hl =>
    Row.plain_full (by decide) (Json.joined_ofString _) (h.names l hl).2 l.isVisible levels
  refine .obj s.nodup_names ?_ ?_
  · simp [Json.joined_ofString]
  · simpa using ⟨s.taken.plain_toJson h.taken _, hlayers⟩

end LayerState

namespace Change

theorem nodup_names (c : Change) :
    ([("window_name", .str c.window), ("transit_mode", .str c.mode.name)] : List (Text × Json)).map (·.1)
      |>.Nodup :=
  (by decide : (["window_name", "transit_mode"] : List Text).Nodup)

theorem isChange_toJson {c : Change} (h : c.window ≠ []) : Row.IsChange c.toJson c := ⟨_, rfl, rfl, rfl, h⟩

theorem plain_toJson {c : Change} (h : c.window.IsName) (levels : Nat) :
    Json.Plain (levels + 1) c.toJson := by
  have hmode : Json.Joined c.mode.name := by cases c.mode <;> exact Json.joined_ofString _
  refine .obj c.nodup_names ?_ ?_
  · simp [Json.joined_ofString]
  · simpa using ⟨.str h.2, .str hmode⟩

end Change

theorem TransitionType.hasOctets_text (t : TransitionType) : t.text.HasOctets := by
  refine Text.hasOctets_intercalate (Text.hasOctets_ofString _) (List.forall_mem_map.mpr fun m _ => ?_)
  cases m <;> exact Text.hasOctets_ofString _

theorem TransitionType.joined_text (t : TransitionType) : Json.Joined t.text :=
  Json.joined_of_hasOctets t.hasOctets_text

namespace Transition

theorem nodup_names (t : Transition) :
    ([("id", .int t.id), ("type", .str t.type.text), ("start", t.start.toJson), ("end", t.stop.toJson),
      ("changes", .arr (t.changes.map Change.toJson)), ("is_incomplete", .bool t.isIncomplete)] :
      List (Text × Json)).map (·.1) |>.Nodup :=
  (by decide : (["id", "type", "start", "end", "changes", "is_incomplete"] : List Text).Nodup)

theorem isTransition_toJson {t : Transition} (horder : ¬ t.stop < t.start)
    (h : ∀ c ∈ t.changes, c.window ≠ []) : Row.IsTransition t.toJson t :=
  ⟨_, rfl, rfl, ⟨_, rfl, t.type.ofText?_text⟩, Row.exists_isList_full fun c hc => Change.isChange_toJson (h c hc),
    t.start.isStamp_toJson, t.stop.isStamp_toJson, horder, .inl rfl⟩

theorem plain_toJson {t : Transition} (h : t.Recordable) (levels : Nat) :
    Json.Plain (levels + 3) t.toJson := by
  have hchanges : Json.Plain (levels + 2) (.arr (t.changes.map Change.toJson)) := plain_list fun c hc =>
    Change.plain_toJson (h.names c hc) levels
  refine .obj t.nodup_names ?_ ?_
  · simp [Json.joined_ofString]
  · simpa using ⟨.int h.id, .str t.type.joined_text, t.start.plain_toJson h.start _, t.stop.plain_toJson h.stop _,
      hchanges, .bool _⟩

end Transition

/-! ## Rows with their members sorted -/

namespace Row

section
variable {levels : Nat} {v : Json} (hv : Json.Tidy levels v)

theorem IsFlag.sorted {default b : Bool} (h : IsFlag default v b) : IsFlag default v.sorted b := by
  rcases h with rfl | ⟨rfl, rfl⟩
  · exact Or.inl rfl
  · exact Or.inr ⟨rfl, rfl⟩

include hv

/-- A list field whose items stand for the same when they are sorted does so itself. -/
theorem IsList.sorted {β : Type} {reads : Json → β → Prop} {xs : List Json} {ys : List β} (hlist : IsList v xs)
    (h : List.Forall₂ reads xs ys)
    (hsorted : ∀ {levels x y}, Json.Tidy levels x → reads x y → reads x.sorted y) :
    ∃ xs', IsList v.sorted xs' ∧ List.Forall₂ reads xs' ys := by
  rcases hlist with rfl | ⟨rfl, rfl⟩
  · refine ⟨xs.map Json.sorted, .inl ?_, ?_⟩
    · rw [Json.sorted, Json.sortedItems_eq_map]
    · rw [List.forall₂_map_left_iff]
      cases hv with
      | arr items =>
          have htidy := (List.forall₂_and_left _ _).mpr ⟨items, h⟩
          exact htidy.imp fun _ _ hx => hsorted hx.1 hx.2
  · exact ⟨[], .inr ⟨rfl, rfl⟩, h⟩

theorem IsStamp.sorted {s : Stamp} (h : IsStamp v s) : IsStamp v.sorted s := by
  cases h with
  | number n => exact .number n
  | @readings ms _ known readings =>
      refine .readings (fun m hm => ?_) fun c => ?_
      · have hmem : m.1 ∈ (Json.sortedMembers ms).map (·.1) :=
          List.mem_map_of_mem ((Json.sortMembers_perm _).mem_iff.mp hm)
        rw [Json.map_fst_sortedMembers] at hmem
        obtain ⟨m', hm', hfst⟩ := List.mem_map.mp hmem
        exact hfst ▸ known m' hm'
      · have hc := readings c
        rw [Json.find?_sorted hv.nodup]
        cases hfind : Json.find? ms c.key with
        | none => rwa [hfind] at hc
        | some w =>
            rw [hfind, Option.getD_some] at hc
            rw [hc]
            rfl

theorem IsThing.sorted {nameKey name : Text} {isVisible : Bool} (h : IsThing nameKey v name isVisible) :
    IsThing nameKey v.sorted name isVisible := by
  obtain ⟨ms, rfl, ⟨hname, hne⟩, hvisible⟩ := h
  refine ⟨_, rfl, ⟨?_, hne⟩, ?_⟩
  · rw [Json.get_sorted hv.nodup, hname]
    rfl
  · rw [Json.get_sorted hv.nodup]
    exact hvisible.sorted

theorem IsChange.sorted {c : Change} (h : IsChange v c) : IsChange v.sorted c := by
  obtain ⟨ms, rfl, hmode, hwindow, hne⟩ := h
  refine ⟨_, rfl, ?_, ?_, hne⟩
  · rw [Json.get_sorted hv.nodup, hmode]
    rfl
  · rw [Json.get_sorted hv.nodup, hwindow]
    rfl

theorem IsWindowState.sorted {s : WindowState} (h : IsWindowState v s) : IsWindowState v.sorted s := by
  obtain ⟨ms, rfl, ⟨xs, hxs, hwindows⟩, hfocused, htaken⟩ := h
  refine ⟨_, rfl, ?_, ?_, ?_⟩
  · rw [Json.get_sorted hv.nodup]
    exact hxs.sorted (hv.get _) hwindows fun hx hthing => hthing.sorted hx
  · rw [Json.get_sorted hv.nodup, hfocused]
    cases s.focused <;> rfl
  · rw [Json.get_sorted hv.nodup]
    exact htaken.sorted (hv.get _)

theorem IsLayerState.sorted {s : LayerState} (h : IsLayerState v s) : IsLayerState v.sorted s := by
  obtain ⟨ms, rfl, ⟨xs, hxs, hlayers⟩, htaken⟩ := h
  refine ⟨_, rfl, ?_, ?_⟩
  · rw [Json.get_sorted hv.nodup]
    exact hxs.sorted (hv.get _) hlayers fun hx hthing => hthing.sorted hx
  · rw [Json.get_sorted hv.nodup]
    exact htaken.sorted (hv.get _)

theorem IsTransition.sorted {t : Transition} (h : IsTransition v t) : IsTransition v.sorted t := by
  obtain ⟨ms, rfl, hid, ⟨s, hs, htype⟩, ⟨xs, hxs, hchanges⟩, hstart, hstop, horder, hflag⟩ := h
  refine ⟨_, rfl, ?_, ⟨s, ?_, htype⟩, ?_, ?_, ?_, horder, ?_⟩
  · rw [Json.get_sorted hv.nodup, hid]
    rfl
  · rw [Json.get_sorted hv.nodup, hs]
    rfl
  · rw [Json.get_sorted hv.nodup]
    exact hxs.sorted (hv.get _) hchanges fun hx hchange => hchange.sorted hx
  · rw [Json.get_sorted hv.nodup]
    exact hstart.sorted (hv.get _)
  · rw [Json.get_sorted hv.nodup]
    exact hstop.sorted (hv.get _)
  · rw [Json.get_sorted hv.nodup]
    exact hflag.sorted

end

end Row

end TransitionAudit
