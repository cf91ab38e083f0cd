import TransitionAudit.Proofs.Trace.Collection
import TransitionAudit.Proofs.Transition.Mode

/-!
# The grammar of rows

What rows look like, said by their members alone: which have to be there, which may be absent or `null`, and of
what kind each is. A value stands for a snapshot or for a transition exactly if it looks like one.
-/

namespace TransitionAudit

namespace Json

/-! ## Kinds of values -/

def IsText (v : Json) : Prop := ∃ s, v = .str s

/-- Whether a value is a text that is not empty. -/
def IsName (v : Json) : Prop := ∃ s, v = .str s ∧ s ≠ []

def IsBool (v : Json) : Prop := ∃ b, v = .bool b

def IsInteger (v : Json) : Prop := ∃ i, v = .int i

def IsNatural (v : Json) : Prop := ∃ n : Nat, v = .int n

def IsListOf (item : Json → Prop) (v : Json) : Prop := ∃ xs, v = .arr xs ∧ ∀ x ∈ xs, item x

/-! ## Members -/

section
variable {ms : List (Text × Json)} {name : Text} {kind : Json → Prop}

/-- Whether there is a member of a name, and it is of a kind. -/
def Requires (ms : List (Text × Json)) (name : Text) (kind : Json → Prop) : Prop :=
  ∃ v, find? ms name = some v ∧ kind v

/-- Whether the member of a name is of a kind, unless it is absent or `null`. -/
def Allows (ms : List (Text × Json)) (name : Text) (kind : Json → Prop) : Prop :=
  ∀ v, find? ms name = some v → v = .null ∨ kind v

theorem requires_iff (hnull : ¬ kind .null) : Requires ms name kind ↔ kind (get ms name) := by
  unfold Requires get
  cases find? ms name with
  | none => simp [hnull]
  | some v => simp

theorem allows_iff : Allows ms name kind ↔ get ms name = .null ∨ kind (get ms name) := by
  unfold Allows get
  cases find? ms name with
  | none => simp
  | some v => simp

end

end Json

namespace Row

/-! ## Fields -/

/-- Whether a value says when: in elapsed nanoseconds, or by readings of some clocks and nothing else. -/
inductive StampShape : Json → Prop
  | number (n : Nat) : StampShape (.int n)
  | readings {ms : List (Text × Json)} (known : ∀ m ∈ ms, ∃ c, m.1 = Clock.key c)
      (naturals : ∀ (c : Clock) v, Json.find? ms c.key = some v → v.IsNatural) : StampShape (.obj ms)

/-- Whether a value names something that may be visible. -/
def ThingShape (nameKey : Text) (v : Json) : Prop :=
  ∃ ms, v = .obj ms ∧ Json.Requires ms nameKey Json.IsName ∧ Json.Allows ms "is_visible" Json.IsBool

theorem exists_isFlag_iff {default : Bool} {v : Json} : (∃ b, IsFlag default v b) ↔ v = .null ∨ v.IsBool := by
  simp [IsFlag, Json.IsBool, exists_or, or_comm]

theorem exists_isList_iff {item : Json → Prop} {v : Json} :
    (∃ xs, IsList v xs ∧ ∀ x ∈ xs, item x) ↔ v = .null ∨ v.IsListOf item := by
  constructor
  · rintro ⟨xs, rfl | ⟨hv, -⟩, hxs⟩
    · exact Or.inr ⟨xs, rfl, hxs⟩
    · exact Or.inl hv
  · rintro (hv | ⟨xs, hv, hxs⟩)
    · exact ⟨[], Or.inr ⟨hv, rfl⟩, by simp⟩
    · exact ⟨xs, Or.inl hv, hxs⟩

/-- A list field can be read if each of its items can. -/
theorem exists_items_iff {β : Type} {reads : Json → β → Prop} {item : Json → Prop}
    (hitem : ∀ x, (∃ y, reads x y) ↔ item x) {v : Json} :
    (∃ ys xs, IsList v xs ∧ List.Forall₂ reads xs ys) ↔ v = .null ∨ v.IsListOf item := by
  rw [exists_comm, ← exists_isList_iff]
  refine exists_congr fun xs => ?_
  rw [exists_and_left, exists_forall₂_iff]
  simp only [hitem]

theorem exists_isStamp_iff {v : Json} : (∃ s, IsStamp v s) ↔ StampShape v := by
  constructor
  · rintro ⟨s, h⟩
    cases h with
    | number n => exact .number n
    | readings known readings =>
        refine .readings known fun c w hw => ?_
        have hc := readings c
        rw [hw, Option.getD_some] at hc
        exact ⟨_, hc⟩
  · intro h
    cases h with
    | number n => exact ⟨_, .number n⟩
    | @readings ms known naturals =>
        have hreading : ∀ c : Clock, ∃ n : Nat, (Json.find? ms c.key).getD (.int 0) = .int n := by
          intro c
          cases hfind : Json.find? ms c.key with
          | none => exact ⟨0, rfl⟩
          | some w => exact naturals c w hfind
        obtain ⟨elapsed, helapsed⟩ := hreading .elapsed
        obtain ⟨uptime, huptime⟩ := hreading .uptime
        obtain ⟨unix, hunix⟩ := hreading .unix
        refine ⟨⟨elapsed, uptime, unix⟩, .readings known fun c => ?_⟩
        cases c
        · exact helapsed
        · exact huptime
        · exact hunix

theorem exists_isThing_iff {nameKey : Text} {v : Json} :
    (∃ name isVisible, IsThing nameKey v name isVisible) ↔ ThingShape nameKey v := by
  have hnull : ¬ Json.IsName .null := nofun
  simp only [IsThing, ThingShape, Json.requires_iff hnull, Json.allows_iff, ← @exists_isFlag_iff true]
  constructor
  · rintro ⟨name, isVisible, ms, rfl, hname, hvisible⟩
    exact ⟨ms, rfl, ⟨name, hname⟩, isVisible, hvisible⟩
  · rintro ⟨ms, rfl, ⟨name, hname⟩, isVisible, hvisible⟩
    exact ⟨name, isVisible, ms, rfl, hname, hvisible⟩

/-- What consists of a name and of whether it is visible is read from just what names something. -/
theorem exists_thing_iff {β : Type} {name : β → Text} {isVisible : β → Bool}
    (hmake : ∀ n b, ∃ y, name y = n ∧ isVisible y = b) {nameKey : Text} {v : Json} :
    (∃ y, IsThing nameKey v (name y) (isVisible y)) ↔ ThingShape nameKey v := by
  rw [← exists_isThing_iff]
  constructor
  · rintro ⟨y, hy⟩
    exact ⟨_, _, hy⟩
  · rintro ⟨n, b, h⟩
    obtain ⟨y, rfl, rfl⟩ := hmake n b
    exact ⟨y, h⟩

/-! ## Snapshots -/

/-- Whether a value looks like the windows at one moment. -/
def WindowStateShape (v : Json) : Prop :=
  ∃ ms, v = .obj ms ∧ Json.Allows ms "windows" (Json.IsListOf (ThingShape "title")) ∧
    Json.Allows ms "focused_window" Json.IsText ∧ Json.Requires ms "timestamp" StampShape

/-- Whether a value looks like the layers at one moment. -/
def LayerStateShape (v : Json) : Prop :=
  ∃ ms, v = .obj ms ∧ Json.Allows ms "layers" (Json.IsListOf (ThingShape "name")) ∧
    Json.Requires ms "timestamp" StampShape

theorem not_stampShape_null : ¬ StampShape .null := nofun

theorem exists_ofOption_iff {v : Json} : (∃ f, v = Json.ofOption f) ↔ v = .null ∨ v.IsText := by
  constructor
  · rintro ⟨_ | s, rfl⟩
    · exact Or.inl rfl
    · exact Or.inr ⟨s, rfl⟩
  · rintro (rfl | ⟨s, rfl⟩)
    · exact ⟨none, rfl⟩
    · exact ⟨some s, rfl⟩

/-- The windows at one moment are read from just what looks like them. -/
theorem exists_isWindowState_iff {v : Json} : (∃ s, IsWindowState v s) ↔ WindowStateShape v := by
  have hwindow : ∀ x, (∃ w : Window, IsThing "title" x w.title w.isVisible) ↔ ThingShape "title" x :=
    fun _ => exists_thing_iff fun title isVisible => ⟨⟨title, isVisible⟩, rfl, rfl⟩
  simp only [WindowStateShape, Json.allows_iff, Json.requires_iff not_stampShape_null,
    ← exists_items_iff hwindow, ← exists_ofOption_iff, ← exists_isStamp_iff]
  constructor
  · rintro ⟨s, ms, rfl, hwindows, hfocused, htaken⟩
    exact ⟨ms, rfl, ⟨_, hwindows⟩, ⟨_, hfocused⟩, _, htaken⟩
  · rintro ⟨ms, rfl, ⟨windows, hwindows⟩, ⟨focused, hfocused⟩, taken, htaken⟩
    exact ⟨⟨taken, windows, focused⟩, ms, rfl, hwindows, hfocused, htaken⟩

/-- The layers at one moment are read from just what looks like them. -/
theorem exists_isLayerState_iff {v : Json} : (∃ s, IsLayerState v s) ↔ LayerStateShape v := by
  have hlayer : ∀ x, (∃ l : Layer, IsThing "name" x l.name l.isVisible) ↔ ThingShape "name" x :=
    fun _ => exists_thing_iff fun name isVisible => ⟨⟨name, isVisible⟩, rfl, rfl⟩
  simp only [LayerStateShape, Json.allows_iff, Json.requires_iff not_stampShape_null,
    ← exists_items_iff hlayer, ← exists_isStamp_iff]
  constructor
  · rintro ⟨s, ms, rfl, hlayers, htaken⟩
    exact ⟨ms, rfl, ⟨_, hlayers⟩, _, htaken⟩
  · rintro ⟨ms, rfl, ⟨layers, hlayers⟩, taken, htaken⟩
    exact ⟨⟨taken, layers⟩, ms, rfl, hlayers, htaken⟩

/-! ## Transitions -/

/-- Whether a value is the name of a mode. -/
def ModeShape (v : Json) : Prop := ∃ m : Mode, v = .str m.name

/-- Whether a value is the names of different modes, with bars between them. -/
def TypeShape (v : Json) : Prop :=
  ∃ modes : List Mode, modes ≠ [] ∧ modes.Nodup ∧ v = .str (List.intercalate "|" (modes.map Mode.name))

/-- Whether a value looks like what happened to one window. -/
def ChangeShape (v : Json) : Prop :=
  ∃ ms, v = .obj ms ∧ Json.Requires ms "transit_mode" ModeShape ∧ Json.Requires ms "window_name" Json.IsName

/-- Whether a value looks like a transition. -/
def TransitionShape (v : Json) : Prop :=
  ∃ ms, v = .obj ms ∧ Json.Requires ms "id" Json.IsInteger ∧ Json.Requires ms "type" TypeShape ∧
    Json.Allows ms "changes" (Json.IsListOf ChangeShape) ∧
    (∃ start stop, Json.Requires ms "start" (IsStamp · start) ∧ Json.Requires ms "end" (IsStamp · stop) ∧
      ¬ stop < start) ∧
    Json.Allows ms "is_incomplete" Json.IsBool

theorem exists_isChange_iff {v : Json} : (∃ c, IsChange v c) ↔ ChangeShape v := by
  have hmode : ¬ ModeShape .null := nofun
  have hname : ¬ Json.IsName .null := nofun
  simp only [ChangeShape, Json.requires_iff hmode, Json.requires_iff hname]
  constructor
  · rintro ⟨c, ms, rfl, hm, hw⟩
    exact ⟨ms, rfl, ⟨c.mode, hm⟩, c.window, hw⟩
  · rintro ⟨ms, rfl, ⟨m, hm⟩, window, hw⟩
    exact ⟨⟨window, m⟩, ms, rfl, hm, hw⟩

theorem exists_ofText?_iff {v : Json} :
    (∃ t s, v = .str s ∧ TransitionType.ofText? s = some t) ↔ TypeShape v := by
  constructor
  · rintro ⟨t, s, rfl, ht⟩
    exact ⟨t.modes, t.nonempty, t.distinct, congrArg Json.str (TransitionType.text_of_ofText? ht).symm⟩
  · rintro ⟨modes, hne, hnodup, rfl⟩
    exact ⟨⟨modes, hne, hnodup⟩, _, rfl, TransitionType.ofText?_text ⟨modes, hne, hnodup⟩⟩

/-- A transition is read from just what looks like one. -/
theorem exists_isTransition_iff {v : Json} : (∃ t, IsTransition v t) ↔ TransitionShape v := by
  have hid : ¬ Json.IsInteger .null := nofun
  have htype : ¬ TypeShape .null := nofun
  have hstamp : ∀ ms name s, Json.Requires ms name (IsStamp · s) ↔ IsStamp (Json.get ms name) s :=
    fun _ _ _ => Json.requires_iff nofun
  simp only [TransitionShape, Json.allows_iff, Json.requires_iff hid, Json.requires_iff htype, hstamp,
    ← exists_items_iff fun _ => exists_isChange_iff, ← exists_ofText?_iff, ← @exists_isFlag_iff false]
  constructor
  · rintro ⟨t, ms, rfl, hid, htype, hchanges, hstart, hstop, horder, hflag⟩
    exact ⟨ms, rfl, ⟨_, hid⟩, ⟨_, htype⟩, ⟨_, hchanges⟩, ⟨_, _, hstart, hstop, horder⟩, _, hflag⟩
  · rintro ⟨ms, rfl, ⟨id, hid⟩, ⟨type, htype⟩, ⟨changes, hchanges⟩, ⟨start, stop, hstart, hstop, horder⟩, b, hflag⟩
    exact ⟨⟨id, start, stop, type, changes, b⟩, ms, rfl, hid, htype, hchanges, hstart, hstop, horder, hflag⟩

end Row

end TransitionAudit
