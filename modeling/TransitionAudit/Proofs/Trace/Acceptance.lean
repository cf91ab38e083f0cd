import TransitionAudit.Proofs.Trace.FullRow
import TransitionAudit.Proofs.Trace.Grammar

/-!
# What becomes of a value

A value that looks like a snapshot is read as what is in it, and every other value is refused with a message about
the row. For transitions this holds but for one kind of value, in which a list or an object is looked up as a mode.
-/

namespace TransitionAudit.Row

/-! ## Snapshots -/

/-- What a reader makes of a value, given what its rows look like, what they stand for, and how they are written. -/
structure ReadsExactly {β : Type} (read : Json → Except RowFault β) (shape : Json → Prop) (reads : Json → β → Prop)
    (write : β → Json) (v : Json) : Prop where
  accepted : (∃ x, read v = .ok x) ↔ shape v
  refused : ¬ shape v → ∃ fault, read v = .error fault ∧ fault.IsAboutRow
  /-- What was read is what is in the value. -/
  contents : ∀ x, read v = .ok x → reads v x
  /-- The full row of what was read is read as the same. -/
  again : ∀ x, read v = .ok x → read (write x) = .ok x

theorem readsExactly_of {β : Type} {read : Json → Except RowFault β} {shape : Json → Prop} {reads : Json → β → Prop}
    {write : β → Json} (hread : ∀ {v x}, read v = .ok x ↔ reads v x) (hshape : ∀ {v}, (∃ x, reads v x) ↔ shape v)
    (habout : ∀ {v w}, read v ≠ .error (.collectionMode w)) (hwrite : ∀ {v x}, reads v x → reads (write x) x)
    (v : Json) : ReadsExactly read shape reads write v := by
  have haccepted : (∃ x, read v = .ok x) ↔ shape v := by
    rw [← hshape]
    exact exists_congr fun _ => hread
  refine ⟨haccepted, fun hrefused => ?_, fun x hx => hread.mp hx, fun x hx => hread.mpr (hwrite (hread.mp hx))⟩
  cases h : read v with
  | ok x => exact absurd (haccepted.mp ⟨x, h⟩) hrefused
  | error fault =>
      refine ⟨fault, rfl, fun w hw => ?_⟩
      rw [hw] at h
      exact habout h

theorem IsWindowState.full {v : Json} {s : WindowState} (h : IsWindowState v s) : IsWindowState s.toJson s := by
  obtain ⟨ms, -, ⟨xs, -, hwindows⟩, -⟩ := h
  refine WindowState.isWindowState_toJson fun w hw => ?_
  obtain ⟨x, -, _, -, ⟨-, hne⟩, -⟩ := hwindows.flip.exists_of_mem_left hw
  exact hne

theorem IsLayerState.full {v : Json} {s : LayerState} (h : IsLayerState v s) : IsLayerState s.toJson s := by
  obtain ⟨ms, -, ⟨xs, -, hlayers⟩, -⟩ := h
  refine LayerState.isLayerState_toJson fun l hl => ?_
  obtain ⟨x, -, _, -, ⟨-, hne⟩, -⟩ := hlayers.flip.exists_of_mem_left hl
  exact hne

/-- Snapshots are read from just the values that look like them, as what is in them. Every other value is refused
with a message about the row, and the full row of a snapshot is read as the snapshot. -/
theorem snapshots_exact (v : Json) :
    ReadsExactly toWindowState WindowStateShape IsWindowState WindowState.toJson v ∧
      ReadsExactly toLayerState LayerStateShape IsLayerState LayerState.toJson v :=
  ⟨readsExactly_of toWindowState_eq_ok_iff exists_isWindowState_iff toWindowState_ne_collectionMode
      IsWindowState.full v,
    readsExactly_of toLayerState_eq_ok_iff exists_isLayerState_iff toLayerState_ne_collectionMode
      IsLayerState.full v⟩

-- what is absent gets its default, and a number counts elapsed nanoseconds
example : toWindowState (.obj [("windows", .arr [.obj [("title", .str "a/.B")]]), ("timestamp", .int 5)]) =
    .ok ⟨{ elapsed := 5 }, [⟨"a/.B", true⟩], none⟩ := rfl

/-! ## Transitions -/

/-- A value is read as a transition exactly if it looks like one. Otherwise it is refused with a message about the row,
unless its changes are read up to one with a collection in place of a mode. -/
theorem toTransition_exact (v : Json) :
    ((∃ t, toTransition v = .ok t) ↔ TransitionShape v) ∧
      ((∃ fault, toTransition v = .error fault ∧ fault.IsAboutRow) ↔
        ¬ TransitionShape v ∧ ¬ ∃ w, ReachesCollection v w) ∧
      ∀ w, toTransition v = .error (.collectionMode w) ↔ ReachesCollection v w := by
  have haccepted : (∃ t, toTransition v = .ok t) ↔ TransitionShape v := by
    rw [← exists_isTransition_iff]
    exact exists_congr fun _ => toTransition_eq_ok_iff
  refine ⟨haccepted, ?_, fun w => toTransition_eq_collectionMode_iff⟩
  simp only [← haccepted, ← toTransition_eq_collectionMode_iff]
  cases h : toTransition v with
  | ok t => simp
  | error fault => simp [RowFault.IsAboutRow]

/-- A transition with a list in place of the mode of its one change. -/
def listForMode : Json :=
  .obj [("id", .int 1), ("type", .str "OPEN"), ("start", .int 1), ("end", .int 2),
    ("changes", .arr [.obj [("window_name", .str "a/.B"), ("transit_mode", .arr [])]])]

/-- Not every value is either read as a transition or refused with a message about the row. -/
theorem toTransition_listForMode :
    ¬ ((∃ t, toTransition listForMode = .ok t) ∨
      ∃ fault, toTransition listForMode = .error fault ∧ fault.IsAboutRow) := by
  have hfault : toTransition listForMode = .error (.collectionMode (.arr [])) := rfl
  rw [hfault]
  rintro (⟨t, ht⟩ | ⟨fault, hfault, habout⟩)
  · cases ht
  · cases hfault
    exact habout _ rfl

end TransitionAudit.Row
