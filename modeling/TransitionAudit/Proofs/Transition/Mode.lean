import TransitionAudit.Transition.Mode

/-!
# Types of transitions as texts

No name of a mode holds a bar, so the text of a type is read back as the type, and different types have
different texts. No other text stands for a type.
-/

namespace TransitionAudit

theorem Mode.bar_notMem_name (m : Mode) : CodePoint.char '|' ∉ m.name := by
  cases m <;> decide

namespace TransitionType

theorem parts_text (t : TransitionType) : parts t.text = t.modes.map Mode.name := by
  refine List.splitOn_intercalate (CodePoint.char '|') ?_ (by simpa using t.nonempty)
  intro name hname
  obtain ⟨m, -, rfl⟩ := List.mem_map.mp hname
  exact m.bar_notMem_name

/-- The text of a type stands for the type. -/
theorem ofText?_text (t : TransitionType) : ofText? t.text = some t := by
  have hread : ∀ modes : List Mode, (modes.map Mode.name).mapM Mode.ofName? = some modes := by
    intro modes
    induction modes with
    | nil => rfl
    | cons m rest ih => simp [Mode.ofName?_name, ih]
  unfold ofText?
  rw [parts_text, hread]
  simp [t.nonempty, t.distinct]

theorem map_name_of_mapM {names : List Text} {modes : List Mode} (h : names.mapM Mode.ofName? = some modes) :
    modes.map Mode.name = names := by
  induction names generalizing modes with
  | nil =>
      cases h
      rfl
  | cons name names ih =>
      simp only [List.mapM_cons, Option.bind_eq_bind, Option.bind_eq_some_iff, Option.pure_def,
        Option.some.injEq] at h
      obtain ⟨m, hm, rest, hrest, rfl⟩ := h
      rw [List.map_cons, Mode.name_of_ofName? hm, ih hrest]

/-- A text that stands for a type is the text of the type. -/
theorem text_of_ofText? {s : Text} {t : TransitionType} (h : ofText? s = some t) : t.text = s := by
  unfold ofText? at h
  split at h
  · cases h
  · rename_i modes hmodes
    split at h
    · cases h
      rw [text, map_name_of_mapM hmodes]
      exact List.intercalate_splitOn (CodePoint.char '|')
    · cases h

theorem text_injective : Function.Injective text := by
  intro t u h
  have hsome : some t = some u := by rw [← ofText?_text t, h, ofText?_text u]
  exact Option.some.inj hsome

theorem text_single (m : Mode) : (single m).text = m.name := by
  simp [text, single, List.intercalate]

end TransitionType

end TransitionAudit
