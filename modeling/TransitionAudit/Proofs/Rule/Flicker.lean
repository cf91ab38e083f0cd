import TransitionAudit.Proofs.Rule.Slice

/-!
# What flickers are reported

A layer that has to get into a state and stay there is judged by the sequence of its visibilities alone. If it is
never in the state, the last snapshot is reported, and else every snapshot out of the state that comes after the
first one in it.
-/

namespace TransitionAudit.Check

/-- The report of a layer that is not in the wanted state once, with its last snapshot. -/
def neverReached (wanted : Bool) (m : Matcher) (last : LayerState) : Violation where
  message := "Layer " ++ m.windowName ++ " never became " ++ visibility wanted ++
    " (" ++ (Check.becomes wanted).name ++ ")"
  moment := some last.taken
  expected := some (.str (visibility wanted))
  observed := some (.arr ((last.visibleLayers.map (·.name)).map .str))

/-- The report of a snapshot in which a layer has left the wanted state. -/
def relapsed (wanted : Bool) (m : Matcher) (x : LayerState) : Violation where
  message := "Layer " ++ m.windowName ++ " became " ++ visibility (!wanted) ++
    " again after the transition reached its target state"
  moment := some x.taken
  expected := some (.str (visibility wanted))
  observed := some (.arr ((x.visibleLayers.map (·.name)).map .str))

variable {wanted : Bool} {t : LayerTrace} {m : Matcher}

theorem becomesIn_of_never {last : LayerState} (hlast : t.entries.getLast? = some last)
    (h : ∀ x ∈ t.entries, shows m x ≠ wanted) : becomesIn wanted t m = [neverReached wanted m last] := by
  have hrelapses : relapses wanted m false t.entries = [] := by
    rw [relapses_eq_filter_dropWhile, List.dropWhile_eq_nil_iff.mpr (by simpa using h)]
    rfl
  have hstate : shows m last ≠ wanted := h last (List.mem_of_getLast? hlast)
  simp only [becomesIn, hlast, hrelapses, hstate, ↓reduceIte]
  rfl

theorem becomesIn_of_reached {first : LayerState} {after : List LayerState}
    (h : (t.entries.dropWhile fun x => shows m x != wanted) = first :: after) :
    becomesIn wanted t m = (after.filter fun x => shows m x != wanted).map (relapsed wanted m) := by
  have hfirst : (shows m first != wanted) = false := by
    have hhead := List.head?_dropWhile_not (fun x => shows m x != wanted) t.entries
    rwa [h] at hhead
  have hrelapses : relapses wanted m false t.entries = after.filter fun x => shows m x != wanted := by
    rw [relapses_eq_filter_dropWhile, h, List.filter_cons_of_neg (by simp [hfirst])]
  obtain ⟨last, hlast, hmem⟩ : ∃ last, t.entries.getLast? = some last ∧ last ∈ first :: after := by
    rw [← List.takeWhile_append_dropWhile (l := t.entries), h, List.getLast?_append_of_ne_nil _ (by simp)]
    exact ⟨_, List.getLast?_eq_some_getLast (by simp), List.getLast_mem _⟩
  cases hback : after.filter fun x => shows m x != wanted with
  | nil =>
      -- without a relapse the layer is in the state to the end
      have hstay : ∀ x ∈ first :: after, shows m x = wanted := by
        simpa [List.filter_eq_nil_iff] using And.intro hfirst hback
      simp only [becomesIn, hlast, hrelapses, hback, hstay last hmem, ↓reduceIte, List.map_nil]
  | cons x rest =>
      simp only [becomesIn, hlast, hrelapses, hback]
      rfl

/-- The check is content exactly if the visibilities settle in the wanted state. Otherwise it reports that there
are no layers, or that the state is never reached, or each snapshot that is out of the state after it was
reached, in their order. -/
theorem run_becomes_exact (wanted : Bool) (s : Scenario) (m : Matcher) :
    ((Check.becomes wanted).run s m = .ok [] ↔ Settles wanted (s.layers.entries.map (shows m))) ∧
    (s.layers.entries = [] →
      (Check.becomes wanted).run s m =
        .ok [{ message := "No layers entries inside the transition window" }]) ∧
    (∀ last, s.layers.entries.getLast? = some last → (∀ x ∈ s.layers.entries, shows m x ≠ wanted) →
      (Check.becomes wanted).run s m = .ok [neverReached wanted m last]) ∧
    ∀ before first after, s.layers.entries = before ++ first :: after →
      (∀ x ∈ before, shows m x ≠ wanted) → shows m first = wanted →
      (Check.becomes wanted).run s m =
        .ok ((after.filter fun x => shows m x != wanted).map (relapsed wanted m)) := by
  refine ⟨?_, ?_, ?_, ?_⟩
  · rw [run, Except.ok.injEq, becomesIn_eq_nil_iff]
  · intro hempty
    rw [run, becomesIn, hempty]
    rfl
  · intro last hlast hnever
    rw [run, becomesIn_of_never hlast hnever]
  · intro before first after hlayers hbefore hfirst
    have hreached : (s.layers.entries.dropWhile fun x => shows m x != wanted) = first :: after := by
      rw [hlayers, List.dropWhile_append_of_pos (by simpa using hbefore),
        List.dropWhile_cons_of_neg (by simp [hfirst])]
    rw [run, becomesIn_of_reached hreached]

end TransitionAudit.Check
