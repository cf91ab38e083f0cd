import TransitionAudit.Proofs.Data.Result
import TransitionAudit.Proofs.Rule.Consistency
import TransitionAudit.Proofs.Text.Octets

/-!
# What violations are about

A violation either says that a slice is empty, or is about one of its snapshots: it carries the stamp of the
snapshot and what the check saw there. Its texts are phrases around the name of the component.
-/

namespace TransitionAudit

/-! ## Phrases -/

/-- What the messages of checks are put together from, besides names. -/
def Check.phrases : List Text :=
  List.append
    ["No ", "window manager", "layers", " entries inside the transition window", "Window", "Layer", "Window ", " ",
      "is not visible", "is still visible", " is not visible", " at the end of the transition",
      " is not focused at the end of the transition", "not ", "visible", "invisible", " never became ", " became ",
      " again after the transition reached its target state", " (", ")"]
    (all.map name)

/-- Whether a text is put together from phrases and at most one name. -/
inductive Text.Mentions (name : Text) : Text → Prop
  | phrase {s : Text} (h : s ∈ Check.phrases) : Mentions name s
  | name : Mentions name name
  | append {s phrase : Text} (h : Mentions name s) (hphrase : phrase ∈ Check.phrases) : Mentions name (s ++ phrase)
  | prepend {s phrase : Text} (hphrase : phrase ∈ Check.phrases) (h : Mentions name s) : Mentions name (phrase ++ s)

/-- Whether what is said of a kind of snapshots is among the phrases. -/
structure Vocabulary.IsSpoken (w : Vocabulary) : Prop where
  slice : w.slice ∈ Check.phrases
  subject : w.subject ∈ Check.phrases

theorem Side.isSpoken_words (side : Side) : side.words.IsSpoken := by
  cases side <;> exact ⟨by decide, by decide⟩

namespace Check

theorem visibility_mem_phrases (visible : Bool) : visibility visible ∈ phrases := by
  cases visible <;> decide

theorem name_mem_phrases (c : Check) : c.name ∈ phrases :=
  List.mem_append_right _ (List.mem_map_of_mem (mem_all c))

theorem hasOctets_of_mem_phrases : ∀ s ∈ phrases, s.HasOctets := by
  unfold Text.HasOctets
  decide

theorem hasOctets_name (c : Check) : Text.HasOctets c.name := hasOctets_of_mem_phrases _ c.name_mem_phrases

theorem mentions_emptySlice {words : Vocabulary} (h : words.IsSpoken) (name : Text) :
    Text.Mentions name (emptySlice words).message :=
  .append (.prepend (by decide) (.phrase h.slice)) (by decide)

end Check

/-! ## Violations in a slice -/

/-- Whether a violation is about a snapshot with a stamp, in which the check saw something. -/
structure Violation.IsAbout (v : Violation) (name : Text) (taken : Stamp) (seen : Option Json) : Prop where
  moment : v.moment = some taken
  observed : v.observed = seen
  message : Text.Mentions name v.message
  expected : ∃ s, v.expected = some (.str s) ∧ Text.Mentions name s

variable {α : Type} [Snapshot α]

/-- Whether a violation is one that a check can find in a slice. -/
inductive Violation.IsIn (name : Text) (seen : α → Option Json) (t : Trace α) : Violation → Prop
  | empty (nothing : t.entries = []) : IsIn name seen t (Check.emptySlice (Snapshot.words α))
  | snapshot {v : Violation} {x : α} (mem : x ∈ t.entries) (about : v.IsAbout name (stamp x) (seen x)) :
      IsIn name seen t v

theorem Violation.IsIn.mentions {name : Text} {seen : α → Option Json} {t : Trace α} {v : Violation}
    (h : v.IsIn name seen t) (hwords : (Snapshot.words α).IsSpoken) : Text.Mentions name v.message := by
  cases h with
  | empty nothing => exact Check.mentions_emptySlice hwords name
  | snapshot mem about => exact about.message

namespace Check

theorem mem_of_endState {t : Trace α} {tr : Option Transition} {x : α} (h : endState t tr = .ok x) :
    x ∈ t.entries := by
  cases tr with
  | none =>
      simp only [endState, Trace.last] at h
      split at h
      · rename_i hlast
        cases h
        exact List.mem_of_getLast? hlast
      · cases h
  | some tr =>
      simp only [endState, Trace.latest] at h
      split at h
      · rename_i hlast
        cases h
        exact (List.takeWhile_sublist _).subset (List.mem_of_getLast? hlast)
      · cases h

theorem relapses_sublist (wanted : Bool) (m : Matcher) (xs : List α) :
    (relapses wanted m false xs).Sublist xs := by
  rw [relapses_eq_filter_dropWhile]
  exact List.filter_sublist.trans (List.dropWhile_sublist _)

/-! ## The checks of a slice -/

section
variable {t : Trace α} {m : Matcher}

theorem isIn_of_isEmpty {seen : α → Option Json} (h : t.isEmpty = true) :
    ∀ v ∈ [emptySlice (Snapshot.words α)], v.IsIn m.windowName seen t :=
  List.forall_mem_singleton.mpr (.empty (List.isEmpty_iff.mp h))

theorem isIn_of_notEmptyIn {seen : α → Option Json} : ∀ v ∈ notEmptyIn t, v.IsIn m.windowName seen t := by
  unfold notEmptyIn
  split
  · rename_i hempty
    exact isIn_of_isEmpty hempty
  · simp

variable (hwords : (Snapshot.words α).IsSpoken)
include hwords

/-- What the messages about a component start with. -/
theorem mentions_subject :
    Text.Mentions m.windowName ((Snapshot.words α).subject ++ " " ++ m.windowName) := by
  rw [List.append_assoc]
  exact .prepend hwords.subject (.prepend (by decide) .name)

theorem isIn_of_atEnd {wanted : Bool} {tr : Option Transition} {violations : List Violation}
    (h : atEnd wanted t tr m = .ok violations) :
    ∀ v ∈ violations, v.IsIn m.windowName (fun x => some (evidence x)) t := by
  unfold atEnd at h
  split at h
  · rename_i hempty
    cases h
    exact isIn_of_isEmpty hempty
  · obtain ⟨x, hx, h⟩ := Except.bind_eq_ok_iff.mp h
    split at h
    · cases h
      simp
    · cases h
      refine List.forall_mem_singleton.mpr (.snapshot (mem_of_endState hx) ⟨rfl, rfl, ?_, _, rfl, ?_⟩)
      · refine .append (.append (.append (mentions_subject hwords) (by decide)) ?_) (by decide)
        cases wanted <;> decide
      · cases wanted with
        | true => exact .name
        | false => exact .prepend (by decide) .name

theorem isIn_of_alwaysIn : ∀ v ∈ alwaysIn t m, v.IsIn m.windowName (fun x => some (evidence x)) t := by
  unfold alwaysIn
  split
  · rename_i hempty
    exact isIn_of_isEmpty hempty
  · rw [List.forall_mem_map]
    intro x hx
    refine .snapshot (List.mem_filter.mp hx).1 ⟨rfl, rfl, ?_, _, rfl, .name⟩
    exact .append (mentions_subject hwords) (by decide)

theorem isIn_of_becomesIn {wanted : Bool} :
    ∀ v ∈ becomesIn wanted t m, v.IsIn m.windowName (fun x => some (evidence x)) t := by
  unfold becomesIn
  split
  · rename_i hlast
    exact List.forall_mem_singleton.mpr (.empty (List.getLast?_eq_none_iff.mp hlast))
  · rename_i last hlast
    simp only
    split
    · split
      · simp
      · refine List.forall_mem_singleton.mpr
          (.snapshot (List.mem_of_getLast? hlast) ⟨rfl, rfl, ?_, _, rfl, .phrase (visibility_mem_phrases _)⟩)
        refine .append (.append (.append (.append (.append (mentions_subject hwords) ?_) ?_) ?_) ?_) ?_
        · decide
        · exact visibility_mem_phrases wanted
        · decide
        · exact name_mem_phrases _
        · decide
    · rw [List.forall_mem_map]
      intro x hx
      refine .snapshot ((relapses_sublist _ _ _).subset hx)
        ⟨rfl, rfl, ?_, _, rfl, .phrase (visibility_mem_phrases _)⟩
      refine .append (.append (.append (mentions_subject hwords) ?_) ?_) ?_
      · decide
      · exact visibility_mem_phrases _
      · decide

end

theorem isIn_of_focusedIn {t : WindowTrace} {m : Matcher} {tr : Option Transition} {violations : List Violation}
    (h : focusedIn t tr m = .ok violations) :
    ∀ v ∈ violations, v.IsIn m.windowName (fun x => x.focused.map .str) t := by
  unfold focusedIn at h
  split at h
  · rename_i hempty
    cases h
    exact isIn_of_isEmpty hempty
  · obtain ⟨x, hx, h⟩ := Except.bind_eq_ok_iff.mp h
    split at h
    · cases h
      simp
    · cases h
      refine List.forall_mem_singleton.mpr (.snapshot (mem_of_endState hx) ⟨rfl, rfl, ?_, _, rfl, .name⟩)
      exact .append (.prepend (by decide) .name) (by decide)

/-! ## All checks -/

/-- Whether a violation is one that a check can find for a component. -/
def Finds (c : Check) (s : Scenario) (m : Matcher) (v : Violation) : Prop :=
  match c, c.side with
  | .focusedAtEnd, _ => v.IsIn m.windowName (fun x : WindowState => x.focused.map .str) s.windows
  | _, .windows => v.IsIn m.windowName (fun x => some (evidence x)) s.windows
  | _, .layers => v.IsIn m.windowName (fun x => some (evidence x)) s.layers

theorem Finds.mentions {c : Check} {s : Scenario} {m : Matcher} {v : Violation} (h : c.Finds s m v) :
    Text.Mentions m.windowName v.message := by
  unfold Finds at h
  split at h
  · exact h.mentions Side.windows.isSpoken_words
  · exact h.mentions Side.windows.isSpoken_words
  · exact h.mentions Side.layers.isSpoken_words

/-- Whatever a check reports is about the slice that it looks at. -/
theorem finds_of_run {c : Check} {s : Scenario} {m : Matcher} {violations : List Violation}
    (h : c.run s m = .ok violations) : ∀ v ∈ violations, c.Finds s m v := by
  have hwindows : (Snapshot.words WindowState).IsSpoken := Side.windows.isSpoken_words
  have hlayers : (Snapshot.words LayerState).IsSpoken := Side.layers.isSpoken_words
  cases c with
  | notEmpty side => cases side <;> cases h <;> exact isIn_of_notEmptyIn
  | visibleAtEnd side =>
      cases side with
      | windows => exact isIn_of_atEnd hwindows h
      | layers => exact isIn_of_atEnd hlayers h
  | invisibleAtEnd side =>
      cases side with
      | windows => exact isIn_of_atEnd hwindows h
      | layers => exact isIn_of_atEnd hlayers h
  | alwaysVisible side =>
      cases side with
      | windows => exact Except.ok.inj h ▸ isIn_of_alwaysIn hwindows
      | layers => exact Except.ok.inj h ▸ isIn_of_alwaysIn hlayers
  | focusedAtEnd => exact isIn_of_focusedIn h
  | becomes wanted => exact Except.ok.inj h ▸ isIn_of_becomesIn hlayers

end Check

end TransitionAudit
