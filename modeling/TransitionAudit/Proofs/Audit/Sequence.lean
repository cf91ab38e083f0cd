import TransitionAudit.Audit.Run
import TransitionAudit.Proofs.Trace.Window

/-!
# Runs in sequence

What one transition contributes to a run, and what a run over a list of transitions in sequence makes of
the contributions: it has findings exactly if every transition has a block, and else it ends with the
fault of the first transition without one.
-/

namespace TransitionAudit

/-! ## One transition -/

/-- The block of a transition on given slices. -/
def blockOn (table : RuleTable) (t : Transition) (w : WindowTrace) (l : LayerTrace) : Block :=
  let rules := table.rulesFor t.type
  ⟨(assess rules t w l).findings, .planned rules.length t :: (assess rules t w l).events⟩

section
variable {table : RuleTable} {windows w : WindowTrace} {layers l : LayerTrace} {t : Transition}

theorem slices_eq_ok_iff :
    slices t windows layers = .ok (w, l) ↔
      windows.within t.start t.stop = .ok w ∧ layers.within t.start t.stop = .ok l := by
  unfold slices
  cases windows.within t.start t.stop with
  | error fault => simp [bind, Except.bind]
  | ok w' => cases layers.within t.start t.stop <;> simp [bind, Except.bind, pure, Except.pure]

/-- A transition has slices exactly if the snapshots in its window are in order without the others. -/
theorem slices_ok_iff_ordered :
    (∃ s, slices t windows layers = .ok s) ↔
      Ordered (windows.clip t.start t.stop) ∧ Ordered (layers.clip t.start t.stop) := by
  rw [← Trace.within_ok_iff_ordered, ← Trace.within_ok_iff_ordered]
  constructor
  · rintro ⟨⟨w, l⟩, h⟩
    obtain ⟨hw, hl⟩ := slices_eq_ok_iff.mp h
    exact ⟨⟨w, hw⟩, ⟨l, hl⟩⟩
  · rintro ⟨⟨w, hw⟩, ⟨l, hl⟩⟩
    exact ⟨(w, l), slices_eq_ok_iff.mpr ⟨hw, hl⟩⟩

theorem auditOne_eq_map_slices :
    auditOne table windows layers t =
      (slices t windows layers).map fun s => blockOn table t s.1 s.2 := by
  unfold auditOne
  cases slices t windows layers <;> rfl

theorem auditOne_of_slices (h : slices t windows layers = .ok (w, l)) :
    auditOne table windows layers t = .ok (blockOn table t w l) := by
  rw [auditOne_eq_map_slices, h]
  rfl

theorem auditOne_ok_iff_slices :
    (∃ b, auditOne table windows layers t = .ok b) ↔ ∃ s, slices t windows layers = .ok s := by
  rw [auditOne_eq_map_slices]
  cases slices t windows layers <;> simp [Except.map]

theorem auditOne_eq_error_iff {fault : Disorder} :
    auditOne table windows layers t = .error fault ↔ slices t windows layers = .error fault := by
  rw [auditOne_eq_map_slices]
  cases slices t windows layers <;> simp [Except.map]

/-- A block depends on nothing but what the window of the transition holds. -/
theorem auditOne_congr {windows' : WindowTrace} {layers' : LayerTrace}
    (hw : windows'.clip t.start t.stop = windows.clip t.start t.stop)
    (hl : layers'.clip t.start t.stop = layers.clip t.start t.stop) :
    auditOne table windows' layers' t = auditOne table windows layers t := by
  rw [auditOne_eq_map_slices, auditOne_eq_map_slices]
  unfold slices
  rw [Trace.within_congr hw, Trace.within_congr hl]

end

/-! ## Findings of a block -/

theorem Finding.of_header (t : Transition) (r : Rule) (a : Except EvaluationFault (List Violation)) :
    (Finding.of t r a).transitionId = t.id ∧ (Finding.of t r a).transitionType = t.type.text ∧
      (Finding.of t r a).ruleId = r.id := by
  unfold Finding.of
  rcases a with fault | violations
  · exact ⟨rfl, rfl, rfl⟩
  · cases violations <;> exact ⟨rfl, rfl, rfl⟩

theorem Finding.of_passed_iff {t : Transition} {r : Rule} {a : Except EvaluationFault (List Violation)} :
    (Finding.of t r a).passed = true ↔ a = .ok [] := by
  rcases a with fault | violations
  · simp [Finding.of]
  · cases violations <;> simp [Finding.of]

theorem Finding.of_violations (t : Transition) (r : Rule) (violations : List Violation) :
    (Finding.of t r (.ok violations)).violations = violations := by
  cases violations <;> rfl

/-- One finding for each rule of the transition, in the order of the rules. -/
theorem blockOn_headers (table : RuleTable) (t : Transition) (w : WindowTrace) (l : LayerTrace) :
    (blockOn table t w l).findings.map (fun f => (f.transitionId, f.transitionType, f.ruleId)) =
      (table.rulesFor t.type).map fun r => (t.id, t.type.text, r.id) := by
  simp only [blockOn, assess, List.map_map]
  apply List.map_congr_left
  intro r _
  obtain ⟨hid, htype, hrule⟩ := Finding.of_header t r (r.evaluate ⟨some t, w, l⟩)
  simp only [Function.comp, hid, htype, hrule]

theorem transitionId_of_mem_blockOn {table : RuleTable} {t : Transition} {w : WindowTrace}
    {l : LayerTrace} {f : Finding} (h : f ∈ (blockOn table t w l).findings) : f.transitionId = t.id := by
  simp only [blockOn, assess, List.mem_map] at h
  obtain ⟨r, _, rfl⟩ := h
  exact (Finding.of_header t r _).1

theorem blockOn_length (table : RuleTable) (t : Transition) (w : WindowTrace) (l : LayerTrace) :
    (blockOn table t w l).findings.length = (table.rulesFor t.type).length := by
  simp only [blockOn, assess, List.length_map]

/-- A block passes exactly if no rule of the transition reports anything on the slices. -/
theorem blockOn_passed_iff {table : RuleTable} {t : Transition} {w : WindowTrace} {l : LayerTrace} :
    (∀ f ∈ (blockOn table t w l).findings, f.passed = true) ↔
      ∀ r ∈ table.rulesFor t.type, r.evaluate ⟨some t, w, l⟩ = .ok [] := by
  simp only [blockOn, assess, List.forall_mem_map, Finding.of_passed_iff]

/-! ## Many transitions -/

/-- The findings of an answer; there are none if there is no block. -/
def findingsOf : Except Disorder Block → List Finding
  | .ok block => block.findings
  | .error _ => []

def eventsOf : Except Disorder Block → List Event
  | .ok block => block.events
  | .error _ => []

def faultOf : Except Disorder Block → Option Disorder
  | .ok _ => none
  | .error fault => some fault

theorem faultOf_eq_none_iff {answer : Except Disorder Block} :
    faultOf answer = none ↔ ∃ b, answer = .ok b := by
  cases answer <;> simp [faultOf]

theorem faultOf_eq_some_iff {answer : Except Disorder Block} {fault : Disorder} :
    faultOf answer = some fault ↔ answer = .error fault := by
  cases answer <;> simp [faultOf]

/-- What all answers come to: the first fault, or else the findings one after the other. -/
def outcomeOf (answers : List (Except Disorder Block)) : Except RunFault (List Finding) :=
  match answers.findSome? faultOf with
  | some fault => .error (.disorder fault)
  | none => .ok (answers.flatMap findingsOf)

section
variable {answers : List (Except Disorder Block)}

theorem findSome?_faultOf_eq_none_iff :
    answers.findSome? faultOf = none ↔ ∀ a ∈ answers, ∃ b, a = .ok b := by
  simp only [List.findSome?_eq_none_iff, faultOf_eq_none_iff]

theorem outcomeOf_eq_ok_iff {findings : List Finding} :
    outcomeOf answers = .ok findings ↔
      (∀ a ∈ answers, ∃ b, a = .ok b) ∧ findings = answers.flatMap findingsOf := by
  rw [← findSome?_faultOf_eq_none_iff]
  unfold outcomeOf
  cases answers.findSome? faultOf <;> simp [eq_comm]

end

/-- A run fails exactly with the fault of the first transition that has no block. -/
theorem outcomeOf_map_eq_error_iff {audit : Transition → Except Disorder Block} {ts : List Transition}
    {fault : RunFault} :
    outcomeOf (ts.map audit) = .error fault ↔
      ∃ before t after d, ts = before ++ t :: after ∧ (∀ u ∈ before, ∃ b, audit u = .ok b) ∧
        audit t = .error d ∧ fault = .disorder d := by
  have hfirst : outcomeOf (ts.map audit) = .error fault ↔
      ∃ d, ts.findSome? (faultOf ∘ audit) = some d ∧ fault = .disorder d := by
    unfold outcomeOf
    rw [List.findSome?_map]
    cases ts.findSome? (faultOf ∘ audit) <;> simp [eq_comm]
  rw [hfirst]
  simp only [List.findSome?_eq_some_iff, Function.comp, faultOf_eq_some_iff, faultOf_eq_none_iff]
  constructor
  · rintro ⟨d, ⟨before, t, after, hts, ht, hb⟩, rfl⟩
    exact ⟨before, t, after, d, hts, hb, ht, rfl⟩
  · rintro ⟨before, t, after, d, hts, hb, ht, rfl⟩
    exact ⟨d, ⟨before, t, after, hts, ht, hb⟩, rfl⟩

section
variable (audit : Transition → Except Disorder Block) (ts : List Transition)

theorem inSequence_outcome : (inSequence audit ts).outcome = outcomeOf (ts.map audit) := by
  induction ts with
  | nil => rfl
  | cons t rest ih =>
      cases ht : audit t with
      | error fault =>
          simp only [inSequence, ht, outcomeOf, List.map_cons, List.findSome?_cons, faultOf]
      | ok block =>
          simp only [inSequence, ht, ih, outcomeOf, List.map_cons, List.findSome?_cons, faultOf,
            List.flatMap_cons, findingsOf]
          cases (rest.map audit).findSome? faultOf <;> rfl

theorem inSequence_log (h : ∀ t ∈ ts, ∃ b, audit t = .ok b) :
    (inSequence audit ts).log = (ts.map audit).flatMap eventsOf := by
  induction ts with
  | nil => rfl
  | cons t rest ih =>
      obtain ⟨⟨block, ht⟩, hrest⟩ := List.forall_mem_cons.mp h
      simp only [inSequence, ht, ih hrest, List.map_cons, List.flatMap_cons, eventsOf]

end

/-! ## A recording of an app that opens -/

/-- Nothing at first, then the window of the app. -/
def launchWindows : WindowTrace :=
  ⟨[⟨{ elapsed := 2 }, [], none⟩, ⟨{ elapsed := 5 }, [⟨"a/.B", true⟩], some "a/.B"⟩], by decide⟩

/-- Nothing at first, then a layer of the app. -/
def launchLayers : LayerTrace :=
  ⟨[⟨{ elapsed := 2 }, []⟩, ⟨{ elapsed := 5 }, [⟨"a/.B#0", true⟩]⟩], by decide⟩

def launch : Transition :=
  ⟨1, { elapsed := 1 }, { elapsed := 9 }, .single .open, [⟨"a/.B", .open⟩], false⟩

def rotation : Transition := ⟨2, { elapsed := 2 }, { elapsed := 5 }, .single .change, [], false⟩

/-- A transition that was not seen to its end. -/
def lostSleep : Transition := ⟨3, { elapsed := 9 }, { elapsed := 9 }, .single .sleep, [], true⟩

def launchLog : TransitionLog := ⟨[launch, lostSleep, rotation], by decide⟩

def launchFindings : List Finding :=
  [⟨1, "OPEN", "wm_trace_not_empty", true, none, none, []⟩,
   ⟨1, "OPEN", "layers_trace_not_empty", true, none, none, []⟩,
   ⟨1, "OPEN", "layer_becomes_visible(OPENING_APP)", true, none, none, []⟩,
   ⟨1, "OPEN", "window_visible_at_end(OPENING_APP)", true, none, none, []⟩,
   ⟨2, "CHANGE", "wm_trace_not_empty", true, none, none, []⟩,
   ⟨2, "CHANGE", "layers_trace_not_empty", true, none, none, []⟩]

theorem launch_outcome :
    (audit .builtIn launchWindows launchLayers launchLog none).outcome = .ok launchFindings := by
  rfl

theorem launch_slices : ∀ t ∈ launchLog.complete, ∃ s, slices t launchWindows launchLayers = .ok s := by
  have hordered : ∀ t ∈ launchLog.complete, Ordered (launchWindows.clip t.start t.stop) ∧
      Ordered (launchLayers.clip t.start t.stop) := by decide
  exact fun t ht => slices_ok_iff_ordered.mpr (hordered t ht)

end TransitionAudit
