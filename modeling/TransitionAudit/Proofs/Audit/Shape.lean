import TransitionAudit.Proofs.Audit.Decomposition
import TransitionAudit.Proofs.Rule.Answer

/-!
# Shapes of findings

What the findings of a run look like. A finding either passes, or reports violations and joins their
messages, or says why the app that the rule is about was not found. Other faults cannot come up in a run,
since its rules work on slices, and each fault is told once in the log.
-/

namespace TransitionAudit

inductive Shape
  | pass
  | violations
  | unresolved
  deriving DecidableEq, Repr

namespace Finding

/-- What stands in a finding of a shape. -/
def HasShape (f : Finding) : Shape → Prop
  | .pass => f.passed = true ∧ f.detail = none ∧ f.errorCode = none ∧ f.violations = []
  | .violations =>
    f.passed = false ∧ f.errorCode = none ∧ f.violations ≠ [] ∧
      f.detail = some (List.intercalate "; " (f.violations.map (·.message)))
  | .unresolved =>
    f.passed = false ∧ f.violations = [] ∧ (∃ detail, f.detail = some detail ∧ detail ≠ []) ∧
      ∃ code ∈ ErrorCode.ofTransition, f.errorCode = some code.text

theorem HasShape.passed {f : Finding} {shape : Shape} (h : f.HasShape shape) :
    f.passed = true ↔ shape = .pass := by
  cases shape with
  | pass => simp [h.1]
  | violations => simp [h.1]
  | unresolved => simp [h.1]

theorem HasShape.errorCode {f : Finding} {shape : Shape} (h : f.HasShape shape) :
    f.errorCode.isSome = true ↔ shape = .unresolved := by
  cases shape with
  | pass => simp [h.2.2.1]
  | violations => simp [h.2.1]
  | unresolved =>
      obtain ⟨code, -, hcode⟩ := h.2.2.2
      simp [hcode]

/-- Verdict and code tell the shapes apart. -/
theorem HasShape.unique {f : Finding} {shape other : Shape} (h : f.HasShape shape) (h' : f.HasShape other) :
    other = shape := by
  have hpass : shape = .pass ↔ other = .pass := h.passed.symm.trans h'.passed
  have hcode : shape = .unresolved ↔ other = .unresolved := h.errorCode.symm.trans h'.errorCode
  cases shape <;> cases other <;> simp at hpass hcode ⊢

theorem HasShape.errorCode_mem {f : Finding} {shape : Shape} (h : f.HasShape shape) {code : ErrorCode}
    (hcode : f.errorCode = some code.text) : code ∈ ErrorCode.ofTransition := by
  have hshape : shape = .unresolved := h.errorCode.mp (by simp [hcode])
  subst hshape
  obtain ⟨code', hmem, hcode'⟩ := h.2.2.2
  have htext : code'.text = code.text := Option.some.inj (hcode'.symm.trans hcode)
  -- the texts tell the codes apart
  cases code <;> first | decide | (revert hmem htext; cases code' <;> decide)

end Finding

/-! ## The finding of a rule -/

section
variable {t : Transition} {w : WindowTrace} {l : LayerTrace}

/-- On slices a rule has a finding of one of the shapes; only one that looks for an app may be without an
answer. -/
theorem Finding.of_shape (hw : ∀ x ∈ w.entries, stamp x ≤ t.stop) (hl : ∀ x ∈ l.entries, stamp x ≤ t.stop)
    (r : Rule) :
    ∃ shape, (Finding.of t r (r.evaluate ⟨some t, w, l⟩)).HasShape shape ∧
      (shape = .unresolved → r.LooksForApp) := by
  rcases r.evaluate_cases hw hl with ⟨violations, hr⟩ | ⟨fault, hr, happ, hcode⟩
  · rw [hr]
    cases violations with
    | nil => exact ⟨.pass, ⟨rfl, rfl, rfl, rfl⟩, by simp⟩
    | cons v rest => exact ⟨.violations, ⟨rfl, rfl, by simp [Finding.of], rfl⟩, by simp⟩
  · rw [hr]
    exact ⟨.unresolved, ⟨rfl, rfl, ⟨_, rfl, fault.message_ne_nil⟩, ⟨_, hcode, rfl⟩⟩, fun _ => happ⟩

end

/-! ## Faults in the log -/

/-- Whether an event tells of a rule that gave no answer. -/
def Event.isFailure : Event → Bool
  | .failed .. => true
  | _ => false

theorem failureOf_countP (t : Transition) (r : Rule) (answer : Except EvaluationFault (List Violation)) :
    (failureOf t r answer).countP Event.isFailure =
      if (Finding.of t r answer).errorCode.isSome then 1 else 0 := by
  rcases answer with fault | violations
  · rfl
  · cases violations <;> rfl

theorem blockOn_failures (table : RuleTable) (t : Transition) (w : WindowTrace) (l : LayerTrace) :
    (blockOn table t w l).events.countP Event.isFailure =
      (blockOn table t w l).findings.countP (·.errorCode.isSome) := by
  have hplanned : ∀ n, Event.isFailure (.planned n t) = false := fun _ => rfl
  simp only [blockOn, assess]
  rw [List.countP_cons_of_neg (by simp [hplanned])]
  induction table.rulesFor t.type with
  | nil => rfl
  | cons r rest ih =>
      rw [List.flatMap_cons, List.countP_append, failureOf_countP, ih, List.map_cons, List.countP_cons,
        Nat.add_comm]

theorem auditOne_failures (table : RuleTable) (windows : WindowTrace) (layers : LayerTrace) (t : Transition) :
    (eventsOf (auditOne table windows layers t)).countP Event.isFailure =
      (findingsOf (auditOne table windows layers t)).countP (·.errorCode.isSome) := by
  rw [auditOne_eq_map_slices]
  cases slices t windows layers with
  | error fault => rfl
  | ok s => exact blockOn_failures table t s.1 s.2

/-! ## The findings of a run -/

section
variable {table : RuleTable} {windows : WindowTrace} {layers : LayerTrace} {log : TransitionLog}
  {workers : Option Nat} {turns : List Nat} {findings : List Finding}

theorem audit_forall₂ (h : (audit table windows layers log workers turns).outcome = .ok findings) :
    List.Forall₂
      (fun run f => f.transitionId = run.1.id ∧ f.ruleId = run.2.id ∧
        ∃ shape, f.HasShape shape ∧ (shape = .unresolved → run.2.LooksForApp))
      (table.plan log) findings := by
  refine (forall₂_isOf_of_audit h).imp ?_
  rintro ⟨t, r⟩ f ⟨w, l, hs, rfl⟩
  obtain ⟨hw, hl⟩ := slices_eq_ok_iff.mp hs
  obtain ⟨hid, -, hrule⟩ := Finding.of_header t r (r.evaluate ⟨some t, w, l⟩)
  exact ⟨hid, hrule, Finding.of_shape (fun x hx => Trace.le_of_mem_within hw hx)
    (fun x hx => Trace.le_of_mem_within hl hx) r⟩

theorem audit_failures (h : (audit table windows layers log workers turns).outcome = .ok findings) :
    (audit table windows layers log workers turns).log.countP Event.isFailure =
      findings.countP (·.errorCode.isSome) := by
  obtain ⟨hslices, rfl⟩ := audit_eq_ok_iff.mp h
  obtain ⟨said, hlog, hperm, -⟩ := audit_log table windows layers log workers turns hslices
  have hskipped : (log.incomplete.map Event.skipped).countP Event.isFailure = 0 := by
    simp [List.countP_eq_zero, Event.isFailure]
  have hstarted : Event.isFailure .started = false := rfl
  rw [hlog, List.cons_append, List.countP_cons_of_neg (by simp [hstarted]), List.countP_append, hskipped,
    Nat.zero_add, hperm.countP_eq, workLog, List.flatMap_map, List.countP_flatMap, List.countP_flatMap]
  congr 1
  exact List.map_congr_left fun t _ => auditOne_failures table windows layers t

end

/-- Every finding of a run belongs to one of the rules that the run goes through, in their order, and has
exactly one shape. A finding says that no app was found only if the rule looks for one, with a code for what
is wrong with the transition; no other code comes up. The log tells of as many failures as there are
findings with a code. -/
theorem audit_findings_shape {table : RuleTable} {windows : WindowTrace} {layers : LayerTrace}
    {log : TransitionLog} {workers : Option Nat} {turns : List Nat} {findings : List Finding}
    (h : (audit table windows layers log workers turns).outcome = .ok findings) :
    List.Forall₂
      (fun run f => f.transitionId = run.1.id ∧ f.ruleId = run.2.id ∧ (∃! shape, f.HasShape shape) ∧
        (f.HasShape .unresolved → run.2.LooksForApp))
      (table.plan log) findings ∧
    (∀ f ∈ findings, f.errorCode ≠ some (ErrorCode.text .execution) ∧
      f.errorCode ≠ some (ErrorCode.text .noTransition)) ∧
    (audit table windows layers log workers turns).log.countP Event.isFailure =
      findings.countP (·.errorCode.isSome) := by
  have hshapes := audit_forall₂ h
  refine ⟨hshapes.imp ?_, ?_, audit_failures h⟩
  · rintro run f ⟨hid, hrule, shape, hshape, happ⟩
    exact ⟨hid, hrule, ⟨shape, hshape, fun other hother => hshape.unique hother⟩,
      fun hother => happ (hother.unique hshape)⟩
  · intro f hf
    obtain ⟨i, hi, rfl⟩ := List.getElem_of_mem hf
    obtain ⟨-, -, shape, hshape, -⟩ := hshapes.get (hshapes.length_eq ▸ hi) hi
    constructor
    · intro hcode
      have hmem := hshape.errorCode_mem hcode
      revert hmem
      decide
    · intro hcode
      have hmem := hshape.errorCode_mem hcode
      revert hmem
      decide

/-- A transition that opens an app, with no window that plays a part in it. -/
def emptyLaunch : Transition := ⟨1, { elapsed := 1 }, { elapsed := 9 }, .single .open, [], false⟩

/-- What the built-in rules find where no windows were recorded: one finding that reports a violation, one
that passes, and two without an app. -/
def emptyLaunchFindings : List Finding :=
  [⟨1, "OPEN", "wm_trace_not_empty", false,
      some "No window manager entries inside the transition window", none,
      [{ message := "No window manager entries inside the transition window" }]⟩,
   ⟨1, "OPEN", "layers_trace_not_empty", true, none, none, []⟩,
   ⟨1, "OPEN", "layer_becomes_visible(OPENING_APP)", false,
      some ("No opening windows for " ++ emptyLaunch.text), some "NO_COMPONENT", []⟩,
   ⟨1, "OPEN", "window_visible_at_end(OPENING_APP)", false,
      some ("No opening windows for " ++ emptyLaunch.text), some "NO_COMPONENT", []⟩]

theorem audit_findings_shape_emptyLaunch :
    (audit .builtIn Trace.empty launchLayers (.single emptyLaunch) none).outcome =
      .ok emptyLaunchFindings ∧
    (audit .builtIn Trace.empty launchLayers (.single emptyLaunch) none).log.countP Event.isFailure = 2 := by
  have houtcome : (audit .builtIn Trace.empty launchLayers (.single emptyLaunch) none).outcome =
      .ok emptyLaunchFindings := by rfl
  obtain ⟨-, -, hfailures⟩ := audit_findings_shape houtcome
  exact ⟨houtcome, hfailures⟩

end TransitionAudit
