import TransitionAudit.Proofs.Audit.Grouping
import TransitionAudit.Proofs.Audit.Schedule
import TransitionAudit.Proofs.Data.Result

/-!
# Runs transition by transition

The findings of a run are the findings on its complete transitions, one block after the other. A block is
what a run finds on its transition alone, with both traces cut down to the window of the transition, so it
depends neither on the other transitions nor on what the traces hold outside the window.
-/

namespace TransitionAudit

def TransitionLog.single (t : Transition) : TransitionLog := ⟨[t], by simp⟩

theorem TransitionLog.mem_complete {log : TransitionLog} {t : Transition} :
    t ∈ log.complete ↔ t ∈ log.entries ∧ t.isIncomplete = false := by
  simp [TransitionLog.complete]

theorem TransitionLog.mem_incomplete {log : TransitionLog} {t : Transition} :
    t ∈ log.incomplete ↔ t ∈ log.entries ∧ t.isIncomplete = true := by
  simp [TransitionLog.incomplete]

theorem TransitionLog.complete_single {t : Transition} (h : t.isIncomplete = false) :
    (TransitionLog.single t).complete = [t] := by
  simp [TransitionLog.complete, TransitionLog.single, h]

/-- The number of a transition tells it apart in a log. -/
theorem TransitionLog.eq_of_id_eq {log : TransitionLog} {t u : Transition} (ht : t ∈ log.entries)
    (hu : u ∈ log.entries) (h : t.id = u.id) : t = u :=
  List.inj_on_of_nodup_map log.unique ht hu h

theorem TransitionLog.nodup_ids_complete (log : TransitionLog) : (log.complete.map (·.id)).Nodup :=
  log.unique.sublist (List.filter_sublist.map _)

/-! ## Blocks -/

section
variable {table : RuleTable} {windows w : WindowTrace} {layers l : LayerTrace} {t : Transition}

theorem transitionId_of_mem_findingsOf {f : Finding}
    (h : f ∈ findingsOf (auditOne table windows layers t)) : f.transitionId = t.id := by
  rw [auditOne_eq_map_slices] at h
  cases hs : slices t windows layers with
  | error fault => simp [hs, Except.map, findingsOf] at h
  | ok s =>
      simp only [hs, Except.map, findingsOf] at h
      exact transitionId_of_mem_blockOn h

/-- A transition is worth the same on its slices as on the whole traces. -/
theorem auditOne_slices (h : slices t windows layers = .ok (w, l)) :
    auditOne table w l t = auditOne table windows layers t := by
  obtain ⟨hw, hl⟩ := slices_eq_ok_iff.mp h
  exact auditOne_congr ((Trace.clip_of_within hw).trans (Trace.within_eq_ok_iff.mp hw))
    ((Trace.clip_of_within hl).trans (Trace.within_eq_ok_iff.mp hl))

theorem audit_single (hc : t.isIncomplete = false) (h : slices t windows layers = .ok (w, l))
    (workers : Option Nat) (turns : List Nat) :
    (audit table windows layers (.single t) workers turns).outcome =
      .ok (findingsOf (auditOne table windows layers t)) := by
  rw [audit_outcome, TransitionLog.complete_single hc, List.map_singleton, auditOne_of_slices h]
  simp [outcomeOf, faultOf]

end

/-! ## Rules in a run -/

/-- The rules that a run goes through, each with its transition, in the order of the findings. -/
def RuleTable.plan (table : RuleTable) (log : TransitionLog) : List (Transition × Rule) :=
  log.complete.flatMap fun t => (table.rulesFor t.type).map (t, ·)

theorem RuleTable.mem_complete_of_mem_plan {table : RuleTable} {log : TransitionLog} {run : Transition × Rule}
    (h : run ∈ table.plan log) : run.1 ∈ log.complete := by
  obtain ⟨t, ht, hrun⟩ := List.mem_flatMap.mp h
  obtain ⟨r, -, rfl⟩ := List.mem_map.mp hrun
  exact ht

/-- Whether a finding is the one on what a rule answers on the slices of its transition. -/
def Finding.IsOf (windows : WindowTrace) (layers : LayerTrace) (run : Transition × Rule) (f : Finding) : Prop :=
  ∃ w l, slices run.1 windows layers = .ok (w, l) ∧ f = .of run.1 run.2 (run.2.evaluate ⟨some run.1, w, l⟩)

theorem forall₂_isOf_auditOne {table : RuleTable} {windows : WindowTrace} {layers : LayerTrace} {t : Transition}
    (h : ∃ s, slices t windows layers = .ok s) :
    List.Forall₂ (Finding.IsOf windows layers) ((table.rulesFor t.type).map (t, ·))
      (findingsOf (auditOne table windows layers t)) := by
  obtain ⟨⟨w, l⟩, hs⟩ := h
  simp only [auditOne_of_slices hs, findingsOf, blockOn, assess, List.forall₂_map_left_iff,
    List.forall₂_map_right_iff, List.forall₂_same]
  exact fun r _ => ⟨w, l, hs, rfl⟩

/-! ## Blocks in a run -/

section
variable {table : RuleTable} {windows : WindowTrace} {layers : LayerTrace} {log : TransitionLog}
  {workers : Option Nat} {turns : List Nat} {findings : List Finding}

theorem audit_eq_ok_iff :
    (audit table windows layers log workers turns).outcome = .ok findings ↔
      (∀ t ∈ log.complete, ∃ s, slices t windows layers = .ok s) ∧
        findings = log.complete.flatMap fun t => findingsOf (auditOne table windows layers t) := by
  rw [audit_outcome, outcomeOf_eq_ok_iff, List.forall_mem_map, List.flatMap_map]
  simp only [auditOne_ok_iff_slices]

theorem forall₂_isOf_of_audit (h : (audit table windows layers log workers turns).outcome = .ok findings) :
    List.Forall₂ (Finding.IsOf windows layers) (table.plan log) findings := by
  obtain ⟨hslices, rfl⟩ := audit_eq_ok_iff.mp h
  unfold RuleTable.plan
  clear h
  generalize log.complete = ts at hslices ⊢
  induction ts with
  | nil => exact .nil
  | cons t rest ih =>
      obtain ⟨ht, hrest⟩ := List.forall_mem_cons.mp hslices
      rw [List.flatMap_cons, List.flatMap_cons]
      exact List.rel_append (forall₂_isOf_auditOne ht) (ih hrest)

theorem exists_isOf_of_mem (h : (audit table windows layers log workers turns).outcome = .ok findings) {f : Finding}
    (hf : f ∈ findings) : ∃ run ∈ table.plan log, f.IsOf windows layers run :=
  (forall₂_isOf_of_audit h).flip.exists_of_mem_left hf

theorem forall_findingsOf_transitionId (table : RuleTable) (windows : WindowTrace) (layers : LayerTrace)
    (log : TransitionLog) :
    ∀ t ∈ log.complete, ∀ f ∈ findingsOf (auditOne table windows layers t), f.transitionId = t.id :=
  fun _ _ _ => transitionId_of_mem_findingsOf

/-- The findings with the number of a transition are its block. -/
theorem filter_transitionId
    (h : (audit table windows layers log workers turns).outcome = .ok findings) {t : Transition}
    (ht : t ∈ log.complete) :
    findings.filter (·.transitionId = t.id) = findingsOf (auditOne table windows layers t) := by
  obtain ⟨-, rfl⟩ := audit_eq_ok_iff.mp h
  rw [← filter_key_flatMap log.nodup_ids_complete (forall_findingsOf_transitionId table windows layers log) ht]
  exact List.filter_congr fun f _ => (Bool.beq_eq_decide_eq _ _).symm

end

/-- A run that has findings has those of its complete transitions, block after block in the order of the
log. The block of a transition is what a run on this transition alone finds in the two slices: one finding
for each of its rules, in their order. Incomplete transitions have no findings. Another run with the
same rules has the same block for a transition if the traces hold the same snapshots inside its window,
whatever else they and the log hold. -/
theorem audit_eq_flatMap_blocks {table : RuleTable} {windows : WindowTrace} {layers : LayerTrace}
    {log : TransitionLog} {findings : List Finding}
    (h : (audit table windows layers log none).outcome = .ok findings) :
    ∃ block : Transition → List Finding,
      findings = log.complete.flatMap block ∧
      (∀ t ∈ log.complete, ∃ w l,
        windows.within t.start t.stop = .ok w ∧ layers.within t.start t.stop = .ok l ∧
        (audit table w l (.single t) none).outcome = .ok (block t) ∧
        (block t).map (fun f => (f.transitionId, f.transitionType, f.ruleId)) =
          (table.rulesFor t.type).map fun r => (t.id, t.type.text, r.id)) ∧
      (∀ t ∈ log.incomplete, ∀ f ∈ findings, f.transitionId ≠ t.id) ∧
      ∀ windows' layers' log' findings',
        (audit table windows' layers' log' none).outcome = .ok findings' →
        ∀ t ∈ log.complete, t ∈ log'.complete →
          windows'.clip t.start t.stop = windows.clip t.start t.stop →
          layers'.clip t.start t.stop = layers.clip t.start t.stop →
          findings'.filter (·.transitionId = t.id) = block t := by
  obtain ⟨hslices, hfindings⟩ := audit_eq_ok_iff.mp h
  refine ⟨fun t => findingsOf (auditOne table windows layers t), hfindings, ?_, ?_, ?_⟩
  · intro t ht
    obtain ⟨⟨w, l⟩, hs⟩ := hslices t ht
    obtain ⟨hw, hl⟩ := slices_eq_ok_iff.mp hs
    have hc := (TransitionLog.mem_complete.mp ht).2
    refine ⟨w, l, hw, hl, ?_, ?_⟩
    · have hself : slices t w l = .ok (w, l) :=
        slices_eq_ok_iff.mpr ⟨Trace.within_of_within hw, Trace.within_of_within hl⟩
      rw [audit_single hc hself, auditOne_slices hs]
    · simp only [auditOne_of_slices hs, findingsOf, blockOn_headers]
  · intro t ht f hf hid
    rw [hfindings, List.mem_flatMap] at hf
    obtain ⟨u, hu, hfu⟩ := hf
    obtain ⟨htmem, hti⟩ := TransitionLog.mem_incomplete.mp ht
    obtain ⟨humem, huc⟩ := TransitionLog.mem_complete.mp hu
    have hsame := TransitionLog.eq_of_id_eq humem htmem
      ((transitionId_of_mem_findingsOf hfu).symm.trans hid)
    rw [hsame, hti] at huc
    cases huc
  · intro windows' layers' log' findings' h' t _ ht' hw hl
    rw [filter_transitionId h' ht', auditOne_congr hw hl]

/-- The opening of the app, followed by a snapshot without its window. -/
def longLaunchWindows : WindowTrace :=
  ⟨launchWindows.entries ++ [⟨{ elapsed := 30 }, [], none⟩], by decide⟩

/-- The opening of the app in another order, without the lost transition. -/
def shortLaunchLog : TransitionLog := ⟨[rotation, launch], by decide⟩

theorem audit_eq_flatMap_blocks_launch :
    ∃ block : Transition → List Finding,
      launchFindings = launchLog.complete.flatMap block ∧
      (launchFindings.drop 4 ++ launchFindings.take 4).filter (·.transitionId = 2) = block rotation := by
  obtain ⟨block, hblocks, -, -, hsame⟩ := audit_eq_flatMap_blocks launch_outcome
  have hlater : (audit .builtIn longLaunchWindows launchLayers shortLaunchLog none).outcome =
      .ok (launchFindings.drop 4 ++ launchFindings.take 4) := by rfl
  exact ⟨block, hblocks,
    hsame _ _ _ _ hlater rotation (by decide) (by decide) (by decide) (by decide)⟩

end TransitionAudit
