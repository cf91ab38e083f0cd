import TransitionAudit.Proofs.Audit.Sequence
import Mathlib.Data.List.Nodup

/-!
# Schedules of a pool

However the workers take turns, a pool says what its tasks have to say and gives the answers of its tasks.
A turn moves one event from its task to the log, or one answer to the answers that have come; bringing a
pool to its end after the turn comes to the same as before it, up to the order in which the tasks were
heard. What is said about one transition keeps its order, since only one task speaks of it.
-/

namespace TransitionAudit

/-! ## Turns -/

def Task.result (task : Task) : Nat × Except Disorder (List Finding) := (task.place, task.answer)

namespace Pool

variable {p : Pool}

theorem drain_log (p : Pool) : p.drain.log = p.log ++ p.working.flatMap (·.pending) := rfl

theorem drain_done (p : Pool) : p.drain.done = p.done ++ p.working.map Task.result := rfl

/-- All a turn can do: nothing, since there is no such task; bring a task to its end that has nothing left
to say; or let a task say one thing. -/
theorem turn_cases (p : Pool) (i : Nat) :
    p.turn i = p ∨
    (∃ before task after, p.working = before ++ task :: after ∧ task.pending = [] ∧
      p.turn i = ⟨before ++ after, p.log, p.done ++ [task.result]⟩) ∨
    ∃ before task after event rest, p.working = before ++ task :: after ∧ task.pending = event :: rest ∧
      p.turn i = ⟨before ++ { task with pending := rest } :: after, p.log ++ [event], p.done⟩ := by
  cases hi : p.working[i]? with
  | none => exact Or.inl (by simp [turn, hi])
  | some task =>
      obtain ⟨hlt, htask⟩ := List.getElem?_eq_some_iff.mp hi
      have hsplit : p.working = p.working.take i ++ task :: p.working.drop (i + 1) := by
        rw [← htask, ← List.drop_eq_getElem_cons hlt, List.take_append_drop]
      obtain ⟨place, pending, answer⟩ := task
      cases pending with
      | nil =>
          refine Or.inr (Or.inl ⟨_, _, _, hsplit, rfl, ?_⟩)
          simp [turn, hi, Task.result, List.eraseIdx_eq_take_drop_succ]
      | cons event rest =>
          refine Or.inr (Or.inr ⟨_, _, _, event, rest, hsplit, rfl, ?_⟩)
          simp only [turn, hi, List.set_eq_take_append_cons_drop, hlt, ↓reduceIte]

/-! ## What a pool says in all -/

theorem drain_log_turn (p : Pool) (i : Nat) : (p.turn i).drain.log.Perm p.drain.log := by
  simp only [drain_log]
  obtain h | ⟨before, task, after, hw, hp, h⟩ | ⟨before, task, after, event, rest, hw, hp, h⟩ :=
    p.turn_cases i
  · rw [h]
  · rw [h, hw]
    simp [hp]
  · rw [h, hw]
    simp only [List.flatMap_append, List.flatMap_cons, hp, List.append_assoc, List.cons_append,
      List.nil_append]
    exact List.Perm.append_left _ List.perm_middle.symm

theorem drain_done_turn (p : Pool) (i : Nat) : (p.turn i).drain.done.Perm p.drain.done := by
  simp only [drain_done]
  obtain h | ⟨before, task, after, hw, -, h⟩ | ⟨before, task, after, event, rest, hw, -, h⟩ :=
    p.turn_cases i
  · rw [h]
  · rw [h, hw]
    simp only [List.map_append, List.map_cons, List.append_assoc, List.cons_append, List.nil_append]
    exact List.Perm.append_left _ List.perm_middle.symm
  · rw [h, hw]
    simp [Task.result]

/-- Whatever the turns, the log of a run holds the events of all tasks. -/
theorem run_log_perm (turns : List Nat) (p : Pool) : (p.run turns).log.Perm p.drain.log := by
  induction turns generalizing p with
  | nil => exact List.Perm.refl _
  | cons i rest ih => exact (ih (p.turn i)).trans (p.drain_log_turn i)

theorem run_done_perm (turns : List Nat) (p : Pool) : (p.run turns).done.Perm p.drain.done := by
  induction turns generalizing p with
  | nil => exact List.Perm.refl _
  | cons i rest ih => exact (ih (p.turn i)).trans (p.drain_done_turn i)

/-! ## What a pool says of one kind -/

/-- At most one of the working tasks has events of the kind to say. -/
def Apart (kind : Event → Bool) (p : Pool) : Prop :=
  p.working.Pairwise fun a b => a.pending.filter kind = [] ∨ b.pending.filter kind = []

theorem Apart.turn {kind : Event → Bool} (h : p.Apart kind) (i : Nat) : (p.turn i).Apart kind := by
  obtain he | ⟨before, task, after, hw, -, he⟩ | ⟨before, task, after, event, rest, hw, hp, he⟩ :=
    p.turn_cases i
  · rwa [he]
  · rw [he]
    rw [Apart, hw] at h
    exact h.sublist (by simp)
  · rw [he]
    rw [Apart, hw] at h
    -- what a task has left to say is part of what it had to say
    have hrest : task.pending.filter kind = [] → rest.filter kind = [] := by
      rw [hp, List.filter_cons]
      split <;> simp
    simp only [Apart, List.pairwise_append, List.pairwise_cons, List.mem_cons, forall_eq_or_imp] at h ⊢
    obtain ⟨hb, ⟨hta, ha⟩, hba⟩ := h
    exact ⟨hb, ⟨fun c hc => (hta c hc).imp_left hrest, ha⟩,
      fun c hc => ⟨(hba c hc).1.imp_right hrest, (hba c hc).2⟩⟩

/-- A turn does not change the order of events that only one task has to say. -/
theorem drain_log_turn_filter {kind : Event → Bool} (h : p.Apart kind) (i : Nat) :
    (p.turn i).drain.log.filter kind = p.drain.log.filter kind := by
  simp only [drain_log]
  obtain he | ⟨before, task, after, hw, hp, he⟩ | ⟨before, task, after, event, rest, hw, hp, he⟩ :=
    p.turn_cases i
  · rw [he]
  · rw [he, hw]
    simp [hp]
  · rw [he, hw]
    by_cases hk : kind event
    · -- the task speaks of the kind, so the tasks before it do not
      have hbefore : (before.flatMap (·.pending)).filter kind = [] := by
        rw [Apart, hw, List.pairwise_append] at h
        simp only [List.filter_flatMap, List.flatMap_eq_nil_iff]
        intro b hb
        rcases h.2.2 b hb task (by simp) with hnone | hnone
        · exact hnone
        · simp [hp, hk] at hnone
      simp [hp, hk, hbefore]
    · simp [hp, hk]

theorem run_log_filter (turns : List Nat) {p : Pool} {kind : Event → Bool} (h : p.Apart kind) :
    (p.run turns).log.filter kind = p.drain.log.filter kind := by
  -- on the turns, for all pools at once: a turn leaves the tasks apart
  induction turns generalizing p with
  | nil => rfl
  | cons i rest ih => exact (ih (h.turn i)).trans (drain_log_turn_filter h i)

/-! ## Pools of transitions -/

section
variable (blocks : List (Except Disorder Block))

theorem task_of_pending (place : Nat) (b : Except Disorder Block) :
    (Task.of place b).pending = eventsOf b := by
  cases b <;> rfl

theorem task_of_result (place : Nat) (b : Except Disorder Block) :
    (Task.of place b).result = (place, b.map Block.findings) := by
  cases b <;> rfl

theorem drain_of_log : (Pool.of blocks).drain.log = blocks.flatMap eventsOf := by
  simp only [drain_log, Pool.of, List.nil_append, List.flatMap_map, task_of_pending]
  conv_rhs => rw [← List.zipIdx_map_fst 0 blocks, List.flatMap_map]

theorem drain_of_done :
    (Pool.of blocks).drain.done = blocks.zipIdx.map fun b => (b.2, b.1.map Block.findings) := by
  simp only [drain_done, Pool.of, List.nil_append, List.map_map]
  exact List.map_congr_left fun b _ => task_of_result b.2 b.1

theorem apart_of {kind : Event → Bool}
    (h : blocks.Pairwise fun a b => (eventsOf a).filter kind = [] ∨ (eventsOf b).filter kind = []) :
    (Pool.of blocks).Apart kind := by
  rw [← List.zipIdx_map_fst 0 blocks, List.pairwise_map] at h
  rw [Apart, Pool.of, List.pairwise_map]
  exact h.imp fun hab => by simpa only [task_of_pending] using hab

end

/-! ## Answers back in order -/

/-- Sorting by places undoes any change of the order. -/
theorem mergeSort_eq_of_perm {β : Type} {xs ys : List (Nat × β)} (hp : xs.Perm ys)
    (hs : ys.Pairwise fun a b => a.1 < b.1) : (xs.mergeSort fun a b => a.1 ≤ b.1) = ys := by
  have hperm : (xs.mergeSort fun a b => a.1 ≤ b.1).Perm ys := (List.mergeSort_perm xs _).trans hp
  have hsorted : (xs.mergeSort fun a b => a.1 ≤ b.1).Pairwise fun a b => decide (a.1 ≤ b.1) = true :=
    List.pairwise_mergeSort (fun _ _ _ hab hbc => by simp at *; omega) (fun _ _ => by simp; omega) xs
  have hplaces : (ys.map Prod.fst).Nodup := by
    rw [List.nodup_iff_pairwise_ne, List.pairwise_map]
    exact hs.imp Nat.ne_of_lt
  refine hperm.eq_of_pairwise ?_ hsorted (hs.imp fun hab => by simpa using Nat.le_of_lt hab)
  intro a b ha hb hab hba
  exact List.inj_on_of_nodup_map hplaces (hperm.mem_iff.mp ha) hb
    (Nat.le_antisymm (by simpa using hab) (by simpa using hba))

theorem run_answers (turns : List Nat) (blocks : List (Except Disorder Block)) :
    ((Pool.of blocks).run turns).answers = blocks.map (Except.map Block.findings) := by
  have hplaces : (blocks.zipIdx.map fun b => (b.2, b.1.map Block.findings)).Pairwise
      fun a b => a.1 < b.1 := by
    rw [List.pairwise_map]
    have hrange := List.pairwise_lt_range' (s := 0) (n := blocks.length)
    rw [← List.zipIdx_map_snd, List.pairwise_map] at hrange
    exact hrange
  have hdone := mergeSort_eq_of_perm (drain_of_done blocks ▸ run_done_perm turns (Pool.of blocks)) hplaces
  rw [answers, hdone, List.map_map]
  conv_rhs => rw [← List.zipIdx_map_fst 0 blocks, List.map_map]
  rfl

/-- Going through the answers stops at the first fault. -/
theorem answers_mapM (blocks : List (Except Disorder Block)) :
    (blocks.map (Except.map Block.findings)).mapM id =
      match blocks.findSome? faultOf with
      | some fault => .error fault
      | none => .ok (blocks.map findingsOf) := by
  induction blocks with
  | nil => rfl
  | cons b rest ih =>
      cases b with
      | error fault => rfl
      | ok block =>
          rw [List.map_cons, List.mapM_cons, ih, List.findSome?_cons]
          simp only [faultOf]
          cases rest.findSome? faultOf <;> rfl

theorem run_findings (turns : List Nat) (blocks : List (Except Disorder Block)) :
    ((Pool.of blocks).run turns).findings.mapError RunFault.disorder = outcomeOf blocks := by
  rw [findings, run_answers, answers_mapM, outcomeOf]
  cases blocks.findSome? faultOf with
  | none => rfl
  | some fault => rfl

end Pool

/-! ## What is said about one transition -/

def Event.transition? : Event → Option Transition
  | .started => none
  | .skipped t => some t
  | .planned _ t => some t
  | .failed _ t _ => some t

def Event.isAbout (t : Transition) (e : Event) : Bool := e.transition? = some t

/-- The events of transitions that are worked on; the others are said before. -/
def Event.isWork : Event → Bool
  | .started => false
  | .skipped _ => false
  | .planned .. => true
  | .failed .. => true

theorem blockOn_events {table : RuleTable} {t : Transition} {w : WindowTrace} {l : LayerTrace} {e : Event}
    (h : e ∈ (blockOn table t w l).events) : e.transition? = some t ∧ e.isWork = true := by
  simp only [blockOn, assess, List.mem_cons, List.mem_flatMap] at h
  rcases h with rfl | ⟨r, _, he⟩
  · exact ⟨rfl, rfl⟩
  · cases hr : r.evaluate ⟨some t, w, l⟩ with
    | error fault =>
        rw [hr, failureOf, List.mem_singleton] at he
        subst he
        exact ⟨rfl, rfl⟩
    | ok violations => simp [hr, failureOf] at he

theorem auditOne_events {table : RuleTable} {windows : WindowTrace} {layers : LayerTrace} {t : Transition}
    {e : Event} (h : e ∈ eventsOf (auditOne table windows layers t)) :
    e.transition? = some t ∧ e.isWork = true := by
  rw [auditOne_eq_map_slices] at h
  cases hs : slices t windows layers with
  | error fault => simp [hs, Except.map, eventsOf] at h
  | ok s =>
      simp only [hs, Except.map, eventsOf] at h
      exact blockOn_events h

/-- Of two different transitions at most one is the one that is spoken of. -/
theorem auditOne_apart (table : RuleTable) (windows : WindowTrace) (layers : LayerTrace)
    {ts : List Transition} (h : ts.Nodup) (u : Transition) :
    (ts.map (auditOne table windows layers)).Pairwise fun a b =>
      (eventsOf a).filter (Event.isAbout u) = [] ∨ (eventsOf b).filter (Event.isAbout u) = [] := by
  have hsilent : ∀ t, t ≠ u →
      (eventsOf (auditOne table windows layers t)).filter (Event.isAbout u) = [] := by
    intro t htu
    rw [List.filter_eq_nil_iff]
    intro e he
    simpa [Event.isAbout, (auditOne_events he).1] using htu
  rw [List.pairwise_map]
  refine h.imp fun {a b} hab => ?_
  by_cases hau : a = u
  · exact Or.inr (hsilent b fun hbu => hab (hau.trans hbu.symm))
  · exact Or.inl (hsilent a hau)

/-! ## Runs with workers -/

section
variable (audit : Transition → Except Disorder Block) (ts : List Transition) (turns : List Nat)

theorem inPool_outcome : (inPool audit ts turns).outcome = outcomeOf (ts.map audit) := by
  simp only [inPool, Pool.run_findings]

theorem inPool_log_perm : (inPool audit ts turns).log.Perm ((ts.map audit).flatMap eventsOf) :=
  Pool.drain_of_log (ts.map audit) ▸ Pool.run_log_perm turns (Pool.of (ts.map audit))

theorem inPool_log_filter {kind : Event → Bool}
    (h : (ts.map audit).Pairwise fun a b =>
      (eventsOf a).filter kind = [] ∨ (eventsOf b).filter kind = []) :
    (inPool audit ts turns).log.filter kind = ((ts.map audit).flatMap eventsOf).filter kind :=
  Pool.drain_of_log (ts.map audit) ▸ Pool.run_log_filter turns (Pool.apart_of (ts.map audit) h)

end

section
variable (table : RuleTable) (windows : WindowTrace) (layers : LayerTrace) (log : TransitionLog)
  (workers : Option Nat) (turns : List Nat)

theorem TransitionLog.entries_nodup : log.entries.Nodup := log.unique.of_map _

theorem TransitionLog.complete_nodup : log.complete.Nodup := log.entries_nodup.filter _

/-- The outcome of a run depends neither on the number of workers nor on their turns. -/
theorem audit_outcome :
    (audit table windows layers log workers turns).outcome =
      outcomeOf (log.complete.map (auditOne table windows layers)) := by
  unfold audit
  split
  · exact inSequence_outcome _ _
  · exact inPool_outcome _ _ _

/-- What a run says once it has passed over the incomplete transitions. -/
def workLog : List Event :=
  (log.complete.map (auditOne table windows layers)).flatMap eventsOf

theorem workLog_isWork {e : Event} (h : e ∈ workLog table windows layers log) : e.isWork = true := by
  simp only [workLog, List.flatMap_map, List.mem_flatMap] at h
  obtain ⟨t, _, he⟩ := h
  exact (auditOne_events he).2

theorem audit_log (h : ∀ t ∈ log.complete, ∃ s, slices t windows layers = .ok s) :
    ∃ said, (audit table windows layers log workers turns).log =
        .started :: log.incomplete.map .skipped ++ said ∧
      said.Perm (workLog table windows layers log) ∧
      ∀ t, said.filter (Event.isAbout t) = (workLog table windows layers log).filter (Event.isAbout t) := by
  unfold audit
  split
  · have hall : ∀ t ∈ log.complete, ∃ b, auditOne table windows layers t = .ok b :=
      fun t ht => auditOne_ok_iff_slices.mpr (h t ht)
    exact ⟨_, rfl, inSequence_log _ _ hall ▸ .refl _, fun t => by rw [inSequence_log _ _ hall]; rfl⟩
  · exact ⟨_, rfl, inPool_log_perm _ _ _,
      fun t => inPool_log_filter _ _ _ (auditOne_apart table windows layers log.complete_nodup t)⟩

end

/-! ## Workers and sequence -/

/-- A run with workers comes to the same as a run in sequence, whatever the number of the workers and
their turns. It has the same findings in the same order, or it fails with the fault of the first transition
without slices. If all have slices, it says the same: first that it starts and what it passes over, then
the events of the transitions, those of each transition in the order of a run in sequence. -/
theorem audit_workers_eq_sequence (table : RuleTable) (windows : WindowTrace) (layers : LayerTrace)
    (log : TransitionLog) (workers : Nat) (turns : List Nat) :
    (audit table windows layers log (some workers) turns).outcome =
      (audit table windows layers log none).outcome ∧
    (∀ fault, (audit table windows layers log (some workers) turns).outcome = .error fault ↔
      ∃ before t after d, log.complete = before ++ t :: after ∧
        (∀ u ∈ before, ∃ s, slices u windows layers = .ok s) ∧
        slices t windows layers = .error d ∧ fault = .disorder d) ∧
    ((∀ t ∈ log.complete, ∃ s, slices t windows layers = .ok s) →
      (audit table windows layers log (some workers) turns).log.Perm
        (audit table windows layers log none).log ∧
      (∃ work, (audit table windows layers log (some workers) turns).log =
        .started :: log.incomplete.map .skipped ++ work ∧ ∀ e ∈ work, e.isWork = true) ∧
      ∀ t, (audit table windows layers log (some workers) turns).log.filter (Event.isAbout t) =
        (audit table windows layers log none).log.filter (Event.isAbout t)) := by
  refine ⟨?_, ?_, ?_⟩
  · rw [audit_outcome, audit_outcome]
  · intro fault
    rw [audit_outcome, outcomeOf_map_eq_error_iff]
    simp only [auditOne_ok_iff_slices, auditOne_eq_error_iff]
  · intro h
    obtain ⟨work, hlog, hperm, hfilter⟩ :=
      audit_log table windows layers log (some workers) turns h
    obtain ⟨work', hlog', hperm', hfilter'⟩ := audit_log table windows layers log none [] h
    refine ⟨?_, ⟨work, hlog, ?_⟩, ?_⟩
    · rw [hlog, hlog']
      exact (hperm.trans hperm'.symm).append_left _
    · intro e he
      exact workLog_isWork table windows layers log (hperm.mem_iff.mp he)
    · intro t
      rw [hlog, hlog', List.filter_append, List.filter_append, hfilter, hfilter']

theorem audit_workers_eq_sequence_launch :
    (∀ t ∈ launchLog.complete, ∃ s, slices t launchWindows launchLayers = .ok s) ∧
    (audit .builtIn launchWindows launchLayers launchLog (some 2) [1, 0, 1]).log.Perm
      (audit .builtIn launchWindows launchLayers launchLog none).log ∧
    (audit .builtIn launchWindows launchLayers launchLog (some 2) [1, 0, 1]).log.filter
        (Event.isAbout launch) =
      (audit .builtIn launchWindows launchLayers launchLog none).log.filter (Event.isAbout launch) := by
  obtain ⟨hperm, -, hfilter⟩ := (audit_workers_eq_sequence .builtIn launchWindows launchLayers launchLog
    2 [1, 0, 1]).2.2 launch_slices
  exact ⟨launch_slices, hperm, hfilter launch⟩

end TransitionAudit
