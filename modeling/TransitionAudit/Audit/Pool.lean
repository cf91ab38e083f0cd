import TransitionAudit.Audit.Block

/-!
# Pools

Transitions that are audited side by side. The workers take turns in any order; in a turn a task says
one thing or comes to its end. Answers are put back into the order of the transitions, whichever of
them came first.
-/

namespace TransitionAudit

/-- A transition in a pool: its place, what there still is to say about it, and its answer. -/
structure Task where
  place : Nat
  pending : List Event
  answer : Except Disorder (List Finding)

/-- The task of a transition; one without a block has nothing to say. -/
def Task.of (place : Nat) : Except Disorder Block → Task
  | .error fault => ⟨place, [], .error fault⟩
  | .ok block => ⟨place, block.events, .ok block.findings⟩

structure Pool where
  /-- The tasks that have not come to their ends. -/
  working : List Task
  /-- What has been said so far. -/
  log : List Event := []
  /-- The answers of the other tasks with their places, in the order in which they came. -/
  done : List (Nat × Except Disorder (List Finding)) := []

namespace Pool

/-- A pool in which every transition still waits for its first turn. -/
def of (blocks : List (Except Disorder Block)) : Pool :=
  { working := blocks.zipIdx.map fun (block, place) => .of place block }

/-- The turn of one of the working tasks. -/
def turn (p : Pool) (i : Nat) : Pool :=
  match p.working[i]? with
  | none => p
  | some ⟨place, [], answer⟩ =>
    ⟨p.working.eraseIdx i, p.log, p.done ++ [(place, answer)]⟩
  | some ⟨place, event :: rest, answer⟩ =>
    ⟨p.working.set i ⟨place, rest, answer⟩, p.log ++ [event], p.done⟩

/-- Brings the working tasks to their ends, one after the other. -/
def drain (p : Pool) : Pool :=
  ⟨[], p.log ++ p.working.flatMap (·.pending),
    p.done ++ p.working.map fun task => (task.place, task.answer)⟩

/-- The answers in the order of the transitions. -/
def answers (p : Pool) : List (Except Disorder (List Finding)) :=
  (p.done.mergeSort fun a b => a.1 ≤ b.1).map (·.2)

/-- All findings, or the first fault in the order of the transitions. -/
def findings (p : Pool) : Except Disorder (List Finding) := (p.answers.mapM id).map List.flatten

/-- A pool after the given turns, run to its end. -/
def run (turns : List Nat) (p : Pool) : Pool := (turns.foldl turn p).drain

end Pool

end TransitionAudit
