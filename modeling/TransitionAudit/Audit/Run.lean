import TransitionAudit.Audit.Pool

/-!
# Runs

A run checks every completed transition against its rules. Findings come in the order of the
transitions, then of the rules, however the transitions are distributed over workers.
-/

namespace TransitionAudit

/-- Why a run ends without findings. -/
inductive RunFault
  | noTable
  | noWindows
  | noLayers
  | noTransitions
  | badWorkers
  | disorder (fault : Disorder)

def RunFault.message : RunFault → Text
  | .noTable => "AssertionEngine requires a rule configuration"
  | .noWindows => "analyze requires a window manager trace"
  | .noLayers => "analyze requires a layers trace"
  | .noTransitions => "analyze requires a transitions trace"
  | .badWorkers => "max_workers must be >= 1"
  | .disorder fault => fault.message

/-- What a run leaves behind: what it said, in order, and its findings unless it failed. -/
structure Run where
  log : List Event
  outcome : Except RunFault (List Finding)

/-- One transition after the other, up to the first fault. -/
def inSequence (audit : Transition → Except Disorder Block) : List Transition → Run
  | [] => ⟨[], .ok []⟩
  | t :: rest =>
    match audit t with
    | .error fault => ⟨[], .error (.disorder fault)⟩
    | .ok block =>
      let run := inSequence audit rest
      ⟨block.events ++ run.log, run.outcome.map (block.findings ++ ·)⟩

/-- The transitions side by side, each to its end even if another one fails. -/
def inPool (audit : Transition → Except Disorder Block) (ts : List Transition)
    (turns : List Nat) : Run :=
  let pool := (Pool.of (ts.map audit)).run turns
  ⟨pool.log, pool.findings.mapError .disorder⟩

/-- Runs all rules of a table on all complete transitions. Several workers take turns as given, and
come to their ends one after the other once no more turns are. -/
def audit (table : RuleTable) (windows : WindowTrace) (layers : LayerTrace) (log : TransitionLog)
    (workers : Option Nat) (turns : List Nat := []) : Run :=
  let one := auditOne table windows layers
  let run := if (workers.getD 1) ≤ 1 || log.complete.length < 2 then inSequence one log.complete
    else inPool one log.complete turns
  ⟨.started :: log.incomplete.map .skipped ++ run.log, run.outcome⟩

/-- A run on inputs that may be missing and a number of workers that may be senseless. -/
def auditInputs (table : RuleTable) (windows : Option WindowTrace) (layers : Option LayerTrace)
    (log : Option TransitionLog) (workers : Option Int) : Run :=
  match windows, layers, log with
  | none, _, _ => ⟨[], .error .noWindows⟩
  | _, none, _ => ⟨[], .error .noLayers⟩
  | _, _, none => ⟨[], .error .noTransitions⟩
  | some w, some l, some ts =>
    if workers.any (· < 1) then ⟨[], .error .badWorkers⟩
    else audit table w l ts (workers.map Int.toNat)

end TransitionAudit
