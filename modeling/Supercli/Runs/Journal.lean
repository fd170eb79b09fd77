import Supercli.Connectors.Reviews
import Supercli.Leases.ScheduleLeases

/-!
# `Runs.Journal` — the rows of `runs.db` and the fate of an orphaned intent

The vocabulary of the durable-runs store: run states, step kinds, outcomes, journal rows, and
`reconcile_orphan`, which decides what a `started` row without an outcome row stands for.

TEXT columns that only ever hold one of a fixed set of words (`state`, `kind`, `outcome`) are inductive
types; the `budgets` JSON is kept as what `Budgets::parse` reads out of it. The code outside the
repository that the store calls (the SHA-256 digest and the JSON reader for hints) is the parameter `Host`.
-/

namespace Supercli

/-! ## Outcomes -/

/-- What `run_steps.outcome` holds when it is not NULL. `started` is the write-ahead intent marker. -/
inductive StepOutcome
  | executedOk
  | executedFailed
  | ambiguous
  | neverRan
  | started
deriving DecidableEq, Repr

def outcomeStr : AttemptOutcome → StepOutcome
  | .executed true => .executedOk
  | .executed false => .executedFailed
  | .ambiguous _ => .ambiguous
  | .neverRan _ => .neverRan

/-- The two outcomes `resume_run` counts as completed. -/
def StepOutcome.isExecuted : StepOutcome → Bool
  | .executedOk | .executedFailed => true
  | _ => false

/-! ## Runs -/

/-- Errors from the durable-runs store. -/
inductive RunsError
  | sql (message : String)
  | lease (message : String)
  | notFound (runId : String)
  | budgetExceeded (runId budget : String)
deriving DecidableEq, Repr

/-- Run lifecycle states. -/
inductive RunState
  | queued
  | awaitingModel
  | executingTools
  | awaitingApproval
  | paused
  | done
  | failed
  | needsReview
deriving DecidableEq, Repr

/-- `is_terminal`: the run will never move again on its own. -/
def RunState.isTerminal : RunState → Bool
  | .done | .failed => true
  | _ => false

/-- The budget limits the store enforces. -/
structure Budgets where
  maxSteps : Option Nat
  maxToolCalls : Option Nat
  maxMs : Option Nat
deriving DecidableEq, Repr

/-- One row of `runs`. -/
structure Run where
  id : String
  parentRun : Option String
  state : RunState
  plan : String
  budgets : Budgets
  leaseOwner : Option String
  leaseGeneration : Nat
  leaseExpiresAt : Nat
  createdAtMs : Nat
  updatedAtMs : Nat
deriving DecidableEq, Repr

/-! ## Steps -/

/-- Step kinds; each declares how an orphaned intent is reconciled on resume. -/
inductive StepKind
  | model
  | readOnly
  | tool
  | subagent
  | fileWrite
  | idempotentHttp
  | opaqueWrite
deriving DecidableEq, Repr

/-- `counts_as_tool_call`: kinds that `max_tool_calls` accounts for. -/
def StepKind.countsAsToolCall : StepKind → Bool
  | .tool | .fileWrite | .idempotentHttp | .opaqueWrite => true
  | _ => false

/-- Kinds whose orphan nothing can vouch for: they are never replayed. -/
def StepKind.isOpaque : StepKind → Bool
  | .tool | .subagent | .opaqueWrite => true
  | _ => false

/-- One row of `run_steps`, which is also the `Step` that the latest row of a `step_no` reads as. -/
structure Step where
  runId : String
  stepNo : Nat
  kind : StepKind
  inputHash : String
  output : Option String
  outcome : Option StepOutcome
  attempt : Nat
  tsMs : Int
  reconcileHint : Option String
deriving DecidableEq, Repr

/-- The proof, returned by `begin_step`, that the worker recorded what it is about to do. -/
structure StepIntent where
  runId : String
  stepNo : Nat
  attempt : Nat
  kind : StepKind
  inputHash : String
  reconcileHint : Option String
deriving DecidableEq, Repr

/-- The intent a `started` row stands for. -/
def Step.intent (step : Step) : StepIntent :=
  ⟨step.runId, step.stepNo, step.attempt, step.kind, step.inputHash, step.reconcileHint⟩

/-- What a worker learns from `resume_run`. -/
structure ResumePlan where
  runId : String
  completed : List Step
  firstIncompleteStepNo : Option Nat
  needsReviewStepNo : Option Nat
deriving DecidableEq, Repr

/-! ## Reconciliation -/

/-- Reconciliation parameters stored as JSON in `run_steps.reconcile_hint`. -/
structure ReconcileHint where
  path : Option String
  expectedHash : Option String
  idempotencyKey : Option String
deriving DecidableEq, Repr

/-- The libraries the store calls: the SHA-256 hex digest and `serde_json` reading a `ReconcileHint`. -/
structure Host where
  sha256Hex : ByteArray → String
  hintFromJson : String → Option ReconcileHint

/-- The file system as `std::fs::read` sees it: `none` is a file that cannot be read. -/
abbrev Files := String → Option ByteArray

def stepInputHash (H : Host) (canonicalInput : String) : String := H.sha256Hex canonicalInput.toUTF8

/-- Result of probing a `FileWrite` target. -/
inductive FileProbe
  | completed
  | incomplete
  | noProbe
deriving DecidableEq, Repr

/-- The probe parameters of a hint: the target path and the intended content hash. -/
def probeTarget (H : Host) (hintJson : Option String) : Option (String × String) :=
  match hintJson.bind H.hintFromJson with
  | some h =>
    match h.path, h.expectedHash with
    | some p, some e => some (p, e)
    | _, _ => none
  | none => none

/-- The target of a hint holds content with the intended hash. -/
def targetHolds (H : Host) (files : Files) (hintJson : Option String) : Bool :=
  match probeTarget H hintJson with
  | some (path, expected) =>
    match files path with
    | some bytes => H.sha256Hex bytes == expected
    | none => false
  | none => false

def probeFileWrite (H : Host) (files : Files) (hintJson : Option String) : FileProbe :=
  match probeTarget H hintJson with
  | none => .noProbe
  | some (path, expected) =>
    match files path with
    | some bytes => if H.sha256Hex bytes = expected then .completed else .incomplete
    | none => .incomplete

/-- The verdict of reconciling one orphaned intent on resume. -/
inductive ReconcileVerdict
  | rerun (reason : String)
  | alreadyComplete (reason output : String)
  | needsReview (reason : String)
deriving DecidableEq, Repr

/-- `reconcile_orphan`: review is the last resort; a missing or malformed hint fails closed to it. -/
def reconcileOrphan (H : Host) (files : Files) (intent : StepIntent) : ReconcileVerdict :=
  match intent.kind with
  | .model =>
    .rerun "orphaned model intent: model calls have no external side effect; safe to re-run"
  | .readOnly =>
    .rerun "orphaned read-only intent: reads have no side effect; safe to re-run"
  | .fileWrite =>
    match probeFileWrite H files intent.reconcileHint with
    | .completed =>
      let hash := ((intent.reconcileHint.bind H.hintFromJson).bind ReconcileHint.expectedHash).getD ""
      .alreadyComplete
        "file probe: target content hash matches the intended hash; the write landed before the crash"
        ("\x7b\"reconciled\":\"probe_match\",\"hash\":\"" ++ hash ++ "\"\x7d")
    | .incomplete =>
      .rerun ("file probe: target missing or content differs; the write did not land" ++
        " — safe to re-run (rerun overwrites)")
    | .noProbe =>
      .needsReview "file_write intent has no usable reconcile hint; cannot probe — fail closed to review"
  | .idempotentHttp =>
    match (intent.reconcileHint.bind H.hintFromJson).bind ReconcileHint.idempotencyKey with
    | some key =>
      .rerun ("idempotent_http intent: replay with the same idempotency key (" ++ key ++ "); the remote side dedups")
    | none =>
      .needsReview ("idempotent_http intent has no idempotency key; cannot replay safely" ++
        " — fail closed to review")
  | .opaqueWrite | .tool | .subagent =>
    .needsReview ("orphaned intent with no outcome row and no reconciliation strategy: the side effect" ++
      " may have executed after the intent fsync; never replay")

/-! ### What a verdict tells -/

variable {H : Host} {files : Files} {intent : StepIntent}

theorem probeFileWrite_incomplete (h : probeFileWrite H files intent.reconcileHint = .incomplete) :
    targetHolds H files intent.reconcileHint = false := by
  unfold probeFileWrite at h
  unfold targetHolds
  split at h
  · cases h
  · rename_i path expected htarget
    rw [htarget]
    split at h
    · rename_i bytes hread
      split at h
      · cases h
      · rename_i hne
        simp [hread, hne]
    · rename_i hread
      simp [hread]

/-- A re-run is never of an opaque kind, and a re-run file write is one whose target does not hold the
    intended content. -/
theorem reconcileOrphan_rerun (h : reconcileOrphan H files intent = .rerun reason) : intent.kind.isOpaque = false ∧
      (intent.kind = .fileWrite → targetHolds H files intent.reconcileHint = false) := by
  unfold reconcileOrphan at h
  cases hk : intent.kind <;> simp only [hk] at h
  case fileWrite =>
    refine ⟨rfl, ?_⟩
    intro _
    split at h
    · cases h
    · rename_i hp
      exact probeFileWrite_incomplete hp
    · cases h
  -- a model step may be re-run; the opaque kinds never are
  all_goals simp_all [StepKind.isOpaque]

/-- Only a file write is ever found already complete. -/
theorem reconcileOrphan_alreadyComplete
    (h : reconcileOrphan H files intent = .alreadyComplete reason output) : intent.kind = .fileWrite := by
  unfold reconcileOrphan at h
  cases hk : intent.kind <;> simp only [hk] at h
  case fileWrite => rfl
  case idempotentHttp => split at h <;> cases h
  all_goals cases h

end Supercli
