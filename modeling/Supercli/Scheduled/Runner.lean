import Supercli.Lib.Program
import Supercli.Runs.RunsDb
import Supercli.Scheduled.Spec

/-!
# `Scheduled.Runner` — `run_trigger`, `run_attempt` and the retry loop

The scheduled runner as a program (`Lib.Program`) over everything it talks to: the clock, the
single-flight guard, the tool executor, the durable-runs store and the audit file. Each operation may
answer with an error; the program does with the answer exactly what the source does, which is often
nothing (`let _ =`, `.ok()`).

The loops of the source are recursions on their lists: the calls of an attempt and the retries left. An
early `return` out of the call loop is the `error` side of `attemptStep`.
-/

namespace Supercli

/-! ## What the runner asks for -/

/-- The three places that read the clock. The deadline check is asked with the deadline it compares to. -/
inductive ClockRead
  | triggered
  | attempt
  | deadline (deadlineMs : Nat)
deriving DecidableEq, Repr

/-- The runner's operations. `callTool` also carries what the call is for (the durable run and the step
    index), which the executor does not see. -/
inductive Op
  | now (site : ClockRead)
  | sleep (secs : Nat)
  | tryBegin (scheduleId : String)
  | endRun (scheduleId : String)
  | isAutonomous
  | setAutonomous (autonomous : Bool)
  | setActor (actor : String)
  | fenceCurrent
  | listRuns
  | resumeRun (runId : String)
  | createRun (plan : String) (budgets : Budgets)
  | claimRun (runId : String)
  | transition (runId : String) (source target : RunState)
  | markNeedsReview (runId : String)
  | releaseRun (runId : String)
  | beginStep (runId : String) (stepNo : Nat) (inputHash : String)
  | completeStep (intent : StepIntent) (outcome : AttemptOutcome) (output : Option String)
  | callTool (durable : Option String) (idx : Nat) (call : ScheduledToolCall)
  | appendRecord (record : RunRecord)
deriving DecidableEq, Repr

/-- What each operation answers. `fenceCurrent` answers `none` when no fence is installed. -/
def Op.Ans : Op → Type
  | .now _ => Nat
  | .sleep _ => Unit
  | .tryBegin _ => Bool
  | .endRun _ => Unit
  | .isAutonomous => Bool
  | .setAutonomous _ => Unit
  | .setActor _ => Unit
  | .fenceCurrent => Option Bool
  | .listRuns => Except RunsError (List Run)
  | .resumeRun _ => Except RunsError ResumePlan
  | .createRun _ _ => Except RunsError String
  | .claimRun _ => Except RunsError (Option RunsDb.RunClaim)
  | .transition _ _ _ => Except RunsError Bool
  | .markNeedsReview _ => Except RunsError Bool
  | .releaseRun _ => Except RunsError Unit
  | .beginStep _ _ _ => Except RunsError StepIntent
  | .completeStep _ _ _ => Except RunsError Unit
  | .callTool _ _ _ => Except ToolCallFailure String
  | .appendRecord _ => Except String Unit

/-- The runner's signature. -/
abbrev runnerSig : Sig := ⟨Op, Op.Ans⟩

/-- Runner programs. -/
abbrev RunnerM := Prog runnerSig

/-- Ask one operation. -/
def ask (o : Op) : RunnerM o.Ans := Prog.perform (S := runnerSig) o

/-! ## The durable context -/

/-- `u64::MAX`, which as a start step means that the run waits for review. -/
def u64Max : Nat := 2 ^ 64 - 1

/-- How a runner was set up: `runs_db` present or not, and `durable_required`. -/
structure RunnerConfig where
  hasRunsDb : Bool
  durableRequired : Bool
deriving DecidableEq, Repr

/-- The text by which a run's plan names its schedule. -/
def scheduleMark (scheduleId : String) : String := "\"schedule_id\":\"" ++ scheduleId ++ "\""

/-- The first listed run that is not terminal and whose plan names the schedule. -/
def findOrphan (scheduleId : String) (runs : List Run) : Option Run :=
  runs.find? fun r => !r.state.isTerminal && decide ((scheduleMark scheduleId).toList <:+: r.plan.toList)

/-- The plan of a fresh run. -/
def freshPlan (spec : ScheduleSpec) (triggeredAtMs : Nat) : String :=
  "\x7b" ++ scheduleMark spec.id ++ ",\"session_id\":\"" ++ spec.sessionId ++ "\",\"triggered_at_ms\":" ++
    toString triggeredAtMs ++ "\x7d"

/-- The budgets of a fresh run, as the store reads them (`max_duration_secs` is not one of its keys). -/
def freshBudgets (policy : AutonomousPolicy) : Budgets := ⟨some policy.maxSteps, none, none⟩

/-- Where a resumed run starts. -/
def startOf (plan : ResumePlan) : Nat :=
  if plan.needsReviewStepNo.isSome then u64Max else plan.firstIncompleteStepNo.getD 0

/-- `durable_ctx`: resume an orphaned run of this schedule or create a fresh one. Every failure of the store
    on the way gives `none`. -/
def durableCtx (cfg : RunnerConfig) (spec : ScheduleSpec) (triggeredAtMs : Nat) : RunnerM (Option (String × Nat)) :=
  if !cfg.hasRunsDb then
    return none
  else do
    match ← ask .listRuns with
    | .error _ => return none
    | .ok runs =>
      match findOrphan spec.id runs with
      | some run =>
        match ← ask (.resumeRun run.id) with
        | .error _ => return none
        | .ok plan =>
          if plan.needsReviewStepNo.isSome then
            return some (run.id, u64Max)
          else
            let _ ← ask (.claimRun run.id)
            return some (run.id, plan.firstIncompleteStepNo.getD 0)
      | none =>
        match ← ask (.createRun (freshPlan spec triggeredAtMs) (freshBudgets spec.policy)) with
        | .error _ => return none
        | .ok id =>
          let _ ← ask (.claimRun id)
          let _ ← ask (.transition id .queued .executingTools)
          return some (id, 0)

/-! ## One attempt -/

/-- The outcome of one attempt. -/
structure AttemptResult where
  outcome : RunOutcome
  steps : Nat
  denied : List String
  error : Option String
  uncertain : Bool
  staleLease : Bool
deriving DecidableEq, Repr

/-- The counters of an attempt. -/
structure Tally where
  steps : Nat
  outputBytes : Nat
  denied : List String
deriving DecidableEq, Repr

/-- `push` unless `contains`. -/
def pushNew (xs : List String) (x : String) : List String := if xs.contains x then xs else xs ++ [x]

/-- What the journal gets for a failed call. -/
def failureOutcome (failure : ToolCallFailure) : AttemptOutcome :=
  if failure.uncertain then .ambiguous failure.message else .executed false

/-- An attempt that ends early without a tool failure. -/
def stopped (t : Tally) (outcome : RunOutcome) (error : String) : AttemptResult :=
  ⟨outcome, t.steps, t.denied, some error, false, false⟩

/-- Write ahead, if the run is durable: `begin_step(..).ok()`. -/
def beginIntent (durable : Option (String × Nat)) (idx : Nat) (inputHash : String) : RunnerM (Option StepIntent) :=
  match durable with
  | none => return none
  | some (runId, _) => do
    match ← ask (.beginStep runId idx inputHash) with
    | .ok intent => return some intent
    | .error _ => return none

/-- Journal an outcome if there is an intent to complete: `let _ = complete_step(..)`. -/
def journalOutcome (intent : Option StepIntent) (outcome : AttemptOutcome) (output : Option String) : RunnerM Unit :=
  match intent with
  | none => return ()
  | some i => do
    let _ ← ask (.completeStep i outcome output)
    return ()

/-- One call of an attempt, past the skipped ones: the deadline, the write-ahead intent, the call, and its
    journaling. `.error` is a `return` from the attempt. -/
def attemptStep (H : Host) (policy : AutonomousPolicy) (durable : Option (String × Nat)) (deadlineMs idx : Nat)
    (call : ScheduledToolCall) (t : Tally) : RunnerM (Except AttemptResult Tally) := do
  let nowMs : Nat ← ask (.now (.deadline deadlineMs))
  if deadlineMs ≤ nowMs then
    return .error (stopped t .timedOut
      ("exceeded max_duration_secs (" ++ toString policy.maxDurationSecs ++ ")"))
  else
    let intent ← beginIntent durable idx (call.inputHash H)
    match ← ask (.callTool (durable.map Prod.fst) idx call) with
    | .ok text =>
      let t' : Tally := ⟨t.steps + 1, min (t.outputBytes + text.utf8ByteSize) u64Max, t.denied⟩
      journalOutcome intent (.executed true) (some text)
      if policy.maxOutputBytes < t'.outputBytes then
        return .error (stopped t' .killed
          ("exceeded max_output_bytes (" ++ toString policy.maxOutputBytes ++ ")"))
      else if policy.maxSteps ≤ t'.steps then
        return .error (stopped t' .killed ("exceeded max_steps (" ++ toString policy.maxSteps ++ ")"))
      else
        return .ok t'
    | .error failure =>
      let denied := if failure.deniedFor.isSome then pushNew t.denied call.tool else t.denied
      journalOutcome intent (failureOutcome failure) none
      return .error ⟨.failed, t.steps, denied, some failure.message, failure.uncertain, failure.staleLease⟩

/-- The call loop. Steps before `start` were completed by an earlier invocation: counted, not executed. -/
def attemptLoop (H : Host) (policy : AutonomousPolicy) (durable : Option (String × Nat)) (deadlineMs : Nat) :
    (idx : Nat) → List ScheduledToolCall → Tally → RunnerM AttemptResult
  | _, [], t => return ⟨.completed, t.steps, t.denied, none, false, false⟩
  | idx, call :: rest, t =>
    if idx < (durable.map Prod.snd).getD 0 then
      attemptLoop H policy durable deadlineMs (idx + 1) rest { t with steps := t.steps + 1 }
    else do
      match ← attemptStep H policy durable deadlineMs idx call t with
      | .error result => return result
      | .ok t' => attemptLoop H policy durable deadlineMs (idx + 1) rest t'

/-- The deadline of an attempt started at `startedMs`, with the source's saturating arithmetic. -/
def deadlineOf (policy : AutonomousPolicy) (startedMs : Nat) : Nat :=
  min (startedMs + min (policy.maxDurationSecs * 1000) u64Max) u64Max

def runAttempt (H : Host) (policy : AutonomousPolicy) (calls : List ScheduledToolCall)
    (durable : Option (String × Nat)) : RunnerM AttemptResult := do
  let startedMs : Nat ← ask (.now .attempt)
  if (durable.map Prod.snd).getD 0 = u64Max then
    return ⟨.needsReview, 0, [], some "durable run has an ambiguous step; human review required", true, false⟩
  else
    attemptLoop H policy durable (deadlineOf policy startedMs) 0 calls ⟨0, 0, []⟩

/-! ## The trigger -/

/-- Only transient failures retry. -/
@[simp] def AttemptResult.retryable (r : AttemptResult) : Bool :=
  (r.outcome = .failed || r.outcome = .timedOut) && !r.uncertain && !r.staleLease

/-- The retry loop, by the retries left; every attempt starts at the same step. -/
def attempts (H : Host) (spec : ScheduleSpec) (durable : Option (String × Nat)) :
    (left index : Nat) → List String → RunnerM (AttemptResult × List String)
  | left, index, denied => do
    let attempt ← runAttempt H spec.policy spec.calls durable
    let denied' := attempt.denied.foldl pushNew denied
    match left with
    | 0 => return (attempt, denied')
    | left + 1 =>
      if !attempt.retryable then
        return (attempt, denied')
      else
        let _ ← ask (.sleep (retryDelayForAttempt index))
        attempts H spec durable left (index + 1) denied'

/-- Move a run from every state it may be in to a terminal one. -/
def settle (runId : String) (target : RunState) : RunnerM Unit := do
  let _ ← ask (.transition runId .executingTools target)
  let _ ← ask (.transition runId .queued target)
  let _ ← ask (.transition runId .awaitingModel target)
  let _ ← ask (.transition runId .awaitingApproval target)
  let _ ← ask (.transition runId .paused target)
  return ()

/-- Completed runs go to DONE, uncertain ones to review, the others to FAILED. -/
def settleFor (result : AttemptResult) (runId : String) : RunnerM Unit :=
  if result.outcome = .completed then settle runId .done
  else if result.uncertain then do
    let _ ← ask (.markNeedsReview runId)
    return ()
  else settle runId .failed

/-- Mark the durable run terminal (or for review) and release its lease. -/
def closeRun (durable : Option (String × Nat)) (result : AttemptResult) : RunnerM Unit :=
  match durable with
  | none => return ()
  | some (runId, _) => do
    settleFor result runId
    let _ ← ask (.releaseRun runId)
    return ()

/-- The operations that close a run. -/
def Op.Closes : Op → Prop
  | .transition .. | .markNeedsReview _ | .releaseRun _ => True
  | _ => False

theorem settle_makes : (settle runId target).Makes Op.Closes :=
  ⟨trivial, fun _ => ⟨trivial, fun _ => ⟨trivial, fun _ => ⟨trivial, fun _ => ⟨trivial, fun _ => trivial⟩⟩⟩⟩⟩

theorem closeRun_makes (durable : Option (String × Nat)) (result : AttemptResult) :
    (closeRun durable result).Makes Op.Closes := by
  unfold closeRun
  split
  · trivial
  · refine Prog.Makes.bind ?_ fun _ => ⟨trivial, fun _ => trivial⟩
    unfold settleFor
    split
    · exact settle_makes
    · split
      · exact ⟨trivial, fun _ => trivial⟩
      · exact settle_makes

/-- The outcome was computed but its audit record could not be appended. -/
structure RunAuditError where
  record : RunRecord
  source : String
deriving DecidableEq, Repr

/-- What `run_trigger` returns. -/
abbrev TriggerResult := Except RunAuditError RunRecord

/-- The record a trigger ends with, whether or not it could be appended. -/
def recordOf : TriggerResult → RunRecord
  | .ok record => record
  | .error e => e.record

def audit (record : RunRecord) : RunnerM TriggerResult := do
  match ← ask (.appendRecord record) with
  | .ok _ => return .ok record
  | .error source => return .error ⟨record, source⟩

section

variable (H : Host) (cfg : RunnerConfig) (spec : ScheduleSpec)

/-- The body of `run_trigger` while the slot is held and the executor is autonomous. -/
def fire (triggeredAtMs : Nat) : RunnerM TriggerResult := do
  let durable ← durableCtx cfg spec triggeredAtMs
  let (result, denied) ← attempts H spec durable spec.policy.maxRetries 0 []
  let deniedTools := (denied.insertionSort (· ≤ ·)).dedup
  closeRun durable result
  match ← ask .fenceCurrent with
  | some false =>
    return .ok ⟨spec.id, spec.sessionId, triggeredAtMs, .failed, result.steps, deniedTools,
      some ("stale lease: lost the lease mid-run; completion not recorded" ++
        (result.error.map fun e => "; last attempt error: " ++ e).getD "")⟩
  | _ =>
    audit ⟨spec.id, spec.sessionId, triggeredAtMs, result.outcome, result.steps, deniedTools, result.error⟩

/-- `run_trigger`. The guards dropped at its end restore the autonomous flag, then free the slot. -/
def runTrigger : RunnerM TriggerResult := do
  let triggeredAtMs : Nat ← ask (.now .triggered)
  let refuse := fun (outcome : RunOutcome) (error : Option String) =>
    audit ⟨spec.id, spec.sessionId, triggeredAtMs, outcome, 0, [], error⟩
  match spec.validate with
  | .error e => refuse .failed (some ("invalid schedule: " ++ e.display))
  | .ok () =>
    if !spec.enabled then
      refuse .failed (some "schedule is paused")
    else if cfg.durableRequired && !cfg.hasRunsDb then
      refuse .failed (some ("durable runs unavailable: refusing to fire without journal " ++
        "(explicit opt-out required: allow_unjournaled / --no-durable)"))
    else do
      if !(← ask (.tryBegin spec.id)) then
        refuse .skippedOverlap none
      else
        let previous ← ask .isAutonomous
        ask (.setAutonomous true)
        ask (.setActor ("scheduled:" ++ spec.id))
        let result ← fire H cfg spec triggeredAtMs
        ask (.setAutonomous previous)
        ask (.endRun spec.id)
        return result

end

end Supercli
