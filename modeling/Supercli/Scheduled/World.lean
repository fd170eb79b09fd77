import Supercli.Lib.Fleet
import Supercli.Runs.Resume
import Supercli.Scheduled.Runner

/-!
# `Scheduled.World` — runners over one `runs.db`

How the runner's operations are answered: database operations run the methods of `RunsDb` on the shared
store, the guard and the executor's flags are the process's own memory, and the clock, the tools, the
fence and every failure come from the environment (`Env`), one value per operation.

The state also keeps what no process can see but every claim is about: a trace of what happened, newest
first, and for each runner the spec it is firing and the durable context it has bound. They are written
here and read only by statements.
-/

namespace Supercli

/-- What the tool executor replied, and whether the request left the process: a result was certainly sent;
    a failure says nothing about it. -/
inductive Reply
  | ok (text : String)
  | err (failure : ToolCallFailure) (sent : Bool)
deriving DecidableEq, Repr

/-- The part of a reply the runner sees. -/
def Reply.result : Reply → Except ToolCallFailure String
  | .ok text => .ok text
  | .err failure _ => .error failure

/-- Did the executor send the call? -/
def Reply.wasSent : Reply → Bool
  | .ok _ => true
  | .err _ sent => sent

/-- What happened, by which runner. `begun` says whether the intent row reached stable storage,
    `journaled` whether an outcome row was written. -/
inductive Event (W : Type)
  | attempt (w : W)
  | lookup (w : W) (ok : Bool)
  | deadline (w : W) (late : Bool)
  | begun (w : W) (runId : String) (idx : Nat) (durable : Bool)
  | called (w : W) (runId : Option String) (idx : Nat) (reply : Reply)
  | journaled (w : W) (runId : String) (idx : Nat) (outcome : AttemptOutcome) (written : Bool)
deriving DecidableEq, Repr

/-- One runner process. `firing` and `ctx` are what statements say about it: the spec of the trigger in
    progress, and its `durable_ctx` once bound. -/
structure RunnerState where
  autonomous : Bool
  actor : Option String
  active : List String
  firing : Option ScheduleSpec
  ctx : Option (String × Nat)
deriving DecidableEq, Repr

/-- A process that has just started. -/
def RunnerState.boot : RunnerState := ⟨false, none, [], none, none⟩

/-- Everything the runners share, and what they each have. -/
structure Shared (W : Type) where
  store : Store
  records : List RunRecord
  runner : W → RunnerState
  trace : List (Event W)

/-- What the environment supplies to one operation: the process clock, the database clock, the file system,
    the failing statements, the UUID drawn, the tool's reply, the fence's reading, and a failure of the audit
    append. -/
structure Env where
  clockMs : Nat
  dbNow : Int
  files : Files
  faults : List Bool
  uuid : String
  reply : Reply
  fence : Option Bool
  auditError : Option String

namespace Shared

variable {W : Type} [DecidableEq W]

/-- Record an event. -/
@[simp] def log (s : Shared W) (e : Event W) : Shared W := { s with trace := e :: s.trace }

/-- Change a runner. -/
@[simp] def setRunner (s : Shared W) (w : W) (f : RunnerState → RunnerState) : Shared W :=
  { s with runner := Function.update s.runner w (f (s.runner w)) }

/-- Run a method of the store. -/
def sql {α : Type} (s : Shared W) (e : Env) (m : RunsM α) : Except RunsError α × Shared W :=
  match m ⟨s.store, e.dbNow, e.files, e.faults⟩ with
  | .ok a c => (.ok a, { s with store := c.db })
  | .error err c => (.error err, { s with store := c.db })

end Shared

/-- Did a call into the store succeed? -/
def succeeded {α : Type} : Except RunsError α → Bool
  | .ok _ => true
  | .error _ => false

variable {W : Type} [DecidableEq W]

/-- The durable context a resume binds. -/
def resumedCtx (runId : String) : Except RunsError ResumePlan → Option (String × Nat)
  | .ok plan => some (runId, startOf plan)
  | .error _ => none

/-- The durable context a creation binds. -/
def createdCtx : Except RunsError String → Option (String × Nat)
  | .ok id => some (id, 0)
  | .error _ => none

/-- How runner `w`, whose store handle is `handle`, is answered. -/
def answer (H : Host) (handle : Worker) (w : W) : (o : Op) → Shared W → Env → o.Ans × Shared W
  | .now .triggered, s, e => (e.clockMs, s)
  | .now .attempt, s, e => (e.clockMs, s.log (.attempt w))
  | .now (.deadline d), s, e => (e.clockMs, s.log (.deadline w (d ≤ e.clockMs)))
  | .sleep _, s, _ => ((), s)
  | .tryBegin id, s, _ =>
    if (s.runner w).active.contains id then (false, s)
    else (true, s.setRunner w fun r => { r with active := id :: r.active })
  | .endRun id, s, _ => ((), s.setRunner w fun r => { r with active := r.active.erase id })
  | .isAutonomous, s, _ => ((s.runner w).autonomous, s)
  | .setAutonomous b, s, _ => ((), s.setRunner w fun r => { r with autonomous := b })
  | .setActor a, s, _ => ((), s.setRunner w fun r => { r with actor := some a })
  | .fenceCurrent, s, e => (e.fence, s)
  | .listRuns, s, e =>
    let r := s.sql e RunsDb.listRuns
    (r.1, r.2.log (.lookup w (succeeded r.1)))
  | .resumeRun runId, s, e =>
    let r := s.sql e (RunsDb.resumeRun H runId)
    (r.1, (r.2.setRunner w fun st => { st with ctx := resumedCtx runId r.1 }).log (.lookup w (succeeded r.1)))
  | .createRun plan budgets, s, e =>
    let r := s.sql e (RunsDb.createRun e.uuid none plan budgets)
    (r.1, (r.2.setRunner w fun st => { st with ctx := createdCtx r.1 }).log (.lookup w (succeeded r.1)))
  | .claimRun runId, s, e => s.sql e (RunsDb.claimRun handle runId)
  | .transition runId source target, s, e => s.sql e (RunsDb.transition runId source target)
  | .markNeedsReview runId, s, e => s.sql e (RunsDb.markNeedsReview runId)
  | .releaseRun runId, s, e => s.sql e (RunsDb.releaseRun handle runId)
  | .beginStep runId idx hash, s, e =>
    let r := s.sql e (RunsDb.beginStep runId idx .tool hash)
    (r.1, r.2.log (.begun w runId idx (s.store.steps.length < min r.2.store.steps.length r.2.store.synced)))
  | .completeStep intent outcome output, s, e =>
    let r := s.sql e (RunsDb.completeStep intent outcome output)
    (r.1, r.2.log (.journaled w intent.runId intent.stepNo outcome
      (s.store.steps.length < r.2.store.steps.length)))
  | .callTool durable idx _, s, e => (e.reply.result, s.log (.called w durable idx e.reply))
  | .appendRecord record, s, e =>
    match e.auditError with
    | some source => (.error source, s)
    | none => (.ok (), { s with records := s.records ++ [record] })

/-- The world of runner `w`. -/
def runnerWorld (H : Host) (handle : Worker) (w : W) : World runnerSig (Shared W) Env :=
  ⟨answer H handle w⟩

/-- Runners that fire triggers. A crash loses the process's memory and nothing else. -/
def runners (H : Host) (cfg : RunnerConfig) (handle : W → Worker) :
    Fleet runnerSig W ScheduleSpec (Shared W) Env TriggerResult where
  world := fun w => runnerWorld H (handle w) w
  launch := fun _ spec => runTrigger H cfg spec
  onStart := fun w spec s =>
    s.setRunner w fun r => { r with firing := some spec, ctx := none }
  onReturn := fun w _ s => s.setRunner w fun r => { r with firing := none, ctx := none }
  onCrash := fun w s => s.setRunner w fun _ => .boot

/-- What happens next to a fleet of runners. -/
abbrev RunnerLabel (W : Type) := Fleet.Label W ScheduleSpec Env

/-- A fleet of runners. -/
abbrev RunnerFleet (W : Type) := Fleet.State runnerSig W (Shared W) TriggerResult

/-- Two empty databases and no runner at work. -/
def emptyShared : Shared W where
  store := ⟨[], [], 0, fun _ => none⟩
  records := []
  runner := fun _ => .boot
  trace := []

/-! ## A small schedule, for concrete runs -/

/-- Fetch, then post. -/
def demoSpec : ScheduleSpec where
  id := "nightly"
  sessionId := "ses_1"
  intervalSecs := 3600
  policy := ⟨600, 10, 1000000, 1⟩
  enabled := true
  calls := [⟨"fetch", .null⟩, ⟨"post", .null⟩]

/-- The digests of the two calls of `demoSpec`; the runner reads no hints. -/
def scheduleHost : Host where
  sha256Hex := fun b =>
    if b = "fetch:null".toUTF8 then "d3484982dbb50b32070cc02b77f9a9dc6d52b2f76fe7398167293bb5bb46bf56"
    else if b = "post:null".toUTF8 then "4e38f0cb5bab4a09c06cc8134243412aaf11cfeb7627edbc6f08c7d2fbba4c97"
    else ""
  hintFromJson := fun _ => none

/-- Nothing fails and no time passes; the UUID is as given. -/
def demoEnv (uuid : String) (reply : Reply) : Env := ⟨0, 1, fun _ => none, [], uuid, reply, none, none⟩

/-- Process `pid`'s handle on the stores, with a lease of one minute. -/
def demoHandle (pid : Nat) : Worker := ⟨"", pid, 0, 60000⟩

end Supercli
