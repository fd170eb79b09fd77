import Supercli.Lib.VersionedLog
import Supercli.Runs.Journal

/-!
# `Runs.RunsDb` — the durable-runs store, statement by statement

Every method of `RunsDb` is the sequence of SQL statements the source runs, in the monad `RunsM`. A
statement may fail (`Conn.faults` says which ones do); the statements before it have then taken effect,
because the store uses no transactions. `unwrap_or`, `.ok()` and `let _ =` in the source are `tryCatch`
here.

`Store.synced` counts the journal rows known to be on stable storage: `fsync_db` moves it to the end of the
table, and nothing else does.
-/

namespace Supercli

/-- `runs.db` and `schedule-leases.db`. -/
structure Store where
  runs : List Run
  steps : List Step
  synced : Nat
  leases : LeaseTable

namespace Store

variable (db : Store) (runId : String)

/-- The journal rows of one run, oldest first. -/
def journal : List Step := db.steps.filter fun r => r.runId = runId

/-- The latest row of `(run_id, step_no)`. -/
def latest (stepNo : Nat) : Option Step :=
  VersionedLog.latest Step.stepNo Step.attempt (db.journal runId) stepNo

/-- The outcome of the latest row of `(run_id, step_no)`. -/
def outcomeOf (stepNo : Nat) : Option StepOutcome :=
  (db.latest runId stepNo).bind Step.outcome

/-- `SELECT … FROM runs WHERE id = ?1`. -/
def run? : Option Run := db.runs.find? fun r => r.id == runId

/-- `UPDATE runs SET … WHERE id = ?1 AND <cond>`: changed rows, and the store afterwards. -/
def updateRun (cond : Run → Bool) (set : Run → Run) : Nat × Store :=
  (db.runs.countP fun r => r.id == runId && cond r,
    { db with runs := db.runs.map fun r => if r.id == runId && cond r then set r else r })

end Store

/-- What one method call sees: the store, the database clock, the file system that probes read, and the
    statements that fail, in order (past the end of the list none does). -/
structure Conn where
  db : Store
  now : Int
  files : Files
  faults : List Bool

/-- A method of `RunsDb`. -/
abbrev RunsM := EStateM RunsError Conn

/-- One SQL statement. -/
def statement {α : Type} (f : Store → Int → Except RunsError (α × Store)) : RunsM α := fun c =>
  match c.faults with
  | true :: rest => .error (.sql "statement failed") { c with faults := rest }
  | _ =>
    match f c.db c.now with
    | .ok (a, db) => .ok a { c with db := db, faults := c.faults.tail }
    | .error e => .error e { c with faults := c.faults.tail }

namespace RunsDb

def getRun (runId : String) : RunsM Run :=
  statement fun db _ =>
    match db.run? runId with
    | some run => .ok (run, db)
    | none => .error (.notFound runId)

/-- `create_run`, with the UUID it draws. -/
def createRun (uuid : String) (parent : Option String) (plan : String) (budgets : Budgets) : RunsM String :=
  statement fun db now =>
    let id := "run_" ++ uuid
    if (db.run? id).isSome then
      .error (.sql "UNIQUE constraint failed: runs.id")
    else
      .ok (id, { db with runs := db.runs ++
        [⟨id, parent, .queued, plan, budgets, none, 0, 0, now.toNat, now.toNat⟩] })

/-- `SELECT COALESCE(MAX(attempt), -1) + 1 …`, a failed read counting as 0. -/
def nextAttempt (runId : String) (stepNo : Nat) : RunsM Nat :=
  tryCatch
    (statement fun db _ =>
      .ok (VersionedLog.nextVersion Step.stepNo Step.attempt (db.journal runId) stepNo, db))
    fun _ => pure 0

/-- `INSERT INTO run_steps`, under the primary key `(run_id, step_no, attempt)`. -/
def insertStep (row : Int → Step) : RunsM Unit :=
  statement fun db now =>
    let r := row now
    if VersionedLog.occupied Step.stepNo Step.attempt (db.journal r.runId) r.stepNo r.attempt then
      .error (.sql "UNIQUE constraint failed: run_steps.run_id, run_steps.step_no, run_steps.attempt")
    else
      .ok ((), { db with steps := db.steps ++ [r] })

/-- `fsync_db`: checkpoint the write-ahead log into the database file. -/
def fsyncDb : RunsM Unit := statement fun db _ => .ok ((), { db with synced := db.steps.length })

section

variable (runId : String)

/-- `UPDATE runs SET updated_at_ms = … WHERE id = ?1`. -/
def touchRun : RunsM Unit :=
  statement fun db now =>
    .ok ((), (db.updateRun runId (fun _ => true) fun r => { r with updatedAtMs := now.toNat }).2)

/-- `transition`: the conditional `UPDATE … WHERE state = <from>`. -/
def transition (source target : RunState) : RunsM Bool :=
  statement fun db now =>
    let (changed, db') := db.updateRun runId (fun r => r.state = source)
      fun r => { r with state := target, updatedAtMs := now.toNat }
    .ok (changed == 1, db')

/-- `mark_needs_review`: from any state but DONE, FAILED and NEEDS_REVIEW. -/
def markNeedsReview : RunsM Bool :=
  statement fun db now =>
    let (changed, db') := db.updateRun runId
      (fun r => r.state ≠ .done ∧ r.state ≠ .failed ∧ r.state ≠ .needsReview)
      fun r => { r with state := .needsReview, updatedAtMs := now.toNat }
    .ok (changed == 1, db')

section

variable (stepNo : Nat) (kind : StepKind) (inputHash : String)

/-- `begin_step_with_hint`: write the intent, make it durable, and only then return it. -/
def beginStepWithHint (hint : Option String) : RunsM StepIntent := do
  let attempt ← nextAttempt runId stepNo
  insertStep fun now => ⟨runId, stepNo, kind, inputHash, none, some .started, attempt, now, hint⟩
  fsyncDb
  touchRun runId
  return ⟨runId, stepNo, attempt, kind, inputHash, hint⟩

def beginStep : RunsM StepIntent :=
  beginStepWithHint runId stepNo kind inputHash none

end

end

/-- The latest row of every step among `rows`, by step number. -/
def latestPerStep (rows : List Step) : List Step := VersionedLog.latestAll Step.stepNo Step.attempt rows

/-- `max_tool_calls`: calls with a decided outcome so far. -/
def toolCallsUsed (db : Store) (runId : String) : Nat :=
  (latestPerStep ((db.journal runId).filter fun r => r.kind.countsAsToolCall)).countP fun r =>
    r.outcome = some .executedOk ∨ r.outcome = some .executedFailed ∨ r.outcome = some .ambiguous

/-- `max_steps`: steps whose latest row has a decided outcome. -/
def stepsUsed (db : Store) (runId : String) : Nat :=
  (latestPerStep (db.journal runId)).countP fun r => r.outcome ≠ none ∧ r.outcome ≠ some .started

/-- One budget of `check_budgets`: when what would be used exceeds the limit, the run goes to FAILED and
    the step is not journaled. -/
def enforceBudget (run : Run) (budget : String) (limit : Option Nat) (used : Store → Int → Nat) : RunsM Unit := do
  match limit with
  | none => return ()
  | some max =>
    let n ← statement fun db now => .ok (used db now, db)
    if n > max then
      let _ ← tryCatch (transition run.id run.state .failed) fun _ => pure false
      throw (.budgetExceeded run.id budget)

/-- The three limits of `check_budgets`, in its order. -/
def checkLimits (runId : String) (run : Run) (countsAsCall : Bool) : RunsM Unit := do
  if countsAsCall then
    enforceBudget run "max_tool_calls" run.budgets.maxToolCalls fun db _ => toolCallsUsed db runId + 1
  enforceBudget run "max_steps" run.budgets.maxSteps fun db _ => stepsUsed db runId + 1
  enforceBudget run "max_ms" run.budgets.maxMs fun _ now => (now - run.createdAtMs).toNat

/-- `check_budgets`, run before a decided outcome is journaled. -/
def checkBudgets (runId : String) (kind : StepKind) (outcome : StepOutcome) : RunsM Unit := do
  let run ← getRun runId
  checkLimits runId run (kind.countsAsToolCall &&
    (outcome = .executedOk || outcome = .executedFailed || outcome = .ambiguous))

/-- `complete_step`: append the outcome as attempt + 1 of the intent. -/
def completeStep (intent : StepIntent) (outcome : AttemptOutcome) (output : Option String) : RunsM Unit := do
  checkBudgets intent.runId intent.kind (outcomeStr outcome)
  insertStep fun now => ⟨intent.runId, intent.stepNo, intent.kind, intent.inputHash, output,
    some (outcomeStr outcome), intent.attempt + 1, now, intent.reconcileHint⟩
  fsyncDb
  touchRun intent.runId

/-- `list_runs(None)`: newest first. -/
def listRuns : RunsM (List Run) :=
  statement fun db _ => .ok (db.runs.insertionSort fun a b => b.createdAtMs ≤ a.createdAtMs, db)

def latestSteps (runId : String) : RunsM (List Step) :=
  statement fun db _ => .ok (latestPerStep (db.journal runId), db)

/-- What `claim_run` won. -/
structure RunClaim where
  generation : Nat
  tookOver : Bool
  fence : LeaseFence
deriving DecidableEq, Repr

/-- `claim_run` by the handle `w`: take the run's lease and mirror it into the `runs` row. -/
def claimRun (w : Worker) (runId : String) : RunsM (Option RunClaim) := do
  let _ ← getRun runId
  let claimed ← statement fun db now =>
    match ScheduleLeases.claim w runId now db.leases with
    | (.ok info, t) => .ok (info, { db with leases := t })
    | (.error (.sql message), _) => .error (.lease ("lease database: " ++ message))
  match claimed with
  | none => return none
  | some info =>
    let expiresAt ← statement fun db _ =>
      .ok (((db.leases (w.tenant, runId)).map fun r => (max r.expiresAtMs 0).toNat).getD 0, db)
    statement fun db now => .ok ((), (db.updateRun runId (fun _ => true) fun r =>
      { r with leaseOwner := some w.owner, leaseGeneration := info.generation, leaseExpiresAt := expiresAt,
               updatedAtMs := now.toNat }).2)
    return some ⟨info.generation, info.tookOver.isSome, ⟨w, runId, info.generation⟩⟩

def releaseRun (w : Worker) (runId : String) : RunsM Unit :=
  statement fun db _ => .ok ((), { db with leases := ScheduleLeases.release w runId db.leases })

end RunsDb

/-! ## What the methods do when no statement fails

`Appended` is the effect of journaling one row, `SameJournal` of everything that leaves the journal alone.
Neither says what happened to states, timestamps or leases: `Run.fixed` is the part of a run row that no
method rewrites. -/

/-- The columns of a run that are written once, by `create_run`. -/
def Run.fixed (r : Run) : String × String × Budgets × Nat := (r.id, r.plan, r.budgets, r.createdAtMs)

/-- The journal is untouched, and no run appeared or vanished. -/
structure Store.SameJournal (db db' : Store) : Prop where
  steps : db'.steps = db.steps
  synced : db'.synced = db.synced
  runs : db'.runs.map Run.fixed = db.runs.map Run.fixed

/-- Exactly `row` was journaled, durably. -/
structure Store.Appended (db db' : Store) (row : Step) : Prop where
  steps : db'.steps = db.steps ++ [row]
  synced : db'.synced = db'.steps.length
  runs : db'.runs.map Run.fixed = db.runs.map Run.fixed

namespace Store

variable {db db' db'' : Store} {row : Step} {runId : String} {k : Nat}

theorem SameJournal.refl : SameJournal db db := ⟨rfl, rfl, rfl⟩

theorem SameJournal.trans (h : SameJournal db db') (h' : SameJournal db' db'') : SameJournal db db'' :=
  ⟨h'.steps.trans h.steps, h'.synced.trans h.synced, h'.runs.trans h.runs⟩

/-- An `UPDATE runs` that keeps the fixed columns keeps the journal. -/
theorem sameJournal_updateRun (db : Store) (runId : String) (cond : Run → Bool) (set : Run → Run)
    (hset : ∀ r, (set r).fixed = r.fixed) : SameJournal db (db.updateRun runId cond set).2 := by
  refine ⟨rfl, rfl, ?_⟩
  simp only [updateRun, List.map_map]
  refine List.map_congr_left ?_
  intro r _
  simp only [Function.comp]
  split
  · exact hset r
  · rfl

theorem latest_of_steps (h : db'.steps = db.steps) : db'.latest runId k = db.latest runId k := by
  simp [latest, journal, h]

theorem journal_append (h : db'.steps = db.steps ++ [row]) :
    db'.journal runId = if row.runId = runId then db.journal runId ++ [row] else db.journal runId := by
  simp only [journal, h, List.filter_append, List.filter_cons, List.filter_nil, decide_eq_true_eq]
  split <;> simp

/-- A journaled row leaves every other step's latest row alone. -/
theorem Appended.latest_of_ne (h : Appended db db' row) (hne : ¬ (row.runId = runId ∧ row.stepNo = k)) :
    db'.latest runId k = db.latest runId k := by
  simp only [latest, journal_append h.steps]
  split
  · rename_i hr
    exact VersionedLog.latest_append_of_ne fun hk => hne ⟨hr, hk⟩
  · rfl

open VersionedLog

/-- A row journaled at or above the next attempt is its step's latest. -/
theorem Appended.latest_self (h : Appended db db' row)
    (hv : nextVersion Step.stepNo Step.attempt (db.journal row.runId) row.stepNo ≤ row.attempt) :
    db'.latest row.runId row.stepNo = some row := by
  simp only [latest, journal_append h.steps, if_true]
  exact latest_append_self rfl hv

theorem latest_key (h : db.latest runId k = some row) : row.runId = runId ∧ row.stepNo = k := by
  have hm := mem_of_latest h
  simp only [journal, List.mem_filter, decide_eq_true_eq] at hm
  exact ⟨hm.2, key_of_latest h⟩

theorem latest_mem (h : db.latest runId k = some row) : row ∈ db.steps := by
  have hm := mem_of_latest h
  simp only [journal, List.mem_filter] at hm
  exact hm.1

/-- The fixed columns of a run survive whatever keeps the fixed columns of the table. -/
theorem run?_fixed (h : db'.runs.map Run.fixed = db.runs.map Run.fixed) (runId : String) :
    (db'.run? runId).map Run.fixed = (db.run? runId).map Run.fixed := by
  have key : ∀ rs : List Run, (rs.find? fun r => r.id == runId).map Run.fixed =
      (rs.map Run.fixed).find? fun t => t.1 == runId := by
    intro rs
    rw [List.find?_map]
    rfl
  rw [run?, run?, key, key, h]

end Store

namespace RunsDb

open Store VersionedLog

variable {db : Store} {now : Int} {files : Files} {α : Type}

theorem statement_quiet {f : Store → Int → Except RunsError (α × Store)} : statement f ⟨db, now, files, []⟩ =
      match f db now with
      | .ok (a, db') => .ok a ⟨db', now, files, []⟩
      | .error e => .error e ⟨db, now, files, []⟩ := rfl

/-- The store after a row was inserted, checkpointed, and its run's timestamp moved. -/
theorem appended_touch (db : Store) (row : Step) (now : Int) (runId : String) :
    Appended db (({ db with steps := db.steps ++ [row], synced := (db.steps ++ [row]).length } :
      Store).updateRun runId (fun _ => true) fun r => { r with updatedAtMs := now.toNat }).2 row := by
  have h := sameJournal_updateRun { db with steps := db.steps ++ [row], synced := (db.steps ++ [row]).length }
    runId (fun _ => true) (fun r => { r with updatedAtMs := now.toNat }) (fun _ => rfl)
  exact ⟨h.steps, by rw [h.synced, h.steps], h.runs⟩

/-- **`begin_step` writes ahead**: the intent is the latest row of its step, and durable. -/
theorem beginStepWithHint_spec (db : Store) (now : Int) (files : Files) (runId : String) (k : Nat)
    (kind : StepKind) (hash : String) (hint : Option String) :
    let attempt := nextVersion Step.stepNo Step.attempt (db.journal runId) k
    ∃ db', beginStepWithHint runId k kind hash hint ⟨db, now, files, []⟩ =
        .ok ⟨runId, k, attempt, kind, hash, hint⟩ ⟨db', now, files, []⟩ ∧
      Appended db db' ⟨runId, k, kind, hash, none, some .started, attempt, now, hint⟩ := by
  intro attempt
  -- the attempt number was read from the journal a statement ago, so it is free
  have hfree : occupied Step.stepNo Step.attempt (db.journal runId) k attempt = false := not_occupied le_rfl
  let row : Step := ⟨runId, k, kind, hash, none, some .started, attempt, now, hint⟩
  let db₁ : Store := { db with steps := db.steps ++ [row], synced := (db.steps ++ [row]).length }
  refine ⟨(db₁.updateRun runId (fun _ => true) fun r => { r with updatedAtMs := now.toNat }).2, ?_, ?_⟩
  · simp [beginStepWithHint, nextAttempt, insertStep, fsyncDb, touchRun, statement, bind, EStateM.bind,
      pure, EStateM.pure, tryCatch, tryCatchThe, MonadExceptOf.tryCatch, EStateM.tryCatch, hfree, attempt, db₁, row]
  · exact appended_touch db row now runId

/-- A check either lets the caller go on in the same store, or refuses and leaves the journal alone. -/
def Gate (m : RunsM Unit) (c : Conn) : Prop :=
  m c = .ok () c ∨ ∃ e db', m c = .error e { c with db := db' } ∧ SameJournal c.db db'

theorem Gate.seq (h : Gate m c) (h' : Gate m' c) : Gate (m >>= fun _ => m') c := by
  rcases h with h | ⟨e, db', h, hs⟩
  · rcases h' with h' | ⟨e, db', h', hs⟩
    · exact .inl (by simp [bind, EStateM.bind, h, h'])
    · exact .inr ⟨e, db', by simp [bind, EStateM.bind, h, h'], hs⟩
  · exact .inr ⟨e, db', by simp [bind, EStateM.bind, h], hs⟩

/-- A budget that is not set, or not exceeded, lets the step through. -/
theorem enforceBudget_ok (h : ∀ max, limit = some max → used db now ≤ max) :
    enforceBudget run budget limit used ⟨db, now, files, []⟩ = .ok () ⟨db, now, files, []⟩ := by
  cases hl : limit with
  | none => rfl
  | some max =>
    have : ¬ used db now > max := by have := h max hl; omega
    simp [enforceBudget, statement_quiet, bind, EStateM.bind, pure, EStateM.pure, this]

theorem gate_enforceBudget (run : Run) (budget : String) (limit : Option Nat) (used : Store → Int → Nat) :
    Gate (enforceBudget run budget limit used) ⟨db, now, files, []⟩ := by
  cases hl : limit with
  | none => exact .inl rfl
  | some max =>
    by_cases hu : used db now > max
    · -- the run is failed, which no journal row shows
      refine .inr ⟨.budgetExceeded run.id budget, _, ?_, sameJournal_updateRun db run.id
        (fun r => r.state = run.state) (fun r => { r with state := .failed, updatedAtMs := now.toNat })
        (fun _ => rfl)⟩
      simp [enforceBudget, statement_quiet, bind, EStateM.bind, hu, transition, tryCatch, tryCatchThe,
        MonadExceptOf.tryCatch, EStateM.tryCatch, throw, throwThe, MonadExceptOf.throw, EStateM.throw]
    · left
      simp [enforceBudget, statement_quiet, bind, EStateM.bind, pure, EStateM.pure, hu]

/-- What `check_budgets` asks for in order to let a step through. -/
structure BudgetLeft (db : Store) (now : Int) (runId : String) (run : Run) : Prop where
  found : db.run? runId = some run
  toolCalls : ∀ max, run.budgets.maxToolCalls = some max → toolCallsUsed db runId + 1 ≤ max
  steps : ∀ max, run.budgets.maxSteps = some max → stepsUsed db runId + 1 ≤ max
  ms : ∀ max, run.budgets.maxMs = some max → (now - run.createdAtMs).toNat ≤ max

theorem checkBudgets_ok (h : BudgetLeft db now runId run) :
    checkBudgets runId kind o ⟨db, now, files, []⟩ = .ok () ⟨db, now, files, []⟩ := by
  have h₁ : enforceBudget run "max_tool_calls" run.budgets.maxToolCalls
      (fun db _ => toolCallsUsed db runId + 1) ⟨db, now, files, []⟩ = .ok () ⟨db, now, files, []⟩ :=
    enforceBudget_ok h.toolCalls
  have h₂ : enforceBudget run "max_steps" run.budgets.maxSteps
      (fun db _ => stepsUsed db runId + 1) ⟨db, now, files, []⟩ = .ok () ⟨db, now, files, []⟩ :=
    enforceBudget_ok h.steps
  have h₃ : enforceBudget run "max_ms" run.budgets.maxMs
      (fun _ now => (now - run.createdAtMs).toNat) ⟨db, now, files, []⟩ = .ok () ⟨db, now, files, []⟩ :=
    enforceBudget_ok h.ms
  simp only [checkBudgets, getRun, statement_quiet, checkLimits, bind, EStateM.bind, h.found]
  split <;> simp only [EStateM.bind, h₁, h₂, h₃]

variable (runId : String)

theorem gate_checkLimits : Gate (checkLimits runId run countsAsCall) ⟨db, now, files, []⟩ := by
  cases countsAsCall with
  | true =>
    exact (gate_enforceBudget run _ _ _).seq ((gate_enforceBudget run _ _ _).seq (gate_enforceBudget run _ _ _))
  | false => exact (gate_enforceBudget run _ _ _).seq (gate_enforceBudget run _ _ _)

theorem gate_checkBudgets : Gate (checkBudgets runId kind o) ⟨db, now, files, []⟩ := by
  cases hr : db.run? runId with
  | none =>
    refine .inr ⟨.notFound runId, db, ?_, .refl⟩
    simp [checkBudgets, getRun, statement_quiet, bind, EStateM.bind, hr]
  | some run =>
    have unfolded : checkBudgets runId kind o ⟨db, now, files, []⟩ = checkLimits runId run (kind.countsAsToolCall &&
          (o = .executedOk || o = .executedFailed || o = .ambiguous)) ⟨db, now, files, []⟩ := by
      simp only [checkBudgets, getRun, statement_quiet, bind, EStateM.bind, hr]
    unfold Gate
    rw [unfolded]
    exact gate_checkLimits runId

/-- The row `complete_step` appends. -/
def outcomeRow (intent : StepIntent) (outcome : AttemptOutcome) (output : Option String) (now : Int) : Step :=
  ⟨intent.runId, intent.stepNo, intent.kind, intent.inputHash, output, some (outcomeStr outcome),
    intent.attempt + 1, now, intent.reconcileHint⟩

/-- `complete_step` on an intent that is still the latest row of its step, within budget. -/
theorem completeStep_ok (files : Files) (h : BudgetLeft db now intent.runId run)
    (hv : nextVersion Step.stepNo Step.attempt (db.journal intent.runId) intent.stepNo ≤
      intent.attempt + 1) (outcome : AttemptOutcome) (output : Option String) :
    ∃ db', completeStep intent outcome output ⟨db, now, files, []⟩ = .ok () ⟨db', now, files, []⟩ ∧
      Appended db db' (outcomeRow intent outcome output now) := by
  refine ⟨_, ?_, appended_touch db (outcomeRow intent outcome output now) now intent.runId⟩
  simp [completeStep, insertStep, fsyncDb, touchRun, statement_quiet, bind, EStateM.bind,
    checkBudgets_ok h, not_occupied hv, outcomeRow]

/-- `complete_step` journals its row or leaves the journal alone. -/
theorem completeStep_cases (db : Store) (now : Int) (files : Files) (intent : StepIntent) (outcome : AttemptOutcome)
    (output : Option String) :
    (∃ db', completeStep intent outcome output ⟨db, now, files, []⟩ = .ok () ⟨db', now, files, []⟩ ∧
      Appended db db' (outcomeRow intent outcome output now)) ∨
    (∃ e db', completeStep intent outcome output ⟨db, now, files, []⟩ = .error e ⟨db', now, files, []⟩ ∧
      SameJournal db db') := by
  have hgate : Gate (checkBudgets intent.runId intent.kind (outcomeStr outcome)) ⟨db, now, files, []⟩ :=
    gate_checkBudgets _
  rcases hgate with hb | ⟨e, db', hb, hs⟩
  · cases hocc : occupied Step.stepNo Step.attempt (db.journal intent.runId) intent.stepNo
        (intent.attempt + 1) with
    | false =>
      refine .inl ⟨_, ?_, appended_touch db (outcomeRow intent outcome output now) now intent.runId⟩
      simp [completeStep, insertStep, fsyncDb, touchRun, statement_quiet, bind, EStateM.bind, hb, hocc, outcomeRow]
    | true =>
      -- another row took the attempt number
      refine .inr ⟨.sql "UNIQUE constraint failed: run_steps.run_id, run_steps.step_no, run_steps.attempt",
        db, ?_, .refl⟩
      simp [completeStep, insertStep, statement_quiet, bind, EStateM.bind, hb, hocc]
  · exact .inr ⟨e, db', by simp [completeStep, bind, EStateM.bind, hb], hs⟩

/-! ## Methods that leave the journal alone, whatever fails -/

/-- The store a method leaves, returned or failed. -/
def storeAfter {α : Type} (m : RunsM α) (c : Conn) : Store :=
  match m c with
  | .ok _ c' | .error _ c' => c'.db

/-- What holds of the store before the method holds after it, whatever fails. -/
def Stable (I : Store → Prop) (m : RunsM α) : Prop := ∀ c, I c.db → I (storeAfter m c)

section Stable

variable {β : Type} {I : Store → Prop} {f : Store → Int → Except RunsError (α × Store)} {m : RunsM α}

theorem stable_statement (hf : ∀ db now a db', I db → f db now = .ok (a, db') → I db') : Stable I (statement f) := by
  intro c hI
  unfold storeAfter statement
  -- a failing statement leaves the store as it was, whether it was meant to fail or made to
  cases hres : f c.db c.now with
  | error =>
    split <;> rename_i h <;> split at h <;> cases h <;> exact hI
  | ok r =>
    obtain ⟨a, db'⟩ := r
    have hI' : I db' := hf _ _ _ _ hI hres
    split <;> rename_i h <;> split at h <;> cases h <;> first | exact hI | exact hI'

theorem stable_pure : Stable I (pure a : RunsM α) := fun _ hI => hI

theorem Stable.bind {f : α → RunsM β} (hm : Stable I m) (hf : ∀ a, Stable I (f a)) : Stable I (m >>= f) := by
  intro c hI
  have h₁ := hm c hI
  unfold storeAfter at h₁ ⊢
  simp only [Bind.bind, EStateM.bind]
  cases hres : m c with
  | error => simpa [hres] using h₁
  | ok a c' =>
    rw [hres] at h₁
    exact hf a c' h₁

/-- The method touches no step and no fixed column of a run. -/
def Keeps {α : Type} (m : RunsM α) : Prop := ∀ c, SameJournal c.db (storeAfter m c)

theorem keeps_iff_stable : Keeps m ↔ ∀ db, Stable (SameJournal db) m :=
  ⟨fun h _ c hc => hc.trans (h c), fun h c => h c.db c .refl⟩

theorem keeps_statement (hf : ∀ db now a db', f db now = .ok (a, db') → SameJournal db db') : Keeps (statement f) :=
  keeps_iff_stable.mpr fun _ => stable_statement fun db now a db' hI h => hI.trans (hf db now a db' h)

theorem keeps_pure : Keeps (pure a : RunsM α) := fun _ => .refl

theorem Keeps.bind {f : α → RunsM β} (hm : Keeps m) (hf : ∀ a, Keeps (f a)) : Keeps (m >>= f) :=
  keeps_iff_stable.mpr fun db => (keeps_iff_stable.mp hm db).bind fun a => keeps_iff_stable.mp (hf a) db

end Stable

theorem keeps_transition : Keeps (transition runId source target) := by
  refine keeps_statement ?_
  intro db now a db' h
  cases h
  exact sameJournal_updateRun _ _ _ _ fun _ => rfl

theorem keeps_markNeedsReview : Keeps (markNeedsReview runId) := by
  refine keeps_statement ?_
  intro db now a db' h
  cases h
  exact sameJournal_updateRun _ _ _ _ fun _ => rfl

theorem keeps_releaseRun {runId : String} : Keeps (releaseRun w runId) :=
  keeps_statement fun _ _ _ _ h => by cases h; exact ⟨rfl, rfl, rfl⟩

theorem keeps_claimRun {runId : String} : Keeps (claimRun w runId) := by
  unfold claimRun
  refine .bind (keeps_statement ?_) fun _ => .bind (keeps_statement ?_) ?_
  · intro db now a db' h
    split at h <;> cases h
    exact .refl
  · intro db now a db' h
    split at h <;> cases h
    exact ⟨rfl, rfl, rfl⟩
  · intro claimed
    cases claimed with
    | none => exact keeps_pure
    | some =>
      refine .bind (keeps_statement ?_) fun expiresAt =>
        .bind (keeps_statement ?_) fun _ => keeps_pure
      · intro db now a db' h
        cases h
        exact .refl
      · intro db now a db' h
        cases h
        exact sameJournal_updateRun _ _ _ _ fun _ => rfl

end RunsDb

end Supercli
