import Supercli.Runs.Resume

/-!
# `Runs.Lifecycle` — the states of a run, and who moves it

The operator's methods (`pause_run`, `cancel_run`, `retry_run`) and what the methods of the store can do to
the state of a run. `Stable` is the invariant rule for methods: it survives any statement failing, since a
failing statement writes nothing. The one invariant the clients use is `Avoids`: no row of the run is in one
of a list of states. Once a run has left a state, only a method that moves runs *into* that state brings it
back.
-/

namespace Supercli

open Store

/-! ## The operator -/

def RunState.asStr : RunState → String
  | .queued => "QUEUED"
  | .awaitingModel => "AWAITING_MODEL"
  | .executingTools => "EXECUTING_TOOLS"
  | .awaitingApproval => "AWAITING_APPROVAL"
  | .paused => "PAUSED"
  | .done => "DONE"
  | .failed => "FAILED"
  | .needsReview => "NEEDS_REVIEW"

namespace RunsDb

section

variable (insertKey : String → String → String → Option String)

/-- `patch_plan`. The JSON reader and writer are outside the repository: `insertKey plan key value` is the
    plan with the key set, or `none` when the plan is not a JSON object. -/
def patchPlan (runId key value : String) : RunsM Unit := do
  let run ← getRun runId
  match insertKey run.plan key value with
  | none => return ()
  | some plan =>
    statement fun db _ => .ok ((), (db.updateRun runId (fun _ => true) fun r => { r with plan := plan }).2)

/-- Move a run out of the state it was read in, and note why in its plan. -/
def moveAndNote (runId : String) (source target : RunState) (key value : String) : RunsM Bool := do
  if ← transition runId source target then
    patchPlan insertKey runId key value
    return true
  else
    return false

/-- `pause_run`: from any state but PAUSED, DONE and FAILED. -/
def pauseRun (runId : String) : RunsM Bool := do
  let run ← getRun runId
  if run.state = .paused || run.state = .done || run.state = .failed then
    return false
  else
    moveAndNote insertKey runId run.state .paused "paused_from" run.state.asStr

/-- `cancel_run`: from any non-terminal state. -/
def cancelRun (runId : String) : RunsM Bool := do
  let run ← getRun runId
  if run.state.isTerminal then
    return false
  else
    moveAndNote insertKey runId run.state .failed "cancelled" "true"

end

/-- `retry_run`: from FAILED or NEEDS_REVIEW back to QUEUED. -/
def retryRun (runId : String) : RunsM Bool := do
  let run ← getRun runId
  if run.state = .failed || run.state = .needsReview then
    transition runId run.state .queued
  else
    return false

/-! ## Invariants of the store -/

section Stable

variable {α β : Type} {I : Store → Prop}

variable {f : Store → Int → Except RunsError (α × Store)} {m : RunsM α}

theorem stable_read (hf : ∀ db now a db', f db now = .ok (a, db') → db' = db) : Stable I (statement f) :=
  stable_statement fun db now a db' hI h => by rwa [hf db now a db' h]

theorem stable_throw : Stable I (throw e : RunsM α) := fun _ hI => hI

theorem stable_get : Stable I (get : RunsM Conn) := fun _ hI => hI

theorem Stable.tryCatch {f : RunsError → RunsM α} (hm : Stable I m) (hf : ∀ e, Stable I (f e)) :
    Stable I (tryCatch m f) := by
  intro c hI
  have h₁ := hm c hI
  unfold storeAfter at h₁ ⊢
  simp only [MonadExcept.tryCatch, tryCatchThe, MonadExceptOf.tryCatch, EStateM.tryCatch]
  cases hres : m c with
  | ok => simpa [hres] using h₁
  | error e c' =>
    rw [hres] at h₁
    exact hf e c' h₁

/-- A successful sequence, taken apart. -/
theorem bind_eq_ok {f : α → RunsM β} (h : (m >>= f) c = .ok b c') : ∃ a c₁, m c = .ok a c₁ ∧ f a c₁ = .ok b c' := by
  simp only [Bind.bind, EStateM.bind] at h
  cases hm : m c with
  | error =>
    rw [hm] at h
    cases h
  | ok a c₁ =>
    rw [hm] at h
    exact ⟨a, c₁, rfl, h⟩

/-- A successful statement has done what it says. -/
theorem statement_eq_ok (h : statement f c = .ok a c') : f c.db c.now = .ok (a, c'.db) := by
  unfold statement at h
  split at h
  · cases h
  · split at h
    · rename_i hf
      cases h
      exact hf
    · cases h

end Stable

end RunsDb

/-! ## States a run has left for good -/

/-- No row of the run is in one of these states. -/
def Store.Avoids (runId : String) (states : List RunState) (db : Store) : Prop :=
  ∀ r ∈ db.runs, r.id = runId → r.state ∉ states

namespace RunsDb

variable {runId : String} {states : List RunState} {db : Store}

theorem mem_updateRun {id : String} {cond : Run → Bool} {set : Run → Run} (h : r' ∈ (db.updateRun id cond set).2.runs) :
    ∃ r ∈ db.runs, (r.id = id ∧ cond r = true ∧ r' = set r) ∨ (¬ (r.id = id ∧ cond r = true) ∧ r' = r) := by
  obtain ⟨r, hr, heq⟩ := List.mem_map.mp h
  refine ⟨r, hr, ?_⟩
  by_cases hc : r.id = id ∧ cond r = true
  · left
    exact ⟨hc.1, hc.2, by simpa [hc] using heq.symm⟩
  · right
    refine ⟨hc, ?_⟩
    rw [← heq, if_neg (by simpa using hc)]

/-- An `UPDATE runs` that keeps ids and moves no row into the avoided states. -/
theorem avoids_updateRun (h : db.Avoids runId states) {id : String} {cond : Run → Bool} {set : Run → Run}
    (hid : ∀ r, (set r).id = r.id) (hset : ∀ r, r.state ∉ states → (set r).state ∉ states) :
    (db.updateRun id cond set).2.Avoids runId states := by
  intro r' hr' hrun
  obtain ⟨r, hr, ⟨-, -, rfl⟩ | ⟨-, rfl⟩⟩ := mem_updateRun hr'
  · rw [hid] at hrun
    exact hset r (h r hr hrun)
  · exact h r' hr hrun

variable (id : String)

/-- A transition avoids what its target is not in. -/
theorem stable_transition (ht : target ∉ states) :
    Stable (Avoids runId states) (transition id source target) := by
  apply stable_statement
  rintro db now a db' hI ⟨⟩
  exact avoids_updateRun hI (fun _ => rfl) fun _ _ => ht

/-- A transition that succeeds empties its source state. -/
theorem avoids_transition (h : transition runId source target c = .ok won c')
    (hc : c.db.Avoids runId states) (ht : target ∉ source :: states) : c'.db.Avoids runId (source :: states) := by
  have hdb : c'.db = (c.db.updateRun runId _ _).2 := congrArg Prod.snd (Except.ok.inj (statement_eq_ok h)).symm
  rw [hdb]
  intro r' hr' hrun
  obtain ⟨r, hr, ⟨-, -, rfl⟩ | ⟨hno, rfl⟩⟩ := mem_updateRun hr'
  · exact ht
  · have hne : r'.state ≠ source := by simpa [hrun] using hno
    rw [List.mem_cons, not_or]
    exact ⟨hne, hc r' hr hrun⟩

theorem stable_markNeedsReview (hn : RunState.needsReview ∉ states) :
    Stable (Avoids runId states) (markNeedsReview id) := by
  apply stable_statement
  rintro db now a db' hI ⟨⟩
  exact avoids_updateRun hI (fun _ => rfl) fun _ _ => hn

/-- The states a worker leaves a run in only if it dies. -/
def openStates : List RunState := [.queued, .awaitingModel, .executingTools, .awaitingApproval, .paused]

/-- `mark_needs_review` that succeeds leaves the run in DONE, FAILED or NEEDS_REVIEW. -/
theorem avoids_markNeedsReview (h : markNeedsReview runId c = .ok won c') :
    c'.db.Avoids runId openStates := by
  have hdb : c'.db = (c.db.updateRun runId _ _).2 := congrArg Prod.snd (Except.ok.inj (statement_eq_ok h)).symm
  rw [hdb]
  intro r' hr' hrun
  obtain ⟨r, hr, ⟨-, -, rfl⟩ | ⟨hno, rfl⟩⟩ := mem_updateRun hr'
  · simp [openStates]
  · cases hst : r'.state <;> simp_all [openStates]

theorem stable_releaseRun {id : String} : Stable (Avoids runId states) (releaseRun w id) := by
  apply stable_statement
  rintro db now a db' hI ⟨⟩
  exact hI

theorem stable_getRun : Stable I (getRun id) := by
  apply stable_read
  intro db now a db' h
  split at h <;> cases h
  rfl

theorem stable_claimRun {id : String} : Stable (Avoids runId states) (claimRun w id) := by
  unfold claimRun
  refine .bind (stable_getRun id) fun _ => .bind (stable_statement ?_) ?_
  · intro db now a db' hI h
    split at h <;> cases h
    exact hI
  · intro claimed
    cases claimed with
    | none => exact stable_pure
    | some =>
      refine .bind (stable_read fun _ _ _ _ h => by cases h; rfl) fun expiresAt =>
        .bind (stable_statement ?_) fun _ => stable_pure
      rintro db now a db' hI ⟨⟩
      exact avoids_updateRun hI (fun _ => rfl) fun _ h => h

/-- A new run is QUEUED. -/
theorem stable_createRun
    (hq : RunState.queued ∉ states) : Stable (Avoids runId states) (createRun uuid parent plan budgets) := by
  apply stable_statement
  intro db now a db' hI h
  simp only at h
  split at h <;> cases h
  exact List.forall_mem_append.mpr ⟨hI, List.forall_mem_singleton.mpr fun _ => hq⟩

theorem stable_touchRun : Stable (Avoids runId states) (touchRun id) := by
  apply stable_statement
  rintro db now a db' hI ⟨⟩
  exact avoids_updateRun hI (fun _ => rfl) fun _ h => h

theorem stable_insertStep : Stable (Avoids runId states) (insertStep row) := by
  apply stable_statement
  intro db now a db' hI h
  simp only at h
  split at h <;> cases h
  exact hI

theorem stable_fsyncDb : Stable (Avoids runId states) fsyncDb := by
  apply stable_statement
  rintro db now a db' hI ⟨⟩
  exact hI

theorem stable_beginStep {hash : String} :
    Stable (Avoids runId states) (beginStep id k kind hash) := by
  unfold beginStep beginStepWithHint nextAttempt
  refine .bind (.tryCatch (stable_read ?_) fun _ => stable_pure) fun attempt => ?_
  · rintro db now a db' ⟨⟩
    rfl
  · exact .bind (stable_insertStep) fun _ => .bind stable_fsyncDb fun _ =>
      .bind (stable_touchRun id) fun _ => stable_pure

/-- An exceeded budget moves the run to FAILED. -/
theorem stable_enforceBudget
    (hf : RunState.failed ∉ states) : Stable (Avoids runId states) (enforceBudget run budget limit used) := by
  unfold enforceBudget
  cases limit with
  | none => exact stable_pure
  | some max =>
    refine .bind (stable_read ?_) fun n => ?_
    · rintro db now a db' ⟨⟩
      rfl
    · show Stable _ (if n > max then _ else _)
      split
      · exact .bind (.tryCatch (stable_transition run.id hf) fun _ => stable_pure) fun _ =>
          stable_throw
      · exact stable_pure

theorem stable_completeStep
    (hf : RunState.failed ∉ states) : Stable (Avoids runId states) (completeStep intent outcome output) := by
  unfold completeStep checkBudgets checkLimits
  refine .bind (.bind (stable_getRun _) fun run => ?_) fun _ =>
    .bind (stable_insertStep) fun _ => .bind stable_fsyncDb fun _ => stable_touchRun _
  have hlimits : Stable (Avoids runId states) (do
      enforceBudget run "max_steps" run.budgets.maxSteps fun db _ => stepsUsed db intent.runId + 1
      enforceBudget run "max_ms" run.budgets.maxMs fun _ now => (now - run.createdAtMs).toNat) :=
    .bind (stable_enforceBudget hf) fun _ => stable_enforceBudget hf
  split
  · exact .bind (stable_enforceBudget hf) fun _ => hlimits
  · exact hlimits

theorem stable_scanSteps (s : Scan) (hf : RunState.failed ∉ states) :
    Stable (Avoids runId states) (scanSteps H rest s) := by
  induction rest generalizing s with
  | nil => exact stable_pure
  | cons step rest ih =>
    unfold scanSteps
    split
    · exact stable_pure
    · split
      · exact ih _
      · exact ih _
      · exact stable_pure
      · refine .bind stable_get fun conn => ?_
        split
        · exact stable_pure
        · exact .bind (stable_completeStep hf) fun _ => ih _
        · exact stable_pure
      · exact stable_pure

/-- `resume_run` moves runs to FAILED and NEEDS_REVIEW only. -/
theorem stable_resumeRun {id : String} (hf : RunState.failed ∉ states)
    (hn : RunState.needsReview ∉ states) : Stable (Avoids runId states) (resumeRun H id) := by
  unfold resumeRun latestSteps
  refine .bind (stable_read ?_) fun steps => .bind (stable_scanSteps _ hf) fun scan => ?_
  · rintro db now a db' ⟨⟩
    rfl
  · show Stable _ (if scan.needsReview.isSome then _ else _)
    split
    · exact .bind (stable_markNeedsReview id hn) fun _ => stable_pure
    · exact stable_pure

/-- A plan that stops for review has moved the run to NEEDS_REVIEW, unless it was settled already. -/
theorem avoids_resumeRun (h : resumeRun H runId c = .ok plan c') (hplan : plan.needsReviewStepNo.isSome = true) :
    c'.db.Avoids runId openStates := by
  obtain ⟨steps, c₁, -, h⟩ := bind_eq_ok h
  obtain ⟨scan, c₂, -, h⟩ := bind_eq_ok h
  by_cases hr : scan.needsReview.isSome = true
  · simp only [hr, if_true] at h
    obtain ⟨won, c₃, hmark, h⟩ := bind_eq_ok h
    cases h
    exact avoids_markNeedsReview hmark
  · simp only [hr] at h
    cases h
    exact absurd hplan hr

end RunsDb

end Supercli
