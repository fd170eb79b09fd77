import Supercli.Scheduled.World

/-!
# `Scheduled.Discipline` — what a trigger may do next

The runner program, reduced to what matters to the journal and the tools. A `Mark` says where a trigger
stands: still looking for its durable run, between attempts, or at a step of an attempt with the intent it
holds. `runnerDiscipline` lists the moves; operations it does not mention (flags, leases, run states, the
audit file) leave the mark alone.

`runTrigger_obeys` is the only proof about the program's text. Everything the claims say about triggers is
proved about the marks.
-/

namespace Supercli

/-- A trigger whose durable context is bound. -/
structure Job where
  spec : ScheduleSpec
  ctx : Option (String × Nat)
deriving DecidableEq, Repr

/-- The first step the job executes. -/
def Job.start (job : Job) : Nat := (job.ctx.map Prod.snd).getD 0

/-- The loop comes to step `idx` of the list: `max_steps` stops it before, but never at the start. -/
def Job.Reaches (job : Job) (idx : Nat) : Prop :=
  idx < job.spec.calls.length ∧ (idx ≤ job.start ∨ idx < job.spec.policy.maxSteps)

instance (job : Job) (idx : Nat) : Decidable (job.Reaches idx) := by
  unfold Job.Reaches
  infer_instance

/-- Where a trigger stands. -/
inductive Mark
  /-- nothing has been asked of the store yet -/
  | entering (spec : ScheduleSpec)
  /-- the runs were listed: resume this orphan, or create a run -/
  | found (spec : ScheduleSpec) (orphan : Option String)
  /-- the next thing is an attempt -/
  | ready (job : Job)
  /-- at the top of the call loop, before step `idx` -/
  | head (job : Job) (deadlineMs idx : Nat)
  /-- the deadline check of step `idx` has passed -/
  | due (job : Job) (deadlineMs idx : Nat)
  /-- `begin_step` was asked for step `idx`; the call comes next -/
  | armed (job : Job) (deadlineMs idx : Nat) (intent : Option StepIntent)
  /-- the tool has answered for step `idx`; its journaling comes next -/
  | replied (job : Job) (deadlineMs idx : Nat) (intent : StepIntent) (result : Except ToolCallFailure String)
  /-- the attempt ended on a failure or a timeout -/
  | failed (job : Job)

/-- The loop goes on after a result and ends on a failure. -/
def afterCall (job : Job) (deadlineMs idx : Nat) : Except ToolCallFailure String → Mark
  | .ok _ => .head job deadlineMs (idx + 1)
  | .error _ => .failed job

/-- What is journaled for a reply. -/
def outcomeFor : Except ToolCallFailure String → AttemptOutcome
  | .ok _ => .executed true
  | .error failure => failureOutcome failure

/-- The deadline check of step `idx`. -/
def afterDeadline (job : Job) (deadlineMs idx nowMs : Nat) : Mark :=
  if deadlineMs ≤ nowMs then .failed job else .due job deadlineMs idx

/-- An attempt begins: at the start step, unless the run waits for review. -/
def startAttempt (job : Job) (startedMs : Nat) : Mark :=
  if job.start = u64Max then .ready job
  else .head job (deadlineOf job.spec.policy startedMs) job.start

/-- The hash that step `idx` of a spec is journaled with. -/
def hashOf (H : Host) (spec : ScheduleSpec) (idx : Nat) : Option String :=
  (spec.calls[idx]?).map (ScheduledToolCall.inputHash H)

/-- The moves of a trigger. -/
@[simp] def nextMark (H : Host) (m : Mark) : (o : Op) → o.Ans → Option Mark
  | .listRuns, r =>
    match m with
    | .entering spec => match r with
      | .ok runs => some (.found spec ((findOrphan spec.id runs).map Run.id))
      | .error _ => some (.ready ⟨spec, none⟩)
    | _ => none
  | .resumeRun runId, r =>
    match m with
    | .found spec (some id) => if id = runId then some (.ready ⟨spec, resumedCtx runId r⟩) else none
    | _ => none
  | .createRun _ budgets, r =>
    match m with
    | .found spec none =>
      if budgets = freshBudgets spec.policy ∧ 0 < spec.policy.maxSteps then
        some (.ready ⟨spec, createdCtx r⟩)
      else none
    | _ => none
  | .now .attempt, t =>
    match m with
    | .ready job => some (startAttempt job t)
    | _ => none
  | .now (.deadline d), t =>
    match m with
    | .head job d' idx =>
      if d = d' ∧ job.Reaches idx then some (afterDeadline job d idx t) else none
    | _ => none
  | .sleep _, _ =>
    match m with
    | .failed job => some (.ready job)
    | _ => none
  | .beginStep runId idx hash, r =>
    match m with
    | .due job d k =>
      if job.ctx.map Prod.fst = some runId ∧ idx = k ∧ hashOf H job.spec k = some hash then
        some (.armed job d k r.toOption)
      else none
    | _ => none
  | .callTool durable idx _, r =>
    match m with
    | .due job d k =>
      if job.ctx = none ∧ durable = none ∧ idx = k then some (afterCall job d k r) else none
    | .armed job d k none =>
      if durable = job.ctx.map Prod.fst ∧ idx = k then some (afterCall job d k r) else none
    | .armed job d k (some intent) =>
      if durable = job.ctx.map Prod.fst ∧ idx = k then some (.replied job d k intent r) else none
    | _ => none
  | .completeStep intent outcome _, _ =>
    match m with
    | .replied job d k intent' result =>
      if intent = intent' ∧ outcome = outcomeFor result then some (afterCall job d k result) else none
    | _ => none
  | _, _ => some m

/-- The discipline of a trigger. -/
def runnerDiscipline (H : Host) : Discipline runnerSig Mark := ⟨nextMark H⟩

/-- Where a trigger begins. Without a store there is nothing to look up. -/
def initialMark (cfg : RunnerConfig) (spec : ScheduleSpec) : Mark :=
  if cfg.hasRunsDb then .entering spec else .ready ⟨spec, none⟩

/-- Not in the middle of a step. -/
def Mark.resting : Mark → Bool
  | .due _ _ _ | .armed _ _ _ _ | .replied _ _ _ _ _ => false
  | _ => true

/-- A trigger returns between steps, and one that reports Completed has walked its whole list. -/
structure Walked (result : TriggerResult) (m : Mark) : Prop where
  resting : m.resting = true
  completed : (recordOf result).outcome = .completed → ∃ job d idx, m = .head job d idx ∧ job.spec.calls.length ≤ idx

/-! ## The program obeys -/

section Obeys

variable {H : Host} {β : Type} {job : Job} {m : Mark}

open Prog

/-- Operations the discipline does not mention. -/
def Op.isFrame : Op → Bool
  | .now .triggered | .tryBegin _ | .endRun _ | .isAutonomous | .setAutonomous _ | .setActor _
  | .fenceCurrent | .claimRun _ | .transition _ _ _ | .markNeedsReview _ | .releaseRun _
  | .appendRecord _ => true
  | _ => false

theorem nextMark_frame (ho : o.isFrame = true) (r : o.Ans) : nextMark H m o r = some m := by
  cases o with
  | now site => cases site <;> first | rfl | cases ho
  | _ => first | rfl | cases ho

variable {R : β → Mark → Prop} {idx d : Nat} {intent : Option StepIntent}

theorem obeys_frame (ho : o.isFrame = true) {f : o.Ans → RunnerM β} (h : ∀ r, (f r).Obeys (runnerDiscipline H) R m) :
    (ask o >>= f).Obeys (runnerDiscipline H) R m :=
  obeys_idle_bind (nextMark_frame ho) h

theorem obeys_move (h : ∀ r, ∃ m', nextMark H m o r = some m' ∧ (f r).Obeys (runnerDiscipline H) R m') :
    (ask o >>= f).Obeys (runnerDiscipline H) R m := h

variable (cfg : RunnerConfig)

theorem durableCtx_obeys (hpos : 0 < spec.policy.maxSteps) (t : Nat) :
    (durableCtx cfg spec t).Obeys (runnerDiscipline H) (fun ctx m => m = .ready ⟨spec, ctx⟩)
      (initialMark cfg spec) := by
  cases hdb : cfg.hasRunsDb with
  | false => simp [durableCtx, initialMark, hdb]
  | true =>
    simp only [durableCtx, initialMark, hdb, Bool.not_true, Bool.false_eq_true, if_false, if_true]
    refine obeys_move ?_
    intro r
    cases r with
    | error => exact ⟨_, rfl, rfl⟩
    | ok runs =>
      refine ⟨_, rfl, ?_⟩
      cases hf : findOrphan spec.id runs with
      | some run =>
        -- resume; a run that waits for review is bound without a claim
        simp only [hf]
        refine obeys_move ?_
        intro r
        cases r with
        | error => exact ⟨_, if_pos rfl, rfl⟩
        | ok plan =>
          refine ⟨_, if_pos rfl, ?_⟩
          by_cases hr : plan.needsReviewStepNo.isSome = true
          · simp [hr, resumedCtx, startOf]
          · simp only [hr]
            refine obeys_frame rfl ?_
            intro _
            simp [resumedCtx, startOf, hr]
      | none =>
        -- create; the claim and the transition are of no concern to the discipline
        simp only [hf]
        refine obeys_move ?_
        intro r
        cases r with
        | error => exact ⟨_, if_pos ⟨rfl, hpos⟩, rfl⟩
        | ok =>
          refine ⟨_, if_pos ⟨rfl, hpos⟩, ?_⟩
          exact obeys_frame rfl fun _ => obeys_frame rfl fun _ => rfl

section

variable (job : Job) (d idx : Nat) (intent : Option StepIntent)

/-- The call of step `idx` comes next, with this intent in hand. -/
def Aimed (m : Mark) : Prop :=
  (job.ctx = none ∧ intent = none ∧ m = .due job d idx) ∨ (job.ctx ≠ none ∧ m = .armed job d idx intent)

/-- The reply to step `idx` is in, its journaling (if there is an intent) comes next. -/
def Answered (r : Except ToolCallFailure String) (m : Mark) : Prop :=
  match intent with
  | none => m = afterCall job d idx r
  | some i => m = .replied job d idx i r

end

theorem beginIntent_obeys (hcall : job.spec.calls[idx]? = some call) :
    (beginIntent job.ctx idx (call.inputHash H)).Obeys (runnerDiscipline H) (Aimed job d idx) (.due job d idx) := by
  cases hctx : job.ctx with
  | none => exact .inl ⟨hctx, rfl, rfl⟩
  | some c =>
    obtain ⟨runId, start⟩ := c
    refine obeys_move fun r => ⟨.armed job d idx r.toOption, ?_, ?_⟩
    · simp [hctx, hashOf, hcall]
    · cases r <;> exact .inr ⟨by simp [hctx], rfl⟩

theorem callTool_obeys (hm : Aimed job d idx intent m) {f : Except ToolCallFailure String → RunnerM β}
    (h : ∀ r m, Answered job d idx intent r m → (f r).Obeys (runnerDiscipline H) R m) :
    (ask (.callTool (job.ctx.map Prod.fst) idx call) >>= f).Obeys (runnerDiscipline H) R m := by
  refine obeys_move ?_
  intro r
  rcases hm with ⟨hctx, rfl, rfl⟩ | ⟨hctx, rfl⟩
  · exact ⟨afterCall job d idx r, by simp [hctx], h r _ rfl⟩
  · cases intent with
    | none => exact ⟨afterCall job d idx r, by simp, h r _ rfl⟩
    | some i => exact ⟨.replied job d idx i r, by simp, h r _ rfl⟩

theorem journalOutcome_obeys (hm : Answered job d idx intent r m) (ho : outcome = outcomeFor r)
     (h : (f ()).Obeys (runnerDiscipline H) R (afterCall job d idx r)) :
    (journalOutcome intent outcome output >>= f).Obeys (runnerDiscipline H) R m := by
  cases intent with
  | none =>
    cases hm
    exact h
  | some =>
    cases hm
    refine obeys_move fun _ => ⟨afterCall job d idx r, ?_, h⟩
    simp [ho]

/-- What an attempt ends with: a completed one has walked the whole list, one that can be retried has
    failed. -/
structure AttemptEnded (job : Job) (result : AttemptResult) (m : Mark) : Prop where
  resting : m.resting = true
  completed : result.outcome = .completed → ∃ d k, m = .head job d k ∧ job.spec.calls.length ≤ k
  retryable : result.retryable = true → m = .failed job

/-- One call of the loop: it either goes on past the step with one more step counted, or ends the
    attempt. -/
theorem attemptStep_obeys (hcall : job.spec.calls[idx]? = some call)
    (hgo : idx ≤ job.start ∨ idx < job.spec.policy.maxSteps) (t : Tally) :
    (attemptStep H job.spec.policy job.ctx d idx call t).Obeys (runnerDiscipline H) (fun r m => match r with
        | .ok t' => m = .head job d (idx + 1) ∧ t'.steps = t.steps + 1 ∧ t'.steps < job.spec.policy.maxSteps
        | .error result => AttemptEnded job result m)
      (.head job d idx) := by
  obtain ⟨hlt, -⟩ := List.getElem?_eq_some_iff.mp hcall
  have hreach : job.Reaches idx := ⟨hlt, hgo⟩
  unfold attemptStep
  refine obeys_move ?_
  intro now
  by_cases hlate : d ≤ now
  · -- too late: the attempt ends here and may be retried
    refine ⟨.failed job, by simp [afterDeadline, hreach, hlate], ?_⟩
    simp only [hlate, if_true]
    exact ⟨rfl, by simp [stopped], fun _ => rfl⟩
  · refine ⟨.due job d idx, by simp [afterDeadline, hreach, hlate], ?_⟩
    simp only [hlate, if_false]
    refine Obeys.bind ((beginIntent_obeys hcall).mono ?_)
    intro intent m hm
    refine callTool_obeys hm ?_
    intro r m hm
    cases r with
    | ok =>
      refine journalOutcome_obeys hm rfl ?_
      -- both caps end the attempt as killed, which is neither complete nor retryable
      split
      · exact ⟨rfl, by simp [stopped], by simp [stopped]⟩
      · split
        · exact ⟨rfl, by simp [stopped], by simp [stopped]⟩
        · rename_i hmore
          exact ⟨rfl, rfl, Nat.lt_of_not_le hmore⟩
    | error =>
      refine journalOutcome_obeys hm rfl ?_
      exact ⟨rfl, by simp, fun _ => rfl⟩

/-- The call loop, by induction on the calls that remain; every step behind is counted in the tally. -/
theorem attemptLoop_obeys (d : Nat) (hcalls : calls = job.spec.calls.drop idx)
    (t : Tally) (ht : t.steps = idx) (hgo : idx ≤ job.start ∨ idx < job.spec.policy.maxSteps) :
    (attemptLoop H job.spec.policy job.ctx d idx calls t).Obeys (runnerDiscipline H) (AttemptEnded job)
      (.head job d (max idx job.start)) := by
  induction calls generalizing idx t with
  | nil =>
    -- the list is walked, and only here does an attempt report Completed
    have hlen : job.spec.calls.length ≤ idx := List.drop_eq_nil_iff.mp hcalls.symm
    exact ⟨rfl, fun _ => ⟨d, _, rfl, by omega⟩, by simp⟩
  | cons call rest ih =>
    have hcall : job.spec.calls[idx]? = some call := by
      have := congrArg (fun l => l[0]?) hcalls
      simpa [List.getElem?_drop] using this.symm
    have hrest : rest = job.spec.calls.drop (idx + 1) := by
      have := congrArg List.tail hcalls
      simpa [List.tail_drop] using this
    simp only [attemptLoop]
    by_cases hskip : idx < (job.ctx.map Prod.snd).getD 0
    · -- a step before the start: the mark already stands at the start
      rw [if_pos hskip]
      have hmax : max idx job.start = max (idx + 1) job.start := by
        have : idx < job.start := hskip
        omega
      rw [hmax]
      exact ih hrest _ (by rw [ht]) (.inl hskip)
    · rw [if_neg hskip]
      have hmax : max idx job.start = idx := by
        have : ¬ idx < job.start := hskip
        omega
      rw [hmax]
      refine Obeys.bind ((attemptStep_obeys hcall hgo t).mono ?_)
      intro r m hm
      cases r with
      | error => exact hm
      | ok t' =>
        obtain ⟨rfl, hsteps, hmore⟩ := hm
        have hcount : t'.steps = idx + 1 := by omega
        have hnext := ih hrest t' hcount (.inr (hcount ▸ hmore))
        have : max (idx + 1) job.start = idx + 1 := by
          have : ¬ idx < job.start := hskip
          omega
        rw [this] at hnext
        exact hnext

theorem runAttempt_obeys (job : Job) :
    (runAttempt H job.spec.policy job.spec.calls job.ctx).Obeys (runnerDiscipline H) (AttemptEnded job)
      (.ready job) := by
  unfold runAttempt
  refine obeys_move fun now => ⟨startAttempt job now, rfl, ?_⟩
  by_cases hreview : (job.ctx.map Prod.snd).getD 0 = u64Max
  · -- the run waits for review: nothing is executed
    have hstart : job.start = u64Max := hreview
    simp only [hreview, if_true, startAttempt, hstart]
    exact ⟨rfl, by simp, by simp⟩
  · have hstart : job.start ≠ u64Max := hreview
    simp only [hreview, if_false, startAttempt, hstart]
    have h : (attemptLoop H job.spec.policy job.ctx (deadlineOf job.spec.policy now) 0 job.spec.calls
        ⟨0, 0, []⟩).Obeys (runnerDiscipline H) (AttemptEnded job) _ := attemptLoop_obeys _ rfl _ rfl (.inl (Nat.zero_le _))
    rwa [Nat.zero_max] at h

/-- The retry loop, by induction on the retries left. -/
theorem attempts_obeys (job : Job) (left index : Nat) (denied : List String) :
    (attempts H job.spec job.ctx left index denied).Obeys (runnerDiscipline H) (fun r m => m.resting = true ∧
        (r.1.outcome = .completed → ∃ d k, m = .head job d k ∧ job.spec.calls.length ≤ k))
      (.ready job) := by
  induction left generalizing index denied with
  | zero =>
    unfold attempts
    exact Obeys.bind ((runAttempt_obeys job).mono fun r m hm => ⟨hm.resting, hm.completed⟩)
  | succ left ih =>
    unfold attempts
    refine Obeys.bind ((runAttempt_obeys job).mono ?_)
    intro r m hm
    by_cases hr : r.retryable = true
    · -- asleep until the next attempt, which is the same job again
      simp only [hr, Bool.not_true, Bool.false_eq_true, if_false]
      have hfailed := hm.retryable hr
      subst hfailed
      exact obeys_move fun _ => ⟨.ready job, rfl, ih _ _⟩
    · simp only [hr]
      exact ⟨hm.resting, hm.completed⟩

/-- Closing the run is of no concern to the discipline. -/
theorem closeRun_obeys (durable : Option (String × Nat)) (result : AttemptResult) :
    (closeRun durable result).Obeys (runnerDiscipline H) (fun _ m' => m' = m) m := by
  refine (closeRun_makes durable result).obeys fun o ho r => ?_
  cases o <;> first | rfl | exact ho.elim

theorem audit_obeys {R : TriggerResult → Mark → Prop} (h : ∀ result, recordOf result = record → R result m) :
    (audit record).Obeys (runnerDiscipline H) R m := by
  refine obeys_frame rfl ?_
  intro r
  cases r <;> exact h _ rfl

theorem fire_obeys (hpos : 0 < spec.policy.maxSteps) (t : Nat) :
    (fire H cfg spec t).Obeys (runnerDiscipline H) Walked (initialMark cfg spec) := by
  unfold fire
  refine Obeys.bind ((durableCtx_obeys cfg hpos t).mono ?_)
  intro ctx m hm
  subst hm
  refine Obeys.bind ((attempts_obeys ⟨spec, ctx⟩ _ _ _).mono ?_)
  intro r m hm
  refine Obeys.bind ((closeRun_obeys ctx r.1).mono ?_)
  intro _ m' hm'
  subst hm'
  refine obeys_frame rfl ?_
  intro fence
  have walked : ∀ result : TriggerResult, (recordOf result).outcome = r.1.outcome → Walked result m' := by
    refine fun result ho => ⟨hm.1, ?_⟩
    intro hc
    obtain ⟨d, k, rfl, hk⟩ := hm.2 (ho ▸ hc)
    exact ⟨_, d, k, rfl, hk⟩
  split
  · -- a stale fence turns every outcome into a failure
    exact ⟨hm.1, nofun⟩
  · exact audit_obeys fun result hrec => walked result (by rw [hrec])

/-- **The runner obeys the discipline**, whatever it is answered. -/
theorem runTrigger_obeys (spec : ScheduleSpec) :
    (runTrigger H cfg spec).Obeys (runnerDiscipline H) Walked (initialMark cfg spec) := by
  -- a refused trigger does not report Completed
  have refused : ∀ (t : Nat) (outcome : RunOutcome) (error : Option String), outcome ≠ .completed →
      (audit ⟨spec.id, spec.sessionId, t, outcome, 0, [], error⟩).Obeys (runnerDiscipline H) Walked
        (initialMark cfg spec) := by
    intro t outcome error hne
    refine audit_obeys fun result hrec => ⟨?_, ?_⟩
    · cases hdb : cfg.hasRunsDb <;> simp [initialMark, hdb, Mark.resting]
    · intro hc
      rw [hrec] at hc
      exact absurd hc hne
  unfold runTrigger
  refine obeys_frame rfl ?_
  intro t
  -- an invalid spec, a paused one, no store, an overlapping trigger; then the body between its guards
  split
  · exact refused t _ _ (by simp)
  · rename_i hvalid
    split
    · exact refused t _ _ (by simp)
    · split
      · exact refused t _ _ (by simp)
      · refine obeys_frame rfl ?_
        intro got
        split
        · exact refused t _ _ (by simp)
        · refine obeys_frame rfl fun previous => obeys_frame rfl fun _ => obeys_frame rfl ?_
          intro _
          refine Obeys.bind ((fire_obeys cfg (validate_ok hvalid).2 t).mono ?_)
          intro result m hm
          exact obeys_frame rfl fun _ => obeys_frame rfl fun _ => hm

end Obeys

end Supercli
