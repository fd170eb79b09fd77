import Supercli.Scheduled.Discipline

/-!
# `Scheduled.Moves` — the effect of every move of a trigger

One inversion lemma for the whole runner: when no database statement fails, a move that the discipline
allows is one of the cases of `Moved`, each of which says what became of the store, the trace, the runner
and the mark. Invariants of fleets of runners are proved by cases on `Moved`; none of them looks at how the
world answers.
-/

namespace Supercli

open RunsDb Store Option

variable {W : Type}

/-- Nothing that matters to the journal, the trace or the durable contexts has changed. -/
structure Frame (s s' : Shared W) : Prop where
  store : SameJournal s.store s'.store
  trace : s'.trace = s.trace
  ctx : ∀ v, (s'.runner v).ctx = (s.runner v).ctx
  firing : ∀ v, (s'.runner v).firing = (s.runner v).firing

/-- The runner binds its durable context, and the lookup is on record. -/
@[simp] def Shared.bindCtx [DecidableEq W] (s : Shared W) (w : W) (ctx : Option (String × Nat)) : Shared W :=
  (s.setRunner w fun r => { r with ctx := ctx }).log (.lookup w ctx.isSome)

/-- The intent row that `begin_step` writes for a scheduled call. -/
def intentRow (db : Store) (runId : String) (k : Nat) (hash : String) (now : Int) : Step :=
  ⟨runId, k, .tool, hash, none, some .started,
    VersionedLog.nextVersion Step.stepNo Step.attempt (db.journal runId) k, now, none⟩

/-- The moves of runner `w` when no statement fails and the environment supplies `e`: the operation, the
    state and the mark before it, the state and the mark after it. -/
inductive Moved [DecidableEq W] (H : Host) (w : W) (e : Env) : Op → Shared W → Mark → Shared W → Mark → Prop
  | frame {o s m s'} (hf : Frame s s') : Moved H w e o s m s' m
  | attempt {s job} (t : Nat) :
      Moved H w e (.now .attempt) s (.ready job) (s.log (.attempt w)) (startAttempt job t)
  | deadline {s job d idx} (t : Nat) (hreach : job.Reaches idx) :
      Moved H w e (.now (.deadline d)) s (.head job d idx) (s.log (.deadline w (d ≤ t)))
        (afterDeadline job d idx t)
  | sleep {s job secs} : Moved H w e (.sleep secs) s (.failed job) s (.ready job)
  | listed {s spec orphan} (horphan : ∀ runId, orphan = some runId → (s.store.run? runId).isSome) :
      Moved H w e .listRuns s (.entering spec) (s.log (.lookup w true)) (.found spec orphan)
  | resumed {s spec runId db' plan files} (hsame : SameJournal s.store db')
      (hplan : PlanOk H files runId s.store plan) :
      Moved H w e (.resumeRun runId) s (.found spec (some runId))
        (({ s with store := db' } : Shared W).bindCtx w (some (runId, startOf plan)))
        (.ready ⟨spec, some (runId, startOf plan)⟩)
  | created {s spec plan run} (hfresh : s.store.run? run.id = none)
      (hbudgets : run.budgets = freshBudgets spec.policy) (hpos : 0 < spec.policy.maxSteps) :
      Moved H w e (.createRun plan (freshBudgets spec.policy)) s (.found spec none)
        (({ s with store := { s.store with runs := s.store.runs ++ [run] } } : Shared W).bindCtx w
          (some (run.id, 0)))
        (.ready ⟨spec, some (run.id, 0)⟩)
  | notCreated {s spec plan} (htaken : (s.store.run? ("run_" ++ e.uuid)).isSome) :
      Moved H w e (.createRun plan (freshBudgets spec.policy)) s (.found spec none) (s.bindCtx w none)
        (.ready ⟨spec, none⟩)
  | begun {s job runId st d k hash now db'} (hctx : job.ctx = some (runId, st))
      (hhash : hashOf H job.spec k = some hash)
      (happ : Appended s.store db' (intentRow s.store runId k hash now)) :
      Moved H w e (.beginStep runId k hash) s (.due job d k)
        (({ s with store := db' } : Shared W).log (.begun w runId k true))
        (.armed job d k (some (intentRow s.store runId k hash now).intent))
  | calledBare {s job d k call} (hctx : job.ctx = none) (reply : Reply) :
      Moved H w e (.callTool none k call) s (.due job d k) (s.log (.called w none k reply))
        (afterCall job d k reply.result)
  | calledUnwritten {s job d k call} (reply : Reply) :
      Moved H w e (.callTool (job.ctx.map Prod.fst) k call) s (.armed job d k none)
        (s.log (.called w (job.ctx.map Prod.fst) k reply)) (afterCall job d k reply.result)
  | called {s job d k call intent} (reply : Reply) :
      Moved H w e (.callTool (job.ctx.map Prod.fst) k call) s (.armed job d k (some intent))
        (s.log (.called w (job.ctx.map Prod.fst) k reply)) (.replied job d k intent reply.result)
  | journaled {s job d k intent result output now db'}
      (happ : Appended s.store db' (outcomeRow intent (outcomeFor result) output now)) :
      Moved H w e (.completeStep intent (outcomeFor result) output) s (.replied job d k intent result)
        (({ s with store := db' } : Shared W).log
          (.journaled w intent.runId intent.stepNo (outcomeFor result) true))
        (afterCall job d k result)
  | notJournaled {s job d k intent result output now db'} (hsame : SameJournal s.store db')
      (hno : ∀ run, BudgetLeft s.store now intent.runId run →
        intent.attempt + 1 < VersionedLog.nextVersion Step.stepNo Step.attempt
          (s.store.journal intent.runId) intent.stepNo) :
      Moved H w e (.completeStep intent (outcomeFor result) output) s (.replied job d k intent result)
        (({ s with store := db' } : Shared W).log
          (.journaled w intent.runId intent.stepNo (outcomeFor result) false))
        (afterCall job d k result)

/-! ## Frame operations -/

theorem Frame.refl : Frame s s := ⟨.refl, rfl, fun _ => rfl, fun _ => rfl⟩

theorem frame_setRunner [DecidableEq W] {w : W} (f : RunnerState → RunnerState)
    (hctx : ∀ r, (f r).ctx = r.ctx) (hfiring : ∀ r, (f r).firing = r.firing) : Frame s (s.setRunner w f) := by
  refine ⟨.refl, rfl, ?_, ?_⟩
  · intro v
    by_cases hv : v = w
    · subst hv
      simp [hctx]
    · simp [Function.update_of_ne hv]
  · intro v
    by_cases hv : v = w
    · subst hv
      simp [hfiring]
    · simp [Function.update_of_ne hv]

theorem sql_store {s : Shared W} :
    (s.sql e m).2 = { s with store := storeAfter m ⟨s.store, e.dbNow, e.files, e.faults⟩ } := by
  unfold Shared.sql storeAfter
  cases m ⟨s.store, e.dbNow, e.files, e.faults⟩ with
  | ok => rfl
  | error => rfl

/-- A method that leaves the journal alone. -/
theorem frame_sql {α : Type} {m : RunsM α} (h : Keeps m) : Frame s (s.sql e m).2 := by
  rw [sql_store]
  exact ⟨h ⟨s.store, e.dbNow, e.files, e.faults⟩, rfl, fun _ => rfl, fun _ => rfl⟩

/-- The operations outside the discipline are frames, whatever fails. -/
theorem frame_answer [DecidableEq W] (H : Host) (handle : Worker) (w : W) (s : Shared W) (e : Env) {o : Op}
    (ho : o.isFrame = true) : Frame s (answer H handle w o s e).2 := by
  cases o with
  | now site =>
    cases site with
    | triggered => exact .refl
    | attempt | deadline _ => cases ho
  | tryBegin id =>
    simp only [answer]
    split
    · exact .refl
    · exact frame_setRunner (fun r => { r with active := id :: r.active }) (fun _ => rfl) fun _ => rfl
  | endRun id => exact frame_setRunner (fun r => { r with active := r.active.erase id }) (fun _ => rfl) fun _ => rfl
  | isAutonomous | fenceCurrent => exact .refl
  | setAutonomous b => exact frame_setRunner (fun r => { r with autonomous := b }) (fun _ => rfl) fun _ => rfl
  | setActor a => exact frame_setRunner (fun r => { r with actor := some a }) (fun _ => rfl) fun _ => rfl
  | claimRun runId => exact frame_sql keeps_claimRun
  | transition runId source target => exact frame_sql (keeps_transition runId)
  | markNeedsReview runId => exact frame_sql (keeps_markNeedsReview runId)
  | releaseRun runId => exact frame_sql keeps_releaseRun
  | appendRecord =>
    simp only [answer]
    split
    · exact .refl
    · exact ⟨.refl, rfl, fun _ => rfl, fun _ => rfl⟩
  | _ => cases ho

/-! ## The inversion -/

section Inversion

variable {H : Host} {handle : Worker} {w : W} {s : Shared W} {m m' : Mark} {e : Env} {runId : String} {db' : Store}

theorem sql_ok {method : RunsM α} {a : α} (hq : e.faults = [])
    (h : method ⟨s.store, e.dbNow, e.files, []⟩ = .ok a ⟨db', e.dbNow, e.files, []⟩) :
    s.sql e method = (.ok a, { s with store := db' }) := by
  simp [Shared.sql, hq, h]

theorem sql_error (hq : e.faults = [])
    (h : method ⟨s.store, e.dbNow, e.files, []⟩ = .error err ⟨db', e.dbNow, e.files, []⟩) :
    s.sql e method = (.error err, { s with store := db' }) := by
  simp [Shared.sql, hq, h]

variable [DecidableEq W]

theorem moved_listRuns (hq : e.faults = [])
    (hnext : nextMark H m .listRuns (answer H handle w .listRuns s e).1 = some m') :
    Moved H w e .listRuns s m (answer H handle w .listRuns s e).2 m' := by
  have hsql : s.sql e listRuns =
      (.ok (s.store.runs.insertionSort fun a b => b.createdAtMs ≤ a.createdAtMs), s) := sql_ok hq rfl
  simp only [answer, hsql, succeeded] at hnext ⊢
  cases m <;> simp only [nextMark, reduceCtorEq, some.injEq] at hnext
  subst hnext
  refine .listed ?_
  intro runId hrun
  obtain ⟨run, hfind, rfl⟩ := map_eq_some_iff.mp hrun
  have hmem : run ∈ s.store.runs := (List.mem_insertionSort _).mp (List.mem_of_find?_eq_some hfind)
  simp only [Store.run?, List.find?_isSome]
  exact ⟨run, hmem, by simp⟩

/-- No orphan of a journal without file writes is closed by its probe. -/
theorem closed_eq (hno : ∀ row ∈ db.steps, row.kind ≠ .fileWrite)
    (h : Relation.ReflTransGen (CloseStep H files runId now) db db') : db' = db := by
  rcases Relation.ReflTransGen.cases_head h with heq | ⟨db₁, hstep, -⟩
  · exact heq.symm
  · obtain ⟨k, row, reason, output, hl, -, hrec, -⟩ := hstep
    exact absurd (reconcileOrphan_alreadyComplete hrec) (hno row (latest_mem hl))

theorem moved_resumeRun (hq : e.faults = []) (hno : ∀ row ∈ s.store.steps, row.kind ≠ .fileWrite)
    (hnext : nextMark H m (.resumeRun runId) (answer H handle w (.resumeRun runId) s e).1 = some m') :
    Moved H w e (.resumeRun runId) s m (answer H handle w (.resumeRun runId) s e).2 m' := by
  have hclosable : Closable runId s.store := .inl fun k row hl => hno row (latest_mem hl)
  obtain ⟨plan, db₁, db', hrun, -, hclosed, hsame, hplan⟩ := resumeRun_spec H e.files e.dbNow hclosable
  cases closed_eq hno hclosed
  simp only [answer, sql_ok hq hrun, succeeded] at hnext ⊢
  cases m with
  | found spec orphan =>
    cases orphan with
    | none => simp at hnext
    | some =>
      obtain ⟨rfl, ⟨⟩⟩ := ite_none_right_eq_some.mp hnext
      exact .resumed hsame hplan
  | _ => simp at hnext

theorem moved_createRun (hq : e.faults = [])
    (hnext : nextMark H m (.createRun plan budgets) (answer H handle w (.createRun plan budgets) s e).1 = some m') :
    Moved H w e (.createRun plan budgets) s m (answer H handle w (.createRun plan budgets) s e).2 m' := by
  cases m with
  | found spec orphan =>
    cases orphan with
    | some => simp at hnext
    | none =>
      obtain ⟨⟨rfl, hpos⟩, ⟨⟩⟩ := ite_none_right_eq_some.mp hnext
      -- the id drawn is taken, or the new row is in the table
      by_cases htaken : (s.store.run? ("run_" ++ e.uuid)).isSome = true
      · have hsql : s.sql e (createRun e.uuid none plan (freshBudgets spec.policy)) =
            (.error (.sql "UNIQUE constraint failed: runs.id"), s) :=
          sql_error hq (by simp [createRun, statement_quiet, htaken])
        simp only [answer, hsql, succeeded]
        exact .notCreated htaken
      · let run : Run := ⟨"run_" ++ e.uuid, none, .queued, plan, freshBudgets spec.policy, none, 0, 0,
          e.dbNow.toNat, e.dbNow.toNat⟩
        have hsql : s.sql e (createRun e.uuid none plan (freshBudgets spec.policy)) =
            (.ok run.id, { s with store := { s.store with runs := s.store.runs ++ [run] } }) :=
          sql_ok hq (by simp [createRun, statement_quiet, htaken, run])
        simp only [answer, hsql, succeeded]
        have hfresh : s.store.run? run.id = none := by simpa [run] using htaken
        exact .created hfresh rfl hpos
  | _ => simp at hnext

theorem moved_beginStep {hash : String} (hq : e.faults = [])
    (hnext : nextMark H m (.beginStep runId k hash) (answer H handle w (.beginStep runId k hash) s e).1 = some m') :
    Moved H w e (.beginStep runId k hash) s m (answer H handle w (.beginStep runId k hash) s e).2 m' := by
  obtain ⟨db', hrun, happ⟩ := beginStepWithHint_spec s.store e.dbNow e.files runId k .tool hash none
  have hsql : s.sql e (beginStep runId k .tool hash) = _ := sql_ok hq hrun
  -- one row more, and all of them synced
  have hdurable : decide (s.store.steps.length < min db'.steps.length db'.synced) = true := by
    simp [happ.synced, happ.steps]
  simp only [answer, hsql, hdurable] at hnext ⊢
  cases m with
  | due =>
    obtain ⟨⟨hrunId, rfl, hhash⟩, ⟨⟩⟩ := ite_none_right_eq_some.mp hnext
    obtain ⟨⟨_, st⟩, hctx, rfl⟩ := map_eq_some_iff.mp hrunId
    exact .begun hctx hhash happ
  | _ => simp at hnext

theorem moved_callTool
    (hnext : nextMark H m (.callTool durable k call) (answer H handle w (.callTool durable k call) s e).1 = some m') :
    Moved H w e (.callTool durable k call) s m (answer H handle w (.callTool durable k call) s e).2 m' := by
  simp only [answer] at hnext ⊢
  cases m with
  | due =>
    obtain ⟨⟨hctx, rfl, rfl⟩, ⟨⟩⟩ := ite_none_right_eq_some.mp hnext
    exact .calledBare hctx e.reply
  | armed job d idx intent =>
    cases intent with
    | none =>
      obtain ⟨⟨rfl, rfl⟩, ⟨⟩⟩ := ite_none_right_eq_some.mp hnext
      exact .calledUnwritten e.reply
    | some =>
      obtain ⟨⟨rfl, rfl⟩, ⟨⟩⟩ := ite_none_right_eq_some.mp hnext
      exact .called e.reply
  | _ => simp at hnext

theorem moved_completeStep (hq : e.faults = [])
    (hnext : nextMark H m (.completeStep intent outcome output)
      (answer H handle w (.completeStep intent outcome output) s e).1 = some m') :
    Moved H w e (.completeStep intent outcome output) s m
      (answer H handle w (.completeStep intent outcome output) s e).2 m' := by
  cases m with
  | replied job d idx intent' result =>
    obtain ⟨⟨rfl, rfl⟩, ⟨⟩⟩ := ite_none_right_eq_some.mp hnext
    rcases completeStep_cases s.store e.dbNow e.files intent (outcomeFor result) output with
      ⟨db', hrun, happ⟩ | ⟨err, db', hrun, hsame⟩
    · have hwritten : decide (s.store.steps.length < db'.steps.length) = true := by simp [happ.steps]
      simp only [answer, sql_ok hq hrun, hwritten]
      exact .journaled happ
    · have hwritten : decide (s.store.steps.length < db'.steps.length) = false := by simp [hsame.steps]
      simp only [answer, sql_error hq hrun, hwritten]
      -- with budget left, only a taken attempt number makes it fail
      have hno : ∀ run, BudgetLeft s.store e.dbNow intent.runId run →
          intent.attempt + 1 < VersionedLog.nextVersion Step.stepNo Step.attempt
            (s.store.journal intent.runId) intent.stepNo := by
        refine fun run hleft => Nat.lt_of_not_le ?_
        intro hv
        obtain ⟨db'', hok, -⟩ := completeStep_ok e.files hleft hv (outcomeFor result) output
        rw [hok] at hrun
        cases hrun
      exact .notJournaled hsame hno
  | _ => simp at hnext

/-- **The inversion.** When no statement fails, and no step of the journal is a file write when a run is
    resumed, a move that the discipline allows is one of the cases of `Moved`. -/
theorem moved_of_next (hq : e.faults = [])
    (hno : (∃ runId, o = .resumeRun runId) → ∀ row ∈ s.store.steps, row.kind ≠ .fileWrite)
    (hnext : nextMark H m o (answer H handle w o s e).1 = some m') :
    Moved H w e o s m (answer H handle w o s e).2 m' := by
  by_cases ho : o.isFrame = true
  · rw [nextMark_frame ho] at hnext
    cases hnext
    exact .frame (frame_answer H handle w s e ho)
  · cases o with
    | now site =>
      cases site with
      | triggered => exact absurd rfl ho
      | attempt =>
        cases m <;> simp only [nextMark, reduceCtorEq, some.injEq] at hnext
        subst hnext
        exact .attempt _
      | deadline =>
        cases m with
        | head =>
          obtain ⟨⟨rfl, hreach⟩, ⟨⟩⟩ := ite_none_right_eq_some.mp hnext
          exact .deadline e.clockMs hreach
        | _ => simp at hnext
    | sleep =>
      cases m <;> simp only [nextMark, reduceCtorEq, some.injEq] at hnext
      subst hnext
      exact .sleep
    | listRuns => exact moved_listRuns hq hnext
    | resumeRun runId => exact moved_resumeRun hq (hno ⟨runId, rfl⟩) hnext
    | createRun => exact moved_createRun hq hnext
    | beginStep => exact moved_beginStep hq hnext
    | completeStep => exact moved_completeStep hq hnext
    | callTool => exact moved_callTool hnext
    | _ => exact absurd rfl ho

end Inversion

end Supercli
