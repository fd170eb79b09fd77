import Supercli.Scheduled.Moves

/-!
# `Scheduled.Base` — what every fleet of runners keeps

The invariant that all statements about triggers share, for any number of runners in any interleaving with
crashes anywhere, as long as no database statement fails:

* the journal holds tool steps only, without gaps and with nothing journaled as never run, so that a resume
  either waits for review or starts behind the last row (`ScheduledRows.start`);
* each runner's durable context is the one its mark speaks of, and every step behind the mark has a row;
* a tool was called for a step of a run only after the step got a row.

It says nothing about who executes what: two runners may well be in the same run.
-/

namespace Supercli

open Function Option

open RunsDb Store

/-! ## What a mark knows -/

namespace Mark

/-- The spec being fired. -/
def spec : Mark → ScheduleSpec
  | entering spec | found spec _ => spec
  | ready job | head job _ _ | due job _ _ | armed job _ _ _ | replied job _ _ _ _ | failed job => job.spec

/-- The durable context, once bound. -/
def ctx : Mark → Option (String × Nat)
  | entering _ | found _ _ => none
  | ready job | head job _ _ | due job _ _ | armed job _ _ _ | replied job _ _ _ _ | failed job => job.ctx

/-- The durable run the trigger is concerned with. -/
def runId : Mark → Option String
  | found _ orphan => orphan
  | m => m.ctx.map Prod.fst

/-- How many leading steps of the run have a row. -/
def reached : Mark → Nat
  | entering _ | found _ _ => 0
  | ready job | failed job => if job.start = u64Max then 0 else job.start
  | head _ _ idx | due _ _ idx => idx
  | armed _ _ idx _ | replied _ _ idx _ _ => idx + 1

/-- The intent is the one of step `idx` of the job's run. -/
structure IntentFor (H : Host) (job : Job) (idx : Nat) (intent : StepIntent) : Prop where
  runId : job.ctx.map Prod.fst = some intent.runId
  stepNo : intent.stepNo = idx
  kind : intent.kind = .tool
  hash : hashOf H job.spec idx = some intent.inputHash

/-- The job is inside an attempt, at step `idx`. -/
structure Inside (job : Job) (idx : Nat) : Prop where
  start_ne : job.start ≠ u64Max
  start_le : job.start ≤ idx

/-- What holds of a mark by itself. No mark comes from an intent that was not written. -/
def WF (H : Host) : Mark → Prop
  | head job _ idx => Inside job idx
  | due job _ idx => Inside job idx ∧ job.Reaches idx
  | armed job _ idx (some intent) | replied job _ idx intent _ =>
    Inside job idx ∧ job.Reaches idx ∧ IntentFor H job idx intent
  | armed _ _ _ none => False
  | _ => True

end Mark

/-! ## The journal of scheduled runs -/

/-- The journal as runners write it. -/
structure ScheduledRows (db : Store) : Prop where
  kind : ∀ row ∈ db.steps, row.kind = .tool
  outcome : ∀ row ∈ db.steps, row.outcome ≠ none ∧ row.outcome ≠ some .neverRan
  run : ∀ row ∈ db.steps, (db.run? row.runId).isSome
  contiguous : ∀ runId k j, (db.latest runId k).isSome → j < k → (db.latest runId j).isSome
  budgets : ∀ runId run, db.run? runId = some run → ∃ max, run.budgets = ⟨some max, none, none⟩

/-- Rows and runs only ever come. -/
structure Grows (db db' : Store) : Prop where
  latest : ∀ runId k, (db.latest runId k).isSome → (db'.latest runId k).isSome
  run : ∀ runId, (db.run? runId).isSome → (db'.run? runId).isSome

/-- What a mark says about the store. -/
structure Backed (db : Store) (m : Mark) : Prop where
  run : ∀ runId, m.runId = some runId → (db.run? runId).isSome
  behind : ∀ runId, m.runId = some runId → ∀ j < m.reached, (db.latest runId j).isSome

/-- The intent in hand is the latest row of its step: no other runner has been at it. -/
def Current (db : Store) : Mark → Prop
  | .armed _ _ _ (some intent) | .replied _ _ _ intent _ =>
    ∃ row, db.latest intent.runId intent.stepNo = some row ∧ row.intent = intent ∧ row.outcome = some .started
  | _ => True

section Store

variable {db db' : Store} {row : Step} {runId : String}

theorem run?_isSome_of_fixed (h : db'.runs.map Run.fixed = db.runs.map Run.fixed) :
    (db'.run? runId).isSome = (db.run? runId).isSome := by
  have := congrArg isSome (run?_fixed h runId)
  simpa using this

theorem budgets_of_fixed (h : db'.runs.map Run.fixed = db.runs.map Run.fixed)
    (hrun : db'.run? runId = some run') : ∃ run, db.run? runId = some run ∧ run.budgets = run'.budgets := by
  have hf := run?_fixed h runId
  rw [hrun] at hf
  obtain ⟨run, hr, hfix⟩ := map_eq_some_iff.mp hf.symm
  exact ⟨run, hr, congrArg (fun t => t.2.2.1) hfix⟩

theorem latest_isSome_of_mem (h : row ∈ db.steps) : (db.latest row.runId row.stepNo).isSome := by
  have hmem : row ∈ db.journal row.runId := by simpa [journal] using h
  exact isSome_iff_exists.mpr (VersionedLog.latest_isSome_of_mem Step.stepNo Step.attempt hmem)

theorem Grows.refl : Grows db db := ⟨fun _ _ h => h, fun _ h => h⟩

theorem Store.SameJournal.grows (h : SameJournal db db') : Grows db db' := by
  refine ⟨?_, ?_⟩
  · intro runId k hk
    rwa [latest_of_steps h.steps]
  · intro runId hr
    rwa [run?_isSome_of_fixed h.runs]

theorem Store.Appended.latest_isSome (h : Appended db db' row) : (db'.latest row.runId row.stepNo).isSome :=
  latest_isSome_of_mem (by simp [h.steps])

theorem Store.Appended.grows (h : Appended db db' row) : Grows db db' := by
  refine ⟨?_, ?_⟩
  · intro runId k hk
    by_cases hrow : row.runId = runId ∧ row.stepNo = k
    · obtain ⟨rfl, rfl⟩ := hrow
      exact h.latest_isSome
    · rwa [h.latest_of_ne hrow]
  · intro runId hr
    rwa [run?_isSome_of_fixed h.runs]

/-- A new run changes no row and no other run. -/
theorem run?_created :
    ({ db with runs := db.runs ++ [run] } : Store).run? runId =
      (db.run? runId).or (if run.id = runId then some run else none) := by
  rw [Store.run?, Store.run?, List.find?_append]
  by_cases hid : run.id = runId <;> simp [hid]

theorem grows_created (db : Store) (run : Run) : Grows db { db with runs := db.runs ++ [run] } := by
  refine ⟨fun runId k hk => hk, ?_⟩
  intro runId hr
  rw [run?_created]
  simp [isSome_or, hr]

theorem Backed.of_no_run (h : m.runId = none) : Backed db m := by
  constructor <;> intro runId hr <;> rw [h] at hr <;> cases hr

theorem Backed.mono (h : Backed db m) (hg : Grows db db') : Backed db' m :=
  ⟨fun runId hr => hg.run runId (h.run runId hr), fun runId hr j hj => hg.latest runId j (h.behind runId hr j hj)⟩

section

variable (h : ScheduledRows db)

include h

theorem ScheduledRows.sameJournal (hs : SameJournal db db') : ScheduledRows db' where
  kind := by rw [hs.steps]; exact h.kind
  outcome := by rw [hs.steps]; exact h.outcome
  run := by
    rw [hs.steps]
    intro row hrow
    rw [run?_isSome_of_fixed hs.runs]
    exact h.run row hrow
  contiguous := by
    intro runId k j
    rw [latest_of_steps hs.steps, latest_of_steps hs.steps]
    exact h.contiguous runId k j
  budgets := by
    intro runId run hrun
    obtain ⟨run', hrun', hb⟩ := budgets_of_fixed hs.runs hrun
    rw [← hb]
    exact h.budgets runId run' hrun'

/-- A row at a step whose predecessors all have rows. -/
theorem ScheduledRows.appended (ha : Appended db db' row) (hkind : row.kind = .tool)
    (hout : row.outcome ≠ none ∧ row.outcome ≠ some .neverRan) (hrun : (db.run? row.runId).isSome)
    (hbehind : ∀ j < row.stepNo, (db.latest row.runId j).isSome) : ScheduledRows db' where
  kind := by
    simp only [ha.steps, List.forall_mem_append, List.forall_mem_singleton]
    exact ⟨h.kind, hkind⟩
  outcome := by
    simp only [ha.steps, List.forall_mem_append, List.forall_mem_singleton]
    exact ⟨h.outcome, hout⟩
  run := by
    simp only [ha.steps, List.forall_mem_append, List.forall_mem_singleton, run?_isSome_of_fixed ha.runs]
    exact ⟨h.run, hrun⟩
  contiguous := by
    intro runId k j hk hj
    refine ha.grows.latest runId j ?_
    by_cases hrow : row.runId = runId ∧ row.stepNo = k
    · obtain ⟨rfl, rfl⟩ := hrow
      exact hbehind j hj
    · rw [ha.latest_of_ne hrow] at hk
      exact h.contiguous runId k j hk hj
  budgets := by
    intro runId run hrun
    obtain ⟨run', hrun', hb⟩ := budgets_of_fixed ha.runs hrun
    rw [← hb]
    exact h.budgets runId run' hrun'

theorem ScheduledRows.created {run : Run} {max : Nat}
    (hb : run.budgets = ⟨some max, none, none⟩) : ScheduledRows { db with runs := db.runs ++ [run] } where
  kind := h.kind
  outcome := h.outcome
  run := fun row hrow => (grows_created db run).run row.runId (h.run row hrow)
  contiguous := h.contiguous
  budgets := by
    intro runId run' hrun'
    rw [run?_created, or_eq_some_iff] at hrun'
    rcases hrun' with hold | ⟨-, hnew⟩
    · exact h.budgets runId run' hold
    · split at hnew <;> cases hnew
      exact ⟨max, hb⟩

/-- A run that is not in the table has no rows. -/
theorem ScheduledRows.latest_of_no_run (hrun : db.run? runId = none) : db.latest runId k = none := by
  cases hl : db.latest runId k with
  | none => rfl
  | some row =>
    have := h.run row (latest_mem hl)
    rw [(latest_key hl).1, hrun] at this
    cases this

/-- A tool step may be executed by a resume only if it has no row at all. -/
theorem ScheduledRows.latest_of_runnable (hr : Runnable H files runId db k) : db.latest runId k = none := by
  cases hl : db.latest runId k with
  | none => rfl
  | some row =>
    have hmem := latest_mem hl
    -- runners journal no row without an outcome and none as never run, and a tool orphan is never re-run
    rcases hr row hl with ho | ho | ⟨-, reason, hrec⟩
    · exact absurd ho (h.outcome row hmem).1
    · exact absurd ho (h.outcome row hmem).2
    · have hop := (reconcileOrphan_rerun hrec).1
      have hkind : row.intent.kind = .tool := h.kind row hmem
      rw [hkind] at hop
      cases hop

/-- **Where a resume starts**: nowhere, or behind the last row of the run. -/
theorem ScheduledRows.start (hp : PlanOk H files runId db plan) : startOf plan = u64Max ∨
      ((∀ j < startOf plan, Executed runId db j) ∧ ∀ i, startOf plan ≤ i → db.latest runId i = none) := by
  obtain ⟨k, hexec, ⟨hf, hn, hr⟩ | ⟨-, hn, -⟩⟩ := hp
  · right
    -- step `k` has no row, and the rows have no gaps
    have hstart : startOf plan = k := by simp [startOf, hf, hn]
    rw [hstart]
    refine ⟨hexec, ?_⟩
    intro i hi
    have hk := h.latest_of_runnable hr
    cases hl : db.latest runId i with
    | none => rfl
    | some =>
      rcases Nat.lt_or_eq_of_le hi with hlt | rfl
      · have := h.contiguous runId i k (by simp [hl]) hlt
        simp [hk] at this
      · rw [hk] at hl
        cases hl
  · left
    simp [startOf, hn]

end

end Store

/-! ## One move -/

section Moves

variable {W : Type} [DecidableEq W] {H : Host} {w : W} {e : Env} {o : Op} {s s' : Shared W} {m m' : Mark}

theorem outcomeFor_ne_neverRan : outcomeStr (outcomeFor r) ≠ .neverRan := by
  cases r with
  | ok => simp [outcomeFor, outcomeStr]
  | error =>
    simp only [outcomeFor, failureOutcome]
    split <;> simp [outcomeStr]

section

variable (job : Job)

/-- The marks an attempt goes through are of one job. -/
theorem startAttempt_cases (t : Nat) : (job.start = u64Max ∧ startAttempt job t = .ready job) ∨
      (job.start ≠ u64Max ∧ startAttempt job t = .head job (deadlineOf job.spec.policy t) job.start) := by
  by_cases h : job.start = u64Max <;> simp [startAttempt, h]

theorem afterDeadline_cases (d idx t : Nat) : (d ≤ t ∧ afterDeadline job d idx t = .failed job) ∨
      (¬ d ≤ t ∧ afterDeadline job d idx t = .due job d idx) := by
  by_cases h : d ≤ t <;> simp [afterDeadline, h]

theorem afterCall_cases (d idx : Nat) (r : Except ToolCallFailure String) :
    (outcomeFor r = .executed true ∧ afterCall job d idx r = .head job d (idx + 1)) ∨
      (outcomeFor r ≠ .executed true ∧ afterCall job d idx r = .failed job) := by
  cases r with
  | ok => exact .inl ⟨rfl, rfl⟩
  | error =>
    refine .inr ⟨?_, rfl⟩
    simp only [outcomeFor, failureOutcome]
    split <;> simp

theorem spec_startAttempt : (startAttempt job t).spec = job.spec := by
  rcases startAttempt_cases job t with ⟨-, he⟩ | ⟨-, he⟩ <;> rw [he] <;> rfl

theorem ctx_startAttempt (t : Nat) : (startAttempt job t).ctx = job.ctx := by
  rcases startAttempt_cases job t with ⟨-, he⟩ | ⟨-, he⟩ <;> rw [he] <;> rfl

theorem spec_afterDeadline : (afterDeadline job d idx t).spec = job.spec := by
  rcases afterDeadline_cases job d idx t with ⟨-, he⟩ | ⟨-, he⟩ <;> rw [he] <;> rfl

theorem ctx_afterDeadline (d idx t : Nat) : (afterDeadline job d idx t).ctx = job.ctx := by
  rcases afterDeadline_cases job d idx t with ⟨-, he⟩ | ⟨-, he⟩ <;> rw [he] <;> rfl

end

section AfterCall

variable (job : Job) (d idx : Nat) (r : Except ToolCallFailure String)

theorem spec_afterCall : (afterCall job d idx r).spec = job.spec := by cases r <;> rfl

theorem ctx_afterCall : (afterCall job d idx r).ctx = job.ctx := by cases r <;> rfl

theorem runId_afterCall : (afterCall job d idx r).runId = job.ctx.map Prod.fst := by cases r <;> rfl

end AfterCall

section

variable (h : Moved H w e o s m s' m')

include h

theorem Moved.spec : m'.spec = m.spec := by
  cases h with
  | attempt => exact spec_startAttempt _
  | deadline => exact spec_afterDeadline _
  | calledBare | calledUnwritten | journaled | notJournaled => exact spec_afterCall _ _ _ _
  | _ => rfl

theorem Moved.grows : Grows s.store s'.store := by
  cases h with
  | frame hf => exact hf.store.grows
  | resumed hsame _ | notJournaled hsame _ => exact hsame.grows
  | created => exact grows_created _ _
  | begun _ _ happ | journaled happ => exact happ.grows
  | _ => exact .refl

theorem Moved.other (hv : v ≠ w) :
    (s'.runner v).ctx = (s.runner v).ctx ∧ (s'.runner v).firing = (s.runner v).firing := by
  cases h with
  | frame hf => exact ⟨hf.ctx v, hf.firing v⟩
  | resumed | created | notCreated =>
    simp [update_of_ne hv]
  | _ => exact ⟨rfl, rfl⟩

/-- The runner's durable context stays the one of its mark. -/
theorem Moved.self (hctx : (s.runner w).ctx = m.ctx) :
    (s'.runner w).ctx = m'.ctx ∧ (s'.runner w).firing = (s.runner w).firing := by
  cases h with
  | frame hf => exact ⟨(hf.ctx w).trans hctx, hf.firing w⟩
  | resumed | created | notCreated =>
    simp [Mark.ctx]
  | attempt t => exact ⟨hctx.trans (ctx_startAttempt _ t).symm, rfl⟩
  | deadline t hreach => exact ⟨hctx.trans (ctx_afterDeadline _ _ _ t).symm, rfl⟩
  | calledBare | calledUnwritten | journaled | notJournaled =>
    exact ⟨hctx.trans (ctx_afterCall _ _ _ _).symm, rfl⟩
  | _ => exact ⟨hctx, rfl⟩

end

variable {job : Job} {idx : Nat}

theorem Mark.Inside.next (h : Inside job idx) : Inside job (idx + 1) :=
  ⟨h.start_ne, Nat.le_succ_of_le h.start_le⟩

theorem Mark.Inside.afterCall (h : Inside job idx) :
    (afterCall job d idx r).WF H := by
  rcases afterCall_cases job d idx r with ⟨-, he⟩ | ⟨-, he⟩ <;> rw [he]
  · exact h.next
  · trivial

theorem Moved.wf (h : Moved H w e o s m s' m') (hwf : m.WF H) : m'.WF H := by
  cases h with
  | frame _ | called _ => exact hwf
  | attempt t =>
    rcases startAttempt_cases _ t with ⟨-, he⟩ | ⟨hne, he⟩ <;> rw [he]
    · trivial
    · exact ⟨hne, le_rfl⟩
  | deadline t hreach =>
    rcases afterDeadline_cases _ _ _ t with ⟨-, he⟩ | ⟨-, he⟩ <;> rw [he]
    · trivial
    · exact ⟨hwf, hreach⟩
  | begun hctx hhash happ => exact ⟨hwf.1, hwf.2, by simp [hctx, intentRow, Step.intent], rfl, rfl, hhash⟩
  | calledBare _ _ | journaled _ | notJournaled _ _ => exact hwf.1.afterCall
  | calledUnwritten => exact hwf.elim
  | _ => trivial

theorem Moved.rows (h : Moved H w e o s m s' m') (hrows : ScheduledRows s.store) (hwf : m.WF H)
    (hback : Backed s.store m) : ScheduledRows s'.store := by
  cases h with
  | frame hf => exact hrows.sameJournal hf.store
  | resumed hsame _ | notJournaled hsame _ => exact hrows.sameJournal hsame
  | created hfresh hb hpos => exact hrows.created hb
  | @begun s job runId st d k hash now db' hctx hhash happ =>
    have hrun : (Mark.due job d k).runId = some runId := congrArg (Option.map Prod.fst) hctx
    exact hrows.appended happ rfl (by simp [intentRow]) (hback.run _ hrun) (hback.behind _ hrun)
  | @journaled s job d k intent result output now db' happ =>
    obtain ⟨-, -, hfor⟩ := hwf
    -- the outcome goes to the step of the intent, which has a row already
    refine hrows.appended happ hfor.kind ⟨by simp [outcomeRow], ?_⟩ (hback.run _ hfor.runId) ?_
    · simpa [outcomeRow] using outcomeFor_ne_neverRan
    · intro j hj
      have hj' : j < intent.stepNo := hj
      rw [hfor.stepNo] at hj'
      exact hback.behind _ hfor.runId j (Nat.lt_succ_of_lt hj')
  | _ => exact hrows

theorem Backed.of_reached (h : Backed db m) (hrun : m'.runId = m.runId)
    (hle : m'.reached ≤ m.reached) : Backed db m' :=
  ⟨fun runId hr => h.run runId (hrun ▸ hr),
    fun runId hr j hj => h.behind runId (hrun ▸ hr) j (hj.trans_le hle)⟩

theorem Mark.reached_ready_le : (Mark.ready job).reached ≤ job.start := by
  by_cases h : job.start = u64Max <;> simp [Mark.reached, h]

theorem Mark.Inside.reached_failed (h : Inside job idx) : (Mark.failed job).reached ≤ idx := by
  simp [Mark.reached, h.start_ne, h.start_le]

/-- After a call, what is behind the mark has a row, because the step called had one. -/
theorem Backed.afterCall (h : Backed db m) (hin : Mark.Inside job idx)
    (hrun : m.runId = job.ctx.map Prod.fst) (hreached : m.reached = idx + 1)  :
    Backed db (afterCall job d idx r) := by
  rcases afterCall_cases job d idx r with ⟨-, he⟩ | ⟨-, he⟩ <;> rw [he]
  · exact h.of_reached hrun.symm (by rw [hreached]; exact le_rfl)
  · exact h.of_reached hrun.symm (by rw [hreached]; exact Nat.le_succ_of_le hin.reached_failed)

section

variable (h : Moved H w e o s m s' m')

include h

theorem Moved.backed (hrows : ScheduledRows s.store) (hwf : m.WF H) (hback : Backed s.store m) :
    Backed s'.store m' := by
  have hmono : Backed s'.store m := hback.mono h.grows
  cases h with
  | frame => exact hmono
  | attempt t =>
    rcases startAttempt_cases _ t with ⟨-, he⟩ | ⟨hne, he⟩ <;> rw [he]
    · exact hmono
    · exact hmono.of_reached rfl (by simp [Mark.reached, hne])
  | deadline t hreach =>
    rcases afterDeadline_cases _ _ _ t with ⟨-, he⟩ | ⟨-, he⟩ <;> rw [he]
    · exact hmono.of_reached rfl hwf.reached_failed
    · exact hmono.of_reached rfl le_rfl
  | sleep | called _ => exact hmono.of_reached rfl le_rfl
  | listed horphan => exact ⟨horphan, fun _ _ j hj => absurd hj (Nat.not_lt_zero j)⟩
  | @resumed s spec runId db' plan files hsame hplan =>
    refine ⟨hmono.run, ?_⟩
    intro runId hr j hj
    cases hr
    show (db'.latest runId j).isSome
    rw [latest_of_steps hsame.steps]
    rcases hrows.start hplan with hmax | ⟨hexec, -⟩
    · simp [Mark.reached, Job.start, hmax] at hj
    · obtain ⟨row, hl, -⟩ := hexec j (hj.trans_le Mark.reached_ready_le)
      simp [hl]
  | created hfresh hb hpos =>
    refine ⟨?_, ?_⟩
    · intro runId hr
      cases hr
      simp [run?_created, hfresh]
    · intro runId hr j hj
      exact absurd (hj.trans_le Mark.reached_ready_le) (Nat.not_lt_zero j)
  | notCreated => exact .of_no_run rfl
  | begun hctx hhash happ =>
    -- one step further, and its row was just written
    refine ⟨hmono.run, ?_⟩
    intro runId hr j hj
    rcases Nat.lt_succ_iff_lt_or_eq.mp hj with hlt | rfl
    · exact hmono.behind runId hr j hlt
    · have hid : runId = _ := Option.some.inj (hr.symm.trans (congrArg (Option.map Prod.fst) hctx))
      subst hid
      exact happ.latest_isSome
  | @calledBare s job d k call hctx reply =>
    refine .of_no_run ?_
    rw [runId_afterCall, hctx]
    rfl
  | calledUnwritten => exact hwf.elim
  | journaled _ | notJournaled _ _ => exact hmono.afterCall hwf.1 rfl rfl

/-- A runner's own moves keep its intent the latest row. -/
theorem Moved.current (hcur : Current s.store m) : Current s'.store m' := by
  have same : ∀ {db : Store}, SameJournal s.store db → Current db m := by
    intro db hs
    unfold Current at hcur ⊢
    split <;> simp_all [latest_of_steps hs.steps]
  cases h with
  | frame hf => exact same hf.store
  | attempt t => rcases startAttempt_cases _ t with ⟨-, he⟩ | ⟨-, he⟩ <;> rw [he] <;> trivial
  | deadline t hreach => rcases afterDeadline_cases _ _ _ t with ⟨-, he⟩ | ⟨-, he⟩ <;> rw [he] <;> trivial
  | begun hctx hhash happ => exact ⟨_, happ.latest_self le_rfl, rfl, rfl⟩
  | called => exact hcur
  | calledBare | calledUnwritten | journaled | notJournaled =>
    rcases afterCall_cases _ _ _ _ with ⟨-, he⟩ | ⟨-, he⟩ <;> rw [he] <;> trivial
  | _ => trivial

/-- A call for a step of a run is on record from before, or it is the one that was armed. -/
theorem Moved.called_cases (hwf : m.WF H) (hmem : Event.called v (some runId) i reply ∈ s'.trace) :
    Event.called v (some runId) i reply ∈ s.trace ∨
      (v = w ∧ m.runId = some runId ∧ ∃ job d intent, m = .armed job d i (some intent)) := by
  cases h with
  | frame hf => exact .inl (hf.trace ▸ hmem)
  | sleep => exact .inl hmem
  | calledUnwritten => exact hwf.elim
  | @called s job d k call intent reply' =>
    rcases List.mem_cons.mp hmem with heq | hold
    · simp only [Event.called.injEq] at heq
      obtain ⟨rfl, hrun, rfl, -⟩ := heq
      exact .inr ⟨rfl, hrun.symm, job, d, intent, rfl⟩
    · exact .inl hold
  | _ => exact .inl (by simpa using hmem)

end

end Moves

/-! ## The invariant -/

section Invariant

variable {W : Type} [DecidableEq W] {H : Host} {cfg : RunnerConfig} {handle : W → Worker} {w : W} {e : Env}
  {o : Op} {s s' : Shared W} {m m' : Mark} {marks : W → Option Mark}

/-- What every fleet of runners keeps between its state and the marks of its triggers. -/
structure Base (H : Host) (s : Shared W) (marks : W → Option Mark) : Prop where
  rows : ScheduledRows s.store
  firing : ∀ w, (s.runner w).firing = (marks w).map Mark.spec
  ctx : ∀ w, (s.runner w).ctx = (marks w).bind Mark.ctx
  wf : ∀ w m, marks w = some m → m.WF H
  backed : ∀ w m, marks w = some m → Backed s.store m
  called : ∀ w runId i reply, .called w (some runId) i reply ∈ s.trace → (s.store.latest runId i).isSome

omit [DecidableEq W] in
theorem base_empty : Base H (emptyShared : Shared W) fun _ => none where
  rows := by
    have hnone : ∀ runId k, (emptyShared : Shared W).store.latest runId k = none := fun _ _ => rfl
    refine ⟨by simp [emptyShared], by simp [emptyShared], by simp [emptyShared], ?_, ?_⟩
    · intro runId k j hk
      rw [hnone] at hk
      cases hk
    · intro runId run hrun
      cases hrun
  firing := fun _ => rfl
  ctx := fun _ => rfl
  wf := by simp
  backed := by simp
  called := by simp [emptyShared]

omit [DecidableEq W] in
/-- The durable context of a runner at work. -/
theorem Base.ctx_of (h : Base H s marks) (hm : marks w = some m) : (s.runner w).ctx = m.ctx := by
  rw [h.ctx w, hm]
  rfl

omit [DecidableEq W] in
/-- A runner with a durable context is at work, and the run is in the table. -/
theorem Base.run_of_ctx (h : Base H s marks) (hc : (s.runner w).ctx = some c) : (s.store.run? c.1).isSome := by
  rw [h.ctx w] at hc
  obtain ⟨m, hm, hctx⟩ := bind_eq_some_iff.mp hc
  refine (h.backed w m hm).run c.1 ?_
  cases m <;> first | exact congrArg (Option.map Prod.fst) hctx | cases hctx

omit [DecidableEq W] in
theorem Base.not_fileWrite (h : Base H s marks) : ∀ row ∈ s.store.steps, row.kind ≠ .fileWrite := by
  intro row hrow
  simp [h.rows.kind row hrow]

theorem Base.move (h : Base H s marks) (hm : marks w = some m) (hmv : Moved H w e o s m s' m') :
    Base H s' (update marks w (some m')) := by
  have hwf := h.wf w m hm
  have hback := h.backed w m hm
  have hself := hmv.self (h.ctx_of hm)
  refine ⟨hmv.rows h.rows hwf hback, ?_, ?_, ?_, ?_, ?_⟩
  · intro v
    by_cases hv : v = w
    · subst hv
      rw [update_self, hself.2, h.firing v, hm, map_some, map_some, hmv.spec]
    · rw [update_of_ne hv, (hmv.other hv).2]
      exact h.firing v
  · intro v
    by_cases hv : v = w
    · subst hv
      rw [update_self, hself.1]
      rfl
    · rw [update_of_ne hv, (hmv.other hv).1]
      exact h.ctx v
  · refine (forall_update_iff marks fun _ n => ∀ m, n = some m → m.WF H).mpr ⟨?_, fun v _ => h.wf v⟩
    rintro n ⟨⟩
    exact hmv.wf hwf
  · refine (forall_update_iff marks fun _ n => ∀ m, n = some m → Backed s'.store m).mpr ⟨?_, ?_⟩
    · rintro n ⟨⟩
      exact hmv.backed h.rows hwf hback
    · -- rows and runs only come, so the other marks stay backed
      intro v _ n hn
      exact (h.backed v n hn).mono hmv.grows
  · intro v runId i reply hmem
    refine hmv.grows.latest runId i ?_
    -- an old call, or the one that was armed, whose intent row is there
    rcases hmv.called_cases hwf hmem with hold | ⟨rfl, hrun, job, d, intent, rfl⟩
    · exact h.called v runId i reply hold
    · exact hback.behind runId hrun i (Nat.lt_succ_self i)

/-- A runner that begins or ends a trigger, or dies: its own state and mark change, nothing else. -/
theorem Base.setRunner (h : Base H s marks) (f : RunnerState → RunnerState)
    (hfiring : (f (s.runner w)).firing = n.map Mark.spec) (hctx : (f (s.runner w)).ctx = n.bind Mark.ctx)
    (hwf : ∀ m, n = some m → m.WF H) (hback : ∀ m, n = some m → Backed s.store m) :
    Base H (s.setRunner w f) (update marks w n) := by
  refine ⟨h.rows, ?_, ?_, ?_, ?_, h.called⟩
  · intro v
    by_cases hv : v = w
    · subst hv
      simpa using hfiring
    · simpa [update_of_ne hv] using h.firing v
  · intro v
    by_cases hv : v = w
    · subst hv
      simpa using hctx
    · simpa [update_of_ne hv] using h.ctx v
  · exact (forall_update_iff marks fun _ n => ∀ m, n = some m → m.WF H).mpr ⟨hwf, fun v _ => h.wf v⟩
  · exact (forall_update_iff marks fun _ n => ∀ m, n = some m → Backed s.store m).mpr
      ⟨hback, fun v _ => h.backed v⟩

theorem initialMark_cases (cfg : RunnerConfig) (spec : ScheduleSpec) :
    initialMark cfg spec = .entering spec ∨ initialMark cfg spec = .ready ⟨spec, none⟩ := by
  cases h : cfg.hasRunsDb <;> simp [initialMark, h]

theorem Base.start (h : Base H s marks) (w : W) (spec : ScheduleSpec) :
    Base H ((runners H cfg handle).onStart w spec s) (update marks w (some (initialMark cfg spec))) := by
  refine h.setRunner (fun r => { r with firing := some spec, ctx := none }) ?_ ?_ ?_ ?_
  · rcases initialMark_cases cfg spec with he | he <;> rw [he] <;> rfl
  · rcases initialMark_cases cfg spec with he | he <;> rw [he] <;> rfl
  · rintro m ⟨⟩
    rcases initialMark_cases cfg spec with he | he <;> rw [he] <;> trivial
  · rintro m ⟨⟩
    rcases initialMark_cases cfg spec with he | he <;> rw [he] <;> exact .of_no_run rfl

theorem Base.done (h : Base H s marks) :
    Base H ((runners H cfg handle).onReturn w result s) (update marks w none) :=
  h.setRunner (fun r => { r with firing := none, ctx := none }) rfl rfl (by simp) (by simp)

theorem Base.crash (h : Base H s marks) : Base H ((runners H cfg handle).onCrash w s) (update marks w none) :=
  h.setRunner (fun _ => .boot) rfl rfl (by simp) (by simp)

/-- **Invariants over the base.** To keep `I` beside the base invariant, it is enough to keep it along
    `Moved`, and to check that a start, a return and a crash of one runner keep it. -/
theorem Base.preserves {cond : W → Op → Shared W → Env → Prop} {I : Shared W → (W → Option Mark) → Prop}
    (hquiet : ∀ w o s e, cond w o s e → e.faults = [])
    (hstart : ∀ s marks w spec, Base H s marks → I s marks → marks w = none →
      I ((runners H cfg handle).onStart w spec s) (update marks w (some (initialMark cfg spec))))
    (hmove : ∀ s marks w m o e s' m', Base H s marks → I s marks → marks w = some m → cond w o s e →
      Moved H w e o s m s' m' → I s' (update marks w (some m')))
    (hdone : ∀ s marks w m result, Base H s marks → I s marks → marks w = some m → Walked result m →
      I ((runners H cfg handle).onReturn w result s) (update marks w none))
    (hcrash : ∀ s marks w, Base H s marks → I s marks → I ((runners H cfg handle).onCrash w s) (update marks w none)) :
    Fleet.Preserves (runners H cfg handle) (runnerDiscipline H) (initialMark cfg) Walked cond
      (fun s marks => Base H s marks ∧ I s marks) where
  launch := fun w spec => runTrigger_obeys cfg spec
  start := fun s marks w spec h hw => ⟨h.1.start w spec, hstart s marks w spec h.1 h.2 hw⟩
  move := by
    intro s marks w m o e m' h hm hc hnext
    have hmv : Moved H w e o s m _ m' := moved_of_next (hquiet w o s e hc) (fun _ => h.1.not_fileWrite) hnext
    exact ⟨h.1.move hm hmv, hmove s marks w m o e _ m' h.1 h.2 hm hc hmv⟩
  done := fun s marks w m result h hm hw => ⟨h.1.done, hdone s marks w m result h.1 h.2 hm hw⟩
  crash := fun s marks w h => ⟨h.1.crash, hcrash s marks w h.1 h.2⟩

end Invariant

end Supercli
