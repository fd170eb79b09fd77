import Supercli.Scheduled.Replay

/-!
# `Scheduled.Completed` — does Completed mean completed?

A trigger reports Completed when its loop has come to the end of the list. The loop counts the steps before
its start as done because the journal has an executed row for their *index*. It does not look at whether
that execution succeeded, nor whether it was of the same call: an `executed_failed` row, or the row of a
call that the spec no longer lists there, is skipped all the same. And `complete_step` may refuse an outcome
(the run's own `max_steps`, fixed at its creation), which the loop does not notice.

If no trigger resumes a run whose rows are of that sort, every trigger that reports Completed has an
`executed_ok` row with the right hash for each of its calls (`completed_means_executed_ok`).
-/

namespace Supercli

open RunsDb Store Option

section

variable (H : Host) (db : Store) (runId : String) (spec : ScheduleSpec) (i : Nat)

/-- Step `i` of the run was executed successfully, as the call that the spec lists there. -/
def ExecutedAs : Prop :=
  ∃ row, db.latest runId i = some row ∧ row.outcome = some .executedOk ∧ hashOf H spec i = some row.inputHash

instance : Decidable (ExecutedAs H db runId spec i) :=
  decidable_of_iff (∃ row ∈ (db.latest runId i).toList,
      row.outcome = some .executedOk ∧ hashOf H spec i = some row.inputHash) (by
    simp only [ExecutedAs, mem_toList])

end

/-- A row that a resume by this spec may count as done: unless it stops the resume anyway, it is the
    successful execution of the call listed there. -/
def soundRow (H : Host) (spec : ScheduleSpec) (i : Nat) (row : Step) : Bool :=
  row.outcome ≠ some .executedFailed && (row.outcome ≠ some .executedOk || hashOf H spec i = some row.inputHash)

/-- The run can be resumed by this spec: its rows are sound, and if some listed step has no row yet, the
    run's own step budget is large enough for the whole list. -/
def resumable (H : Host) (db : Store) (runId : String) (spec : ScheduleSpec) : Bool :=
  (List.range spec.calls.length).all fun i =>
    match db.latest runId i with
    | some row => soundRow H spec i row
    | none => ((db.run? runId).bind fun run => run.budgets.maxSteps).all fun max => spec.calls.length ≤ max

/-- No statement fails, a fresh run's id is not taken, and only resumable runs are resumed. -/
def resumesSound (H : Host) (_ : Unit) (o : Op) (s : Shared Unit) (e : Env) : Bool :=
  e.faults.isEmpty && match o, (s.runner ()).firing with
    | .createRun _ _, _ => (s.store.run? ("run_" ++ e.uuid)).isNone
    | .resumeRun runId, some spec => resumable H s.store runId spec
    | _, _ => true

/-! ## The invariant -/

/-- How many leading steps of the list are known to be done. -/
def Mark.sure : Mark → Nat
  | .entering _ | .found _ _ => 0
  | .ready job | .failed job => if job.start = u64Max then 0 else job.start
  | .head _ _ idx | .due _ _ idx | .armed _ _ idx _ | .replied _ _ idx _ _ => idx

/-- The durable context is bound, or is still to be bound. -/
def Mark.Bound : Mark → Prop
  | .entering _ | .found _ _ => True
  | m => m.ctx.isSome

/-- No row of a run is at or above its step budget. -/
def RowsInBudget (db : Store) : Prop :=
  ∀ row ∈ db.steps, ∀ run max, db.run? row.runId = some run → run.budgets.maxSteps = some max → row.stepNo < max

/-- Nor will a row be that this trigger still writes. -/
def InBudget (db : Store) (m : Mark) : Prop :=
  ∀ runId st, m.ctx = some (runId, st) → st ≠ u64Max → ∀ run max, db.run? runId = some run →
    run.budgets.maxSteps = some max → ∀ idx, st ≤ idx → (Job.mk m.spec m.ctx).Reaches idx → idx < max

/-- What a single trigger keeps. -/
structure Sound (H : Host) (db : Store) (m : Mark) : Prop where
  bound : m.Bound
  sure : ∀ runId st, m.ctx = some (runId, st) → ∀ i, i < m.sure → i < m.spec.calls.length →
    ExecutedAs H db runId m.spec i
  budget : InBudget db m
  current : Current db m

section Moves

variable {H : Host} {e : Env} {o : Op} {s s' : Shared Unit} {m m' : Mark} {db db' : Store} {runId : String}

theorem ExecutedAs.of_latest (h : ExecutedAs H db runId spec i)
    (he : db'.latest runId i = db.latest runId i) : ExecutedAs H db' runId spec i := by
  obtain ⟨row, hl, hrow⟩ := h
  exact ⟨row, he.trans hl, hrow⟩

/-- The step budget of a run is fixed at its creation. -/
theorem RowsInBudget.of_fixed (h : RowsInBudget db) (hsteps : db'.steps = db.steps)
    (hruns : db'.runs.map Run.fixed = db.runs.map Run.fixed) : RowsInBudget db' := by
  intro row hrow run max hrun hmax
  obtain ⟨run', hrun', hb⟩ := budgets_of_fixed hruns hrun
  rw [hsteps] at hrow
  exact h row hrow run' max hrun' (by rw [hb, hmax])

theorem InBudget.of_fixed (h : InBudget db m) (hruns : db'.runs.map Run.fixed = db.runs.map Run.fixed)
    (hspec : m'.spec = m.spec) (hctx : m'.ctx = m.ctx) : InBudget db' m' := by
  intro runId st hc hne run max hrun hmax idx hle hreach
  obtain ⟨run', hrun', hb⟩ := budgets_of_fixed hruns hrun
  rw [hspec, hctx] at hreach
  exact h runId st (hctx ▸ hc) hne run' max hrun' (by rw [hb, hmax]) idx hle hreach

/-- The job reaches step `idx`, so its row is within the run's budget. -/
theorem InBudget.step (h : InBudget db m) (hspec : m.spec = job.spec) (hctx : m.ctx = job.ctx)
    (hin : Mark.Inside job idx) (hreach : job.Reaches idx) (hrun : job.ctx.map Prod.fst = some runId) {max : Nat}
    (hr : db.run? runId = some run) (hmax : run.budgets.maxSteps = some max) : idx < max := by
  obtain ⟨⟨runId', st⟩, hc, rfl⟩ := map_eq_some_iff.mp hrun
  have hstart : job.start = st := by simp [Job.start, hc]
  refine h runId' st (hctx.trans hc) (hstart ▸ hin.start_ne) run max hr hmax idx (hstart ▸ hin.start_le) ?_
  rw [hspec, hctx]
  exact hreach

/-- A row within the budget of its run. -/
theorem RowsInBudget.appended (h : RowsInBudget db) (ha : Appended db db' row)
    (hrow : ∀ run max, db.run? row.runId = some run → run.budgets.maxSteps = some max → row.stepNo < max) :
    RowsInBudget db' := by
  intro r hr run max hrun hmax
  obtain ⟨run', hrun', hb⟩ := budgets_of_fixed ha.runs hrun
  rw [ha.steps] at hr
  rcases List.mem_append.mp hr with hold | hnew
  · exact h r hold run' max hrun' (by rw [hb, hmax])
  · cases List.mem_singleton.mp hnew
    exact hrow run' max hrun' (by rw [hb, hmax])

/-- **Journaling succeeds**: with its intent the latest row of its step and every row of the run below the
    step budget, `complete_step` has budget left. -/
theorem budgetLeft_of_current (hrows : ScheduledRows db)
    (hbud : RowsInBudget db) (hrun : db.run? runId = some run) (hl : db.latest runId k = some row)
    (hstarted : row.outcome = some .started) : BudgetLeft db now runId run := by
  obtain ⟨max, hb⟩ := hrows.budgets runId run hrun
  refine ⟨hrun, by simp [hb], ?_, by simp [hb]⟩
  intro n hn
  -- `max_steps` counts the steps with a decided row: all are below `n`, and this one is not decided
  have hmem : ∀ r ∈ db.journal runId, r.stepNo < n := by
    intro r hr
    obtain ⟨hr, hid⟩ := List.mem_filter.mp hr
    have hid : r.runId = runId := of_decide_eq_true hid
    exact hbud r hr run n (by rw [hid]; exact hrun) hn
  exact VersionedLog.countP_latestAll_lt hmem hl (by simp [hstarted])

/-- What a resume counts as done is done, if the run is resumable. -/
theorem executedAs_of_resumable (hres : resumable H db runId spec = true)
    (hi : i < spec.calls.length) (hexec : Executed runId db i) : ExecutedAs H db runId spec i := by
  obtain ⟨row, hl, ho⟩ := hexec
  have hrow := List.all_eq_true.mp hres i (List.mem_range.mpr hi)
  simp only [hl, soundRow, Bool.and_eq_true, Bool.or_eq_true, decide_eq_true_eq] at hrow
  rcases ho with hok | hfailed
  · exact ⟨row, hl, hok, hrow.2.resolve_left fun h => h hok⟩
  · exact absurd hfailed hrow.1

/-- Moving on inside an attempt. -/
theorem Sound.of_sure (h : Sound H db m) (hsteps : db'.steps = db.steps)
    (hruns : db'.runs.map Run.fixed = db.runs.map Run.fixed) (hspec : m'.spec = m.spec) (hctx : m'.ctx = m.ctx)
    (hsure : m'.sure ≤ m.sure) (hbound : m'.Bound) (hcur : Current db' m') : Sound H db' m' := by
  refine ⟨hbound, ?_, h.budget.of_fixed hruns hspec hctx, hcur⟩
  intro runId st hc i hi hlen
  rw [hctx] at hc
  rw [hspec] at hlen ⊢
  exact (h.sure runId st hc i (hi.trans_le hsure) hlen).of_latest (latest_of_steps hsteps)

/-- Past a step of the run: the marks behind know one step more, or start over. -/
theorem Sound.afterCall (h : Sound H db m) (hspec : m.spec = job.spec)
    (hctx : m.ctx = job.ctx) (hsure : m.sure = idx) (hbound : job.ctx.isSome) (hin : Mark.Inside job idx)
    (hruns : db'.runs.map Run.fixed = db.runs.map Run.fixed)
    (hother : ∀ runId i, i < idx → db'.latest runId i = db.latest runId i)
    (hdone : outcomeFor r = .executed true → ∀ runId st, job.ctx = some (runId, st) →
      ExecutedAs H db' runId job.spec idx) : Sound H db' (afterCall job d idx r) := by
  have before : ∀ runId st, job.ctx = some (runId, st) → ∀ i, i < idx → i < job.spec.calls.length →
      ExecutedAs H db' runId job.spec i := by
    intro runId st hc i hi hlen
    have hi' : i < m.sure := hsure ▸ hi
    rw [← hspec] at hlen
    have hold := h.sure runId st (hctx.trans hc) i hi' hlen
    rw [hspec] at hold
    exact hold.of_latest (hother runId i hi)
  have budget : InBudget db' (Supercli.afterCall job d idx r) :=
    h.budget.of_fixed hruns ((spec_afterCall job d idx r).trans hspec.symm)
      ((ctx_afterCall job d idx r).trans hctx.symm)
  rcases afterCall_cases job d idx r with ⟨hok, he⟩ | ⟨-, he⟩ <;> rw [he] at budget ⊢
  · refine ⟨hbound, ?_, budget, trivial⟩
    intro runId st hc i hi hlen
    rcases Nat.lt_succ_iff_lt_or_eq.mp hi with hlt | rfl
    · exact before runId st hc i hlt hlen
    · exact hdone hok runId st hc
  · -- a failed attempt may start over, behind which everything is executed
    refine ⟨hbound, ?_, budget, trivial⟩
    intro runId st hc i hi hlen
    exact before runId st hc i (hi.trans_le hin.reached_failed) hlen

/-- **Step lemma.** A trigger that binds only fresh or resumable runs keeps knowing that what is behind it
    was executed. -/
theorem Moved.sound (h : Moved H () e o s m s' m') (hrows : ScheduledRows s.store) (hbud : RowsInBudget s.store)
    (hwf : m.WF H) (hback : Backed s.store m)
    (hres : ∀ runId, o = .resumeRun runId → resumable H s.store runId m.spec = true)
    (hfree : ∀ plan budgets, o = .createRun plan budgets → s.store.run? ("run_" ++ e.uuid) = none)
    (hs : Sound H s.store m) : Sound H s'.store m' := by
  have hcur := h.current hs.current
  cases h with
  | frame hf => exact hs.of_sure hf.store.steps hf.store.runs rfl rfl le_rfl hs.bound hcur
  | @attempt s job t =>
    rcases startAttempt_cases job t with ⟨-, he⟩ | ⟨hne, he⟩ <;> rw [he] at hcur ⊢
    · exact hs
    · exact hs.of_sure rfl rfl rfl rfl (by simp [Mark.sure, hne]) hs.bound hcur
  | @deadline s job d idx t hreach =>
    rcases afterDeadline_cases job d idx t with ⟨-, he⟩ | ⟨-, he⟩ <;> rw [he] at hcur ⊢
    · exact hs.of_sure rfl rfl rfl rfl hwf.reached_failed hs.bound hcur
    · exact hs.of_sure rfl rfl rfl rfl le_rfl hs.bound hcur
  | sleep | called _ => exact hs.of_sure rfl rfl rfl rfl le_rfl hs.bound hcur
  | listed =>
    refine ⟨trivial, fun runId st hc => ?_, fun runId st hc => ?_, hcur⟩ <;> cases hc
  | @resumed s spec runId db' plan files hsame hplan =>
    have hresume := hres runId rfl
    refine ⟨rfl, ?_, ?_, hcur⟩
    · intro runId' st hc i hi hlen
      -- what is skipped was executed, and the run is resumable
      cases hc
      have hi' : i < startOf plan := hi.trans_le Mark.reached_ready_le
      rcases hrows.start hplan with hmax | ⟨hexec, -⟩
      · simp [Mark.sure, Job.start, hmax] at hi
      · exact (executedAs_of_resumable hresume hlen (hexec i hi')).of_latest (latest_of_steps hsame.steps)
    · -- a listed step is left to execute, so the run's budget covers the list
      intro runId' st hc hne run max hrun hmax idx hle hreach
      cases hc
      obtain ⟨run', hrun', hb⟩ := budgets_of_fixed hsame.runs hrun
      rcases hrows.start hplan with hstart | ⟨-, hnone⟩
      · exact absurd hstart hne
      · have hrow := List.all_eq_true.mp hresume idx (List.mem_range.mpr hreach.1)
        simp only [hnone idx hle, hrun', bind_some, hb, hmax, all_some, decide_eq_true_eq] at hrow
        exact hreach.1.trans_le hrow
  | @created s spec plan run hfresh hb hpos =>
    refine ⟨rfl, ?_, ?_, hcur⟩
    · intro runId st hc i hi
      cases hc
      exact absurd (hi.trans_le Mark.reached_ready_le) (Nat.not_lt_zero i)
    · intro runId st hc hne run' max hrun hmax idx hle hreach
      -- a fresh run's budget is the policy's
      cases hc
      have hrun' : run' = run := by
        have : (({ s.store with runs := s.store.runs ++ [run] } : Store).run? run.id) = some run' := hrun
        rw [run?_created, hfresh] at this
        simpa using this.symm
      have hmax' : max = spec.policy.maxSteps := by
        rw [hrun', hb] at hmax
        exact (some.inj hmax).symm
      rw [hmax']
      rcases hreach.2 with hzero | hlt
      · have hzero' : idx ≤ 0 := hzero
        omega
      · exact hlt
  | notCreated htaken =>
    rw [hfree _ _ rfl] at htaken
    cases htaken
  | @begun s job runId st d k hash now db' hctx hhash happ =>
    refine ⟨by simp [Mark.Bound, Mark.ctx, hctx], ?_, hs.budget.of_fixed happ.runs rfl rfl, hcur⟩
    intro runId' st' hc i hi hlen
    refine (hs.sure runId' st' hc i hi hlen).of_latest (happ.latest_of_ne ?_)
    rintro ⟨-, hstep⟩
    have hi' : i < k := hi
    have : k = i := hstep
    omega
  | @calledBare s job d k call hctx reply =>
    have hb : job.ctx.isSome = true := hs.bound
    rw [hctx] at hb
    cases hb
  | calledUnwritten => exact hwf.elim
  | @journaled s job d k intent result output now db' happ =>
    obtain ⟨hin, hreach, hfor⟩ := hwf
    obtain ⟨row, hlatest, rfl, hstarted⟩ := hs.current
    have hstep : row.intent.stepNo = k := hfor.stepNo
    refine hs.afterCall rfl rfl rfl hs.bound hin happ.runs (fun runId i hi => happ.latest_of_ne ?_) ?_
    · -- the steps before keep their rows
      rintro ⟨-, hi'⟩
      have hlt : i < k := hi
      have : row.intent.stepNo = i := hi'
      omega
    · -- the step itself has a new latest row, under the hash of its intent
      intro hok runId st hc
      have hrun : runId = row.intent.runId := by
        have := hfor.runId
        rw [hc] at this
        exact some.inj this
      refine ⟨outcomeRow row.intent (outcomeFor result) output now, ?_, ?_, hfor.hash⟩
      · rw [hrun, ← hstep]
        exact Appended.latest_outcomeRow hlatest happ
      · simp [outcomeRow, hok, outcomeStr]
  | @notJournaled s job d k intent result output now db' hsame hno =>
    -- `complete_step` had budget left, and the intent was current: it cannot have refused
    obtain ⟨hin, hreach, hfor⟩ := hwf
    obtain ⟨row, hlatest, rfl, hstarted⟩ := hs.current
    obtain ⟨run, hrun⟩ := isSome_iff_exists.mp (hback.run _ hfor.runId)
    have hleft := hno run (budgetLeft_of_current hrows hbud hrun hlatest hstarted)
    rw [VersionedLog.nextVersion_of_latest hlatest] at hleft
    exact absurd hleft (Nat.lt_irrefl _)

theorem Moved.rowsInBudget (h : Moved H () e o s m s' m') (hrows : ScheduledRows s.store) (hwf : m.WF H)
    (hbudget : InBudget s.store m) (hbud : RowsInBudget s.store) : RowsInBudget s'.store := by
  cases h with
  | frame hf => exact hbud.of_fixed hf.store.steps hf.store.runs
  | resumed hsame _ | notJournaled hsame _ => exact hbud.of_fixed hsame.steps hsame.runs
  | @created s spec plan run hfresh hb hpos =>
    intro row hrow run' max hrun' hmax
    -- the row's run was there before the new one
    obtain ⟨old, hold⟩ := isSome_iff_exists.mp (hrows.run row hrow)
    have : (({ s.store with runs := s.store.runs ++ [run] } : Store).run? row.runId) = some run' := hrun'
    rw [run?_created, hold] at this
    simp only [some_or, some.injEq] at this
    exact hbud row hrow old max hold (by rw [this, hmax])
  | @begun s job runId st d k hash now db' hctx hhash happ =>
    refine hbud.appended happ ?_
    intro run max hrun hmax
    exact hbudget.step rfl rfl hwf.1 hwf.2 (congrArg (Option.map Prod.fst) hctx) hrun hmax
  | @journaled s job d k intent result output now db' happ =>
    obtain ⟨hin, hreach, hfor⟩ := hwf
    refine hbud.appended happ ?_
    intro run max hrun hmax
    show intent.stepNo < max
    rw [hfor.stepNo]
    exact hbudget.step rfl rfl hin hreach hfor.runId hrun hmax
  | _ => exact hbud

end Moves

/-! ## Every run -/

section Runs

variable {H : Host} {durableRequired : Bool} {handle : Unit → Worker} {s : Shared Unit} {marks : Unit → Option Mark}

/-- What a single runner keeps. -/
structure AllSound (H : Host) (s : Shared Unit) (marks : Unit → Option Mark) : Prop where
  budget : RowsInBudget s.store
  sound : ∀ m, marks () = some m → Sound H s.store m

/-- A change of the runner that leaves the store alone. -/
theorem AllSound.setRunner (h : AllSound H s marks) (f : RunnerState → RunnerState)
    (hn : ∀ m, n = some m → Sound H s.store m) : AllSound H (s.setRunner () f) (Function.update marks () n) :=
  ⟨h.budget, fun m hm => hn m (by simpa using hm)⟩

theorem sound_preserves : Fleet.Preserves (runners H ⟨true, durableRequired⟩ handle) (runnerDiscipline H)
    (initialMark ⟨true, durableRequired⟩) Walked (fun w o s e => resumesSound H w o s e = true)
    (fun s marks => Base H s marks ∧ AllSound H s marks) := by
  refine Base.preserves ?_ ?_ ?_ ?_ ?_
  · intro w o s e hc
    simp only [resumesSound, Bool.and_eq_true, List.isEmpty_iff] at hc
    exact hc.1
  · intro s marks w spec hb h hw
    refine h.setRunner (fun r => { r with firing := some spec, ctx := none }) ?_
    rintro m ⟨⟩
    refine ⟨trivial, fun runId st hctx => ?_, fun runId st hctx => ?_, trivial⟩ <;> cases hctx
  · intro s marks w m o e s' m' hb h hm hc hmv
    have hwf := hb.wf w m hm
    have hs := h.sound m hm
    have hfiring : (s.runner ()).firing = some m.spec := by
      rw [hb.firing (), hm]
      rfl
    refine ⟨hmv.rowsInBudget hb.rows hwf hs.budget h.budget, ?_⟩
    intro n hn
    rw [Function.update_self] at hn
    cases hn
    refine hmv.sound hb.rows h.budget hwf (hb.backed w m hm) ?_ ?_ hs
    · intro runId ho
      subst ho
      simp only [resumesSound, hfiring, Bool.and_eq_true] at hc
      exact hc.2
    · intro plan budgets ho
      subst ho
      simp only [resumesSound, Bool.and_eq_true, isNone_iff_eq_none] at hc
      exact hc.2
  · intro s marks w m result hb h hm hw
    exact h.setRunner (fun r => { r with firing := none, ctx := none }) (by simp)
  · intro s marks w hb h
    exact h.setRunner (fun _ => .boot) (by simp)

/-- What the runner's trigger has returned and not yet handed over. -/
def reported {W : Type} (s : RunnerFleet W) (w : W) : Option RunOutcome :=
  match s.prog w with
  | some (.ret result) => some (recordOf result).outcome
  | _ => none

/-- **Completed means completed**, in every sequence of triggers, crashes and edits of the spec in which only
    resumable runs are resumed: each call of the spec has a latest row `executed_ok` under its own hash. -/
theorem completed_means_executed_ok (H : Host) (durableRequired : Bool) (handle : Unit → Worker)
    (labels : List (RunnerLabel Unit))
    (h : Machine.Along (runners H ⟨true, durableRequired⟩ handle).step
      (Fleet.Meets fun w o s e => resumesSound H w o s e = true) (.idle emptyShared) labels) :
    let s := Machine.run (runners H ⟨true, durableRequired⟩ handle).step (.idle emptyShared) labels
    reported s () = some .completed → ∃ spec runId start, (s.shared.runner ()).firing = some spec ∧
        (s.shared.runner ()).ctx = some (runId, start) ∧
        ∀ i < spec.calls.length, ExecutedAs H s.shared.store runId spec i := by
  intro s hreported
  have h0 : Base H (emptyShared : Shared Unit) (fun _ => none) ∧ AllSound H emptyShared fun _ => none :=
    ⟨base_empty, by simp [RowsInBudget, emptyShared], by simp⟩
  obtain ⟨marks, ⟨hbase, hall⟩, htracks⟩ := Fleet.invariant sound_preserves h0 h
  -- the trigger has returned: its mark is at the end of the list
  unfold reported at hreported
  split at hreported
  · rename_i result hprog
    obtain ⟨m, hm, hwalked⟩ := htracks.some hprog
    obtain ⟨job, d, idx, rfl, hlen⟩ := hwalked.completed (some.inj hreported)
    have hs := hall.sound _ hm
    obtain ⟨⟨runId, start⟩, hctx⟩ := isSome_iff_exists.mp hs.bound
    refine ⟨job.spec, runId, start, ?_, (hbase.ctx_of hm).trans hctx, ?_⟩
    · rw [hbase.firing (), hm]
      rfl
    · intro i hi
      exact hs.sure runId start hctx i (hi.trans_le hlen) hi
  · cases hreported

end Runs

/-! Two triggers of `demoSpec`. -/

/-- A trigger whose calls all succeed, to its end. -/
theorem completed_means_executed_ok_demo :
    let labels : List (RunnerLabel Unit) :=
      .start () demoSpec :: List.replicate 28 (.step () (demoEnv "1" (.ok "done")))
    let s := Machine.run (runners scheduleHost ⟨true, true⟩ fun _ => demoHandle 1).step (.idle emptyShared) labels
    Machine.Along (runners scheduleHost ⟨true, true⟩ fun _ => demoHandle 1).step
      (Fleet.Meets fun w o s e => resumesSound scheduleHost w o s e = true) (.idle emptyShared) labels ∧
    reported s () = some .completed ∧
    ∃ spec runId start, (s.shared.runner ()).firing = some spec ∧ (s.shared.runner ()).ctx = some (runId, start) ∧
      ∀ i < spec.calls.length, ExecutedAs scheduleHost s.shared.store runId spec i := by
  intro labels s
  have hsound : Machine.Along (runners scheduleHost ⟨true, true⟩ fun _ => demoHandle 1).step
      (Fleet.Meets fun w o s e => resumesSound scheduleHost w o s e = true) (.idle emptyShared) labels := by
    decide +kernel
  have hreported : reported s () = some .completed := by decide +kernel
  exact ⟨hsound, hreported, completed_means_executed_ok scheduleHost true _ labels hsound hreported⟩

/-- The first call fails and the process dies before the retry. The next trigger resumes behind the failed
    step, executes the second call only, and reports Completed. -/
theorem completed_without_executing_first :
    let labels : List (RunnerLabel Unit) :=
      demoTrigger 12 1 ++ .crash () :: .start () demoSpec :: List.replicate 23 (.step () (demoEnv "2" (.ok "done")))
    let s := Machine.run (runners scheduleHost ⟨true, true⟩ fun _ => demoHandle 1).step (.idle emptyShared) labels
    reported s () = some .completed ∧ (s.shared.runner ()).firing = some demoSpec ∧
      (s.shared.runner ()).ctx = some ("run_1", 1) ∧
      s.shared.store.outcomeOf "run_1" 0 = some .executedFailed ∧
      ¬ ∀ i < demoSpec.calls.length, ExecutedAs scheduleHost s.shared.store "run_1" demoSpec i := by
  decide +kernel

end Supercli
