import Supercli.Scheduled.Base

/-!
# `Scheduled.Exclusive` — runners of different processes in one durable run

Any number of runners fire triggers over one `runs.db`, their operations interleaved in any order. A runner
that finds an orphaned run of its schedule resumes it, and asks for the run's lease only afterwards; it
ignores the answer (`let _ ← ask (.claimRun …)`). A run whose trigger is still in progress in another
process looks like an orphan: it is not terminal.

What keeps two runners apart is only the journal: while a call is in flight its `started` row sends every
resume to review. Between two calls nothing does. If no runner resumes a run then, each step of each run is
executed by one runner (`each_step_by_one_runner`).
-/

namespace Supercli

open RunsDb Store

variable {W : Type}

/-- No step of a durable run is passed to an executor by two runners. -/
def SingleExecution (trace : List (Event W)) : Prop :=
  ∀ v w runId i r r', .called v (some runId) i r ∈ trace → .called w (some runId) i r' ∈ trace → v = w

/-- The runner has a trigger in progress that executes steps of the run. -/
def Executes (s : Shared W) (w : W) (runId : String) : Prop :=
  ∃ start, (s.runner w).ctx = some (runId, start) ∧ start ≠ u64Max

instance (s : Shared W) (w : W) (runId : String) : Decidable (Executes s w runId) :=
  match hctx : (s.runner w).ctx with
  | none => .isFalse (by simp [Executes, hctx])
  | some (runId', start) =>
    decidable_of_iff (runId' = runId ∧ start ≠ u64Max) (by
      simp only [Executes, hctx, Option.some.injEq, Prod.mk.injEq]
      constructor
      · rintro ⟨rfl, hne⟩
        exact ⟨start, ⟨rfl, rfl⟩, hne⟩
      · rintro ⟨start', ⟨rfl, rfl⟩, hne⟩
        exact ⟨rfl, hne⟩)

/-- Some step of the run is in flight, or waits for a human. -/
def Undecided (db : Store) (runId : String) : Prop :=
  ∃ row ∈ db.journal runId,
    db.outcomeOf runId row.stepNo = some .started ∨ db.outcomeOf runId row.stepNo = some .ambiguous

/-- Nobody else executes the run, or one of its steps is undecided. -/
def Alone (s : Shared W) (w : W) (runId : String) : Prop :=
  (∀ v, v ≠ w → ¬ Executes s v runId) ∨ Undecided s.store runId

/-- No statement fails, and a runner resumes a run only while it is alone there. -/
def ResumesAlone (w : W) (o : Op) (s : Shared W) (e : Env) : Prop :=
  e.faults = [] ∧ match o with
    | .resumeRun runId => Alone s w runId
    | _ => True

instance [DecidableEq W] [Fintype W] (w : W) (o : Op) (s : Shared W) (e : Env) :
    Decidable (ResumesAlone w o s e) := by
  unfold ResumesAlone Alone Undecided
  cases o <;> infer_instance

theorem start_of_undecided (hrows : ScheduledRows db) (hp : PlanOk H files runId db plan) (hu : Undecided db runId) :
    startOf plan = u64Max := by
  obtain ⟨row, -, hk⟩ := hu
  generalize row.stepNo = k at hk
  rcases hrows.start hp with hmax | ⟨hexec, hnone⟩
  · exact hmax
  · exfalso
    -- before the start every step is executed, from there on none has a row
    by_cases hlt : k < startOf plan
    · obtain ⟨row, hl, ho⟩ := hexec k hlt
      have houtcome : db.outcomeOf runId k = row.outcome := by
        rw [outcomeOf, hl]
        rfl
      rw [houtcome] at hk
      rcases ho with ho | ho <;> rw [ho] at hk <;> rcases hk with hk | hk <;> cases hk
    · have hl := hnone k (Nat.le_of_not_lt hlt)
      rw [outcomeOf, hl] at hk
      rcases hk with hk | hk <;> cases hk

/-! ## The invariant -/

/-- What runners keep that resume alone. -/
structure Apart (s : Shared W) : Prop where
  executes : ∀ v w runId, Executes s v runId → Executes s w runId → v = w
  mine : ∀ w runId start, (s.runner w).ctx = some (runId, start) → start ≠ u64Max →
    ∀ v i reply, .called v (some runId) i reply ∈ s.trace → start ≤ i → v = w
  single : SingleExecution s.trace

section Moves

variable [DecidableEq W] {H : Host} {w : W} {e : Env} {o : Op} {s s' : Shared W} {m m' : Mark}
  {marks : W → Option Mark}

/-- Binding a context aside, no runner's context changes. -/
theorem Moved.ctx_cases (h : Moved H w e o s m s' m') : (∀ v, (s'.runner v).ctx = (s.runner v).ctx) ∨
      (s'.trace = .lookup w m'.ctx.isSome :: s.trace ∧ (s'.runner w).ctx = m'.ctx ∧ ((m'.ctx = none) ∨
          (∃ run : Run, s.store.run? run.id = none ∧ m'.ctx = some (run.id, 0)) ∨
          ∃ runId plan files, o = .resumeRun runId ∧ PlanOk H files runId s.store plan ∧
            m'.ctx = some (runId, startOf plan))) := by
  cases h with
  | frame hf => exact .inl hf.ctx
  | @resumed s spec runId db' plan files hsame hplan =>
    refine .inr ⟨rfl, by simp [Mark.ctx], ?_⟩
    exact .inr (.inr ⟨runId, plan, files, rfl, hplan, rfl⟩)
  | @created s spec plan run hfresh hb hpos =>
    refine .inr ⟨rfl, by simp [Mark.ctx], ?_⟩
    exact .inr (.inl ⟨run, hfresh, rfl⟩)
  | notCreated =>
    exact .inr ⟨rfl, by simp [Mark.ctx], .inl rfl⟩
  | _ => exact .inl fun _ => rfl

omit [DecidableEq W] in
/-- The runner whose call is armed executes the run, from its start on. -/
theorem executes_of_armed (hb : Base H s marks) (hm : marks w = some (.armed job d i (some intent)))
    (hrun : (Mark.armed job d i (some intent)).runId = some runId) :
    ∃ start, (s.runner w).ctx = some (runId, start) ∧ start ≠ u64Max ∧ start ≤ i := by
  obtain ⟨⟨runId', start⟩, hctx, rfl⟩ := Option.map_eq_some_iff.mp hrun
  obtain ⟨hin, -, -⟩ := hb.wf w _ hm
  have hstart : job.start = start := by
    have : job.ctx = some (runId', start) := hctx
    simp [Job.start, this]
  exact ⟨start, (hb.ctx_of hm).trans hctx, hstart ▸ hin.start_ne, hstart ▸ hin.start_le⟩

/-- A move that binds no context. The only new call is the armed one, and its runner has the run for
    itself. -/
theorem Apart.step (h : Apart s) (hb : Base H s marks) (hm : marks w = some m) (hmv : Moved H w e o s m s' m')
    (hctx : ∀ v, (s'.runner v).ctx = (s.runner v).ctx) : Apart s' := by
  have hwf := hb.wf w m hm
  have back : ∀ {v runId}, Executes s' v runId → Executes s v runId := by
    intro v runId hex
    obtain ⟨start, hc, hne⟩ := hex
    exact ⟨start, (hctx v).symm.trans hc, hne⟩
  -- whoever executes the run of a new call is the one who made it
  have new : ∀ {v runId i reply}, Event.called v (some runId) i reply ∈ s'.trace →
      Event.called v (some runId) i reply ∈ s.trace ∨
        ∃ start, v = w ∧ (s.runner w).ctx = some (runId, start) ∧ start ≠ u64Max ∧ start ≤ i := by
    intro v runId i reply hmem
    rcases hmv.called_cases hwf hmem with hold | ⟨rfl, hrun, job, d, intent, rfl⟩
    · exact .inl hold
    · obtain ⟨start, hc, hne, hle⟩ := executes_of_armed hb hm hrun
      exact .inr ⟨start, rfl, hc, hne, hle⟩
  refine ⟨fun v u runId hv hu => h.executes v u runId (back hv) (back hu), ?_, ?_⟩
  · intro u runId start hc hne v i reply hmem hle
    rw [hctx] at hc
    rcases new hmem with hold | ⟨start', rfl, hc', hne', -⟩
    · exact h.mine u runId start hc hne v i reply hold hle
    · exact h.executes v u runId ⟨start', hc', hne'⟩ ⟨start, hc, hne⟩
  · intro v u runId i r r' hv hu
    -- two old calls, an old one and the new one in either order, or the new one twice
    rcases new hv with hv | ⟨start, rfl, hc, hne, hle⟩ <;> rcases new hu with hu | ⟨start', rfl, hc', hne', hle'⟩
    · exact h.single v u runId i r r' hv hu
    · exact h.mine u runId start' hc' hne' v i r hv hle'
    · exact (h.mine v runId start hc hne u i r' hu hle).symm
    · rfl

/-- A runner binds a context: the run is fresh, or nobody else executes it, or it is not to be executed. -/
theorem Apart.bind (h : Apart s) (htrace : ∀ v runId i reply, Event.called v (some runId) i reply ∈ s'.trace →
      Event.called v (some runId) i reply ∈ s.trace)
    (hother : ∀ v, v ≠ w → (s'.runner v).ctx = (s.runner v).ctx)
    (halone : ∀ runId start, (s'.runner w).ctx = some (runId, start) → start ≠ u64Max →
      (∀ v, v ≠ w → ¬ Executes s v runId) ∧
        ∀ v i reply, Event.called v (some runId) i reply ∈ s.trace → ¬ start ≤ i) : Apart s' := by
  have back : ∀ {v runId}, v ≠ w → Executes s' v runId → Executes s v runId := by
    intro v runId hv hex
    obtain ⟨start, hc, hne⟩ := hex
    exact ⟨start, (hother v hv).symm.trans hc, hne⟩
  refine ⟨?_, ?_, fun v u runId i r r' hv hu =>
    h.single v u runId i r r' (htrace _ _ _ _ hv) (htrace _ _ _ _ hu)⟩
  · intro v u runId hv hu
    -- the binder is alone in its run, and the others were apart before
    by_cases hvw : v = w <;> by_cases huw : u = w
    · rw [hvw, huw]
    · subst hvw
      obtain ⟨start, hc, hne⟩ := hv
      exact absurd (back huw hu) ((halone runId start hc hne).1 u huw)
    · subst huw
      obtain ⟨start, hc, hne⟩ := hu
      exact absurd (back hvw hv) ((halone runId start hc hne).1 v hvw)
    · exact h.executes v u runId (back hvw hv) (back huw hu)
  · intro u runId start hc hne v i reply hmem hle
    by_cases huw : u = w
    · subst huw
      exact absurd hle ((halone runId start hc hne).2 v i reply (htrace _ _ _ _ hmem))
    · rw [hother u huw] at hc
      exact h.mine u runId start hc hne v i reply (htrace _ _ _ _ hmem) hle

/-- **Step lemma.** -/
theorem Moved.apart (hmv : Moved H w e o s m s' m') (hb : Base H s marks) (hm : marks w = some m)
    (hc : ResumesAlone w o s e) (h : Apart s) : Apart s' := by
  rcases hmv.ctx_cases with hsame | ⟨htrace, hctx, hbound⟩
  · exact h.step hb hm hmv hsame
  · refine h.bind ?_ (fun v hv => (hmv.other hv).1) ?_
    · intro v runId i reply hmem
      rw [htrace] at hmem
      rcases List.mem_cons.mp hmem with heq | hold
      · cases heq
      · exact hold
    · intro runId start hbind hne
      rw [hctx] at hbind
      rcases hbound with hnone | ⟨run, hfresh, hrun⟩ | ⟨runId', plan, files, rfl, hplan, hresume⟩
      · rw [hnone] at hbind
        cases hbind
      · -- a fresh run: nobody has it, and nothing was called for it
        rw [hrun] at hbind
        cases hbind
        refine ⟨?_, ?_⟩
        · intro v _ hex
          obtain ⟨start, hcv, -⟩ := hex
          have hthere := hb.run_of_ctx hcv
          rw [hfresh] at hthere
          cases hthere
        · intro v i reply hmem _
          have hrow := hb.called v run.id i reply hmem
          rw [hb.rows.latest_of_no_run hfresh] at hrow
          cases hrow
      · -- a resumed run: it starts behind the last row, so behind the last call
        rw [hresume] at hbind
        cases hbind
        refine ⟨?_, ?_⟩
        · -- an undecided run is sent to review, and then not executed
          have halone : Alone s w runId := hc.2
          rcases halone with halone | hu
          · exact halone
          · exact absurd (start_of_undecided hb.rows hplan hu) hne
        · intro v i reply hmem hle
          rcases hb.rows.start hplan with hmax | ⟨-, hnone⟩
          · exact hne hmax
          · have hrow := hb.called v runId i reply hmem
            rw [hnone i hle] at hrow
            cases hrow

/-- A runner that begins or ends a trigger, or dies, executes nothing. -/
theorem Apart.setRunner (h : Apart s) (w : W) (f : RunnerState → RunnerState)
    (hf : (f (s.runner w)).ctx = none) : Apart (s.setRunner w f) := by
  refine h.bind (w := w) (fun v runId i reply hmem => hmem) ?_ ?_
  · intro v hv
    simp [Function.update_of_ne hv]
  · intro runId start hc
    simp [hf] at hc

end Moves

/-! ## Every run -/

/-- **Each step of each durable run is executed by one runner**, for any number of runners in any interleaving
    with crashes anywhere, as long as runs are resumed alone. -/
theorem each_step_by_one_runner [DecidableEq W] (H : Host) (cfg : RunnerConfig) (handle : W → Worker)
    (labels : List (RunnerLabel W))
    (h : Machine.Along (runners H cfg handle).step (Fleet.Meets ResumesAlone) (.idle emptyShared) labels) :
    SingleExecution (Machine.run (runners H cfg handle).step (.idle emptyShared) labels).shared.trace := by
  have hkeeps : Fleet.Preserves (runners H cfg handle) (runnerDiscipline H) (initialMark cfg) Walked
      ResumesAlone (fun s marks => Base H s marks ∧ Apart s) := by
    refine Base.preserves (fun w o s e hc => hc.1) ?_
      (fun s marks w m o e s' m' hb h hm hc hmv => hmv.apart hb hm hc h)
      ?_ ?_
    · intro s marks w spec hb h hw
      exact h.setRunner w (fun r => { r with firing := some spec, ctx := none }) rfl
    · intro s marks w m result hb h hm hw
      exact h.setRunner w (fun r => { r with firing := none, ctx := none }) rfl
    · intro s marks w hb h
      exact h.setRunner w (fun _ => .boot) rfl
  have h0 : Base H (emptyShared : Shared W) (fun _ => none) ∧ Apart (emptyShared : Shared W) := by
    refine ⟨base_empty, ?_, ?_, ?_⟩
    · rintro v w runId ⟨start, hc, -⟩
      cases hc
    · intro w runId start hc
      cases hc
    · intro v w runId i r r' hv
      cases hv
  obtain ⟨marks, ⟨-, hapart⟩, -⟩ := Fleet.invariant hkeeps h0 h
  exact hapart.single

/-! Two processes, `true` and `false`, fire `demoSpec` over one store. No lease expires: the database clock
stands still, and leases last a minute. -/

/-- The stores' handles of the two processes. -/
def twoHandles : Bool → Worker
  | true => demoHandle 1
  | false => demoHandle 2

/-- One process fires `demoSpec` and makes its next `n` operations; every call succeeds. -/
def makes (w : Bool) (n : Nat) : List (RunnerLabel Bool) :=
  List.replicate n (.step w (demoEnv "1" (.ok "done")))

/-- The first process dies after its first call; the second one resumes the run alone and goes on. -/
theorem each_step_by_one_runner_after_crash :
    let labels := .start true demoSpec :: makes true 14 ++ .crash true :: .start false demoSpec :: makes false 12
    Machine.Along (runners scheduleHost ⟨true, true⟩ twoHandles).step (Fleet.Meets fun w o s e => ResumesAlone w o s e)
      (.idle emptyShared) labels ∧
    SingleExecution
      (Machine.run (runners scheduleHost ⟨true, true⟩ twoHandles).step (.idle emptyShared) labels).shared.trace := by
  intro labels
  have halone : Machine.Along (runners scheduleHost ⟨true, true⟩ twoHandles).step (Fleet.Meets fun w o s e => ResumesAlone w o s e)
      (.idle emptyShared) labels := by
    decide +kernel
  exact ⟨halone, each_step_by_one_runner _ _ _ _ halone⟩

/-- The second process fires while the first one is between its calls: it resumes the run, does not get the
    lease, and executes the second call; so does the first process. -/
theorem two_runners_execute_one_step :
    ¬ SingleExecution (Machine.run (runners scheduleHost ⟨true, true⟩ twoHandles).step (.idle emptyShared)
      (.start true demoSpec :: makes true 14 ++ .start false demoSpec :: makes false 12 ++ makes true 3)).shared.trace := by
  intro h
  have := h true false "run_1" 1 (.ok "done") (.ok "done") (by decide +kernel) (by decide +kernel)
  cases this

end Supercli
