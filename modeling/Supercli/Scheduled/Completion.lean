import Supercli.Runs.Lifecycle
import Supercli.Scheduled.Exclusive

/-!
# `Scheduled.Completion` — what a trigger does after its last attempt

When the attempt loop has ended, `run_trigger` settles the durable run, releases the run's lease, and only
then asks its fence whether it may append the audit record. `LoopEnd` is what the loop leaves behind and
`afterLoop` the rest of the trigger; `runTrigger_eq` says that the two halves are the trigger.

The second half is straight-line code, watched here by a small discipline: which states of the run have been
swept, whether the lease was released, and what the fence said. `stale_worker_untouched_iff` is the result: a worker
that lost its lease leaves the stores alone exactly when there was nothing left to close.
-/

namespace Supercli

open RunsDb Store Prog Function

/-! ## The two halves of a trigger -/

/-- What the attempt loop leaves to the rest of `run_trigger`. -/
structure LoopEnd where
  triggeredAtMs : Nat
  previous : Bool
  durable : Option (String × Nat)
  result : AttemptResult
  denied : List String
deriving DecidableEq, Repr

/-- `run_trigger` up to the end of the attempt loop; a refused trigger has its result already. -/
def untilLoopEnds (H : Host) (cfg : RunnerConfig) (spec : ScheduleSpec) : RunnerM (TriggerResult ⊕ LoopEnd) := do
  let triggeredAtMs : Nat ← ask (.now .triggered)
  let refuse := fun (outcome : RunOutcome) (error : Option String) => do
    let result ← audit ⟨spec.id, spec.sessionId, triggeredAtMs, outcome, 0, [], error⟩
    return .inl result
  match spec.validate with
  | .error e => refuse .failed (some ("invalid schedule: " ++ e.display))
  | .ok () =>
    if !spec.enabled then
      refuse .failed (some "schedule is paused")
    else if cfg.durableRequired && !cfg.hasRunsDb then
      refuse .failed (some ("durable runs unavailable: refusing to fire without journal " ++
        "(explicit opt-out required: allow_unjournaled / --no-durable)"))
    else do
      if !(← ask (.tryBegin spec.id)) then
        refuse .skippedOverlap none
      else
        let previous ← ask .isAutonomous
        ask (.setAutonomous true)
        ask (.setActor ("scheduled:" ++ spec.id))
        let durable ← durableCtx cfg spec triggeredAtMs
        let (result, denied) ← attempts H spec durable spec.policy.maxRetries 0 []
        return .inr ⟨triggeredAtMs, previous, durable, result, denied⟩

/-- The record of the trigger, once the fence has been asked. -/
def recordCompletion (spec : ScheduleSpec) (l : LoopEnd) : RunnerM TriggerResult := do
  let deniedTools := (l.denied.insertionSort (· ≤ ·)).dedup
  match ← ask .fenceCurrent with
  | some false =>
    return .ok ⟨spec.id, spec.sessionId, l.triggeredAtMs, .failed, l.result.steps, deniedTools,
      some ("stale lease: lost the lease mid-run; completion not recorded" ++
        (l.result.error.map fun e => "; last attempt error: " ++ e).getD "")⟩
  | _ =>
    audit ⟨spec.id, spec.sessionId, l.triggeredAtMs, l.result.outcome, l.result.steps, deniedTools, l.result.error⟩

/-- The rest of `run_trigger`. -/
def afterLoop (spec : ScheduleSpec) : TriggerResult ⊕ LoopEnd → RunnerM TriggerResult
  | .inl result => return result
  | .inr l => do
    closeRun l.durable l.result
    let result ← recordCompletion spec l
    ask (.setAutonomous l.previous)
    ask (.endRun spec.id)
    return result

/-- **The two halves are the trigger.** -/
theorem runTrigger_eq :
    runTrigger H cfg spec = untilLoopEnds H cfg spec >>= afterLoop spec := by
  have hrefuse : ∀ record, audit record = (audit record >>= fun r => pure (.inl r)) >>= afterLoop spec := by
    intro record
    rw [bind_assoc]
    exact (bind_ret _).symm
  -- an operation is the head of the same program on both sides
  refine congrArg (Prog.ask (S := runnerSig) (.now .triggered)) (funext fun (t : Nat) => ?_)
  show (match spec.validate with | .error e => _ | .ok () => _) =
    Prog.bind (match spec.validate with | .error e => _ | .ok () => _) _
  cases spec.validate with
  | error => exact hrefuse _
  | ok _ =>
    show (if _ then _ else if _ then _ else _) = Prog.bind (if _ then _ else if _ then _ else _) _
    split
    · exact hrefuse _
    · split
      · exact hrefuse _
      · refine congrArg (Prog.ask (S := runnerSig) (.tryBegin spec.id)) (funext fun (got : Bool) => ?_)
        show (if _ then _ else _) = Prog.bind (if _ then _ else _) _
        split
        · exact hrefuse _
        · refine congrArg (Prog.ask (S := runnerSig) .isAutonomous) (funext fun (previous : Bool) => ?_)
          refine congrArg (Prog.ask (S := runnerSig) (.setAutonomous true)) (funext fun _ => ?_)
          refine congrArg (Prog.ask (S := runnerSig) (.setActor _)) (funext fun _ => ?_)
          show Prog.bind (Prog.bind (durableCtx cfg spec t) _) _ = Prog.bind (Prog.bind (durableCtx cfg spec t) _) _
          rw [bind_bind, bind_bind]
          refine congrArg _ (funext fun durable => ?_)
          show Prog.bind (Prog.bind (attempts H spec durable _ 0 []) _) _ =
            Prog.bind (Prog.bind (attempts H spec durable _ 0 []) _) _
          rw [bind_bind, bind_bind]
          refine congrArg _ (funext fun x => ?_)
          show Prog.bind (Prog.bind (closeRun durable x.1) _) _ = Prog.bind (closeRun durable x.1) _
          rw [bind_bind]
          rfl

/-! ## The second half, watched -/

/-- How far the completion has come: the states the run was moved out of, whether its lease was released,
    and whether the fence was found stale. -/
structure Closing where
  swept : List RunState
  released : Bool
  stale : Option Bool
deriving DecidableEq, Repr

/-- A fence that is installed and not current. -/
def saysStale : Option Bool → Bool
  | some false => true
  | _ => false

section

variable (runId : Option String)

/-- What the completion of a trigger bound to `runId` may do. -/
def nextClosing : Closing → (o : Op) → o.Ans → Option Closing
  | m, .transition id source target, _ =>
    if runId = some id ∧ target.isTerminal ∧ source ∈ openStates then
      some { m with swept := source :: m.swept }
    else none
  | m, .markNeedsReview id, _ => if runId = some id then some { m with swept := openStates } else none
  | m, .releaseRun id, _ => if runId = some id then some { m with released := true } else none
  | m, .fenceCurrent, r => some { m with stale := some (saysStale r) }
  | m, .appendRecord _, _ => if m.stale = some false then some m else none
  | m, .setAutonomous _, _ => some m
  | m, .endRun _, _ => some m
  | _, _, _ => none

/-- The discipline of the completion. -/
def closingDiscipline : Discipline runnerSig Closing := ⟨nextClosing runId⟩

/-- A bound run has been swept and its lease released. -/
def Closing.Finished (m : Closing) : Prop :=
  runId.isSome → openStates ⊆ m.swept ∧ m.released = true

end

section Obeys

variable {runId : String} {m : Closing} {β : Type} {Q : β → Closing → Prop}

theorem sweeps_transition {f : Except RunsError Bool → RunnerM β} (ht : target.isTerminal = true)
    (hs : source ∈ openStates)
    (h : ∀ r, (f r).Obeys (closingDiscipline (some runId)) Q { m with swept := source :: m.swept }) :
    (ask (.transition runId source target) >>= f).Obeys (closingDiscipline (some runId)) Q m :=
  fun r => ⟨_, if_pos ⟨rfl, ht, hs⟩, h r⟩

theorem settle_sweeps (ht : target.isTerminal = true) : (settle runId target).Obeys (closingDiscipline (some runId))
      (fun _ m' => openStates ⊆ m'.swept) m := by
  unfold settle
  refine sweeps_transition ht (by decide) fun _ => ?_
  refine sweeps_transition ht (by decide) fun _ => ?_
  refine sweeps_transition ht (by decide) fun _ => ?_
  refine sweeps_transition ht (by decide) fun _ => ?_
  refine sweeps_transition ht (by decide) fun _ => ?_
  intro st hst
  simp only [openStates, List.mem_cons, List.not_mem_nil, or_false] at hst
  rcases hst with rfl | rfl | rfl | rfl | rfl <;> simp

theorem closeRun_finishes (durable : Option (String × Nat)) (result : AttemptResult) (m : Closing) :
    (closeRun durable result).Obeys (closingDiscipline (durable.map Prod.fst))
      (fun _ m' => m'.Finished (durable.map Prod.fst)) m := by
  cases durable with
  | none => exact nofun
  | some ctx =>
    obtain ⟨runId, start⟩ := ctx
    have hsettle : (settleFor result runId).Obeys (closingDiscipline (some runId))
        (fun _ m' => openStates ⊆ m'.swept) m := by
      unfold settleFor
      split
      · exact settle_sweeps rfl
      · split
        · exact fun r => ⟨_, if_pos rfl, fun _ h => h⟩
        · exact settle_sweeps rfl
    refine Obeys.bind (hsettle.mono ?_)
    intro _ m' hm' r
    exact ⟨_, if_pos rfl, fun _ => ⟨hm', rfl⟩⟩

/-- Appending the record is allowed unless the fence was found stale. -/
theorem recordCompletion_finishes {runId : Option String} (spec : ScheduleSpec) (l : LoopEnd)
    (h : m.Finished runId) :
    (recordCompletion spec l).Obeys (closingDiscipline runId) (fun _ m' => m'.Finished runId) m := by
  intro r
  refine ⟨_, rfl, ?_⟩
  match r with
  | some false => exact h
  | some true | none =>
    intro r'
    refine ⟨_, rfl, ?_⟩
    cases r' <;> exact h

/-- **The completion obeys its discipline.** -/
theorem afterLoop_finishes (spec : ScheduleSpec) (l : LoopEnd) (m : Closing) :
    (afterLoop spec (.inr l)).Obeys (closingDiscipline (l.durable.map Prod.fst))
      (fun _ m' => m'.Finished (l.durable.map Prod.fst)) m := by
  refine Obeys.bind ((closeRun_finishes l.durable l.result m).mono ?_)
  intro _ m₁ h₁
  refine Obeys.bind ((recordCompletion_finishes spec l h₁).mono ?_)
  intro result m₂ h₂
  exact fun _ => ⟨_, rfl, fun _ => ⟨_, rfl, h₂⟩⟩

/-- The completion is at most ten operations. -/
theorem afterLoop_within : (afterLoop spec (.inr l)).Within 10 := by
  have hclose : (closeRun l.durable l.result).Within 6 := by
    unfold closeRun
    split
    · exact within_ret
    · refine Within.bind (n := 5) (k := 1) ?_ fun _ _ => within_ret
      unfold settleFor settle
      split
      · exact fun _ _ _ _ _ => within_ret
      · split
        · exact fun _ => within_ret
        · exact fun _ _ _ _ _ => within_ret
  have hrecord : (recordCompletion spec l).Within 2 := by
    intro r
    match r with
    | some false => exact within_ret
    | some true | none => exact fun r' => by cases r' <;> exact within_ret
  exact Within.bind (n := 6) (k := 4) hclose fun _ =>
    Within.bind (n := 2) (k := 2) hrecord fun _ _ _ => within_ret

end Obeys

/-! ## A worker that lost its lease -/

/-- There is nothing the completion would close: the trigger has no durable run, or the run is settled and
    the handle does not own its lease. -/
def NothingToClose (handle : Worker) (durable : Option (String × Nat)) (db : Store) : Prop :=
  ∀ runId ∈ durable.map Prod.fst, db.Avoids runId openStates ∧
    ∀ row, db.leases (handle.tenant, runId) = some row → row.owner ≠ handle.owner

/-- An `UPDATE runs` whose condition no row of the run meets. -/
theorem updateRun_eq_self {db : Store} {cond : Run → Bool} {set : Run → Run}
    (h : ∀ r ∈ db.runs, r.id = runId → cond r = false) : (db.updateRun runId cond set).2 = db := by
  have hmap : (db.runs.map fun r => if r.id == runId && cond r then set r else r) = db.runs := by
    refine (List.map_congr_left ?_).trans (List.map_id db.runs)
    intro r hr
    refine if_neg ?_
    by_cases hid : r.id = runId
    · simp [h r hr hid]
    · simp [hid]
  simp only [updateRun, hmap]

section Untouched

variable {W : Type} [DecidableEq W] {H : Host} {handle : Worker} {w : W} {durable : Option (String × Nat)}
  {s₀ s : Shared W} {m m' : Closing} {e : Env} {o : Op}

/-- While there is nothing to close, nothing is written; and nothing is ever appended to the audit file by a
    worker whose fence is stale. -/
structure Kept (handle : Worker) (durable : Option (String × Nat)) (s₀ : Shared W) (m : Closing) (s : Shared W) :
    Prop where
  store : NothingToClose handle durable s₀.store → s.store = s₀.store
  records : s.records = s₀.records
  stale : m.stale ≠ some false

omit [DecidableEq W] in
/-- A method that writes nothing when there is nothing to close. -/
theorem Kept.of_sql {α : Type} {method : RunsM α} (h : Kept handle durable s₀ m s)
    (hsql : NothingToClose handle durable s.store →
      Stable (fun db => db = s.store) method) : Kept handle durable s₀ m (s.sql e method).2 := by
  rw [sql_store]
  refine ⟨?_, h.records, h.stale⟩
  intro hno
  have hstore := h.store hno
  rw [← hstore] at hno ⊢
  exact hsql hno ⟨s.store, e.dbNow, e.files, e.faults⟩ rfl

/-- **Step lemma**, whatever fails. -/
theorem kept_step (h : Kept handle durable s₀ m s) (he : e.fence = some false)
    (hnext : nextClosing (durable.map Prod.fst) m o (answer H handle w o s e).1 = some m') :
    Kept handle durable s₀ m' (answer H handle w o s e).2 := by
  cases o with
  | transition id source target =>
    obtain ⟨⟨hid, -, hsource⟩, ⟨⟩⟩ := Option.ite_none_right_eq_some.mp hnext
    refine Kept.of_sql (m := { m with swept := source :: m.swept }) ⟨h.store, h.records, h.stale⟩ ?_
    intro hno
    apply stable_statement
    rintro db now a db' rfl ⟨⟩
    refine updateRun_eq_self fun r hr hrun => ?_
    have havoid := (hno id hid).1 r hr hrun
    refine decide_eq_false ?_
    rintro rfl
    exact havoid hsource
  | markNeedsReview id =>
    obtain ⟨hid, ⟨⟩⟩ := Option.ite_none_right_eq_some.mp hnext
    refine Kept.of_sql (m := { m with swept := openStates }) ⟨h.store, h.records, h.stale⟩ ?_
    intro hno
    apply stable_statement
    rintro db now a db' rfl ⟨⟩
    refine updateRun_eq_self fun r hr hrun => ?_
    have havoid := (hno id hid).1 r hr hrun
    cases hst : r.state <;> simp_all [openStates]
  | releaseRun id =>
    obtain ⟨hid, ⟨⟩⟩ := Option.ite_none_right_eq_some.mp hnext
    refine Kept.of_sql (m := { m with released := true }) ⟨h.store, h.records, h.stale⟩ ?_
    intro hno
    apply stable_statement
    rintro db now a db' rfl ⟨⟩
    rw [ScheduleLeases.release_of_owner_ne (hno id hid).2]
  | fenceCurrent =>
    simp only [nextClosing, answer, he, Option.some.injEq] at hnext ⊢
    subst hnext
    exact ⟨h.store, h.records, by simp [saysStale]⟩
  | appendRecord =>
    simp only [nextClosing, Option.ite_none_right_eq_some] at hnext
    exact absurd hnext.1 h.stale
  | setAutonomous _ | endRun _ =>
    cases hnext
    exact ⟨h.store, h.records, h.stale⟩
  | now site => cases site <;> cases hnext
  | _ => cases hnext

/-- Of a bound run, no row is in a swept state, and its lease is not the handle's once released. -/
structure Closed (handle : Worker) (durable : Option (String × Nat)) (m : Closing) (db : Store) : Prop where
  sweptOpen : m.swept ⊆ openStates
  swept : ∀ runId ∈ durable.map Prod.fst, db.Avoids runId m.swept
  released : m.released = true → ∀ runId ∈ durable.map Prod.fst, ∀ row,
    db.leases (handle.tenant, runId) = some row → row.owner ≠ handle.owner

theorem not_open_of_terminal (h : st.isTerminal = true) : st ∉ openStates := by
  cases st <;> simp_all [openStates, RunState.isTerminal]

/-- A released lease has no owner, so it is not the handle's. -/
theorem owner_ne_of_release
    (h : ScheduleLeases.release handle runId t (handle.tenant, runId) = some row) : row.owner ≠ handle.owner := by
  rcases ScheduleLeases.release_cases handle runId t with ⟨prev, -, -, hrel⟩ | hrel
  · rw [hrel, update_self] at h
    cases h
    exact fun hc => handle.owner_ne_empty hc.symm
  · intro hown
    rw [hrel] at h
    -- an own row is always tombstoned
    have htomb : ScheduleLeases.release handle runId t =
        update t (handle.tenant, runId) (some { row with owner := "", expiresAtMs := 0 }) := by
      simp [ScheduleLeases.release, h, hown]
    have hsame := congrFun (hrel.symm.trans htomb) (handle.tenant, runId)
    rw [h, update_self] at hsame
    have : row.owner = "" := congrArg LeaseRow.owner (Option.some.inj hsame)
    exact handle.owner_ne_empty (hown.symm.trans this)

/-- **Step lemma**, when no statement fails. -/
theorem closed_step (h : Closed handle durable m s.store) (he : e.faults = [])
    (hnext : nextClosing (durable.map Prod.fst) m o (answer H handle w o s e).1 = some m') :
    Closed handle durable m' (answer H handle w o s e).2.store := by
  cases o with
  | transition id source target =>
    obtain ⟨⟨hid, ht, hsource⟩, ⟨⟩⟩ := Option.ite_none_right_eq_some.mp hnext
    have hsql : s.sql e (transition id source target) = _ := sql_ok he rfl
    have hopen : source :: m.swept ⊆ openStates := List.cons_subset.mpr ⟨hsource, h.sweptOpen⟩
    simp only [answer, hsql]
    refine ⟨hopen, ?_, h.released⟩
    intro runId hrun
    rw [hid] at hrun
    cases hrun
    exact avoids_transition (c := ⟨s.store, e.dbNow, e.files, []⟩) rfl (h.swept id hid)
      fun hmem => not_open_of_terminal ht (hopen hmem)
  | markNeedsReview id =>
    obtain ⟨hid, ⟨⟩⟩ := Option.ite_none_right_eq_some.mp hnext
    have hsql : s.sql e (markNeedsReview id) = _ := sql_ok he rfl
    simp only [answer, hsql]
    refine ⟨List.Subset.refl _, ?_, h.released⟩
    intro runId hrun
    rw [hid] at hrun
    cases hrun
    exact avoids_markNeedsReview (c := ⟨s.store, e.dbNow, e.files, []⟩) rfl
  | releaseRun id =>
    obtain ⟨hid, ⟨⟩⟩ := Option.ite_none_right_eq_some.mp hnext
    have hsql : s.sql e (releaseRun handle id) = _ := sql_ok he rfl
    simp only [answer, hsql]
    refine ⟨h.sweptOpen, h.swept, ?_⟩
    intro _ runId hrun row hrow
    rw [hid] at hrun
    cases hrun
    exact owner_ne_of_release hrow
  | fenceCurrent =>
    cases hnext
    exact ⟨h.sweptOpen, h.swept, h.released⟩
  | appendRecord =>
    obtain ⟨-, ⟨⟩⟩ := Option.ite_none_right_eq_some.mp hnext
    simp only [answer]
    split <;> exact h
  | setAutonomous _ | endRun _ =>
    cases hnext
    exact h
  | now site => cases site <;> cases hnext
  | _ => cases hnext

end Untouched

/-- **A worker that lost its lease.** The trigger is what comes before the end of the attempt loop followed
    by the completion. From every state the loop may end in, with any durable context and any result of the
    attempts, a completion whose fence is stale returns and appends nothing to `scheduled-runs.jsonl`; it
    leaves the stores alone if there was nothing to close, whatever fails, and only then if nothing fails. -/
theorem stale_worker_untouched_iff {W : Type} [DecidableEq W] (H : Host) (cfg : RunnerConfig) (spec : ScheduleSpec)
    (handle : Worker) (w : W) (l : LoopEnd) (s : Shared W) (es : List Env)
    (hstale : ∀ e ∈ es, e.fence = some false) (hes : 10 ≤ es.length) :
    runTrigger H cfg spec = (untilLoopEnds H cfg spec >>= afterLoop spec) ∧
    ∃ result s', (afterLoop spec (.inr l)).exec (runnerWorld H handle w) s es = some (result, s') ∧
      s'.records = s.records ∧
      (NothingToClose handle l.durable s.store → s'.store = s.store) ∧
      ((∀ e ∈ es, e.faults = []) → s'.store = s.store → NothingToClose handle l.durable s.store) := by
  obtain ⟨⟨result, s'⟩, hrun⟩ := exec_of_within (W := runnerWorld H handle w) afterLoop_within s hes
  have hobeys := afterLoop_finishes spec l ⟨[], false, none⟩
  obtain ⟨m, -, hkept⟩ := exec_sound (Kept handle l.durable s) (fun e => e.fence = some false)
    (fun m o s e m' h he hnext => kept_step h he hnext) hobeys ⟨fun _ => rfl, rfl, by simp⟩ hstale hrun
  refine ⟨runTrigger_eq, result, s', hrun, hkept.records, hkept.store, ?_⟩
  intro hquiet hsame runId hrunId
  obtain ⟨m', hfin, hclosed⟩ := exec_sound (fun m s => Closed handle l.durable m s.store) (fun e => e.faults = [])
    (fun m o s e m' h he hnext => closed_step h he hnext) hobeys
    ⟨List.nil_subset _, fun _ _ _ _ _ => List.not_mem_nil, by simp⟩ hquiet hrun
  obtain ⟨hswept, hreleased⟩ := hfin (Option.isSome_iff_exists.mpr ⟨runId, hrunId⟩)
  rw [← hsame]
  constructor
  · intro r hr hid hopen
    exact hclosed.swept runId hrunId r hr hid (hswept hopen)
  · exact hclosed.released hreleased runId hrunId

/-- The environment of a process whose fence is stale. -/
def staleEnv : Env := { demoEnv "1" (.err (.staleLeaseFor "nightly") false) with fence := some false }

/-- The attempts of a run that was settled meanwhile end with a stale lease: nothing is touched. -/
theorem stale_worker_untouched_settled :
    let l : LoopEnd := ⟨0, false, some ("run_1", 0), ⟨.failed, 0, [], some "stale lease", false, true⟩, []⟩
    let s : Shared Unit := { emptyShared with store := { (emptyShared : Shared Unit).store with
      runs := [⟨"run_1", none, .done, "", ⟨none, none, none⟩, none, 0, 0, 0, 0⟩] } }
    ∃ result s', (afterLoop demoSpec (.inr l)).exec (runnerWorld scheduleHost (demoHandle 1) ()) s
        (List.replicate 10 staleEnv) = some (result, s') ∧ s'.records = [] ∧ s'.store = s.store := by
  intro l s
  obtain ⟨-, result, s', hrun, hrecords, hkept, -⟩ := stale_worker_untouched_iff scheduleHost ⟨true, true⟩ demoSpec
    (demoHandle 1) () l s (List.replicate 10 staleEnv)
    (fun e he => by rw [List.eq_of_mem_replicate he]; rfl) (by simp)
  refine ⟨result, s', hrun, hrecords, hkept ?_⟩
  rintro runId ⟨⟩
  refine ⟨?_, nofun⟩
  rintro r hr -
  rw [List.mem_singleton.mp hr]
  decide

/-- The first process is between its calls when its leases lapse. The second one takes the run over and has
    begun the second step. The first process finds its lease stale, gives up, and moves the run that the second
    one is executing to FAILED before it asks its fence. -/
theorem stale_worker_fails_taken_over_run : let late : Env := { demoEnv "2" (.ok "done") with dbNow := 100000 }
    let atLoopEnd := Machine.run (runners scheduleHost ⟨true, true⟩ twoHandles).step (.idle emptyShared)
      (.start true demoSpec :: makes true 14 ++ .start false demoSpec :: List.replicate 11 (.step false late) ++
        List.replicate 4 (.step true staleEnv))
    let after := Machine.run (runners scheduleHost ⟨true, true⟩ twoHandles).step atLoopEnd
      (List.replicate 5 (.step true staleEnv))
    (atLoopEnd.shared.store.leases ("", "run_1")).map LeaseRow.owner = some (twoHandles false).owner ∧
    (atLoopEnd.shared.store.run? "run_1").map Run.state = some .executingTools ∧
    (after.shared.store.run? "run_1").map Run.state = some .failed ∧
    (after.shared.runner false).ctx = some ("run_1", 1) := by
  decide +kernel

end Supercli
