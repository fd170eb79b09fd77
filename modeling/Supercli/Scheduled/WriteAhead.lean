import Supercli.Scheduled.Base

/-!
# `Scheduled.WriteAhead` — the journal before and after a call

Two questions about the journaling of a single trigger, both decided by what the store and the executor
answer.

*Before the call.* With `durable_required` the runner refuses to fire without a store, but it goes on when
the store fails: a failed lookup leaves it without a durable run (`return none`), and a failed `begin_step`
without an intent (`.ok()`); the tool is called all the same. `write_ahead_iff` says exactly when every call
has its `started` row on stable storage first.

*After the call.* A failed call is journaled as executed unless it is uncertain. The runner does not look at
why it failed, so a call that was refused and never sent is journaled `executed_failed` as well.
`journal_honest_iff` says exactly when the journal claims no execution that did not happen.
-/

namespace Supercli

open RunsDb Store Prog Option

/-! ## Before the call -/

/-- An attempt begins. -/
def Event.isAttempt : Event Unit → Bool
  | .attempt _ => true
  | _ => false

section

variable (trace : List (Event Unit))

/-- The events of the attempt in progress, of a trace that is newest first. -/
def thisAttempt : List (Event Unit) := trace.takeWhile fun ev => !ev.isAttempt

/-- The event is the durable `started` row of step `i` of the run. -/
def isStarted (runId : Option String) (i : Nat) : Event Unit → Bool
  | .begun _ runId' i' durable => runId = some runId' && i = i' && durable
  | _ => false

/-- Every call comes after a durable `started` row for its step, written in the same attempt. -/
def writtenAhead : List (Event Unit) → Bool
  | [] => true
  | .called _ runId i _ :: older => (thisAttempt older).any (isStarted runId i) && writtenAhead older
  | _ :: older => writtenAhead older

/-- Every `begin_step` got its row onto stable storage. -/
def allBegun : Bool :=
  trace.all fun ev => match ev with
    | .begun _ _ _ durable => durable
    | _ => true

/-- Every `list_runs`, `resume_run` and `create_run` succeeded. -/
def allLookups : Bool :=
  trace.all fun ev => match ev with
    | .lookup _ ok => ok
    | _ => true

/-- Every deadline check found the deadline passed. -/
def allLate : Bool :=
  trace.all fun ev => match ev with
    | .deadline _ late => late
    | _ => true

/-- What the store and the clock answered serves writing ahead: every intent was written, and the durable run
    was found or created unless no call was due anyway. -/
def storeServes : Bool :=
  allBegun trace && (allLookups trace || allLate trace)

/-- The two agree on the trace so far. -/
def Sync : Prop := writtenAhead trace = storeServes trace

/-- In the attempt in progress only steps below `idx` were begun. -/
def BegunBelow (idx : Nat) : Prop :=
  ∀ w runId i durable, Event.begun w runId i durable ∈ thisAttempt trace → i < idx

/-- Between two steps of a job: the job is without a durable run exactly if a lookup failed. -/
structure Between (job : Job) : Prop where
  lookups : allLookups trace = job.ctx.isSome
  sync : Sync trace

/-- What the trace is when a trigger stands at a mark. Only between the deadline check and the call the two
    sides of `Sync` may differ, and there the mark says how the trace ends. -/
def Ledger : Mark → Prop
  | .entering _ | .found _ _ => ∀ ev ∈ trace, ev = .lookup () true
  | .ready job | .failed job => Between trace job
  | .head job _ idx => Between trace job ∧ BegunBelow trace idx
  | .due job _ idx =>
    ∃ before, trace = .deadline () false :: before ∧ Between before job ∧ BegunBelow before idx
  | .armed job _ idx _ =>
    ∃ before runId durable, job.ctx.map Prod.fst = some runId ∧
      trace = .begun () runId idx durable :: .deadline () false :: before ∧
      Between before job ∧ BegunBelow before idx
  | .replied job _ idx _ _ => Between trace job ∧ BegunBelow trace (idx + 1)

end

section Ledger

variable {trace before : List (Event Unit)} {job : Job} {idx : Nat} {ev : Event Unit}

/-- An event that neither side of `Sync` looks at. -/
def Event.idle : Event Unit → Bool
  | .attempt _ | .journaled _ _ _ _ _ | .deadline _ true | .lookup _ true => true
  | _ => false

theorem Between.cons (h : Between trace job) (hev : ev.idle = true) : Between (ev :: trace) job := by
  obtain ⟨hl, hs⟩ := h
  unfold Event.idle at hev
  split at hev
  · exact ⟨hl, hs⟩
  · exact ⟨hl, hs⟩
  · exact ⟨hl, hs⟩
  · exact ⟨hl, hs⟩
  · cases hev

theorem BegunBelow.mono (h : BegunBelow trace idx) (hle : idx ≤ idx') : BegunBelow trace idx' :=
  fun w runId i durable hmem => Nat.lt_of_lt_of_le (h w runId i durable hmem) hle

theorem BegunBelow.cons (h : BegunBelow trace idx) (hev : ∀ w runId i durable, ev ≠ .begun w runId i durable) :
    BegunBelow (ev :: trace) idx := by
  intro w runId i durable hmem
  unfold thisAttempt at hmem
  rw [List.takeWhile_cons] at hmem
  split at hmem
  · rcases List.mem_cons.mp hmem with heq | hold
    · exact absurd heq.symm (hev w runId i durable)
    · exact h w runId i durable hold
  · cases hmem

/-- A new attempt has begun nothing. -/
theorem begunBelow_attempt : BegunBelow (.attempt w :: trace) idx := by
  intro w' runId i durable hmem
  cases hmem

/-- The step itself has not been begun in this attempt. -/
theorem BegunBelow.not_started (h : BegunBelow trace idx) :
    (thisAttempt trace).any (isStarted runId idx) = false := by
  rw [List.any_eq_false]
  intro ev hmem
  cases ev with
  | begun w runId' i durable =>
    have hlt := h w runId' i durable hmem
    have hne : idx ≠ i := by omega
    simp [isStarted, hne]
  | _ => simp [isStarted]

/-- After lookups alone: one more lookup, and the durable run is bound or not. -/
theorem between_lookup (h : ∀ ev ∈ trace, ev = .lookup () true) (spec : ScheduleSpec)
    (ctx : Option (String × Nat)) : Between (.lookup () ctx.isSome :: trace) ⟨spec, ctx⟩ := by
  have hw : writtenAhead trace = true ∧ allBegun trace = true ∧ allLookups trace = true ∧ allLate trace = true := by
    induction trace with
    | nil => exact ⟨rfl, rfl, rfl, rfl⟩
    | cons ev rest ih =>
      obtain ⟨h₁, h₂, h₃, h₄⟩ := ih fun ev hev => h ev (List.mem_cons_of_mem _ hev)
      cases h ev List.mem_cons_self
      exact ⟨h₁, h₂, h₃, h₄⟩
  obtain ⟨h₁, h₂, h₃, h₄⟩ := hw
  have hlookups : allLookups (.lookup () ctx.isSome :: trace) = ctx.isSome := by
    show (ctx.isSome && allLookups trace) = ctx.isSome
    rw [h₃, Bool.and_true]
  refine ⟨hlookups, ?_⟩
  show writtenAhead trace = (allBegun trace && (allLookups _ || allLate trace))
  rw [h₁, h₂, h₄]
  simp

/-- A call without a durable run was not written ahead, and a lookup had failed. -/
theorem Between.called_bare (h : Between before job) (hctx : job.ctx = none) :
    Between (.called () none idx reply :: .deadline () false :: before) job := by
  have hstarted : (thisAttempt (.deadline () false :: before)).any (isStarted none idx) = false := by
    rw [List.any_eq_false]
    intro ev _
    cases ev <;> simp [isStarted]
  have hlookups : allLookups before = false := by rw [h.lookups, hctx]; rfl
  refine ⟨h.lookups, ?_⟩
  show ((thisAttempt (.deadline () false :: before)).any (isStarted none idx) && writtenAhead before) =
    (allBegun before && (allLookups before || false))
  rw [hstarted, hlookups]
  simp

/-- A call of a durable run was written ahead exactly if its `begin_step` was. -/
theorem Between.called (h : Between before job) (hbelow : BegunBelow before idx)
    (hrun : job.ctx.map Prod.fst = some runId) :
    Between (.called () (some runId) idx reply :: .begun () runId idx durable :: .deadline () false :: before)
      job := by
  have hsome : job.ctx.isSome = true := by
    obtain ⟨c, hc, -⟩ := map_eq_some_iff.mp hrun
    simp [hc]
  have hlookups : allLookups before = true := h.lookups.trans hsome
  -- with the durable run bound, `Sync` compares with the intents alone
  have hwritten : writtenAhead before = allBegun before := by
    have := h.sync
    unfold Sync storeServes at this
    rw [this, hlookups]
    simp
  have hstarted : (thisAttempt (.begun () runId idx durable :: .deadline () false :: before)).any
      (isStarted (some runId) idx) = durable := by
    show (isStarted (some runId) idx (.begun () runId idx durable) ||
      (false || (thisAttempt before).any (isStarted (some runId) idx))) = durable
    rw [hbelow.not_started]
    simp [isStarted]
  refine ⟨h.lookups, ?_⟩
  -- the new call is written ahead if its intent is, the older ones as before
  show (_ && writtenAhead before) = ((durable && allBegun before) && (allLookups before || false))
  rw [hstarted, hwritten, hlookups]
  simp

/-- Going on or failing after a call. -/
theorem ledger_afterCall (h : Between trace job) (hbelow : BegunBelow trace (idx + 1)) :
    Ledger trace (afterCall job d idx r) := by
  rcases afterCall_cases job d idx r with ⟨-, he⟩ | ⟨-, he⟩ <;> rw [he]
  · exact ⟨h, hbelow⟩
  · exact h

end Ledger

section Step

variable {H : Host} {handle : Worker} {s : Shared Unit} {m m' : Mark} {e : Env} {o : Op}

theorem sql_trace : (s.sql e method).2.trace = s.trace := by
  rw [sql_store]

/-- A lookup that binds the durable run, or fails to. -/
theorem succeeded_resumed (runId : String) :
    succeeded r = (resumedCtx runId r).isSome := by
  cases r <;> rfl

theorem succeeded_created : succeeded r = (createdCtx r).isSome := by
  cases r <;> rfl

/-- **Step lemma**, whatever fails. -/
theorem ledger_step (hnext : nextMark H m o (answer H handle () o s e).1 = some m') (h : Ledger s.trace m) :
    Ledger (answer H handle () o s e).2.trace m' := by
  by_cases ho : o.isFrame = true
  · rw [nextMark_frame ho] at hnext
    cases hnext
    rw [(frame_answer H handle () s e ho).trace]
    exact h
  · cases o with
    | now site =>
      cases site with
      | triggered => exact absurd rfl ho
      | attempt =>
        cases m <;> simp only [nextMark, reduceCtorEq, some.injEq] at hnext
        subst hnext
        rename_i job
        have hb : Between (.attempt () :: s.trace) job := Between.cons h rfl
        show Ledger (.attempt () :: s.trace) (startAttempt job e.clockMs)
        rcases startAttempt_cases job e.clockMs with ⟨-, he⟩ | ⟨-, he⟩ <;> rw [he]
        · exact hb
        · exact ⟨hb, begunBelow_attempt⟩
      | deadline d =>
        cases m with
        | head job d' idx =>
          obtain ⟨⟨rfl, -⟩, ⟨⟩⟩ := ite_none_right_eq_some.mp hnext
          obtain ⟨hb, hbelow⟩ := h
          -- too late for a call, or the call is due
          show Ledger (.deadline () (decide (d ≤ e.clockMs)) :: s.trace) (afterDeadline job d idx e.clockMs)
          rcases afterDeadline_cases job d idx e.clockMs with ⟨hlate, he⟩ | ⟨hlate, he⟩ <;> rw [he]
          · rw [decide_eq_true hlate]
            exact hb.cons rfl
          · rw [decide_eq_false hlate]
            exact ⟨s.trace, rfl, hb, hbelow⟩
        | _ => simp at hnext
    | sleep =>
      cases m <;> simp only [nextMark, reduceCtorEq, some.injEq] at hnext
      subst hnext
      exact h
    | listRuns =>
      cases m with
      | entering spec =>
        simp only [answer, Shared.log, sql_trace] at hnext ⊢
        -- a failed list leaves the trigger without a durable run
        cases hr : (s.sql e listRuns).1 with
        | ok =>
          rw [hr] at hnext
          cases hnext
          exact List.forall_mem_cons.mpr ⟨rfl, h⟩
        | error =>
          rw [hr] at hnext
          cases hnext
          exact between_lookup h spec none
      | _ => simp at hnext
    | resumeRun runId =>
      cases m with
      | found spec orphan =>
        cases orphan with
        | none => simp at hnext
        | some =>
          obtain ⟨-, ⟨⟩⟩ := ite_none_right_eq_some.mp hnext
          simp only [answer, Shared.log, Shared.setRunner, sql_trace, succeeded_resumed runId]
          exact between_lookup h spec _
      | _ => simp at hnext
    | createRun =>
      cases m with
      | found spec orphan =>
        cases orphan with
        | some => simp at hnext
        | none =>
          obtain ⟨-, ⟨⟩⟩ := ite_none_right_eq_some.mp hnext
          simp only [answer, Shared.log, Shared.setRunner, sql_trace, succeeded_created]
          exact between_lookup h spec _
      | _ => simp at hnext
    | beginStep runId k hash =>
      cases m with
      | due =>
        obtain ⟨⟨hrun, rfl, -⟩, ⟨⟩⟩ := ite_none_right_eq_some.mp hnext
        obtain ⟨before, htrace, hb, hbelow⟩ := h
        simp only [answer, Shared.log, sql_trace, htrace]
        exact ⟨before, runId, _, hrun, rfl, hb, hbelow⟩
      | _ => simp at hnext
    | callTool durable k call =>
      simp only [answer, Shared.log] at hnext ⊢
      cases m with
      | due =>
        obtain ⟨⟨hctx, rfl, rfl⟩, ⟨⟩⟩ := ite_none_right_eq_some.mp hnext
        -- no durable run: nothing was begun
        obtain ⟨before, htrace, hb, hbelow⟩ := h
        rw [htrace]
        refine ledger_afterCall (hb.called_bare hctx) ?_
        exact ((hbelow.mono (Nat.le_succ k)).cons (by simp)).cons (by simp)
      | armed job d idx intent =>
        obtain ⟨before, runId, written, hrun, htrace, hb, hbelow⟩ := h
        -- the call is for the run and the step that were just begun
        have hcalled : ∀ reply, Between (.called () (some runId) idx reply :: s.trace) job ∧
            BegunBelow (.called () (some runId) idx reply :: s.trace) (idx + 1) := by
          intro reply
          rw [htrace]
          refine ⟨hb.called hbelow hrun, BegunBelow.cons ?_ (by simp)⟩
          intro w runId' i durable' hmem
          rcases List.mem_cons.mp hmem with heq | hold
          · cases heq
            exact Nat.lt_succ_self idx
          · exact ((hbelow.mono (Nat.le_succ idx)).cons (by simp)) w runId' i durable' hold
        cases intent with
        | none =>
          obtain ⟨⟨rfl, rfl⟩, ⟨⟩⟩ := ite_none_right_eq_some.mp hnext
          rw [hrun]
          exact ledger_afterCall (hcalled e.reply).1 (hcalled e.reply).2
        | some =>
          obtain ⟨⟨rfl, rfl⟩, ⟨⟩⟩ := ite_none_right_eq_some.mp hnext
          rw [hrun]
          exact hcalled e.reply
      | _ => simp at hnext
    | completeStep =>
      cases m with
      | replied =>
        obtain ⟨-, ⟨⟩⟩ := ite_none_right_eq_some.mp hnext
        obtain ⟨hb, hbelow⟩ := h
        simp only [answer, Shared.log, sql_trace]
        exact ledger_afterCall (hb.cons rfl) (hbelow.cons (by simp))
      | _ => simp at hnext
    | _ => exact absurd rfl ho

end Step

/-- Only operations that touch neither the journal nor a tool. -/
def refusal : Discipline runnerSig Unit := ⟨fun _ o _ => if o.isFrame then some () else none⟩

/-- **Fail closed.** Without a store, a runner that requires one does nothing but record its refusal. -/
theorem runTrigger_refuses :
    (runTrigger H ⟨false, true⟩ spec).Obeys refusal (fun _ _ => True) () := by
  have hrefuse : ∀ record, (audit record).Obeys refusal (fun _ _ => True) () := by
    intro record
    refine obeys_idle_bind (fun _ => rfl) ?_
    intro r
    cases r <;> trivial
  unfold runTrigger
  refine obeys_idle_bind (fun _ => rfl) ?_
  intro t
  split
  · exact hrefuse _
  · split
    · exact hrefuse _
    · exact hrefuse _

section Trigger

variable {H : Host} {handle : Worker} {spec : ScheduleSpec} {s s' : Shared Unit} {es : List Env}
  {result : TriggerResult}

/-- A trigger with a store: the two sides of `Sync` meet at its end. -/
theorem sync_of_trigger (hs : s.trace = [])
    (hrun : (runTrigger H ⟨true, true⟩ spec).exec (runnerWorld H handle ()) s es = some (result, s')) :
    Sync s'.trace := by
  have hobeys := runTrigger_obeys (H := H) ⟨true, true⟩ spec
  have h0 : Ledger s.trace (initialMark ⟨true, true⟩ spec) := by
    rw [hs]
    intro ev hev
    cases hev
  obtain ⟨m, hwalked, hledger⟩ := exec_sound (fun m s => Ledger s.trace m) (fun _ => True)
    (fun m o s e m' h _ hnext => ledger_step hnext h) hobeys h0 (fun _ _ => trivial) hrun
  cases m with
  | entering spec' | found spec' orphan =>
    exact (between_lookup (fun ev hev => hledger ev hev) spec' (some ("", 0))).sync
  | ready job | failed job => exact hledger.sync
  | head => exact hledger.1.sync
  | _ => exact absurd hwalked.resting (by simp [Mark.resting])

/-- A trigger without one leaves no trace. -/
theorem trace_of_refusal (hs : s.trace = [])
    (hrun : (runTrigger H ⟨false, true⟩ spec).exec (runnerWorld H handle ()) s es = some (result, s')) :
    s'.trace = [] := by
  have hstep : ∀ (m : Unit) (o : Op) (t : Shared Unit) (e : Env) (m' : Unit), t.trace = [] → True →
      refusal.next m o ((runnerWorld H handle ()).answer o t e).1 = some m' →
      ((runnerWorld H handle ()).answer o t e).2.trace = [] := by
    intro m o t e m' ht _ hnext
    simp only [refusal, ite_none_right_eq_some] at hnext
    exact ((frame_answer H handle () t e hnext.1).trace).trans ht
  obtain ⟨-, -, hempty⟩ := exec_sound (fun _ t => t.trace = []) (fun _ => True) hstep
    runTrigger_refuses hs (fun _ _ => trivial) hrun
  exact hempty

end Trigger

/-- **When calls are written ahead.** For every spec and every pattern of failures of the store: each call of
    the trigger comes after a durable `started` row of its step in the same attempt, if and only if every
    `begin_step` wrote its row and either every lookup succeeded or every deadline check came too late for a
    call. -/
theorem write_ahead_iff (H : Host) (handle : Worker) (hasRunsDb : Bool) (spec : ScheduleSpec)
    (s s' : Shared Unit) (es : List Env) (result : TriggerResult) (hs : s.trace = [])
    (hrun : (runTrigger H ⟨hasRunsDb, true⟩ spec).exec (runnerWorld H handle ()) s es = some (result, s')) :
    writtenAhead s'.trace = true ↔ storeServes s'.trace = true := by
  cases hasRunsDb with
  | true => rw [sync_of_trigger hs hrun]
  | false => simp [trace_of_refusal hs hrun, writtenAhead, storeServes, allBegun, allLookups]

/-- A trigger of `demoSpec` in which nothing fails. -/
theorem write_ahead_iff_quiet : ∃ result s', (runTrigger scheduleHost ⟨true, true⟩ demoSpec).exec
        (runnerWorld scheduleHost (demoHandle 1) ()) emptyShared
        (List.replicate 28 (demoEnv "1" (.ok "done"))) = some (result, s') ∧
      (writtenAhead s'.trace = true ↔ storeServes s'.trace = true) := by
  have hsome : ((runTrigger scheduleHost ⟨true, true⟩ demoSpec).exec
      (runnerWorld scheduleHost (demoHandle 1) ()) emptyShared
      (List.replicate 28 (demoEnv "1" (.ok "done")))).isSome = true := by
    decide +kernel
  obtain ⟨⟨result, s'⟩, hrun⟩ := isSome_iff_exists.mp hsome
  exact ⟨result, s', hrun, write_ahead_iff scheduleHost (demoHandle 1) true demoSpec emptyShared s' _ result rfl hrun⟩

/-- The insert of the first `begin_step` fails: the first tool is called without a `started` row. -/
theorem called_without_started_row :
    ((runTrigger scheduleHost ⟨true, true⟩ demoSpec).exec (runnerWorld scheduleHost (demoHandle 1) ()) emptyShared
      (List.replicate 11 (demoEnv "1" (.ok "done")) ++ { demoEnv "1" (.ok "done") with faults := [false, true] } ::
        List.replicate 15 (demoEnv "1" (.ok "done")))).map
      (fun r => (writtenAhead r.2.trace, r.2.trace.contains (.called () (some "run_1") 0 (.ok "done")),
        r.2.store.outcomeOf "run_1" 0)) = some (false, true, none) := by
  decide +kernel

/-! ## After the call -/

/-- The call was refused before anything was sent: the lease is stale, policy denies it, or its review could
    not be written. -/
def Reply.refused : Reply → Bool
  | .ok _ => false
  | .err failure _ => failure.staleLease || failure.deniedFor.isSome || failure.isReviewFailed

/-- The outcome says no more than what happened: an execution only if the call was sent, and of a refused
    call that it never ran. -/
def faithful (reply : Reply) (outcome : AttemptOutcome) : Bool :=
  (!(outcomeStr outcome).isExecuted || reply.wasSent) && (!reply.refused || outcomeStr outcome = .neverRan)

/-- Every outcome in the trace, newest first, is journaled right after its call and faithful to it; a call
    without a journaled outcome was not refused. -/
def journalHonest : List (Event Unit) → Bool
  | .journaled _ runId i outcome _ :: .called _ runId' i' reply :: older =>
    runId' = some runId && i' = i && faithful reply outcome && journalHonest older
  | .journaled _ _ _ _ _ :: _ => false
  | .called _ _ _ reply :: older => !reply.refused && journalHonest older
  | _ :: older => journalHonest older
  | [] => true

/-- A reply that `outcomeFor` reports as it is: not a refusal, and if a definite failure, one of a call that
    was sent. -/
def Reply.plain : Reply → Bool
  | .ok _ => true
  | .err failure sent => !(Reply.err failure sent).refused && (failure.uncertain || sent)

/-- Every call of the trace got such a reply. -/
def allPlain (trace : List (Event Unit)) : Bool :=
  trace.all fun ev => match ev with
    | .called _ _ _ reply => reply.plain
    | _ => true

/-- What the runner journals is faithful exactly to such replies. -/
theorem faithful_outcomeFor : faithful reply (outcomeFor reply.result) = reply.plain := by
  cases reply with
  | ok => rfl
  | err failure sent =>
    cases hu : failure.uncertain with
    | true => simp [faithful, outcomeFor, failureOutcome, Reply.result, Reply.plain, hu, outcomeStr,
        StepOutcome.isExecuted]
    | false =>
      simp [faithful, outcomeFor, failureOutcome, Reply.result, Reply.plain, hu, outcomeStr,
        StepOutcome.isExecuted, Reply.wasSent, Bool.and_comm]

/-- What the trace is when an attempt at the run stands at a mark: between a call and its journaling the call
    is the last event, elsewhere the journal is honest exactly if every reply was plain. -/
def Booked (runId : String) (trace : List (Event Unit)) : Mark → Prop
  | .entering _ | .found _ _ => False
  | .replied _ _ idx _ result =>
    ∃ before reply, trace = .called () (some runId) idx reply :: before ∧ reply.result = result ∧
      journalHonest before = allPlain before
  | _ => journalHonest trace = allPlain trace

/-- An event that is neither a call nor a journaling. -/
theorem journalHonest_cons (ev : Event Unit) (hc : ∀ w runId i reply, ev ≠ .called w runId i reply)
    (hj : ∀ w runId i outcome written, ev ≠ .journaled w runId i outcome written)
    (h : journalHonest trace = allPlain trace) : journalHonest (ev :: trace) = allPlain (ev :: trace) := by
  cases ev with
  | called w runId i reply => exact absurd rfl (hc w runId i reply)
  | journaled w runId i outcome written => exact absurd rfl (hj w runId i outcome written)
  | _ => exact h

section Attempt

variable {H : Host} {e : Env} {o : Op} {s s' : Shared Unit} {m m' : Mark} {runId : String} {trace : List (Event Unit)}

theorem Booked.not_resume {id : String} (h : Booked runId trace m) {r : (Op.resumeRun id).Ans} :
    nextMark H m (.resumeRun id) r = none := by
  cases m <;> first | exact h.elim | rfl

theorem booked_afterCall (h : journalHonest trace = allPlain trace) : Booked runId trace (afterCall job d idx r) := by
  cases r <;> exact h

/-- The outcome of the pending call is journaled. -/
theorem booked_journaled (hfor : Mark.IntentFor H job idx intent) (hrun : job.ctx.map Prod.fst = some runId)
    (hb : Booked runId trace (.replied job d idx intent result)) :
    let after := .journaled () intent.runId intent.stepNo (outcomeFor result) written :: trace
    journalHonest after = allPlain after := by
  obtain ⟨before, reply, rfl, rfl, hbefore⟩ := hb
  have hid : intent.runId = runId := mem_unique hfor.runId hrun
  have hstep : idx = intent.stepNo := hfor.stepNo.symm
  intro after
  show (decide (some runId = some intent.runId) && decide (idx = intent.stepNo) &&
    faithful reply (outcomeFor reply.result) && journalHonest before) = (reply.plain && allPlain before)
  rw [faithful_outcomeFor, hbefore, hid, hstep]
  simp

/-- **Step lemma.** -/
theorem Moved.booked (h : Moved H () e o s m s' m') (hwf : m.WF H) (hrun : m.ctx.map Prod.fst = some runId)
    (hb : Booked runId s.trace m) : Booked runId s'.trace m' := by
  cases h with
  | frame hf => exact hf.trace ▸ hb
  | @attempt s job t =>
    have hcons := journalHonest_cons (.attempt ()) (by simp) (by simp) hb
    rcases startAttempt_cases job t with ⟨-, he⟩ | ⟨-, he⟩ <;> rw [he] <;> exact hcons
  | @deadline s job d idx t hreach =>
    have hcons := journalHonest_cons (.deadline () (decide (d ≤ t))) (by simp) (by simp) hb
    rcases afterDeadline_cases job d idx t with ⟨-, he⟩ | ⟨-, he⟩ <;> rw [he] <;> exact hcons
  | sleep => exact hb
  | listed | resumed | created | notCreated => exact hb.elim
  | @begun s job runId' st d k hash now db' hctx hhash happ =>
    exact journalHonest_cons (.begun () runId' k true) (by simp) (by simp) hb
  | @calledBare s job d k call hctx reply =>
    have hrun' : job.ctx.map Prod.fst = some runId := hrun
    rw [hctx] at hrun'
    cases hrun'
  | calledUnwritten => exact hwf.elim
  | @called s job d k call intent reply =>
    have hrun' : job.ctx.map Prod.fst = some runId := hrun
    rw [hrun']
    exact ⟨s.trace, reply, rfl, rfl, hb⟩
  | @journaled s job d k intent result output now db' happ =>
    exact booked_afterCall (booked_journaled hwf.2.2 hrun hb)
  | @notJournaled s job d k intent result output now db' hsame hno =>
    exact booked_afterCall (booked_journaled hwf.2.2 hrun hb)

/-- Inside an attempt the durable context stays. -/
theorem Moved.ctx_eq (h : Moved H () e o s m s' m') (hb : Booked runId s.trace m) : m'.ctx = m.ctx := by
  cases h with
  | attempt t => exact ctx_startAttempt _ t
  | deadline t hreach => exact ctx_afterDeadline _ _ _ t
  | listed | resumed | created | notCreated => exact hb.elim
  | calledBare | calledUnwritten | journaled | notJournaled => exact ctx_afterCall _ _ _ _
  | _ => rfl

/-- What an attempt at a durable run keeps. -/
structure InAttempt (H : Host) (runId : String) (m : Mark) (s : Shared Unit) : Prop where
  wf : m.WF H
  run : m.ctx.map Prod.fst = some runId
  booked : Booked runId s.trace m

theorem InAttempt.step (h : InAttempt H runId m s) (hq : e.faults = [])
    (hnext : nextMark H m o (answer H handle () o s e).1 = some m') :
    InAttempt H runId m' (answer H handle () o s e).2 := by
  have hmv : Moved H () e o s m (answer H handle () o s e).2 m' := by
    refine moved_of_next hq ?_ hnext
    rintro ⟨id, rfl⟩
    rw [h.booked.not_resume] at hnext
    cases hnext
  have hctx : m'.ctx.map Prod.fst = some runId := by
    rw [hmv.ctx_eq h.booked]
    exact h.run
  exact ⟨hmv.wf h.wf, hctx, hmv.booked h.wf h.run h.booked⟩

end Attempt

/-- A store with one durable run, created for `demoSpec`. -/
def oneRun : Shared Unit :=
  { emptyShared with store :=
    { runs := [⟨"run_1", none, .executingTools, freshPlan demoSpec 0, freshBudgets demoSpec.policy, none, 0, 0, 0, 0⟩]
      steps := []
      synced := 0
      leases := fun _ => none } }

end Supercli
