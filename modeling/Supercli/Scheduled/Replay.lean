import Supercli.Scheduled.Base

/-!
# `Scheduled.Replay` — is a completed step ever executed again?

One runner, any sequence of triggers, a crash anywhere. Across triggers the journal protects completed
steps: a resume starts behind the last row. Inside a trigger it does not: every retry starts at the step
the trigger started at (`attempts` passes the same `durable` to each attempt), whatever the attempt before
it has completed.

So a step journaled `executed_ok` is executed again exactly through retries, and never when each retry is
taken before anything was completed (`completed_step_not_executed_again`).
-/

namespace Supercli

open RunsDb Store Function

/-- The later event executes a step again that the earlier one journaled as completed. -/
def replays {W : Type} (later earlier : Event W) : Bool :=
  match earlier, later with
  | .journaled _ runId i (.executed true) true, .called _ (some runId') i' _ => runId = runId' && i = i'
  | _, _ => false

/-- In a trace, newest first, no completed step of a journaled run is executed again. -/
def NeverReplayed {W : Type} (trace : List (Event W)) : Prop :=
  trace.Pairwise fun later earlier => replays later earlier = false

instance {W : Type} (trace : List (Event W)) : Decidable (NeverReplayed trace) := by
  unfold NeverReplayed
  infer_instance

/-- Some step of the run from `start` on is journaled `executed_ok`. -/
def Store.okFrom (db : Store) (runId : String) (start : Nat) : Bool :=
  (db.journal runId).any fun row => start ≤ row.stepNo && db.outcomeOf runId row.stepNo = some .executedOk

/-- No statement fails, and the runner waits for a retry only while no step from its start on is journaled
    `executed_ok`. -/
def retriesClean (_ : Unit) (o : Op) (s : Shared Unit) (e : Env) : Bool :=
  e.faults.isEmpty && match o, (s.runner ()).ctx with
    | .sleep _, some (runId, start) => !s.store.okFrom runId start
    | _, _ => true

theorem ne_ok_of_okFrom {db : Store} (h : db.okFrom runId start = false) (hi : start ≤ i) :
    db.outcomeOf runId i ≠ some .executedOk := by
  intro hok
  cases hl : db.latest runId i with
  | none => simp [outcomeOf, hl] at hok
  | some row =>
    obtain ⟨hr, hk⟩ := latest_key hl
    have hmem : row ∈ db.journal runId := VersionedLog.mem_of_latest hl
    simp only [okFrom, List.any_eq_false, Bool.and_eq_true, decide_eq_true_eq, not_and] at h
    rw [← hk] at hok
    exact h row hmem (by omega) hok

/-! ## The invariant -/

/-- The first step the mark may still execute. -/
def Mark.front : Mark → Option Nat
  | .ready job => if job.start = u64Max then none else some job.start
  | .head _ _ idx | .due _ _ idx | .armed _ _ idx _ | .replied _ _ idx _ _ => some idx
  | _ => none

/-- Nothing that the mark may still execute is completed. -/
def Ahead (db : Store) (m : Mark) : Prop :=
  ∀ runId k, m.runId = some runId → m.front = some k → ∀ i, k ≤ i → db.outcomeOf runId i ≠ some .executedOk

/-- What a single runner keeps. -/
structure Unreplayed (s : Shared Unit) (marks : Unit → Option Mark) : Prop where
  never : NeverReplayed s.trace
  journaled : ∀ w runId i, .journaled w runId i (.executed true) true ∈ s.trace →
    s.store.outcomeOf runId i = some .executedOk
  ahead : ∀ m, marks () = some m → Ahead s.store m
  current : ∀ m, marks () = some m → Current s.store m

section Moves

variable {H : Host} {e : Env} {o : Op} {s s' : Shared Unit} {m m' : Mark} {db db' : Store}

theorem outcomeOf_of_steps (h : db'.steps = db.steps) (runId : String) (k : Nat) :
    db'.outcomeOf runId k = db.outcomeOf runId k := by
  simp [outcomeOf, latest_of_steps h]

theorem Store.Appended.outcomeOf_of_ne (h : Appended db db' row)
    (hne : ¬ (row.runId = runId ∧ row.stepNo = k)) : db'.outcomeOf runId k = db.outcomeOf runId k := by
  simp [outcomeOf, h.latest_of_ne hne]

/-- A row at a step that was not completed takes no completed step away. -/
theorem Store.Appended.ok_of_ok (h : Appended db db' row) (hno : db.outcomeOf row.runId row.stepNo ≠ some .executedOk)
    (hok : db.outcomeOf runId k = some .executedOk) : db'.outcomeOf runId k = some .executedOk := by
  by_cases hrow : row.runId = runId ∧ row.stepNo = k
  · obtain ⟨rfl, rfl⟩ := hrow
    exact absurd hok hno
  · rw [h.outcomeOf_of_ne hrow, hok]

theorem Ahead.of_front (h : Ahead db m) (hs : ∀ runId k, db'.outcomeOf runId k = db.outcomeOf runId k)
    (hrun : m'.runId = m.runId) (hfront : ∀ k, m'.front = some k → ∃ k', m.front = some k' ∧ k' ≤ k) :
    Ahead db' m' := by
  intro runId k hr hk i hi
  obtain ⟨k', hk', hle⟩ := hfront k hk
  rw [hs]
  exact h runId k' (hrun ▸ hr) hk' i (hle.trans hi)

/-- After a step the mark may execute the steps behind it, which the step's row leaves alone. -/
theorem Ahead.afterCall (h : Ahead db m) (hrun : m.runId = job.ctx.map Prod.fst) (hfront : m.front = some idx)
    (hs : ∀ runId k, job.ctx.map Prod.fst = some runId → idx < k → db'.outcomeOf runId k = db.outcomeOf runId k)
    (r : Except ToolCallFailure String) : Ahead db' (afterCall job d idx r) := by
  rcases afterCall_cases job d idx r with ⟨-, he⟩ | ⟨-, he⟩ <;> rw [he]
  · intro runId k hr hk i hi
    cases hk
    rw [hs runId i hr hi]
    exact h runId idx (hrun.trans hr) hfront i (Nat.le_of_succ_le hi)
  · intro runId k hr hk
    cases hk

theorem Moved.ahead (h : Moved H () e o s m s' m') (hrows : ScheduledRows s.store) (hwf : m.WF H)
    (hclean : ∀ secs, o = .sleep secs → ∀ runId st, m.ctx = some (runId, st) → ∀ i, st ≤ i →
      s.store.outcomeOf runId i ≠ some .executedOk)
    (ha : Ahead s.store m) : Ahead s'.store m' := by
  cases h with
  | frame hf => exact ha.of_front (outcomeOf_of_steps hf.store.steps) rfl fun k hk => ⟨k, hk, Nat.le_refl k⟩
  | @attempt s job t =>
    rcases startAttempt_cases job t with ⟨-, he⟩ | ⟨hne, he⟩ <;> rw [he]
    · exact ha
    · exact ha.of_front (fun _ _ => rfl) rfl fun k hk =>
        ⟨k, by simpa [Mark.front, hne] using hk, Nat.le_refl k⟩
  | @deadline s job d idx t hreach =>
    rcases afterDeadline_cases job d idx t with ⟨-, he⟩ | ⟨-, he⟩ <;> rw [he]
    · intro runId k hr hk
      cases hk
    · exact ha.of_front (fun _ _ => rfl) rfl fun k hk => ⟨k, hk, Nat.le_refl k⟩
  | @sleep s job secs =>
    -- the retry starts over; only the condition says that nothing from there on is completed
    intro runId k hr hk i hi
    obtain ⟨⟨runId', st⟩, hctx, rfl⟩ := Option.map_eq_some_iff.mp hr
    have hstart : job.start = st := by simp [Job.start, show job.ctx = _ from hctx]
    have hk' : job.start = k := by
      by_cases hmax : job.start = u64Max <;> simp_all [Mark.front]
    exact hclean secs rfl runId' st hctx i (by omega)
  | listed =>
    intro runId k hr hk
    cases hk
  | notCreated =>
    intro runId k hr
    cases hr
  | @resumed s spec runId db' plan files hsame hplan =>
    -- a resume starts behind the last row
    intro runId k hr hk i hi
    cases hr
    rcases hrows.start hplan with hmax | ⟨-, hnone⟩
    · simp [Mark.front, Job.start, hmax] at hk
    · have hk' : startOf plan = k := by
        by_cases hmax : startOf plan = u64Max <;> simp_all [Mark.front, Job.start]
      have : db'.outcomeOf runId i = none := by
        rw [outcomeOf_of_steps hsame.steps, outcomeOf, hnone i (by omega)]
        rfl
      show db'.outcomeOf runId i ≠ _
      simp [this]
  | @created s spec plan run hfresh hb hpos =>
    -- a fresh run has no rows
    intro runId k hr hk i hi
    cases hr
    have : s.store.outcomeOf run.id i = none := by
      rw [outcomeOf, hrows.latest_of_no_run hfresh]
      rfl
    show s.store.outcomeOf run.id i ≠ _
    simp [this]
  | @begun s job runId st d k hash now db' hctx hhash happ =>
    intro runId' k' hr hk i hi
    cases hk
    -- the step's new row says `started`, the other steps keep theirs
    by_cases hrow : runId = runId' ∧ k = i
    · obtain ⟨rfl, rfl⟩ := hrow
      have hself : db'.latest runId k = _ := happ.latest_self le_rfl
      show db'.outcomeOf runId k ≠ _
      simp [outcomeOf, hself, intentRow]
    · show db'.outcomeOf runId' i ≠ _
      rw [happ.outcomeOf_of_ne hrow]
      exact ha runId' k hr rfl i hi
  | calledBare => exact ha.afterCall rfl rfl (fun _ _ _ _ => rfl) _
  | calledUnwritten => exact hwf.elim
  | called => exact ha.of_front (fun _ _ => rfl) rfl fun k hk => ⟨k, hk, Nat.le_refl k⟩
  | @journaled s job d k intent result output now db' happ =>
    refine ha.afterCall rfl rfl (fun runId i _ hlt => happ.outcomeOf_of_ne ?_) _
    rintro ⟨-, hstep⟩
    have : intent.stepNo = i := hstep
    rw [hwf.2.2.stepNo] at this
    omega
  | notJournaled hsame hno =>
    exact ha.afterCall rfl rfl (fun _ _ _ _ => outcomeOf_of_steps hsame.steps _ _) _

theorem NeverReplayed.cons {ev : Event Unit} (h : NeverReplayed trace)
    (hev : ∀ w runId i reply, ev ≠ .called w (some runId) i reply) : NeverReplayed (ev :: trace) := by
  refine List.pairwise_cons.mpr ⟨?_, h⟩
  intro earlier _
  unfold replays
  split
  · exact absurd rfl (hev _ _ _ _)
  · rfl

section

variable (h : Moved H () e o s m s' m') (hwf : m.WF H) (ha : Ahead s.store m)

include h hwf ha

/-- The executed step of an armed mark was not journaled as completed, so executing it replays nothing. -/
theorem Moved.never (hj : ∀ w runId i, .journaled w runId i (.executed true) true ∈ s.trace →
      s.store.outcomeOf runId i = some .executedOk)
    (hn : NeverReplayed s.trace) : NeverReplayed s'.trace := by
  cases h with
  | frame hf => exact hf.trace ▸ hn
  | sleep => exact hn
  | calledUnwritten => exact hwf.elim
  | @called s job d k call intent reply =>
    refine List.pairwise_cons.mpr ⟨?_, hn⟩
    intro earlier hmem
    unfold replays
    split
    · rename_i w runId i w' runId' i' reply' heq
      simp only [Event.called.injEq] at heq
      obtain ⟨-, hrun, rfl, -⟩ := heq
      by_cases hsame : runId = runId' ∧ i = k
      · obtain ⟨rfl, rfl⟩ := hsame
        exact absurd (hj _ _ _ hmem) (ha runId i hrun rfl i (Nat.le_refl i))
      · simpa using fun h => (not_and.mp hsame h)
    · rfl
  | _ => exact hn.cons (by simp)

theorem Moved.ok_journaled (hcur : Current s.store m)
    (hj : ∀ w runId i, .journaled w runId i (.executed true) true ∈ s.trace →
      s.store.outcomeOf runId i = some .executedOk)
    (w : Unit) (runId : String) {i : Nat} (hmem : .journaled w runId i (.executed true) true ∈ s'.trace) :
    s'.store.outcomeOf runId i = some .executedOk := by
  cases h with
  | frame hf =>
    rw [outcomeOf_of_steps hf.store.steps]
    exact hj w runId i (hf.trace ▸ hmem)
  | sleep => exact hj w runId i hmem
  | @resumed s spec runId' db' plan files hsame hplan =>
    show db'.outcomeOf runId i = _
    rw [outcomeOf_of_steps hsame.steps]
    exact hj w runId i (by simpa using hmem)
  | @begun s job runId' st d k hash now db' hctx hhash happ =>
    have hrun : (Mark.due job d k).runId = some runId' := congrArg (Option.map Prod.fst) hctx
    exact happ.ok_of_ok (ha runId' k hrun rfl k (Nat.le_refl k)) (hj w runId i (by simpa using hmem))
  | @journaled s job d k intent result output now db' happ =>
    obtain ⟨-, -, hfor⟩ := hwf
    obtain ⟨row, hlatest, rfl, hstarted⟩ := hcur
    rcases List.mem_cons.mp hmem with heq | hold
    · -- the outcome just journaled is the latest row
      simp only [Event.journaled.injEq] at heq
      obtain ⟨-, rfl, rfl, hout, -⟩ := heq
      show db'.outcomeOf row.intent.runId row.intent.stepNo = _
      rw [outcomeOf, Appended.latest_outcomeRow hlatest happ]
      simp [outcomeRow, ← hout, outcomeStr]
    · -- it went to a step that was not completed, so it takes no completed one away
      refine happ.ok_of_ok ?_ (hj w runId i hold)
      have hno := ha row.intent.runId k hfor.runId rfl row.intent.stepNo
      exact hno (by rw [hfor.stepNo])
  | @notJournaled s job d k intent result output now db' hsame hno =>
    show db'.outcomeOf runId i = _
    rw [outcomeOf_of_steps hsame.steps]
    exact hj w runId i (by simpa using hmem)
  | _ => exact hj w runId i (by simpa using hmem)

end

end Moves

/-! ## Every run -/

section Runs

variable {H : Host} {cfg : RunnerConfig} {handle : Unit → Worker} {s : Shared Unit} {marks : Unit → Option Mark}

/-- A change of the runner that leaves the store and the trace alone. -/
theorem Unreplayed.setRunner (h : Unreplayed s marks) (f : RunnerState → RunnerState) (n : Option Mark)
    (ha : ∀ m, n = some m → Ahead s.store m) (hc : ∀ m, n = some m → Current s.store m) :
    Unreplayed (s.setRunner () f) (update marks () n) :=
  ⟨h.never, h.journaled, fun m hm => ha m (by simpa using hm), fun m hm => hc m (by simpa using hm)⟩

theorem unreplayed_preserves : Fleet.Preserves (runners H cfg handle) (runnerDiscipline H) (initialMark cfg)
    Walked (fun w o s e => retriesClean w o s e = true) (fun s marks => Base H s marks ∧ Unreplayed s marks) := by
  refine Base.preserves ?_ ?_ ?_ ?_ ?_
  · intro w o s e hc
    simp only [retriesClean, Bool.and_eq_true, List.isEmpty_iff] at hc
    exact hc.1
  · intro s marks w spec hb h hw
    refine h.setRunner (fun r => { r with firing := some spec, ctx := none }) _ ?_ ?_ <;> rintro m ⟨⟩ <;>
      rcases initialMark_cases cfg spec with he | he <;> rw [he]
    · intro runId k hr
      cases hr
    · intro runId k hr
      cases hr
    · trivial
    · trivial
  · intro s marks w m o e s' m' hb h hm hc hmv
    have hwf := hb.wf w m hm
    have ha := h.ahead m hm
    have hcur := h.current m hm
    refine ⟨hmv.never hwf ha h.journaled h.never, hmv.ok_journaled hwf ha hcur h.journaled, ?_, ?_⟩
    · intro n hn
      rw [update_self] at hn
      cases hn
      refine hmv.ahead hb.rows hwf ?_ ha
      intro secs ho runId st hctx i hi
      subst ho
      have hrunner : (s.runner ()).ctx = some (runId, st) := (hb.ctx_of hm).trans hctx
      simp only [retriesClean, hrunner, Bool.and_eq_true, Bool.not_eq_true'] at hc
      exact ne_ok_of_okFrom hc.2 hi
    · intro n hn
      rw [update_self] at hn
      cases hn
      exact hmv.current hcur
  · intro s marks w m result hb h hm hw
    exact h.setRunner (fun r => { r with firing := none, ctx := none }) none (by simp) (by simp)
  · intro s marks w hb h
    exact h.setRunner (fun _ => .boot) none (by simp) (by simp)

/-- **Completed steps are not executed again**, in every sequence of triggers and crashes whose retries are
    all taken before anything was completed. -/
theorem completed_step_not_executed_again (H : Host) (cfg : RunnerConfig) (handle : Unit → Worker)
    (labels : List (RunnerLabel Unit))
    (h : Machine.Along (runners H cfg handle).step (Fleet.Meets fun w o s e => retriesClean w o s e = true)
      (.idle emptyShared) labels) :
    NeverReplayed (Machine.run (runners H cfg handle).step (.idle emptyShared) labels).shared.trace := by
  have h0 : Base H (emptyShared : Shared Unit) (fun _ => none) ∧ Unreplayed emptyShared fun _ => none :=
    ⟨base_empty, .nil, by simp [emptyShared], by simp, by simp⟩
  obtain ⟨marks, ⟨-, hkept⟩, -⟩ := Fleet.invariant unreplayed_preserves h0 h
  exact hkept.never

end Runs

/-! One trigger of `demoSpec`, whose policy allows one retry. -/

/-- The executor's answer to the call that fails. -/
def notFound : Reply := .err (.failed "HTTP 404") true

/-- The `n`-th operation of the trigger is answered by a failed call, the `more` operations after it by
    successful ones. -/
def demoTrigger (n more : Nat) : List (RunnerLabel Unit) :=
  .start () demoSpec :: (List.replicate n (.step () (demoEnv "1" (.ok "done"))) ++
    .step () (demoEnv "1" notFound) :: List.replicate more (.step () (demoEnv "1" (.ok "done"))))

/-- The first call fails and is retried: nothing was completed before the retry. -/
theorem completed_step_not_executed_again_first_fails :
    Machine.Along (runners scheduleHost ⟨true, true⟩ fun _ => demoHandle 1).step
      (Fleet.Meets fun w o s e => retriesClean w o s e = true) (.idle emptyShared) (demoTrigger 12 12) ∧
    NeverReplayed (Machine.run (runners scheduleHost ⟨true, true⟩ fun _ => demoHandle 1).step
      (.idle emptyShared) (demoTrigger 12 12)).shared.trace := by
  have hclean : Machine.Along (runners scheduleHost ⟨true, true⟩ fun _ => demoHandle 1).step
      (Fleet.Meets fun w o s e => retriesClean w o s e = true) (.idle emptyShared) (demoTrigger 12 12) := by
    decide +kernel
  exact ⟨hclean, completed_step_not_executed_again _ _ _ _ hclean⟩

/-- The second call fails: the retry executes the first one again, which was journaled `executed_ok`. -/
theorem retry_executes_completed_step_again : demoSpec.validate = .ok () ∧
    ¬ NeverReplayed (Machine.run (runners scheduleHost ⟨true, true⟩ fun _ => demoHandle 1).step
      (.idle emptyShared) (demoTrigger 16 6)).shared.trace := by
  decide +kernel

end Supercli
