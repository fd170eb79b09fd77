import Supercli.Runs.RunsDb

/-!
# `Runs.Resume` — where a restarted worker continues

`resume_run` walks the latest row of every step in order, counting up from 0. It stops at the first step
that is not complete: a step to execute, or a step that must wait for a human. On the way it closes
orphaned file writes whose probe proves that the write landed, by journaling their outcome.

`resumeRun_spec` says all of that in terms of the journal alone; nothing downstream unfolds the walk.
-/

namespace Supercli

open Relation Store VersionedLog

namespace RunsDb

/-- The loop state of `resume_run`. -/
structure Scan where
  completed : List Step
  firstIncomplete : Option Nat
  needsReview : Option Nat
  expected : Nat

/-- The loop of `resume_run`; returning early is its `break`. -/
def scanSteps (H : Host) : List Step → Scan → RunsM Scan
  | [], s => return s
  | step :: rest, s =>
    -- a gap in the journal counts as incomplete
    if step.stepNo ≠ s.expected then
      return { s with firstIncomplete := some s.expected }
    else
      match step.outcome with
      | some .executedOk | some .executedFailed =>
        scanSteps H rest { s with completed := s.completed ++ [step], expected := s.expected + 1 }
      | some .ambiguous => return { s with needsReview := some s.expected }
      | some .started => do
        let conn ← get
        match reconcileOrphan H conn.files step.intent with
        | .rerun _ => return { s with firstIncomplete := some s.expected }
        | .alreadyComplete _ output =>
          completeStep step.intent (.executed true) (some output)
          let doneStep : Step :=
            { step with outcome := some .executedOk, output := some output, attempt := step.attempt + 1 }
          scanSteps H rest { s with completed := s.completed ++ [doneStep], expected := s.expected + 1 }
        | .needsReview _ => return { s with needsReview := some s.expected }
      | _ => return { s with firstIncomplete := some s.expected }

def resumeRun (H : Host) (runId : String) : RunsM ResumePlan := do
  let steps ← latestSteps runId
  let scan ← scanSteps H steps ⟨[], none, none, 0⟩
  let firstIncomplete :=
    if scan.firstIncomplete.isNone && scan.needsReview.isNone then some scan.expected
    else scan.firstIncomplete
  if scan.needsReview.isSome then
    let _ ← markNeedsReview runId
  return ⟨runId, scan.completed, firstIncomplete, scan.needsReview⟩

/-! ## What a plan says about the journal -/

section Spec

variable (H : Host) (files : Files) (runId : String)

/-- The step is complete: its latest row was executed. -/
def Executed (db : Store) (k : Nat) : Prop :=
  ∃ row, db.latest runId k = some row ∧ (row.outcome = some .executedOk ∨ row.outcome = some .executedFailed)

/-- The step may be executed now: it has no row, or its latest row says that it did nothing, or it is an
    orphan that is safe to re-run. -/
def Runnable (db : Store) (k : Nat) : Prop :=
  ∀ row, db.latest runId k = some row → row.outcome = none ∨ row.outcome = some .neverRan ∨
      (row.outcome = some .started ∧ ∃ reason, reconcileOrphan H files row.intent = .rerun reason)

/-- The step waits for a human. -/
def Blocked (db : Store) (k : Nat) : Prop :=
  ∃ row, db.latest runId k = some row ∧ (row.outcome = some .ambiguous ∨
      (row.outcome = some .started ∧ ∃ reason, reconcileOrphan H files row.intent = .needsReview reason))

/-- One orphan closed by its probe: the latest row of a step is a file write in flight whose target holds
    the intended content, and its outcome is journaled. -/
def CloseStep (now : Int) (db db' : Store) : Prop :=
  ∃ k row reason output, db.latest runId k = some row ∧ row.outcome = some .started ∧
    reconcileOrphan H files row.intent = .alreadyComplete reason output ∧
    Appended db db' (outcomeRow row.intent (.executed true) (some output) now)

/-- What the plan of a resume says about the store `db` that it leaves. -/
def PlanOk (db : Store) (plan : ResumePlan) : Prop :=
  ∃ k, (∀ j < k, Executed runId db j) ∧
    ((plan.firstIncompleteStepNo = some k ∧ plan.needsReviewStepNo = none ∧ Runnable H files runId db k) ∨
     (plan.firstIncompleteStepNo = none ∧ plan.needsReviewStepNo = some k ∧ Blocked H files runId db k))

/-- The walk can close every orphan it meets: the run has no file writes, or no budgets. -/
def Closable (db : Store) : Prop :=
  (∀ k row, db.latest runId k = some row → row.kind ≠ .fileWrite) ∨
    ∃ run, db.run? runId = some run ∧ run.budgets = ⟨none, none, none⟩

end Spec

variable {H : Host} {files : Files} {runId : String} {db db' : Store} {now : Int} {row : Step} {k : Nat} {cur : Store}

theorem Executed.of_latest (h : Executed runId db k) (he : db'.latest runId k = db.latest runId k) :
    Executed runId db' k := by
  obtain ⟨row, hl, ho⟩ := h
  exact ⟨row, he.trans hl, ho⟩

/-- Being without budgets is a matter of the fixed columns. -/
theorem unbudgeted_of_fixed (h : db'.runs.map Run.fixed = db.runs.map Run.fixed)
    (hu : ∃ run, db.run? runId = some run ∧ run.budgets = ⟨none, none, none⟩) :
    ∃ run, db'.run? runId = some run ∧ run.budgets = ⟨none, none, none⟩ := by
  obtain ⟨run, hrun, hb⟩ := hu
  have hf := run?_fixed h runId
  rw [hrun] at hf
  obtain ⟨run', hrun', hfix⟩ := Option.map_eq_some_iff.mp hf
  refine ⟨run', hrun', ?_⟩
  have : run'.budgets = run.budgets := congrArg (fun t => t.2.2.1) hfix
  rw [this, hb]

theorem CloseStep.runs (h : CloseStep H files runId now db db') : db'.runs.map Run.fixed = db.runs.map Run.fixed := by
  obtain ⟨k, row, reason, output, -, -, -, happ⟩ := h
  exact happ.runs

/-- Closing orphans keeps the fixed columns of every run. -/
theorem closed_runs (h : ReflTransGen (CloseStep H files runId now) db db') :
    db'.runs.map Run.fixed = db.runs.map Run.fixed := by
  induction h with
  | refl => rfl
  | tail _ hstep ih => exact hstep.runs.trans ih

/-- A walk that meets a landed file write is in a run without budgets. -/
theorem Closable.unbudgeted (hc : Closable runId db) (hl : db.latest runId k = some row) (hk : row.kind = .fileWrite)
    (hcl : ReflTransGen (CloseStep H files runId now) db db') :
    ∃ run, db'.run? runId = some run ∧ run.budgets = ⟨none, none, none⟩ := by
  rcases hc with hno | hu
  · exact absurd hk (hno k row hl)
  · exact unbudgeted_of_fixed (closed_runs hcl) hu

/-- `complete_step` on the latest row of a step of an unbudgeted run. -/
theorem completeStep_latest (files : Files) (now : Int) (hl : db.latest runId k = some row)
    (hu : ∃ run, db.run? runId = some run ∧ run.budgets = ⟨none, none, none⟩) (outcome : AttemptOutcome)
    (output : Option String) :
    ∃ db', completeStep row.intent outcome output ⟨db, now, files, []⟩ = .ok () ⟨db', now, files, []⟩ ∧
      Appended db db' (outcomeRow row.intent outcome output now) := by
  obtain ⟨run, hrun, hb⟩ := hu
  obtain ⟨hr, hk⟩ := latest_key hl
  have hleft : BudgetLeft db now row.intent.runId run := by
    show BudgetLeft db now row.runId run
    rw [hr]
    exact ⟨hrun, by simp [hb], by simp [hb], by simp [hb]⟩
  refine completeStep_ok files hleft ?_ outcome output
  show nextVersion _ _ (db.journal row.runId) row.stepNo ≤ row.attempt + 1
  rw [hr, hk]
  exact (nextVersion_of_latest hl).le

/-- The latest rows after an outcome was journaled for the latest row of step `k`. -/
theorem Appended.latest_outcomeRow
    (hl : db.latest runId k = some row) (happ : Appended db db' (outcomeRow row.intent outcome output now)) :
    db'.latest runId k = some (outcomeRow row.intent outcome output now) := by
  obtain ⟨hr, hk⟩ := latest_key hl
  have h := happ.latest_self (by
    show nextVersion _ _ (db.journal row.runId) row.stepNo ≤ row.attempt + 1
    rw [hr, hk]
    exact (nextVersion_of_latest hl).le)
  have hkey : (outcomeRow row.intent outcome output now).runId = runId ∧
      (outcomeRow row.intent outcome output now).stepNo = k := ⟨hr, hk⟩
  rwa [hkey.1, hkey.2] at h

/-! ## The walk -/

/-- The walk stands at `expected` in a store that differs from the one it read only by closed orphans
    below `expected`. -/
structure Walking (H : Host) (files : Files) (runId : String) (now : Int) (db cur : Store) (e : Nat) : Prop where
  closed : ReflTransGen (CloseStep H files runId now) db cur
  ahead : ∀ k, e ≤ k → cur.latest runId k = db.latest runId k
  behind : ∀ j < e, Executed runId cur j

/-- Where the walk stopped. -/
def Stopped (H : Host) (files : Files) (runId : String) (db : Store) (s : Scan) : Prop :=
  ∃ k, (∀ j < k, Executed runId db j) ∧
    ((s.firstIncomplete = some k ∧ s.needsReview = none ∧ Runnable H files runId db k) ∨
     (s.firstIncomplete = none ∧ s.needsReview = some k ∧ Blocked H files runId db k) ∨
     (s.firstIncomplete = none ∧ s.needsReview = none ∧ s.expected = k ∧ db.latest runId k = none))

/-- A complete step moves the walk on. -/
theorem Walking.skip (h : Walking H files runId now db cur e) (he : Executed runId cur e) :
    Walking H files runId now db cur (e + 1) where
  closed := h.closed
  ahead := fun k hk => h.ahead k (by omega)
  behind := fun j hj => by
    rcases Nat.lt_succ_iff_lt_or_eq.mp hj with hj | rfl
    · exact h.behind j hj
    · exact he

/-- A closed orphan moves the walk on. -/
theorem Walking.close (h : Walking H files runId now db cur e)
    (hl : cur.latest runId e = some row) (ho : row.outcome = some .started)
    (hv : reconcileOrphan H files row.intent = .alreadyComplete reason output)
    (happ : Appended cur next (outcomeRow row.intent (.executed true) (some output) now)) :
    Walking H files runId now db next (e + 1) where
  closed := h.closed.tail ⟨e, row, reason, output, hl, ho, hv, happ⟩
  ahead := fun k hk => by
    obtain ⟨-, hkey⟩ := latest_key hl
    rw [happ.latest_of_ne fun hc => by have : row.stepNo = k := hc.2; omega]
    exact h.ahead k (by omega)
  behind := fun j hj => by
    obtain ⟨-, hkey⟩ := latest_key hl
    rcases Nat.lt_succ_iff_lt_or_eq.mp hj with hj | rfl
    · exact (h.behind j hj).of_latest
        (happ.latest_of_ne fun hc => by have : row.stepNo = j := hc.2; omega)
    · exact ⟨_, Appended.latest_outcomeRow hl happ, .inl rfl⟩

/-- **The walk.** By induction on the rows that remain: it always ends, in a store reached by closing
    orphans, at the first step that is not complete. -/
theorem scanSteps_spec (hc : Closable runId db)
    (hT : VersionedLog.Tail Step.stepNo Step.attempt (db.journal runId) s.expected rest)
    (hw : Walking H files runId now db cur s.expected) (hs : s.firstIncomplete = none ∧ s.needsReview = none) :
    ∃ s' db', scanSteps H rest s ⟨cur, now, files, []⟩ = .ok s' ⟨db', now, files, []⟩ ∧
      ReflTransGen (CloseStep H files runId now) db db' ∧ Stopped H files runId db' s' := by
  induction rest generalizing s cur with
  | nil =>
    have hnone : cur.latest runId s.expected = none := (hw.ahead _ le_rfl).trans hT.latest_eq_none
    exact ⟨s, cur, rfl, hw.closed, s.expected, hw.behind, .inr (.inr ⟨hs.1, hs.2, rfl, hnone⟩)⟩
  | cons step rest ih =>
    -- the two ways of breaking off at this step
    have stopFirst (hr : Runnable H files runId cur s.expected) :
        Stopped H files runId cur { s with firstIncomplete := some s.expected } :=
      ⟨_, hw.behind, .inl ⟨rfl, hs.2, hr⟩⟩
    have stopReview (hb : Blocked H files runId cur s.expected) :
        Stopped H files runId cur { s with needsReview := some s.expected } :=
      ⟨_, hw.behind, .inr (.inl ⟨hs.1, rfl, hb⟩)⟩
    by_cases hgap : step.stepNo = s.expected
    case neg =>
      -- a gap: the expected step has no row
      have hnone : cur.latest runId s.expected = none := (hw.ahead _ le_rfl).trans (hT.latest_eq_none_of_gap hgap)
      exact ⟨_, cur, by simp [scanSteps, hgap, pure, EStateM.pure], hw.closed,
        stopFirst fun row hrow => by simp [hnone] at hrow⟩
    case pos =>
      obtain ⟨hl, hT'⟩ := hT.next hgap
      have hcur : cur.latest runId s.expected = some step := (hw.ahead _ le_rfl).trans hl
      have only : ∀ row, cur.latest runId s.expected = some row → row = step := fun row hrow => by
        rw [hcur] at hrow
        exact (Option.some.inj hrow).symm
      -- one case per outcome of the latest row, as in the source
      rcases ho : step.outcome with - | - | - | - | - | -
      case none =>
        exact ⟨_, cur, by simp [scanSteps, hgap, ho, pure, EStateM.pure], hw.closed,
          stopFirst fun row hrow => .inl (only row hrow ▸ ho)⟩
      case some.neverRan =>
        exact ⟨_, cur, by simp [scanSteps, hgap, ho, pure, EStateM.pure], hw.closed,
          stopFirst fun row hrow => .inr (.inl (only row hrow ▸ ho))⟩
      case some.ambiguous =>
        exact ⟨_, cur, by simp [scanSteps, hgap, ho, pure, EStateM.pure], hw.closed, stopReview ⟨step, hcur, .inl ho⟩⟩
      case some.executedOk =>
        rw [show scanSteps H (step :: rest) s = _ by simp [scanSteps, hgap, ho]; rfl]
        exact ih hT' (hw.skip ⟨step, hcur, .inl ho⟩) hs
      case some.executedFailed =>
        rw [show scanSteps H (step :: rest) s = _ by simp [scanSteps, hgap, ho]; rfl]
        exact ih hT' (hw.skip ⟨step, hcur, .inr ho⟩) hs
      case some.started =>
        cases hv : reconcileOrphan H files step.intent with
        | rerun reason =>
          refine ⟨_, cur, ?_, hw.closed, stopFirst fun row hrow => only row hrow ▸ .inr (.inr ⟨ho, reason, hv⟩)⟩
          simp [scanSteps, hgap, ho, hv, bind, EStateM.bind, get, getThe, MonadStateOf.get, EStateM.get, pure, EStateM.pure]
        | needsReview reason =>
          refine ⟨_, cur, ?_, hw.closed, stopReview ⟨step, hcur, .inr ⟨ho, reason, hv⟩⟩⟩
          simp [scanSteps, hgap, ho, hv, bind, EStateM.bind, get, getThe, MonadStateOf.get, EStateM.get, pure, EStateM.pure]
        | alreadyComplete reason output =>
          -- the walk journals the outcome and goes on in the store that results
          obtain ⟨next, hcomp, happ⟩ := completeStep_latest files now hcur
            (hc.unbudgeted hl (reconcileOrphan_alreadyComplete hv) hw.closed) (.executed true) (some output)
          obtain ⟨s', db', hrun, hrest⟩ := ih (s := { s with
              completed := s.completed ++ [{ step with outcome := some .executedOk, output := some output,
                                                       attempt := step.attempt + 1 }]
              expected := s.expected + 1 }) hT' (hw.close hcur ho hv happ) hs
          refine ⟨s', db', ?_, hrest⟩
          rw [← hrun]
          simp [scanSteps, hgap, ho, hv, hcomp, bind, EStateM.bind, get, getThe, MonadStateOf.get, EStateM.get]

/-- **`resume_run`.** It succeeds, closes landed orphans and nothing else in the journal, and its plan
    names the first step that is not complete: one to execute, or one for a human. -/
theorem resumeRun_spec (H : Host) (files : Files) (now : Int) (hc : Closable runId db) :
    ∃ plan db₁ db', resumeRun H runId ⟨db, now, files, []⟩ = .ok plan ⟨db', now, files, []⟩ ∧
      plan.runId = runId ∧ ReflTransGen (CloseStep H files runId now) db db₁ ∧ SameJournal db₁ db' ∧
      PlanOk H files runId db₁ plan := by
  have hstart : Walking H files runId now db db 0 := ⟨ReflTransGen.refl, fun _ _ => rfl, by simp⟩
  obtain ⟨scan, db₁, hscan, hcl, k, hbehind, hstop⟩ := scanSteps_spec hc (s := ⟨[], none, none, 0⟩)
    tail_latestAll hstart ⟨rfl, rfl⟩
  have hwalk : latestSteps runId ⟨db, now, files, []⟩ =
      .ok (latestAll Step.stepNo Step.attempt (db.journal runId)) ⟨db, now, files, []⟩ := rfl
  -- broken off at a step to execute, at one to review, or past the last row
  rcases hstop with ⟨hf, hn, hr⟩ | ⟨hf, hn, hb⟩ | ⟨hf, hn, he, hnone⟩
  · refine ⟨⟨runId, scan.completed, some k, none⟩, db₁, db₁, ?_, rfl, hcl, .refl,
      k, hbehind, .inl ⟨rfl, rfl, hr⟩⟩
    simp [resumeRun, hwalk, hscan, hf, hn, bind, EStateM.bind, pure, EStateM.pure]
  · refine ⟨⟨runId, scan.completed, none, some k⟩, db₁, _, ?_, rfl, hcl, sameJournal_updateRun db₁ runId
        (fun r => r.state ≠ .done ∧ r.state ≠ .failed ∧ r.state ≠ .needsReview)
        (fun r => { r with state := .needsReview, updatedAtMs := now.toNat }) (fun _ => rfl),
      k, hbehind, .inr ⟨rfl, rfl, hb⟩⟩
    simp [resumeRun, hwalk, hscan, hf, hn, markNeedsReview, statement_quiet, bind, EStateM.bind, pure, EStateM.pure]
  · refine ⟨⟨runId, scan.completed, some k, none⟩, db₁, db₁, ?_, rfl, hcl, .refl,
      k, hbehind, .inl ⟨rfl, rfl, fun row hrow => by simp [hnone] at hrow⟩⟩
    simp [resumeRun, hwalk, hscan, hf, hn, he, bind, EStateM.bind, pure, EStateM.pure]

end RunsDb

end Supercli
