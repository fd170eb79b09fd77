import Supercli.Lib.Machine
import Supercli.Runs.Resume

/-!
# `Runs.Worker` — crash-safe execution of a run

A worker repeats `resume_run`, `begin_step_with_hint`, the side effect, `complete_step`, and stops when a
step needs review. It may die between any two of these; a restarted worker starts over with `resume_run`
on whatever the journal holds. `effects` is the world outside: the steps whose side effect was executed,
newest first. It survives every crash, and the journal has to keep up with it.

The invariant relates the two. Every executed step has a row, a row is never undecided in a way that would
invite another execution, and a worker about to execute a step (`Ready`) has the journal's permission.
-/

namespace Supercli.Worker

open Machine RunsDb Store Relation

/-- One step of the worker's list. -/
structure StepSpec where
  kind : StepKind
  inputHash : String
  hint : Option String
deriving DecidableEq, Repr

/-- What an executed side effect reports back: it has run, so never that it did not. -/
inductive Effect
  | executed (success : Bool)
  | ambiguous (reason : String)
deriving DecidableEq, Repr

/-- The outcome the worker journals for it. -/
def Effect.outcome : Effect → AttemptOutcome
  | .executed success => .executed success
  | .ambiguous reason => .ambiguous reason

/-- Where the worker stands in its loop. `stopped` is the end of the list or a step that needs review. -/
inductive Phase
  | idle
  | planned (k : Nat)
  | begun (k : Nat) (intent : StepIntent)
  | ran (k : Nat) (intent : StepIntent) (outcome : AttemptOutcome)
  | stopped
deriving DecidableEq, Repr

structure State where
  db : Store
  files : Files
  phase : Phase
  effects : List Nat

/-- What happens next. Executing a side effect may change any file, and so may the time a crash takes. -/
inductive Move
  | resume (now : Int)
  | begin (now : Int)
  | execute (result : Effect) (files : Files)
  | complete (now : Int) (output : Option String)
  | crash (files : Files)

variable (H : Host) (runId : String) (steps : List StepSpec)

/-- After a plan: execute the step it names, if the list has one; otherwise stop. -/
def planned (plan : ResumePlan) : Phase :=
  match plan.needsReviewStepNo, plan.firstIncompleteStepNo with
  | none, some k => if k < steps.length then .planned k else .stopped
  | _, _ => .stopped

/-- One move of the worker. A move its phase does not allow changes nothing. -/
def step (s : State) : Move → State
  | .resume now =>
    match s.phase with
    | .idle =>
      match resumeRun H runId ⟨s.db, now, s.files, []⟩ with
      | .ok plan c => { s with db := c.db, phase := planned steps plan }
      | .error _ c => { s with db := c.db }
    | _ => s
  | .begin now =>
    match s.phase with
    | .planned k =>
      match steps[k]? with
      | some spec =>
        match beginStepWithHint runId k spec.kind spec.inputHash spec.hint ⟨s.db, now, s.files, []⟩ with
        | .ok intent c => { s with db := c.db, phase := .begun k intent }
        | .error _ c => { s with db := c.db, phase := .idle }
      | none => s
    | _ => s
  | .execute result files =>
    match s.phase with
    | .begun k intent =>
      { s with files := files, phase := .ran k intent result.outcome, effects := k :: s.effects }
    | _ => s
  | .complete now output =>
    match s.phase with
    | .ran _ intent outcome =>
      match completeStep intent outcome output ⟨s.db, now, s.files, []⟩ with
      | .ok _ c => { s with db := c.db, phase := .idle }
      | .error _ c => { s with db := c.db, phase := .idle }
    | _ => s
  | .crash files => { s with files := files, phase := .idle }

/-! ## The invariant -/

/-- A latest row as this worker writes it: for a step of the list, with the step's kind and hint, and
    decided or in flight, never merely refused. -/
def RowOk (k : Nat) (row : Step) : Prop :=
  ∃ spec, steps[k]? = some spec ∧ row.kind = spec.kind ∧ row.reconcileHint = spec.hint ∧
    (row.outcome = some .executedOk ∨ row.outcome = some .executedFailed ∨
      row.outcome = some .ambiguous ∨ row.outcome = some .started)

/-- The journal's side of the invariant. -/
structure JournalOk (db : Store) (effects : List Nat) : Prop where
  unbudgeted : ∃ run, db.run? runId = some run ∧ run.budgets = ⟨none, none, none⟩
  rows : ∀ k row, db.latest runId k = some row → RowOk steps k row
  recorded : ∀ k ∈ effects, ∃ row, db.latest runId k = some row

/-- The intent in hand is the latest row of its step. -/
def InFlight (db : Store) (k : Nat) (intent : StepIntent) : Prop :=
  ∃ row, db.latest runId k = some row ∧ row.intent = intent ∧ row.outcome = some .started

/-- Step `k` may be executed now: everything before it is complete, an opaque step was never executed, and
    a file write that was has not left its content behind. -/
structure Ready (s : State) (k : Nat) : Prop where
  before : ∀ j < k, Executed runId s.db j
  once : ∀ spec, steps[k]? = some spec → spec.kind.isOpaque = true → k ∉ s.effects
  fileWrite : ∀ spec, steps[k]? = some spec → spec.kind = .fileWrite → k ∈ s.effects →
    targetHolds H s.files spec.hint = false

/-- What the worker's phase promises. -/
def PhaseOk (s : State) : Prop :=
  match s.phase with
  | .idle | .stopped => True
  | .planned k => Ready H runId steps s k
  | .begun k intent => Ready H runId steps s k ∧ InFlight runId s.db k intent
  | .ran k intent outcome => InFlight runId s.db k intent ∧ ∃ e : Effect, outcome = e.outcome

structure Inv (s : State) : Prop where
  journal : JournalOk runId steps s.db s.effects
  phase : PhaseOk H runId steps s
  once : ∀ k spec, steps[k]? = some spec → spec.kind.isOpaque = true → s.effects.count k ≤ 1

/-- A store in which the run was just created, without budgets. -/
structure Fresh (db : Store) : Prop where
  unbudgeted : ∃ run, db.run? runId = some run ∧ run.budgets = ⟨none, none, none⟩
  journal : db.journal runId = []

variable {H runId steps}

theorem inv_fresh (h : Fresh runId db) (files : Files) : Inv H runId steps ⟨db, files, .idle, []⟩ := by
  refine ⟨⟨h.unbudgeted, ?_, by simp⟩, trivial, by simp⟩
  intro k row hl
  simp [Store.latest, h.journal] at hl

/-! ## What the methods do to the journal's side -/

variable {db db' : Store} {effects : List Nat} {s : State} {now : Int} {k : Nat}

theorem JournalOk.same (h : JournalOk runId steps db effects) (hs : SameJournal db db') :
    JournalOk runId steps db' effects where
  unbudgeted := unbudgeted_of_fixed hs.runs h.unbudgeted
  rows := fun k row hl => h.rows k row (by rwa [latest_of_steps hs.steps] at hl)
  recorded := fun k hk => by
    rw [latest_of_steps hs.steps]
    exact h.recorded k hk

/-- Journaling a good row that becomes the latest of its step. -/
theorem JournalOk.append (h : JournalOk runId steps db effects) (happ : Appended db db' row)
    (hl : db'.latest runId k = some row) (hok : RowOk steps k row) : JournalOk runId steps db' effects := by
  have hother : ∀ j, j ≠ k → db'.latest runId j = db.latest runId j := by
    intro j hj
    exact happ.latest_of_ne fun hc => hj (hc.2.symm.trans (latest_key hl).2)
  refine ⟨unbudgeted_of_fixed happ.runs h.unbudgeted, ?_, ?_⟩
  · intro j r hj
    by_cases hjk : j = k
    · subst hjk
      rw [hl] at hj
      cases hj
      exact hok
    · exact h.rows j r (by rwa [hother j hjk] at hj)
  · intro j hj
    by_cases hjk : j = k
    · exact ⟨row, hjk ▸ hl⟩
    · rw [hother j hjk]
      exact h.recorded j hj

variable {files : Files}

section

variable (h : JournalOk runId steps db effects)

include h

/-- Closing a landed orphan keeps the journal's side. -/
theorem JournalOk.close (hc : CloseStep H files runId now db db') : JournalOk runId steps db' effects := by
  obtain ⟨k, row, reason, output, hl, -, -, happ⟩ := hc
  obtain ⟨spec, hspec, hkind, hhint, -⟩ := h.rows k row hl
  exact h.append happ (RunsDb.Appended.latest_outcomeRow hl happ) ⟨spec, hspec, hkind, hhint, .inl rfl⟩

theorem JournalOk.closed (hc : ReflTransGen (CloseStep H files runId now) db db') :
    JournalOk runId steps db' effects := by
  induction hc with
  | refl => exact h
  | tail _ hstep ih => exact ih.close hstep

/-- **The journal's permission.** A step that `resume_run` calls runnable may be executed. -/
theorem ready_of_runnable (hbefore : ∀ j < k, Executed runId db j) (hr : Runnable H files runId db k) :
    Ready H runId steps ⟨db, files, phase, effects⟩ k := by
  -- an executed step has a row, and the only runnable row is an orphan that reconciles to a re-run
  have orphan : ∀ spec, steps[k]? = some spec → k ∈ effects →
      spec.kind.isOpaque = false ∧ (spec.kind = .fileWrite → targetHolds H files spec.hint = false) := by
    intro spec hspec hk
    obtain ⟨row, hl⟩ := h.recorded k hk
    obtain ⟨spec', hspec', hkind, hhint, hout⟩ := h.rows k row hl
    rw [hspec] at hspec'
    cases hspec'
    rcases hr row hl with ho | ho | ⟨-, reason, hv⟩
    · simp [ho] at hout
    · simp [ho] at hout
    · have := reconcileOrphan_rerun hv
      rw [← hkind, ← hhint]
      exact this
  refine ⟨hbefore, ?_, ?_⟩
  · intro spec hspec hopaque hk
    rw [(orphan spec hspec hk).1] at hopaque
    cases hopaque
  · intro spec hspec hfw hk
    exact (orphan spec hspec hk).2 hfw

end

/-! ## One move -/

section

variable (h : Inv H runId steps s)

include h

theorem inv_resume : Inv H runId steps (step H runId steps s (.resume now)) := by
  cases hp : s.phase with
  | idle =>
    obtain ⟨plan, db₁, db₂, hrun, -, hcl, hsame, k, hbefore, hplan⟩ :=
      resumeRun_spec H s.files now (.inr h.journal.unbudgeted)
    have hj : JournalOk runId steps db₂ s.effects := (h.journal.closed hcl).same hsame
    simp only [step, hp, hrun]
    refine ⟨hj, ?_, h.once⟩
    -- a step to execute, or one to review, at which the worker stops
    rcases hplan with ⟨hf, hn, hr⟩ | ⟨hf, hn, -⟩
    · by_cases hk : k < steps.length
      · simp only [PhaseOk, planned, hf, hn, if_pos hk]
        have hlat : ∀ j, db₂.latest runId j = db₁.latest runId j := fun j => latest_of_steps hsame.steps
        exact ready_of_runnable hj (fun j hj => (hbefore j hj).of_latest (hlat j))
          (fun row hrow => hr row (by rwa [hlat k] at hrow))
      · simp only [PhaseOk, planned, hf, hn, if_neg hk]
    · simp only [PhaseOk, planned, hf, hn]
  | _ => simpa only [step, hp] using h

theorem inv_begin : Inv H runId steps (step H runId steps s (.begin now)) := by
  cases hp : s.phase with
  | planned k =>
    have hready : Ready H runId steps s k := by simpa only [PhaseOk, hp] using h.phase
    cases hspec : steps[k]? with
    | none => simpa only [step, hp, hspec] using h
    | some spec =>
      obtain ⟨db', hrun, happ⟩ := beginStepWithHint_spec s.db now s.files runId k spec.kind spec.inputHash spec.hint
      have hl := happ.latest_self le_rfl
      simp only [step, hp, hspec, hrun]
      refine ⟨h.journal.append happ hl ⟨spec, hspec, rfl, rfl, .inr (.inr (.inr rfl))⟩, ?_, h.once⟩
      -- the intent is a row of step `k`; the steps before it keep theirs
      refine ⟨⟨fun j hj => (hready.before j hj).of_latest (happ.latest_of_ne ?_),
        hready.once, hready.fileWrite⟩, _, hl, rfl, rfl⟩
      intro hc
      have : k = j := hc.2
      omega
  | _ => simpa only [step, hp] using h

theorem inv_execute : Inv H runId steps (step H runId steps s (.execute result files)) := by
  cases hp : s.phase with
  | begun k intent =>
    obtain ⟨hready, row, hl, hint, hout⟩ : Ready H runId steps s k ∧ InFlight runId s.db k intent := by
      simpa only [PhaseOk, hp] using h.phase
    simp only [step, hp]
    refine ⟨⟨h.journal.unbudgeted, h.journal.rows, ?_⟩, ⟨⟨row, hl, hint, hout⟩, result, rfl⟩, ?_⟩
    · exact List.forall_mem_cons.mpr ⟨⟨row, hl⟩, h.journal.recorded⟩
    · intro j spec hspec hopaque
      by_cases hjk : j = k
      · subst hjk
        -- the step is opaque and was never executed, so this is its first time
        rw [List.count_cons_self, List.count_eq_zero_of_not_mem (hready.once spec hspec hopaque)]
      · rw [List.count_cons_of_ne (Ne.symm hjk)]
        exact h.once j spec hspec hopaque
  | _ => simpa only [step, hp] using h

theorem inv_complete : Inv H runId steps (step H runId steps s (.complete now output)) := by
  cases hp : s.phase with
  | ran k intent outcome =>
    obtain ⟨⟨row, hl, rfl, -⟩, e, rfl⟩ : InFlight runId s.db k intent ∧ ∃ e : Effect, outcome = e.outcome := by
      simpa only [PhaseOk, hp] using h.phase
    obtain ⟨db', hrun, happ⟩ := completeStep_latest s.files now hl h.journal.unbudgeted e.outcome output
    obtain ⟨spec, hspec, hkind, hhint, -⟩ := h.journal.rows k row hl
    simp only [step, hp, hrun]
    refine ⟨h.journal.append happ (RunsDb.Appended.latest_outcomeRow hl happ) ⟨spec, hspec, hkind, hhint, ?_⟩,
      trivial, h.once⟩
    cases e with
    | executed success => cases success <;> simp [outcomeRow, Effect.outcome, outcomeStr]
    | ambiguous => simp [outcomeRow, Effect.outcome, outcomeStr]
  | _ => simpa only [step, hp] using h

end

/-- **Step lemma.** Every move, a crash included, keeps the invariant. -/
theorem inv_step (s : State) (m : Move) (h : Inv H runId steps s) : Inv H runId steps (step H runId steps s m) := by
  cases m with
  | resume => exact inv_resume h
  | begin => exact inv_begin h
  | execute => exact inv_execute h
  | complete => exact inv_complete h
  | crash => exact ⟨h.journal, trivial, h.once⟩

/-- **Crash-safe, at most once.** In every history of moves and crashes from a fresh run: an opaque step's
    side effect is executed at most once; and whenever a step is about to be executed, every step before it
    is complete, and if it is a file write that was executed before, its target does not hold the intended
    content. -/
theorem worker_at_most_once (H : Host) (steps : List StepSpec) {runId : String} {db : Store}
    (hfresh : Fresh runId db) (files : Files) (moves : List Move) :
    let s := run (step H runId steps) ⟨db, files, .idle, []⟩ moves
    (∀ k spec, steps[k]? = some spec → spec.kind = .tool ∨ spec.kind = .subagent ∨ spec.kind = .opaqueWrite →
      s.effects.count k ≤ 1) ∧
    (∀ k intent, s.phase = .begun k intent →
      (∀ spec, steps[k]? = some spec → spec.kind = .fileWrite → k ∈ s.effects →
        targetHolds H s.files spec.hint = false) ∧
      (∀ j < k, ∃ row, s.db.latest runId j = some row ∧
        (row.outcome = some .executedOk ∨ row.outcome = some .executedFailed))) := by
  intro s
  have h : Inv H runId steps s := invariant_of_forall inv_step (inv_fresh hfresh files) moves
  refine ⟨?_, ?_⟩
  · intro k spec hspec hkind
    refine h.once k spec hspec ?_
    rcases hkind with hk | hk | hk <;> rw [hk] <;> rfl
  · intro k intent hp
    obtain ⟨hready, -⟩ : Ready H runId steps s k ∧ InFlight runId s.db k intent := by
      simpa only [PhaseOk, hp] using h.phase
    exact ⟨hready.fileWrite, hready.before⟩

/-! A worker that dies after its tool call and before journaling it, restarts, and finds the orphan. -/

/-- A store with one fresh run. -/
def demoStore : Store where
  runs := [⟨"run_1", none, .queued, "\x7b\x7d", ⟨none, none, none⟩, none, 0, 0, 0, 0⟩]
  steps := []
  synced := 0
  leases := fun _ => none

/-- The digest and hint reader on the inputs of the demonstration: the empty content, and no hint. -/
def demoHost : Host where
  sha256Hex := fun b =>
    if b = "".toUTF8 then "e3b0c44298fc1c149afbf4c8996fb92427ae41e4649b934ca495991b7852b855" else ""
  hintFromJson := fun _ => none

/-- The crash falls between the call and its outcome row; the restarted worker resumes. -/
def demoMoves : List Move :=
  [.resume 1, .begin 2, .execute (.executed true) (fun _ => none), .crash (fun _ => none), .resume 3, .begin 4]

theorem worker_at_most_once_orphan : Fresh "run_1" demoStore ∧
    (run (step demoHost "run_1" [⟨.tool, "h0", none⟩]) ⟨demoStore, fun _ => none, .idle, []⟩ demoMoves).phase =
      .stopped ∧
    (run (step demoHost "run_1" [⟨.tool, "h0", none⟩]) ⟨demoStore, fun _ => none, .idle, []⟩
      demoMoves).effects.count 0 ≤ 1 := by
  have hfresh : Fresh "run_1" demoStore := ⟨⟨_, rfl, rfl⟩, rfl⟩
  exact ⟨hfresh, by decide +kernel,
    (worker_at_most_once demoHost [⟨.tool, "h0", none⟩] hfresh (fun _ => none) demoMoves).1 0
      ⟨.tool, "h0", none⟩ rfl (.inl rfl)⟩

end Supercli.Worker
