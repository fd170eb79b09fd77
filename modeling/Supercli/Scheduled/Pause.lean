import Supercli.Scheduled.Completion

/-!
# `Scheduled.Pause` — a paused run and the next trigger

`pause_run` is how an operator stops a run between steps. The search of `run_trigger` for a run to continue
skips terminal runs only, so a trigger that gets as far as the search finds the paused run, resumes it, and
settles it at its end like any other. `pause_honoured_iff` says so for every store: the pause is honoured by
the triggers that never look into the store, and by no others.

Two disciplines carry the two directions. `aloof`: a trigger that is refused, or has no store, touches neither
the store nor a durable run. `pausing`: a trigger that looks into the store ends with the run it found moved
out of PAUSED, because nothing a trigger does moves a run into it.
-/

namespace Supercli

open RunsDb Store Prog Option List Obeys

/-! ## Operators and runners -/

/-- What an operator can do to a run. -/
inductive Command
  | pause
  | cancel
  | retry
deriving DecidableEq, Repr

/-- The method behind a command. -/
def Command.method (insertKey : String → String → String → Option String) (runId : String) : Command → RunsM Bool
  | .pause => pauseRun insertKey runId
  | .cancel => cancelRun insertKey runId
  | .retry => retryRun runId

/-- A runner's label, or an operator's command on a run. -/
inductive OperatedLabel (W : Type)
  | runner (l : RunnerLabel W)
  | operator (command : Command) (runId : String) (e : Env)

/-- Runners and an operator over one store. -/
def operated {W : Type} [DecidableEq W] (H : Host) (cfg : RunnerConfig) (handle : W → Worker)
    (insertKey : String → String → String → Option String) (s : RunnerFleet W) : OperatedLabel W → RunnerFleet W
  | .runner l => (runners H cfg handle).step s l
  | .operator command runId e => { s with shared := (s.shared.sql e (command.method insertKey runId)).2 }

/-! ## The attempts, for any discipline -/

/-- The operations of the attempt loop of a trigger with this durable context. -/
def Op.isAttempt (durable : Option (String × Nat)) : Op → Bool
  | .now _ | .sleep _ => true
  | .beginStep _ _ _ => durable.isSome
  | .completeStep _ _ _ => durable.isSome
  | .callTool runId _ _ => runId = durable.map Prod.fst
  | _ => false

section Attempts

variable {H : Host} {M : Type} {D : Discipline runnerSig M} {m : M} {durable : Option (String × Nat)}

section

variable (hidle : ∀ o : Op, o.isAttempt durable = true → ∀ r, D.next m o r = some m)

include hidle

theorem beginIntent_idle (idx : Nat)
    (hash : String) : (beginIntent durable idx hash).Obeys D (fun i m' => m' = m ∧ (i.isSome → durable.isSome)) m := by
  cases durable with
  | none => exact ⟨rfl, nofun⟩
  | some ctx =>
    refine obeys_idle_bind (hidle _ rfl) fun r => ?_
    cases r <;> exact ⟨rfl, fun _ => rfl⟩

theorem journalOutcome_idle (hi : intent.isSome → durable.isSome) (outcome : AttemptOutcome) (output : Option String) :
    (journalOutcome intent outcome output).Obeys D (fun _ m' => m' = m) m := by
  cases intent with
  | none => rfl
  | some i => exact obeys_idle_bind (hidle _ (hi rfl)) fun _ => rfl

variable (policy : AutonomousPolicy)

theorem attemptStep_idle (deadlineMs idx : Nat) (call : ScheduledToolCall) (t : Tally) :
    (attemptStep H policy durable deadlineMs idx call t).Obeys D (fun _ m' => m' = m) m := by
  refine obeys_idle_bind (hidle _ rfl) fun nowMs => ?_
  split
  · rfl
  · refine bind ((beginIntent_idle hidle idx _).mono ?_)
    rintro intent m' ⟨rfl, hi⟩
    refine obeys_idle_bind (hidle _ (by simp [Op.isAttempt])) fun reply => ?_
    match reply with
    | .ok text =>
      refine bind ((journalOutcome_idle hidle hi _ _).mono ?_)
      rintro _ _ rfl
      split
      · rfl
      · split <;> rfl
    | .error failure =>
      refine bind ((journalOutcome_idle hidle hi _ _).mono ?_)
      rintro _ _ rfl
      rfl

theorem attemptLoop_idle (deadlineMs idx : Nat) (calls : List ScheduledToolCall)
    (t : Tally) : (attemptLoop H policy durable deadlineMs idx calls t).Obeys D (fun _ m' => m' = m) m := by
  induction calls generalizing idx t with
  | nil => rfl
  | cons call rest ih =>
    unfold attemptLoop
    split
    · exact ih _ _
    · refine bind ((attemptStep_idle hidle policy deadlineMs idx call t).mono ?_)
      rintro result _ rfl
      cases result with
      | error => rfl
      | ok => exact ih _ _

theorem runAttempt_idle (calls : List ScheduledToolCall) :
    (runAttempt H policy calls durable).Obeys D (fun _ m' => m' = m) m := by
  refine obeys_idle_bind (hidle _ rfl) fun startedMs => ?_
  split
  · rfl
  · exact attemptLoop_idle hidle policy _ 0 calls _

/-- **A discipline that does not mind the operations of an attempt does not mind the attempt loop.** -/
theorem attempts_idle (spec : ScheduleSpec) (left index : Nat) (denied : List String) :
    (attempts H spec durable left index denied).Obeys D (fun _ m' => m' = m) m := by
  induction left generalizing index denied with
  | zero =>
    unfold attempts
    refine bind ((runAttempt_idle hidle spec.policy spec.calls).mono ?_)
    rintro attempt _ rfl
    rfl
  | succ left ih =>
    unfold attempts
    refine bind ((runAttempt_idle hidle spec.policy spec.calls).mono ?_)
    rintro attempt _ rfl
    show Obeys D (if _ then _ else _) _ _
    split
    · rfl
    · exact obeys_idle_bind (hidle _ rfl) fun _ => ih _ _

end

end Attempts

/-! ## Triggers that do not look into the store -/

/-- The trigger gets as far as searching the store for a run to continue. -/
def LooksUp (cfg : RunnerConfig) (spec : ScheduleSpec) (r : RunnerState) : Prop :=
  spec.validate = .ok () ∧ spec.enabled = true ∧ cfg.hasRunsDb = true ∧ r.active.contains spec.id = false

/-- Operations on the store. -/
def Op.isStore : Op → Bool
  | .listRuns | .resumeRun _ | .createRun _ _ | .claimRun _ | .transition _ _ _ | .markNeedsReview _
  | .releaseRun _ | .beginStep _ _ _ | .completeStep _ _ _ => true
  | _ => false

/-- The other operations leave the store as it is. -/
theorem store_of_not_isStore {W : Type} [DecidableEq W] {w : W} {s : Shared W}
    (ho : o.isStore = false) : (answer H handle w o s e).2.store = s.store := by
  cases o with
  | now site => cases site <;> rfl
  | tryBegin _ | appendRecord _ =>
    simp only [answer]
    split <;> rfl
  | _ => first | rfl | cases ho

/-- Neither the store nor a durable run is touched. The mark says that the slot was taken although it was
    `held`, after which nothing matters. -/
def nextAloof (scheduleId : String) (held : Bool) : Bool → (o : Op) → o.Ans → Option Bool
  | true, _, _ => some true
  | false, .tryBegin id, got => if id = scheduleId then some (held && got) else none
  | false, .endRun _, _ => if held then none else some false
  | false, .callTool runId _ _, _ => if runId = none then some false else none
  | false, o, _ => if o.isStore then none else some false

/-- The discipline of a trigger that stays away from the store. -/
def aloof (scheduleId : String) (held : Bool) : Discipline runnerSig Bool := ⟨nextAloof scheduleId held⟩

/-- Once the slot was taken against the odds, everything is allowed. -/
theorem obeys_aloof_true {β : Type} {p : RunnerM β} : p.Obeys (aloof scheduleId held) (fun _ _ => True) true := by
  induction p with
  | ret a => trivial
  | ask o k ih => exact fun r => ⟨true, rfl, ih r⟩

/-- **A trigger that does not look into the store stays away from it.** -/
theorem runTrigger_aloof (h : ¬ LooksUp cfg spec r) :
    (runTrigger H cfg spec).Obeys (aloof spec.id (r.active.contains spec.id)) (fun _ _ => True) false := by
  have hrefuse : ∀ record, (audit record).Obeys (aloof spec.id (r.active.contains spec.id)) (fun _ _ => True)
      false := by
    intro record
    refine obeys_idle_bind (fun _ => rfl) fun result => ?_
    cases result <;> trivial
  unfold runTrigger
  refine obeys_idle_bind (fun _ => rfl) fun t => ?_
  split
  · exact hrefuse _
  · rename_i hvalid
    split
    · exact hrefuse _
    · rename_i henabled
      split
      · exact hrefuse _
      · intro got
        refine ⟨_, if_pos rfl, ?_⟩
        cases got with
        | false =>
          rw [Bool.and_false]
          exact hrefuse _
        | true =>
          rw [Bool.and_true]
          cases hheld : r.active.contains spec.id with
          | true => exact obeys_aloof_true
          | false =>
            -- the slot is free, so it is the store that is missing
            have hdb : cfg.hasRunsDb = false := by
              rw [← Bool.not_eq_true]
              exact fun hdb => h ⟨hvalid, by simpa using henabled, hdb, hheld⟩
            refine obeys_idle_bind (fun _ => rfl) fun previous => ?_
            refine obeys_idle_bind (fun _ => rfl) fun _ => ?_
            refine obeys_idle_bind (fun _ => rfl) fun _ => ?_
            refine bind ?_
            simp only [fire, durableCtx, hdb, Bool.not_false, if_true, pure_bind]
            refine bind ((attempts_idle ?_ spec _ 0 []).mono ?_)
            · intro o ho r'
              cases o with
              | callTool runId idx call => exact if_pos (by simpa [Op.isAttempt] using ho)
              | _ => first | rfl | cases ho
            · rintro ⟨result, denied⟩ _ rfl
              simp only [closeRun, pure_bind]
              have hend : ∀ result : TriggerResult, Obeys (aloof spec.id false) (do
                  ask (.setAutonomous previous)
                  ask (.endRun spec.id)
                  return result) (fun _ _ => True) false :=
                fun result _ => ⟨_, rfl, fun _ => ⟨_, rfl, trivial⟩⟩
              refine obeys_idle_bind (fun _ => rfl) fun fence => ?_
              rcases fence with - | - | -
              case some.false => exact hend _
              all_goals
                refine obeys_idle_bind (fun _ => rfl) fun appended => ?_
                cases appended <;> exact hend _

/-! ## Triggers that do -/

/-- What a trigger that looks into the store knows of the run it continues. `gone` is where it cannot get when
    the store answers and a run is there to be found. -/
inductive Pausing
  | entering
  | slot
  | found (orphan : Option String)
  | working (runId : String)
  | moved (runId : String)
  | gone
deriving DecidableEq, Repr

/-- The mark a resume leads to. -/
def afterResume (runId : String) : Except RunsError ResumePlan → Pausing
  | .ok plan => if plan.needsReviewStepNo.isSome then .moved runId else .working runId
  | .error _ => .gone

/-- The mark the search leads to. -/
def afterSearch (scheduleId : String) : Except RunsError (List Run) → Pausing
  | .ok runs => .found ((findOrphan scheduleId runs).map Run.id)
  | .error _ => .gone

/-- Operations on neither the store nor the slots. -/
def Op.isOutside : Op → Bool
  | .tryBegin _ | .endRun _ => false
  | o => !o.isStore

/-- They leave the store and the slots as they are. -/
theorem answer_outside {W : Type} [DecidableEq W] (H : Host) (handle : Worker) (w : W) (s : Shared W) (e : Env)
    (ho : o.isOutside = true) : (answer H handle w o s e).2.store = s.store ∧
      ((answer H handle w o s e).2.runner w).active = (s.runner w).active := by
  cases o with
  | now site => cases site <;> exact ⟨rfl, rfl⟩
  | setAutonomous _ | setActor _ => exact ⟨rfl, by simp [answer]⟩
  | appendRecord record =>
    simp only [answer]
    split <;> exact ⟨rfl, rfl⟩
  | _ => first | exact ⟨rfl, rfl⟩ | cases ho

/-- The moves of the discipline. No transition leads into PAUSED. -/
def nextPausing (scheduleId : String) : Pausing → (o : Op) → o.Ans → Option Pausing
  | .gone, _, _ | .found none, _, _ => some .gone
  | .entering, .tryBegin id, got =>
    if id = scheduleId then some (match (got : Bool) with | true => .slot | false => .gone) else none
  | .slot, .listRuns, r => some (afterSearch scheduleId r)
  | .found (some id), .resumeRun runId, r => if runId = id then some (afterResume id r) else none
  | .working id, .transition runId source target, _ =>
    if runId = id ∧ target ≠ .paused then some (if source = .paused then .moved id else .working id) else none
  | .working id, .markNeedsReview runId, _ => if runId = id then some (.moved id) else none
  | .moved id, .transition _ _ target, _ => if target ≠ .paused then some (.moved id) else none
  | .working id, _, _ => some (.working id)
  | .moved id, _, _ => some (.moved id)
  | m, o, _ => if o.isOutside then some m else none

/-- The discipline of a trigger that continues a run. -/
def pausing (scheduleId : String) : Discipline runnerSig Pausing := ⟨nextPausing scheduleId⟩

/-- The run was moved, if there was one to be found. -/
def Pausing.Settled : Pausing → Prop
  | .moved _ | .gone => True
  | _ => False

section Obeys

variable {H : Host} {scheduleId : String}

/-- Everything is allowed to a trigger that cannot get there. -/
theorem obeys_gone {β : Type} {Q : β → Pausing → Prop} {p : RunnerM β} (hQ : ∀ a, Q a .gone) :
    p.Obeys (pausing scheduleId) Q .gone := by
  induction p with
  | ret a => exact hQ a
  | ask o k ih => exact fun r => ⟨.gone, rfl, ih r⟩

variable {target : RunState}

/-- One transition of a run that is being worked on. -/
theorem obeys_transition_working {id : String} {β : Type} {Q : β → Pausing → Prop}
    {f : Except RunsError Bool → RunnerM β} (ht : target ≠ .paused)
    (h : ∀ r, (f r).Obeys (pausing scheduleId) Q (if source = .paused then .moved id else .working id)) :
    (ask (.transition id source target) >>= f).Obeys (pausing scheduleId) Q (.working id) :=
  fun r => ⟨_, if_pos ⟨rfl, ht⟩, h r⟩

/-- One transition of a run that was moved. -/
theorem obeys_transition_moved {id runId : String} {β : Type} {Q : β → Pausing → Prop}
    {f : Except RunsError Bool → RunnerM β} (ht : target ≠ .paused)
    (h : ∀ r, (f r).Obeys (pausing scheduleId) Q (.moved id)) :
    (ask (.transition runId source target) >>= f).Obeys (pausing scheduleId) Q (.moved id) :=
  fun r => ⟨_, if_pos ht, h r⟩

theorem settle_pausing {id : String} (hm : m = .working id ∨ m = .moved id) (ht : target ≠ .paused) :
    (settle id target).Obeys (pausing scheduleId) (fun _ m' => m' = .moved id) m := by
  rcases hm with rfl | rfl
  · refine obeys_transition_working ht fun _ => ?_
    refine obeys_transition_working ht fun _ => ?_
    refine obeys_transition_working ht fun _ => ?_
    refine obeys_transition_working ht fun _ => ?_
    exact obeys_transition_working ht fun _ => rfl
  · refine obeys_transition_moved ht fun _ => ?_
    refine obeys_transition_moved ht fun _ => ?_
    refine obeys_transition_moved ht fun _ => ?_
    refine obeys_transition_moved ht fun _ => ?_
    exact obeys_transition_moved ht fun _ => rfl

theorem closeRun_pausing {id : String} (hm : m = .working id ∨ m = .moved id) :
    (closeRun (some (id, start)) result).Obeys (pausing scheduleId) (fun _ m' => m' = .moved id) m := by
  have hsettle : (settleFor result id).Obeys (pausing scheduleId) (fun _ m' => m' = .moved id) m := by
    unfold settleFor
    split
    · exact settle_pausing hm (by decide)
    · split
      · rcases hm with rfl | rfl
        · exact fun r => ⟨_, if_pos rfl, rfl⟩
        · exact fun r => ⟨_, rfl, rfl⟩
      · exact settle_pausing hm (by decide)
  refine bind (hsettle.mono ?_)
  rintro _ _ rfl
  exact fun r => ⟨_, rfl, rfl⟩

/-- Where the attempt loop of a trigger that looked into the store ends. -/
def LoopEndsAt (out : TriggerResult ⊕ LoopEnd) (m : Pausing) : Prop :=
  m = .gone ∨ ∃ l id start, out = .inr l ∧ l.durable = some (id, start) ∧ (m = .working id ∨ m = .moved id)

theorem afterLoop_pausing {spec : ScheduleSpec} {out : TriggerResult ⊕ LoopEnd} (h : LoopEndsAt out m) :
    (afterLoop spec out).Obeys (pausing scheduleId) (fun _ m' => m'.Settled) m := by
  rcases h with rfl | ⟨l, id, start, rfl, hl, hm⟩
  · exact obeys_gone fun _ => trivial
  · have hclose : (closeRun (some (id, start)) l.result).Obeys (pausing scheduleId) (fun _ m' => m' = .moved id) m :=
      closeRun_pausing hm
    rw [← hl] at hclose
    refine bind (hclose.mono ?_)
    rintro _ _ rfl
    have hrecord : (recordCompletion spec l).Obeys (pausing scheduleId) (fun _ m' => m' = .moved id) (.moved id) := by
      refine obeys_idle_bind (fun _ => rfl) fun fence => ?_
      match fence with
      | some false => rfl
      | some true | none =>
        refine obeys_idle_bind (fun _ => rfl) fun appended => ?_
        cases appended <;> rfl
    refine bind (hrecord.mono ?_)
    rintro result _ rfl
    exact fun _ => ⟨_, rfl, fun _ => ⟨_, rfl, trivial⟩⟩

/-- Binding the durable context: a run that was found is worked on, or was moved for review. -/
theorem durableCtx_pausing {cfg : RunnerConfig} (hdb : cfg.hasRunsDb = true) (spec : ScheduleSpec) (t : Nat) :
    (durableCtx cfg spec t).Obeys (pausing spec.id)
      (fun ctx m => m = .gone ∨ ∃ id start, ctx = some (id, start) ∧ (m = .working id ∨ m = .moved id)) .slot := by
  simp only [durableCtx, hdb, Bool.not_true, Bool.false_eq_true, if_false]
  intro r
  refine ⟨_, rfl, ?_⟩
  cases r with
  | error => exact .inl rfl
  | ok runs =>
    dsimp only [Prog.bind, afterSearch]
    cases findOrphan spec.id runs with
    | none =>
      intro r
      exact ⟨.gone, rfl, obeys_gone fun _ => .inl rfl⟩
    | some run =>
      intro r
      refine ⟨_, if_pos rfl, ?_⟩
      cases r with
      | error => exact .inl rfl
      | ok plan =>
        show Obeys _ (if plan.needsReviewStepNo.isSome then _ else _) _
          (if plan.needsReviewStepNo.isSome then _ else _)
        split
        · exact .inr ⟨run.id, _, rfl, .inr rfl⟩
        · exact fun _ => ⟨_, rfl, .inr ⟨run.id, _, rfl, .inl rfl⟩⟩

/-- **A trigger that looks into the store moves the run it finds.** -/
theorem runTrigger_pausing {cfg : RunnerConfig} (h : LooksUp cfg spec r) :
    (runTrigger H cfg spec).Obeys (pausing spec.id) (fun _ m => m.Settled) .entering := by
  obtain ⟨hvalid, henabled, hdb, -⟩ := h
  rw [runTrigger_eq]
  refine bind (mono ?_ fun out m hm => afterLoop_pausing hm)
  unfold untilLoopEnds
  simp only [hvalid, henabled, hdb, Bool.not_true, Bool.and_false, Bool.false_eq_true, if_false]
  refine obeys_idle_bind (fun _ => rfl) fun t => ?_
  intro got
  refine ⟨_, if_pos rfl, ?_⟩
  match got with
  | false => exact obeys_gone fun _ => .inl rfl
  | true =>
    refine obeys_idle_bind (fun _ => rfl) fun previous => ?_
    refine obeys_idle_bind (fun _ => rfl) fun _ => ?_
    refine obeys_idle_bind (fun _ => rfl) fun _ => ?_
    refine bind ((durableCtx_pausing hdb spec t).mono ?_)
    rintro ctx m (rfl | ⟨id, start, rfl, hm⟩)
    · exact obeys_gone fun _ => .inl rfl
    · refine bind ((attempts_idle ?_ spec _ 0 []).mono ?_)
      · intro o ho r
        rcases hm with rfl | rfl <;> cases o <;> first | rfl | cases ho
      · rintro ⟨result, denied⟩ _ rfl
        exact .inr ⟨_, id, start, rfl, rfl, hm⟩

end Obeys

/-! ## The store while the run is looked up and settled -/

/-- The newest run of a schedule that is not terminal. -/
structure NewestOpen (db : Store) (scheduleId : String) (run : Run) : Prop where
  found : db.run? run.id = some run
  named : (scheduleMark scheduleId).toList <:+: run.plan.toList
  nonTerminal : run.state.isTerminal = false
  newest : ∀ r ∈ db.runs, r.state.isTerminal = false → (scheduleMark scheduleId).toList <:+: r.plan.toList →
    r = run ∨ r.createdAtMs < run.createdAtMs

/-- **The search finds it**, whatever its state. -/
theorem NewestOpen.findOrphan (h : NewestOpen db scheduleId run) :
    findOrphan scheduleId (db.runs.insertionSort fun a b => b.createdAtMs ≤ a.createdAtMs) = some run := by
  let le : Run → Run → Prop := fun a b => b.createdAtMs ≤ a.createdAtMs
  have : Std.Total le := ⟨fun a b => Nat.le_total b.createdAtMs a.createdAtMs⟩
  have : IsTrans Run le := ⟨fun a b c hab hbc => hbc.trans hab⟩
  have hsorted : (db.runs.insertionSort le).Pairwise le := pairwise_insertionSort le db.runs
  have hmem : run ∈ db.runs.insertionSort le := (mem_insertionSort _).mpr (mem_of_find?_eq_some h.found)
  let isOpen : Run → Bool := fun r =>
    !r.state.isTerminal && decide ((scheduleMark scheduleId).toList <:+: r.plan.toList)
  have hpred : isOpen run = true := by simp [isOpen, h.nonTerminal, h.named]
  obtain ⟨r, hr⟩ := isSome_iff_exists.mp (find?_isSome (p := isOpen) |>.mpr ⟨run, hmem, hpred⟩)
  obtain ⟨hp, before, after, hsplit, hbefore⟩ := find?_eq_some_iff_append.mp hr
  have hrmem : r ∈ db.runs := (mem_insertionSort _).mp (mem_of_find?_eq_some hr)
  have hopen : r.state.isTerminal = false ∧ (scheduleMark scheduleId).toList <:+: r.plan.toList := by
    simpa [isOpen] using hp
  -- the first match is the run, for a run listed after it is not newer
  have heq : r = run := by
    rw [hsplit] at hmem hsorted
    rcases mem_append.mp hmem with hin | hin
    · have := hbefore run hin
      simp [hpred] at this
    · rcases mem_cons.mp hin with heq | hin
      · exact heq.symm
      · have hle : run.createdAtMs ≤ r.createdAtMs :=
          (pairwise_cons.mp (pairwise_append.mp hsorted).2.1).1 run hin
        rcases h.newest r hrmem hopen.1 hopen.2 with heq | hlt
        · exact heq
        · omega
  rw [← heq]
  exact hr

section Step

variable {W : Type} [DecidableEq W] {H : Host} {handle : Worker} {w : W} {s₀ s : Shared W} {e : Env} {o : Op}
  {runId scheduleId : String} {run : Run}

omit [DecidableEq W] in
theorem avoids_sql {α : Type} {method : RunsM α} (h : s.store.Avoids runId states)
    (hm : Stable (Avoids runId states) method) : (s.sql e method).2.store.Avoids runId states := by
  rw [sql_store]
  exact hm ⟨s.store, e.dbNow, e.files, e.faults⟩ h

/-- **No operation of a trigger pauses a run**, but a transition that says so. -/
theorem avoids_paused_answer (h : s.store.Avoids runId [.paused])
    (ho : ∀ id source, o ≠ .transition id source .paused) :
    (answer H handle w o s e).2.store.Avoids runId [.paused] := by
  by_cases hstore : o.isStore = true
  · cases o with
    | listRuns => exact avoids_sql h (stable_read fun _ _ _ _ h => by cases h; rfl)
    | resumeRun id => exact avoids_sql h (stable_resumeRun (by decide) (by decide))
    | createRun => exact avoids_sql h (stable_createRun (by decide))
    | claimRun id => exact avoids_sql h stable_claimRun
    | transition id source target =>
      have ht : target ∉ [RunState.paused] := by
        rw [mem_singleton]
        rintro rfl
        exact ho id source rfl
      exact avoids_sql h (stable_transition id ht)
    | markNeedsReview id => exact avoids_sql h (stable_markNeedsReview id (by decide))
    | releaseRun id => exact avoids_sql h stable_releaseRun
    | beginStep id k hash => exact avoids_sql h (stable_beginStep id)
    | completeStep intent outcome output => exact avoids_sql h (stable_completeStep (by decide))
    | _ => cases hstore
  · rw [store_of_not_isStore (by simpa using hstore)]
    exact h

/-- What a trigger has done to the run that was paused when it started in `s₀`. -/
def PausedRun (scheduleId : String) (w : W) (s₀ : Shared W) (run : Run) (m : Pausing) (s : Shared W) : Prop :=
  match m with
  | .entering => s.store = s₀.store ∧ (s.runner w).active.contains scheduleId = false
  | .slot => s.store = s₀.store
  | .found orphan => s.store = s₀.store ∧ orphan = some run.id
  | .working id => id = run.id
  | .moved id => id = run.id ∧ s.store.Avoids run.id [.paused]
  | .gone => False

/-- A run that is in no open state is not paused. -/
theorem avoids_paused_of_open {db : Store} (h : db.Avoids runId openStates) : db.Avoids runId [.paused] := by
  intro r hr hid hst
  rw [mem_singleton] at hst
  exact h r hr hid (by rw [hst]; decide)

/-- **Step lemma**, when no statement fails. -/
theorem pausedRun_step (hnew : NewestOpen s₀.store scheduleId run) (hclosable : Closable run.id s₀.store)
    (h : PausedRun scheduleId w s₀ run m s) (he : e.faults = [])
    (hnext : nextPausing scheduleId m o (answer H handle w o s e).1 = some m') :
    PausedRun scheduleId w s₀ run m' (answer H handle w o s e).2 := by
  cases m with
  | gone => exact h.elim
  | entering =>
    obtain ⟨hstore, hfree⟩ := h
    cases o with
    | tryBegin =>
      obtain ⟨rfl, ⟨⟩⟩ := ite_none_right_eq_some.mp hnext
      simp only [answer, hfree, Bool.false_eq_true, if_false]
      exact hstore
    | _ =>
      simp only [nextPausing, ite_none_right_eq_some, some.injEq] at hnext
      obtain ⟨hout, rfl⟩ := hnext
      have hsame := answer_outside H handle w s e hout
      exact ⟨hsame.1.trans hstore, by rw [hsame.2]; exact hfree⟩
  | slot =>
    cases o with
    | listRuns =>
      have hsql : s.sql e listRuns = _ := sql_ok he rfl
      simp only [nextPausing, some.injEq, answer, hsql, afterSearch] at hnext ⊢
      subst hnext
      refine ⟨h, ?_⟩
      rw [show s.store = s₀.store from h, hnew.findOrphan]
      rfl
    | _ =>
      simp only [nextPausing, ite_none_right_eq_some, some.injEq] at hnext
      obtain ⟨hout, rfl⟩ := hnext
      exact (answer_outside H handle w s e hout).1.trans h
  | found =>
    obtain ⟨hstore, rfl⟩ := h
    cases o with
    | resumeRun =>
      obtain ⟨rfl, ⟨⟩⟩ := ite_none_right_eq_some.mp hnext
      rw [← hstore] at hclosable
      obtain ⟨plan, db₁, db', hresume, -⟩ := resumeRun_spec H e.files e.dbNow hclosable
      simp only [answer, sql_ok he hresume, afterResume]
      split
      · rename_i hreview
        exact ⟨rfl, avoids_paused_of_open (avoids_resumeRun hresume hreview)⟩
      · rfl
    | _ =>
      simp only [nextPausing, ite_none_right_eq_some, some.injEq] at hnext
      obtain ⟨hout, rfl⟩ := hnext
      exact ⟨(answer_outside H handle w s e hout).1.trans hstore, rfl⟩
  | working =>
    cases o with
    | transition runId source target =>
      obtain ⟨⟨rfl, ht⟩, ⟨⟩⟩ := ite_none_right_eq_some.mp hnext
      split
      · rename_i hsource
        subst hsource
        have hsql : s.sql e (transition runId .paused target) = _ := sql_ok he rfl
        refine ⟨h, ?_⟩
        simp only [answer, hsql]
        rw [← h]
        exact avoids_transition (c := ⟨s.store, e.dbNow, e.files, []⟩) rfl (fun _ _ _ => not_mem_nil)
          (by simpa using ht)
      · exact h
    | markNeedsReview runId =>
      obtain ⟨rfl, ⟨⟩⟩ := ite_none_right_eq_some.mp hnext
      have hsql : s.sql e (markNeedsReview runId) = _ := sql_ok he rfl
      refine ⟨h, ?_⟩
      simp only [answer, hsql]
      rw [← h]
      exact avoids_paused_of_open (avoids_markNeedsReview (c := ⟨s.store, e.dbNow, e.files, []⟩) rfl)
    | _ =>
      cases hnext
      exact h
  | moved id =>
    obtain ⟨rfl, havoids⟩ := h
    have hkeep : (∀ id source, o ≠ .transition id source .paused) →
        PausedRun scheduleId w s₀ run (.moved run.id) (answer H handle w o s e).2 :=
      fun ho => ⟨rfl, avoids_paused_answer havoids ho⟩
    cases o with
    | transition =>
      obtain ⟨ht, ⟨⟩⟩ := ite_none_right_eq_some.mp hnext
      refine hkeep ?_
      rintro id source' ⟨⟩
      exact ht rfl
    | _ =>
      cases hnext
      exact hkeep (by simp)

end Step

/-! ## The result -/

/-- A call on the run. -/
def Event.isCallOn {W : Type} (runId : String) : Event W → Bool
  | .called _ (some id) _ _ => id = runId
  | _ => false

/-- The trigger that led from `s` to `s'` has honoured the pause: no call on the run was added to the trace,
    and the run is still paused. -/
structure Honoured {W : Type} (runId : String) (s s' : Shared W) : Prop where
  uncalled : s'.trace.countP (Event.isCallOn runId) = s.trace.countP (Event.isCallOn runId)
  paused : (s'.store.run? runId).map Run.state = some .paused

section Aloof

variable {W : Type} [DecidableEq W] {H : Host} {handle : Worker} {w : W} {s₀ s : Shared W} {e : Env} {o : Op}
  {runId scheduleId : String}

/-- Nothing that concerns the run has happened, and the slot is held if it was. -/
structure Untouched (scheduleId runId : String) (w : W) (held : Bool) (s₀ : Shared W) (b : Bool) (s : Shared W) :
    Prop where
  impossible : b = false
  store : s.store = s₀.store
  uncalled : s.trace.countP (Event.isCallOn runId) = s₀.trace.countP (Event.isCallOn runId)
  slot : held = true → (s.runner w).active.contains scheduleId = true

theorem untouched_step (h : Untouched scheduleId runId w held s₀ b s)
    (hnext : nextAloof scheduleId held b o (answer H handle w o s e).1 = some b') :
    Untouched scheduleId runId w held s₀ b' (answer H handle w o s e).2 := by
  obtain ⟨rfl, hstore, hcalls, hslot⟩ := h
  -- an operation that logs no call on the run and is outside the store and the slots
  have houtside : o.isOutside = true → (∀ id, (answer H handle w o s e).2.trace.countP (Event.isCallOn id) =
      s.trace.countP (Event.isCallOn id)) → b' = false →
      Untouched scheduleId runId w held s₀ b' (answer H handle w o s e).2 := by
    intro hout htrace hb
    have hsame := answer_outside H handle w s e hout
    exact ⟨hb, hsame.1.trans hstore, (htrace runId).trans hcalls, by rw [hsame.2]; exact hslot⟩
  cases o with
  | tryBegin id =>
    obtain ⟨rfl, ⟨⟩⟩ := ite_none_right_eq_some.mp hnext
    by_cases hheld : (s.runner w).active.contains id = true
    · simp only [answer, hheld, if_true]
      exact ⟨Bool.and_false _, hstore, hcalls, fun _ => hheld⟩
    · -- the slot is free, so it was not held
      have hfree : held = false := by
        rw [← Bool.not_eq_true]
        exact fun hh => hheld (hslot hh)
      simp only [answer, hheld, Bool.false_eq_true, if_false, hfree]
      exact ⟨rfl, hstore, hcalls, by rintro ⟨⟩⟩
  | endRun =>
    cases held with
    | true => cases hnext
    | false =>
      cases hnext
      exact ⟨rfl, hstore, hcalls, by rintro ⟨⟩⟩
  | callTool =>
    obtain ⟨rfl, ⟨⟩⟩ := ite_none_right_eq_some.mp hnext
    refine houtside rfl ?_ rfl
    intro id
    simp [answer, Event.isCallOn]
  | now site =>
    cases hnext
    refine houtside rfl ?_ rfl
    intro id
    cases site <;> simp [answer, Event.isCallOn]
  | appendRecord =>
    cases hnext
    refine houtside rfl ?_ rfl
    intro id
    simp only [answer]
    split <;> rfl
  | sleep secs | isAutonomous | setAutonomous b | setActor a | fenceCurrent =>
    cases hnext
    exact houtside rfl (fun _ => rfl) rfl
  | _ => cases hnext

end Aloof

/-- **When triggers honour an operator's pause.** For every store in which the newest non-terminal run of the
    schedule is PAUSED, every spec, runner, process state and pattern of replies: a trigger that is refused (an
    invalid or disabled schedule, a missing store that is required, a slot already taken) or has no store
    honours the pause, whatever fails; a trigger that looks into the store does not, when nothing fails. -/
theorem pause_honoured_iff {W : Type} [DecidableEq W] (H : Host) (handle : Worker) (cfg : RunnerConfig)
    (spec : ScheduleSpec) (w : W) (run : Run) (s s' : Shared W) (es : List Env) (result : TriggerResult)
    (hnew : NewestOpen s.store spec.id run) (hpaused : run.state = .paused)
    (hrun : (runTrigger H cfg spec).exec (runnerWorld H handle w) s es = some (result, s')) :
    (¬ LooksUp cfg spec (s.runner w) → Honoured run.id s s') ∧
    ((∀ e ∈ es, e.faults = []) → Closable run.id s.store → Honoured run.id s s' →
      ¬ LooksUp cfg spec (s.runner w)) := by
  constructor
  · intro hno
    obtain ⟨b, -, huntouched⟩ := exec_sound
      (Untouched spec.id run.id w ((s.runner w).active.contains spec.id) s) (fun _ => True)
      (fun b o s e b' h _ hnext => untouched_step h hnext) (runTrigger_aloof hno)
      ⟨rfl, rfl, rfl, fun hh => hh⟩ (fun _ _ => trivial) hrun
    refine ⟨huntouched.uncalled, ?_⟩
    rw [huntouched.store, hnew.found, map_some, hpaused]
  · intro hquiet hclosable hhonoured hlooks
    obtain ⟨m, hsettled, hinv⟩ := exec_sound (PausedRun spec.id w s run) (fun e => e.faults = [])
      (fun m o s e m' h he hnext => pausedRun_step hnew hclosable h he hnext)
      (runTrigger_pausing hlooks) ⟨rfl, hlooks.2.2.2⟩ hquiet hrun
    obtain ⟨run', hfound, hstate⟩ := map_eq_some_iff.mp hhonoured.paused
    cases m with
    | moved id =>
      have hid : run'.id = run.id := by simpa using find?_some hfound
      exact hinv.2 run' (mem_of_find?_eq_some hfound) hid (by rw [hstate]; simp)
    | gone => exact hinv
    | _ => exact hsettled

/-- The plan of a fresh run with one more key, as the JSON writer puts it: keys in order. -/
def demoInsert (plan key value : String) : Option String :=
  some ("\x7b\"" ++ key ++ "\":\"" ++ value ++ "\"," ++ String.ofList (plan.toList.drop 1))

/-- One run of `demoSpec`, paused. -/
def pausedRun : Run :=
  ⟨"run_1", none, .paused, freshPlan demoSpec 0, freshBudgets demoSpec.policy, none, 0, 0, 0, 0⟩

/-- A runner without a store fires `demoSpec` while its run is paused. -/
theorem pause_honoured_without_store :
    let s : Shared Unit := { emptyShared with store := { (emptyShared : Shared Unit).store with runs := [pausedRun] } }
    ∃ result s', (runTrigger scheduleHost ⟨false, false⟩ demoSpec).exec
        (runnerWorld scheduleHost (demoHandle 1) ()) s (replicate 20 (demoEnv "2" (.ok "done"))) =
          some (result, s') ∧ Honoured "run_1" s s' := by
  intro s
  have hsome : ((runTrigger scheduleHost ⟨false, false⟩ demoSpec).exec (runnerWorld scheduleHost (demoHandle 1) ()) s
      (replicate 20 (demoEnv "2" (.ok "done")))).isSome = true := by
    decide +kernel
  have hnew : NewestOpen s.store demoSpec.id pausedRun := by
    refine ⟨rfl, by decide +kernel, rfl, ?_⟩
    intro r hr _ _
    exact .inl (mem_singleton.mp hr)
  obtain ⟨⟨result, s'⟩, hrun⟩ := isSome_iff_exists.mp hsome
  refine ⟨result, s', hrun, (pause_honoured_iff scheduleHost (demoHandle 1) ⟨false, false⟩ demoSpec () pausedRun s s'
    _ result hnew rfl hrun).1 ?_⟩
  rintro ⟨-, -, hdb, -⟩
  cases hdb

/-- A process dies after its first call, and the operator pauses the run. The next trigger calls the second
    tool on it and moves it to DONE. -/
theorem trigger_continues_paused_run : let env := demoEnv "1" (.ok "done")
    let paused := Machine.run (operated scheduleHost ⟨true, true⟩ (fun _ : Unit => demoHandle 1) demoInsert)
      (.idle emptyShared) (.runner (.start () demoSpec) :: replicate 14 (.runner (.step () env)) ++
        [.runner (.crash ()), .operator .pause "run_1" env])
    let after := Machine.run (operated scheduleHost ⟨true, true⟩ (fun _ : Unit => demoHandle 1) demoInsert) paused
      (.runner (.start () demoSpec) :: replicate 24 (.runner (.step () env)))
    (paused.shared.store.run? "run_1").map Run.state = some .paused ∧
    paused.shared.trace.countP (Event.isCallOn "run_1") = 1 ∧
    after.shared.trace.countP (Event.isCallOn "run_1") = 2 ∧
    (after.shared.store.run? "run_1").map Run.state = some .done := by
  decide +kernel

end Supercli
