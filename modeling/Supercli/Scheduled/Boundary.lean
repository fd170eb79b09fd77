import Supercli.Scheduled.World

/-!
# `Scheduled.Boundary` — which valid schedules can complete

The bound on the steps of a schedule is checked three times: `validate` admits as many calls as `max_steps`, the attempt
loop stops a run whose executed steps reach `max_steps`, and a resumed run counts the steps it skips. Here a trigger is
watched (`Seen`) and what follows holds whatever it is answered, as long as the answers are good: every call returns, in
time, and within the output bound.

`trigger_completes_iff`: such a trigger completes exactly if its calls are fewer than `max_steps`, or none is left to
execute. With as many calls as `max_steps` it is killed after the last one (`killed_at_the_bound`).
-/

namespace Supercli

open Prog

/-- What a trigger has been answered. -/
structure Seen where
  /-- The slot of the schedule was free. -/
  slot : Bool
  /-- The step at which the durable run starts. -/
  start : Nat
  /-- A call failed. -/
  failed : Bool
  /-- A deadline had passed. -/
  late : Bool
  /-- The bytes of all outputs. -/
  bytes : Nat
  /-- The fence no longer holds. -/
  stale : Bool
  /-- The record is in the audit file. -/
  audited : Bool
deriving DecidableEq

namespace Seen

def fresh : Seen := ⟨false, 0, false, false, 0, false, false⟩

def see (m : Seen) : (o : Op) → o.Ans → Seen
  | .tryBegin _, free => { m with slot := free }
  | .resumeRun _, .ok plan => { m with start := startOf plan }
  | .now (.deadline deadlineMs), now => { m with late := m.late || Nat.ble deadlineMs now }
  | .callTool _ _ _, .ok text => { m with bytes := m.bytes + text.utf8ByteSize }
  | .callTool _ _ _, .error _ => { m with failed := true }
  | .fenceCurrent, some false => { m with stale := true }
  | .appendRecord _, .ok _ => { m with audited := true }
  | _, _ => m

/-- Every call returned and started in time, and the outputs are within the bound. -/
def Good (policy : AutonomousPolicy) (m : Seen) : Prop :=
  m.failed = false ∧ m.late = false ∧ m.bytes ≤ policy.maxOutputBytes

/-- What the attempts do not touch. -/
def frame (m : Seen) : Bool × Bool × Bool := (m.slot, m.stale, m.audited)

end Seen

/-- The watcher forbids nothing. -/
def watcher : Discipline runnerSig Seen := ⟨fun m o r => some (m.see o r)⟩

variable {α β : Type} {policy : AutonomousPolicy} {m : Seen}

theorem Seen.good_of_see (h : (m.see o r).Good policy) : m.Good policy := by
  cases o
  case now site =>
    cases site
    case deadline deadlineMs =>
      exact ⟨h.1, (Bool.or_eq_false_iff.mp h.2.1).1, h.2.2⟩
    all_goals exact h
  case callTool =>
    cases r with
    | ok => exact ⟨h.1, h.2.1, Nat.le_of_add_right_le h.2.2⟩
    | error => cases h.1
  case resumeRun => cases r <;> exact h
  case fenceCurrent =>
    cases r with
    | none => exact h
    | some current => cases current <;> exact h
  case appendRecord => cases r <;> exact h
  all_goals exact h

/-- If all answers are good, the program returns with `Q`. -/
def Granted (policy : AutonomousPolicy) (p : RunnerM α) (Q : α → Seen → Prop) (m : Seen) : Prop :=
  p.Obeys watcher (fun a m' => m'.Good policy → Q a m') m

namespace Granted

variable {p : RunnerM α} {f : α → RunnerM β} {Q : α → Seen → Prop} {R : β → Seen → Prop}

/-- After a bad answer there is nothing to show. -/
theorem of_bad (h : ¬ m.Good policy) : Granted policy p Q m := by
  induction p generalizing m with
  | ret => exact fun hgood => absurd hgood h
  | ask o k ih => exact fun r => ⟨_, rfl, ih r (mt Seen.good_of_see h)⟩

/-- **Sequencing rule.** -/
theorem bind (hp : Granted policy p Q m) (hf : ∀ a m', m'.Good policy → Q a m' → Granted policy (f a) R m') :
    Granted policy (p >>= f) R m := by
  refine Obeys.bind (hp.mono fun a m' h => ?_)
  by_cases hgood : m'.Good policy
  · exact hf a m' hgood (h hgood)
  · exact of_bad hgood

theorem ask_bind {f : o.Ans → RunnerM β} (hf : ∀ r, (m.see o r).Good policy → Granted policy (f r) R (m.see o r)) :
    Granted policy (ask o >>= f) R m := by
  intro r
  refine ⟨_, rfl, ?_⟩
  by_cases hgood : (m.see o r).Good policy
  · exact hf r hgood
  · exact of_bad hgood

end Granted

/-! ## One attempt -/

/-- How an attempt at `total` calls ends whose first `start` were executed before. -/
def EndsAt (policy : AutonomousPolicy) (start total : Nat) (result : AttemptResult) : Prop :=
  if total < policy.maxSteps ∨ total ≤ start then result.outcome = .completed ∧ result.steps = total
  else result.outcome = .killed

/-- The operations between the calls leave nothing to see. -/
theorem granted_beginIntent {hash : String} :
    Granted policy (beginIntent durable idx hash) (fun _ m' => m' = m) m := by
  cases durable with
  | none => exact fun _ => rfl
  | some =>
    intro r
    refine ⟨m, rfl, ?_⟩
    cases r <;> exact fun _ => rfl

theorem granted_journalOutcome :
    Granted policy (journalOutcome intent outcome output) (fun _ m' => m' = m) m := by
  cases intent with
  | none => exact fun _ => rfl
  | some => exact fun r => ⟨m, rfl, fun _ => rfl⟩

variable {H : Host} {durable : Option (String × Nat)} {deadlineMs idx : Nat}

/-- **One call**: it counts, and it is the last one if the count reaches the bound. -/
theorem granted_attemptStep (ht : t.outputBytes ≤ m.bytes) :
    Granted policy (attemptStep H policy durable deadlineMs idx call t)
      (fun r m' => m'.frame = m.frame ∧ m'.start = m.start ∧
        if policy.maxSteps ≤ t.steps + 1 then ∃ result, r = .error result ∧ result.outcome = .killed
        else ∃ t', r = .ok t' ∧ t'.steps = t.steps + 1 ∧ t'.outputBytes ≤ m'.bytes) m := by
  refine Granted.ask_bind fun now hnow => ?_
  have hlate : ¬ deadlineMs ≤ now := by
    have hble := (Bool.or_eq_false_iff.mp hnow.2.1).2
    exact fun hle => Bool.false_ne_true (hble.symm.trans (Nat.ble_eq_true_of_le hle))
  rw [if_neg hlate]
  refine Granted.bind granted_beginIntent ?_
  rintro intent _ - rfl
  refine Granted.ask_bind fun r hr => ?_
  cases r with
  | error => cases hr.1
  | ok text =>
    refine Granted.bind granted_journalOutcome ?_
    rintro - _ - rfl
    have hbytes : min (t.outputBytes + text.utf8ByteSize) u64Max ≤ m.bytes + text.utf8ByteSize := by omega
    rw [if_neg (Nat.not_lt.mpr (hbytes.trans hr.2.2))]
    split
    · exact fun _ => ⟨rfl, rfl, _, rfl, rfl⟩
    · exact fun _ => ⟨rfl, rfl, _, rfl, rfl, hbytes⟩

/-- **The call loop.** Skipped calls count like executed ones, but the bound is looked at only after an executed one. -/
theorem granted_attemptLoop (hstart : (durable.map Prod.snd).getD 0 = m.start)
    (hidx : t.steps < policy.maxSteps ∨ t.steps ≤ m.start) (hbytes : t.outputBytes ≤ m.bytes)
    (htotal : t.steps + calls.length = total) :
    Granted policy (attemptLoop H policy durable deadlineMs t.steps calls t)
      (fun result m' => m'.frame = m.frame ∧ m'.start = m.start ∧ EndsAt policy m.start total result) m := by
  induction calls generalizing t m with
  | nil =>
    subst htotal
    exact fun _ => ⟨rfl, rfl, (if_pos hidx).mpr ⟨rfl, rfl⟩⟩
  | cons call rest ih =>
    rw [List.length_cons] at htotal
    rw [attemptLoop, hstart]
    by_cases hskip : t.steps < m.start
    · rw [if_pos hskip]
      exact ih (t := { t with steps := t.steps + 1 }) hstart (.inr hskip) hbytes (by simp only; omega)
    · rw [if_neg hskip]
      refine Granted.bind (granted_attemptStep hbytes) ?_
      rintro r m' - ⟨hframe, hstart', hr⟩
      split at hr
      · obtain ⟨result, rfl, hkilled⟩ := hr
        exact fun _ => ⟨hframe, hstart', (if_neg (by omega)).mpr hkilled⟩
      · obtain ⟨t', rfl, hsteps, hbytes'⟩ := hr
        rw [← hsteps, ← hframe, ← hstart']
        exact ih (hstart.trans hstart'.symm) (.inl (by omega)) hbytes' (by omega)

/-- How the attempts of a trigger end: the first one decides. -/
def Decided (spec : ScheduleSpec) (start : Nat) (result : AttemptResult) : Prop :=
  if start = u64Max then result.outcome = .needsReview else EndsAt spec.policy start spec.calls.length result

theorem granted_runAttempt (hstart : (durable.map Prod.snd).getD 0 = m.start) :
    Granted spec.policy (runAttempt H spec.policy spec.calls durable)
      (fun result m' => m'.frame = m.frame ∧ m'.start = m.start ∧ Decided spec m.start result) m := by
  refine Granted.ask_bind fun startedMs _ => ?_
  rw [hstart]
  unfold Decided
  split
  · exact fun _ => ⟨rfl, rfl, rfl⟩
  · exact granted_attemptLoop (t := ⟨0, 0, []⟩) hstart (.inr (Nat.zero_le _)) (Nat.zero_le _) (Nat.zero_add _)

theorem not_retryable (h : Decided spec start result) : result.retryable = false := by
  unfold Decided EndsAt at h
  split at h
  · simp [h]
  · split at h
    · simp [h.1]
    · simp [h]

theorem granted_attempts (hstart : (durable.map Prod.snd).getD 0 = m.start)
    :
    Granted spec.policy (attempts H spec durable left index denied)
      (fun r m' => m'.frame = m.frame ∧ m'.start = m.start ∧ Decided spec m.start r.1) m := by
  unfold attempts
  refine Granted.bind (granted_runAttempt hstart) fun attempt m' _ h => ?_
  cases left with
  | zero => exact fun _ => h
  | succ =>
    dsimp only
    rw [not_retryable h.2.2]
    exact fun _ => h

/-! ## The trigger -/

theorem granted_durableCtx (hstart : m.start = 0) :
    Granted policy (durableCtx cfg spec triggeredAtMs)
      (fun durable m' => m'.frame = m.frame ∧ (durable.map Prod.snd).getD 0 = m'.start) m := by
  unfold durableCtx
  split
  · exact fun _ => ⟨rfl, hstart.symm⟩
  · refine Granted.ask_bind fun runs _ => ?_
    cases runs with
    | error => exact fun _ => ⟨rfl, hstart.symm⟩
    | ok =>
      dsimp only
      split
      · refine Granted.ask_bind fun plan _ => ?_
        cases plan with
        | error => exact fun _ => ⟨rfl, hstart.symm⟩
        | ok =>
          dsimp only
          split
          · rename_i hreview
            exact fun _ => ⟨rfl, (if_pos hreview).symm⟩
          · rename_i hreview
            exact fun _ => ⟨_, rfl, fun _ => ⟨rfl, (if_neg hreview).symm⟩⟩
      · refine Granted.ask_bind fun id _ => ?_
        cases id with
        | error => exact fun _ => ⟨rfl, hstart.symm⟩
        | ok id => exact fun _ => ⟨_, rfl, fun _ => ⟨_, rfl, fun _ => ⟨rfl, hstart.symm⟩⟩⟩

theorem granted_closeRun :
    Granted policy (closeRun durable result) (fun _ m' => m' = m) m := by
  have hidle : ∀ o : Op, o.Closes → ∀ r, watcher.next m o r = some m := by
    intro o ho r
    cases o <;> first | rfl | exact ho.elim
  exact ((closeRun_makes durable result).obeys hidle).mono fun _ _ h _ => h

/-- The trigger returned `Completed` with all its calls as steps. -/
def Completes (spec : ScheduleSpec) (result : TriggerResult) : Prop :=
  ∃ record, result = .ok record ∧ record.outcome = .completed ∧ record.steps = spec.calls.length

/-- What it takes for that, besides good answers. -/
def CanComplete (cfg : RunnerConfig) (spec : ScheduleSpec) (seen : Seen) : Prop :=
  spec.enabled = true ∧ (cfg.durableRequired = true → cfg.hasRunsDb = true) ∧ seen.slot = true ∧ seen.start ≠ u64Max ∧
    (spec.calls.length < spec.policy.maxSteps ∨ spec.calls.length ≤ seen.start) ∧ seen.stale = false ∧ seen.audited = true

theorem decided_completed (h : Decided spec start result) :
    result.outcome = .completed ∧ result.steps = spec.calls.length ↔
      start ≠ u64Max ∧ (spec.calls.length < spec.policy.maxSteps ∨ spec.calls.length ≤ start) := by
  unfold Decided EndsAt at h
  split at h
  · simp [*]
  · split at h <;> simp [*]

/-- A trigger that has got its slot. -/
theorem granted_fire :
    Granted spec.policy (fire H cfg spec triggeredAtMs) (fun result m' => m'.slot = true ∧
      (Completes spec result ↔ m'.start ≠ u64Max ∧
        (spec.calls.length < spec.policy.maxSteps ∨ spec.calls.length ≤ m'.start) ∧ m'.stale = false ∧ m'.audited = true))
      { Seen.fresh with slot := true } := by
  refine Granted.bind (granted_durableCtx rfl) fun durable m₁ _ h₁ => ?_
  refine Granted.bind (granted_attempts h₁.2) ?_
  rintro r m' - ⟨hframe, hstart, hdecided⟩
  refine Granted.bind granted_closeRun ?_
  rintro - m₂ - rfl
  obtain ⟨hslot, hstale, haudited⟩ : m₂.slot = true ∧ m₂.stale = false ∧ m₂.audited = false := by
    simpa [Seen.frame, Seen.fresh] using hframe.trans h₁.1
  have hiff := decided_completed hdecided
  rw [← hstart] at hiff
  refine Granted.ask_bind fun current _ => ?_
  match current with
  | some false => exact fun _ => ⟨hslot, by simp [Completes, Seen.see]⟩
  | some true | none =>
    refine Granted.ask_bind fun appended _ => ?_
    cases appended with
    | ok => exact fun _ => ⟨hslot, by simp [Completes, Seen.see, hiff, hstale]⟩
    | error => exact fun _ => ⟨hslot, by simp [Completes, Seen.see, haudited]⟩

theorem granted_refuse {P : Seen → Prop} (hout : record.outcome ≠ .completed)
    (hP : ∀ audited, ¬ P { m with audited := audited }) :
    Granted policy (audit record) (fun result m' => Completes spec result ↔ P m') m := by
  refine Granted.ask_bind fun appended _ => ?_
  cases appended with
  | ok => exact fun _ => iff_of_false (by rintro ⟨_, ⟨⟩, hc, -⟩; exact hout hc) (hP true)
  | error => exact fun _ => iff_of_false (by rintro ⟨_, ⟨⟩, -⟩) (hP m.audited)

/-- **A trigger whose calls all return completes exactly if they are fewer than its step bound** or all of them were
    executed before; and if it may fire at all, keeps its lease and can record that. -/
theorem trigger_completes_iff (H : Host) (cfg : RunnerConfig) (spec : ScheduleSpec) (hvalid : spec.validate = .ok ()) :
    (runTrigger H cfg spec).Obeys watcher
      (fun result seen => seen.Good spec.policy → (Completes spec result ↔ CanComplete cfg spec seen)) Seen.fresh := by
  refine Granted.ask_bind fun triggeredAtMs _ => ?_
  simp only [hvalid]
  split
  · rename_i henabled
    exact granted_refuse (by simp) fun _ h => by simp [h.1] at henabled
  · rename_i henabled
    split
    · rename_i hdb
      refine granted_refuse (by simp) fun _ h => ?_
      simp only [Bool.and_eq_true, Bool.not_eq_true'] at hdb
      exact Bool.false_ne_true (hdb.2.symm.trans (h.2.1 hdb.1))
    · rename_i hdb
      refine Granted.ask_bind fun free _ => ?_
      cases free with
      | false => exact granted_refuse (by simp) fun _ h => by cases h.2.2.1
      | true =>
        refine Granted.ask_bind fun _ _ => Granted.ask_bind fun _ _ => Granted.ask_bind fun _ _ => ?_
        refine Granted.bind granted_fire fun result m' _ h => ?_
        have hcan : CanComplete cfg spec m' ↔ _ := ⟨fun hc => hc.2.2.2,
          fun hc => ⟨by simpa using henabled, by simpa using hdb, h.1, hc⟩⟩
        exact fun _ => ⟨_, rfl, fun _ => ⟨_, rfl, fun _ => h.2.trans hcan.symm⟩⟩

/-- `demoSpec` with as many steps as calls. -/
def tightSpec : ScheduleSpec := { demoSpec with policy := { demoSpec.policy with maxSteps := 2 } }

theorem trigger_completes_iff_tight :
    tightSpec.validate = .ok () ∧ (runTrigger scheduleHost ⟨true, true⟩ tightSpec).Obeys watcher
      (fun result seen => seen.Good tightSpec.policy → (Completes tightSpec result ↔ CanComplete ⟨true, true⟩ tightSpec seen))
      Seen.fresh :=
  ⟨by decide, trigger_completes_iff scheduleHost ⟨true, true⟩ tightSpec (by decide)⟩

/-- A valid schedule of two calls and two steps: both calls return in time, and the run is killed. -/
theorem killed_at_the_bound :
    let run := (runTrigger scheduleHost ⟨false, false⟩ tightSpec).always (runnerWorld scheduleHost (demoHandle 1) ())
      (demoEnv "run-1" (.ok "done")) emptyShared
    tightSpec.validate = .ok () ∧ tightSpec.calls.length = 2 ∧
      run.1 = .ok ⟨"nightly", "ses_1", 0, .killed, 2, [], some "exceeded max_steps (2)"⟩ ∧
      run.2.trace = [.called () none 1 (.ok "done"), .deadline () false, .called () none 0 (.ok "done"),
        .deadline () false, .attempt ()] := by
  decide +kernel

end Supercli
