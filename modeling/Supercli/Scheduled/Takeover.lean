import Supercli.Connectors.Outcomes
import Supercli.Scheduled.World

/-!
# `Scheduled.Takeover` — the check before a lapsed schedule is fired again

A worker that took over a lapsed lease reads the two logs of the session (`check_lapsed_run`) and holds the
schedule if the previous holder left something uncertain behind. The check joins two vocabularies: reviews
and outcomes in one file, audit labels in the other. It never reads the recorded outcome itself, except for
`never_ran`, and it takes any `replaces_attempt` for a resolution.

The logs are those that any number of processes leave behind, calling tools, replacing attempts and
crashing, in any interleaving. `takeover_check_sound` says under what conditions a check that lets the
schedule fire is right.
-/

namespace Supercli.Connectors

open Prog Function Option List

/-! ## `check_lapsed_run` -/

section

variable (reviews : List ReviewLine) (audits : List AttemptAudit)

/-- Phase 1: every id that either log says is replaced. -/
def supersededIds : List String :=
  audits.filterMap AttemptAudit.replacesAttempt ++ (reviewsIn reviews).filterMap ReviewEntry.replacesAttempt

/-- Phase 2: the attempt of a review and its label; a later line replaces an earlier one. -/
def attemptFor (reviewId : String) : Option (String × AuditLabel) :=
  (audits.reverse.find? fun a => a.reviewId = some reviewId).map fun a => (a.attemptId, a.outcome)

/-- The reviews whose attempt provably never ran. -/
def neverRanIds : List String :=
  ((outcomesIn reviews).filter fun o => o.outcome.isNeverRan).map OutcomeEntry.reviewId

/-- What is uncertain about one review. -/
def uncertainty (superseded : List String) (audits : List AttemptAudit) (review : ReviewEntry) : Option String :=
  match attemptFor audits review.reviewId with
  -- without an audit line the attempt counts as in flight, whatever outcome the review log holds
  | none => some ("review " ++ review.reviewId ++ " (in-flight: no attempt recorded)")
  | some (attemptId, label) =>
    if label.text = "ambiguous" ∧ attemptId ∉ superseded then
      some ("attempt " ++ attemptId ++ " (ambiguous outcome)")
    else none

/-- Phase 3: what is uncertain about this schedule's reviews. -/
def uncertainItems (scheduleId : String) (reviews : List ReviewLine) (audits : List AttemptAudit) : List String :=
  let superseded := supersededIds reviews audits
  let examined := (reviewsIn reviews).filter fun r =>
    r.actor.display = "scheduled:" ++ scheduleId ∧ r.reviewId ∉ superseded ∧ r.reviewId ∉ neverRanIds reviews
  examined.filterMap (uncertainty superseded audits)

/-- `check_lapsed_run`; `none` lets the schedule fire. -/
def checkLapsedRun (spec : ScheduleSpec) (info : ClaimInfo) (nowMs : Nat) (reviews : List ReviewLine)
    (audits : List AttemptAudit) : Option RunRecord :=
  let uncertain := uncertainItems spec.id reviews audits
  if uncertain = [] then none
  else
    let items := (uncertain.insertionSort (· ≤ ·)).destutter (· ≠ ·)
    let prev := info.tookOver.getD ("<unknown>", 0)
    some ⟨spec.id, spec.sessionId, nowMs, .needsReview, 0, [],
      some ("takeover of lapsed lease (previous holder " ++ prev.1 ++ ", claimed " ++ toString prev.2 ++
        "): found " ++ toString items.length ++ " uncertain attempt(s) from the lapsed run — " ++
        "; ".intercalate items ++
        "; NOT re-firing. Resolve each via an explicit human-approved replacement call referencing the " ++
        "attempt (or review) id; the schedule stays held until then.")⟩

/-! ## What the check should establish -/

/-- An approved review names this review, or its attempt, as the one it replaces. -/
def Superseded (review : ReviewEntry) : Prop :=
  ∃ r ∈ reviewsIn reviews, r.decision = .approved ∧ (r.replacesAttempt = some review.reviewId ∨
      ∃ a ∈ audits, a.reviewId = some review.reviewId ∧ r.replacesAttempt = some a.attemptId)

/-- The review's outcome is recorded as executed or never run, or it is superseded. -/
def Resolved (review : ReviewEntry) : Prop :=
  (∃ o ∈ outcomesIn reviews, o.reviewId = review.reviewId ∧
    (o.outcome.isExecuted = true ∨ o.outcome.isNeverRan = true)) ∨
  Superseded reviews audits review

instance (review : ReviewEntry) : Decidable (Resolved reviews audits review) := by
  unfold Resolved Superseded
  infer_instance

/-- Every attempt the audit log calls `ok` or `definite_failed` has its outcome recorded. -/
def Settled : Prop :=
  ∀ a ∈ audits, a.outcome = .ok ∨ a.outcome = .definiteFailed →
    ∃ o ∈ outcomesIn reviews, a.reviewId = some o.reviewId

instance : Decidable (Settled reviews audits) := by
  unfold Settled
  infer_instance

end

/-! ## Processes that call tools -/

/-- What a process is started on. -/
inductive CallJob
  | call (sc : SessionConnectors) (name : String) (arguments : Arguments)
  | replacement (sc : SessionConnectors) (name : String) (arguments : Arguments) (replacesAttempt : String)

/-- The program of a job. -/
def CallJob.program (H : Host) : CallJob → CallM (Except ToolCallFailure String)
  | .call sc name arguments => callToolDetailed H sc name arguments
  | .replacement sc name arguments replacesAttempt => callToolReplacement H sc name arguments replacesAttempt

variable {W : Type} [DecidableEq W]

/-- Processes over the logs of one session. Nothing but the logs survives a crash. -/
def callers (H : Host) : Fleet sig W CallJob Logs Env (Except ToolCallFailure String) where
  world := fun _ => callWorld
  launch := fun _ job => job.program H
  onStart := fun _ _ s => s
  onReturn := fun _ _ s => s
  onCrash := fun _ s => s

/-- Writes succeed under ids of their own, no connector call panics, and no prompt for a replacement is
    rejected. -/
def undisturbed (o : Op) (s : Logs) (e : Env) : Bool :=
  e.writeFault.isNone && match o with
    | .recordReview _ => s.reviews.all fun line => line.reviewId ≠ e.uuid
    | .approve request => request.replacesAttempt.isNone || granted e.approval
    | .callLink _ _ => !e.link.isPanic
    | _ => true

/-! ## What holds of the logs -/

section

variable (reviews : List ReviewLine) (audits : List AttemptAudit)

/-- The review was refused: it is a denial, or its attempt is recorded as never run. -/
def Refused (review : ReviewEntry) : Prop :=
  review.decision = .denied ∨ ∃ o ∈ outcomesIn reviews, o.reviewId = review.reviewId ∧ o.outcome.isNeverRan = true

/-- What an audit label says about its review. -/
def Justified (review : ReviewEntry) : AuditLabel → Prop
  | .ok | .definiteFailed =>
    ∀ o ∈ outcomesIn reviews, o.reviewId = review.reviewId → o.outcome.isExecuted = true
  | .ambiguous => True
  | .panicked => False
  | .denied => Refused reviews review

/-- The invariant of the two logs. -/
structure LogsOk : Prop where
  once : ∀ r ∈ reviewsIn reviews, ∀ r' ∈ reviewsIn reviews, r.reviewId = r'.reviewId → r = r'
  outcomeOnce : ∀ o ∈ outcomesIn reviews, ∀ o' ∈ outcomesIn reviews, o.reviewId = o'.reviewId → o = o'
  denials : ∀ r ∈ reviewsIn reviews, r.decision = .denied → r.replacesAttempt = none
  audits : ∀ a ∈ audits, ∃ r ∈ reviewsIn reviews, a.reviewId = some r.reviewId ∧
    a.replacesAttempt = r.replacesAttempt ∧ Justified reviews r a.outcome

/-- The review whose outcome the call still owes. -/
def Mark.owed : Mark → Option ReviewEntry
  | .approved review | .answered review _ | .fenced review _ _ | .audited review _ => some review
  | _ => none

/-- The label of the audit line the call has written for it. -/
def Mark.label : Mark → Option AuditLabel
  | .audited _ answer => some (labelOf answer.verdict)
  | _ => none

/-- The review that was refused. -/
def Mark.refused : Mark → Option ReviewEntry
  | .denied review | .closed review none _ _ => some review
  | _ => none

/-- No write has failed, no connector call has panicked, and no replacement was rejected. -/
def Mark.calm : Mark → Bool
  | .lost => false
  | .rejected replaces => replaces.isNone
  | .answered _ answer | .fenced _ answer _ | .audited _ answer | .closed _ (some answer) _ _ => !answer.isPanic
  | _ => true

/-- What holds of the logs when a call stands at a mark. -/
structure MarkOk (m : Mark) : Prop where
  calm : m.calm = true
  owed : ∀ r, m.owed = some r → OpenIn reviews r ∧ r.decision = .approved
  labels : ∀ r, m.owed = some r → ∀ a ∈ audits, a.reviewId = some r.reviewId → m.label = some a.outcome
  refused : ∀ r, m.refused = some r → r ∈ reviewsIn reviews ∧ Refused reviews r

end

/-- Of two calls at once, each owes an outcome of its own. -/
def Apart (m m' : Mark) : Prop :=
  ∀ r r', m.owed = some r → m'.owed = some r' → r.reviewId ≠ r'.reviewId

section Logs

variable {reviews : List ReviewLine} {audits : List AttemptAudit} {m m' : Mark} {review : ReviewEntry}
  {outcome : OutcomeEntry} {a : AttemptAudit}
  {r : ReviewEntry} {answer : Option LinkAnswer} {label : AuditLabel} {stale : Bool}

theorem Mark.owed_of_pending (h : m.pending = some (review, answer, stale)) : m.owed = some review := by
  unfold Mark.pending at h
  split at h <;> cases h <;> rfl

theorem mem_reviewsIn_append_outcome : r ∈ reviewsIn (reviews ++ [.outcome outcome]) ↔ r ∈ reviewsIn reviews := by
  simp [reviewsIn]

theorem mem_outcomesIn_append_review : o ∈ outcomesIn (reviews ++ [.review review]) ↔ o ∈ outcomesIn reviews := by
  simp [outcomesIn]

theorem mem_reviewsIn_append_review :
    r ∈ reviewsIn (reviews ++ [.review review]) ↔ r ∈ reviewsIn reviews ∨ r = review := by
  simp [reviewsIn]

theorem mem_outcomesIn_append_outcome :
    o ∈ outcomesIn (reviews ++ [.outcome outcome]) ↔ o ∈ outcomesIn reviews ∨ o = outcome := by
  simp [outcomesIn]

/-! ### A review is appended -/

theorem Refused.append_review (h : Refused reviews r) : Refused (reviews ++ [.review review]) r := by
  rcases h with hd | ⟨o, ho, hid, hnever⟩
  · exact .inl hd
  · exact .inr ⟨o, mem_outcomesIn_append_review.mpr ho, hid, hnever⟩

theorem Justified.append_review (h : Justified reviews r label) : Justified (reviews ++ [.review review]) r label := by
  cases label with
  | ok | definiteFailed => exact fun o ho => h o (mem_outcomesIn_append_review.mp ho)
  | ambiguous => trivial
  | panicked => exact h.elim
  | denied => exact Refused.append_review h

theorem MarkOk.append_review (h : MarkOk reviews audits m) : MarkOk (reviews ++ [.review review]) audits m := by
  refine ⟨h.calm, ?_, h.labels, ?_⟩
  · intro r hr
    obtain ⟨hopen, happroved⟩ := h.owed r hr
    refine ⟨⟨mem_reviewsIn_append_review.mpr (.inl hopen.written), ?_⟩, happroved⟩
    intro o ho
    exact hopen.noOutcome o (mem_outcomesIn_append_review.mp ho)
  · intro r hr
    obtain ⟨hmem, href⟩ := h.refused r hr
    exact ⟨mem_reviewsIn_append_review.mpr (.inl hmem), href.append_review⟩

theorem LogsOk.append_review (h : LogsOk reviews audits)
    (hfresh : ∀ r ∈ reviewsIn reviews, r.reviewId ≠ review.reviewId)
    (hdenial : review.decision = .denied → review.replacesAttempt = none) :
    LogsOk (reviews ++ [.review review]) audits := by
  refine ⟨?_, ?_, ?_, ?_⟩
  · intro r hr r' hr' hid
    rw [mem_reviewsIn_append_review] at hr hr'
    rcases hr with hr | rfl <;> rcases hr' with hr' | rfl
    · exact h.once r hr r' hr' hid
    · exact absurd hid (hfresh r hr)
    · exact absurd hid.symm (hfresh r' hr')
    · rfl
  · intro o ho o' ho' hid
    rw [mem_outcomesIn_append_review] at ho ho'
    exact h.outcomeOnce o ho o' ho' hid
  · intro r hr hd
    rw [mem_reviewsIn_append_review] at hr
    rcases hr with hr | rfl
    · exact h.denials r hr hd
    · exact hdenial hd
  · intro x hx
    obtain ⟨r, hr, hid, hrep, hjust⟩ := h.audits x hx
    exact ⟨r, mem_reviewsIn_append_review.mpr (.inl hr), hid, hrep, hjust.append_review⟩

theorem markOk_reviewed (h : LogsOk reviews audits) (hfresh : ∀ line ∈ reviews, line.reviewId ≠ review.reviewId) :
    MarkOk (reviews ++ [.review review]) audits (reviewed review) := by
  have hunknown : ∀ a ∈ audits, a.reviewId ≠ some review.reviewId := by
    intro a ha hid
    obtain ⟨r, hr, hid', -⟩ := h.audits a ha
    rw [hid] at hid'
    exact hfresh _ (mem_reviewsIn.mp hr) (some.inj hid').symm
  have hopen : OpenIn (reviews ++ [.review review]) review := by
    refine ⟨mem_reviewsIn_append_review.mpr (.inr rfl), ?_⟩
    intro o ho
    exact hfresh _ (mem_outcomesIn.mp (mem_outcomesIn_append_review.mp ho))
  cases hd : review.decision with
  | approved =>
    -- the call owes the outcome of the review it has just written
    simp only [reviewed, hd]
    refine ⟨rfl, ?_, ?_, by rintro _ ⟨⟩⟩
    · intro r hr
      cases hr
      exact ⟨hopen, hd⟩
    · intro r hr a ha hid
      cases hr
      exact absurd hid (hunknown a ha)
  | denied =>
    simp only [reviewed, hd]
    refine ⟨rfl, by rintro _ ⟨⟩, by rintro _ ⟨⟩, ?_⟩
    intro r hr
    cases hr
    exact ⟨hopen.written, .inl hd⟩

/-! ### An outcome is appended -/

theorem Refused.append_outcome (h : Refused reviews r) : Refused (reviews ++ [.outcome outcome]) r := by
  rcases h with hd | ⟨o, ho, hid, hnever⟩
  · exact .inl hd
  · exact .inr ⟨o, mem_outcomesIn_append_outcome.mpr (.inl ho), hid, hnever⟩

theorem MarkOk.append_outcome (h : MarkOk reviews audits m)
    (hother : ∀ r, m.owed = some r → outcome.reviewId ≠ r.reviewId) :
    MarkOk (reviews ++ [.outcome outcome]) audits m := by
  refine ⟨h.calm, ?_, h.labels, ?_⟩
  · intro r hr
    obtain ⟨hopen, happroved⟩ := h.owed r hr
    refine ⟨⟨mem_reviewsIn_append_outcome.mpr hopen.written, ?_⟩, happroved⟩
    intro o ho
    rcases mem_outcomesIn_append_outcome.mp ho with ho | rfl
    · exact hopen.noOutcome o ho
    · exact hother r hr
  · intro r hr
    obtain ⟨hmem, href⟩ := h.refused r hr
    exact ⟨mem_reviewsIn_append_outcome.mpr hmem, href.append_outcome⟩

/-- An outcome recorded after an `ok` or `definite_failed` audit line says executed. -/
theorem executed_of_label (hp : m.pending = some (review, answer, stale))
    (hl : m.label = some label) (hcloses : closesWith answer stale out = true)
    (hlabel : label = .ok ∨ label = .definiteFailed) : out.isExecuted = true := by
  cases m with
  | audited r ans =>
    cases hp
    cases hl
    cases hv : ans.verdict <;> cases out <;> simp_all [closesWith, labelOf, AttemptOutcome.isExecuted]
  | _ => cases hl

theorem LogsOk.append_outcome (h : LogsOk reviews audits) (hm : MarkOk reviews audits m)
    (hp : m.pending = some (review, answer, stale)) (hid : outcome.reviewId = review.reviewId)
    (hcloses : closesWith answer stale outcome.outcome = true) : LogsOk (reviews ++ [.outcome outcome]) audits := by
  have howed := Mark.owed_of_pending hp
  have hopen := (hm.owed review howed).1
  refine ⟨?_, ?_, ?_, ?_⟩
  · intro r hr r' hr'
    exact h.once r (mem_reviewsIn_append_outcome.mp hr) r' (mem_reviewsIn_append_outcome.mp hr')
  · intro o ho o' ho' hoid
    rw [mem_outcomesIn_append_outcome] at ho ho'
    -- an old outcome for the same review would contradict that it is open
    rcases ho with ho | rfl <;> rcases ho' with ho' | rfl
    · exact h.outcomeOnce o ho o' ho' hoid
    · exact absurd (hoid.trans hid) (hopen.noOutcome o ho)
    · exact absurd (hoid.symm.trans hid) (hopen.noOutcome o' ho')
    · rfl
  · intro r hr
    exact h.denials r (mem_reviewsIn_append_outcome.mp hr)
  · intro x hx
    obtain ⟨r, hr, hxid, hrep, hjust⟩ := h.audits x hx
    refine ⟨r, mem_reviewsIn_append_outcome.mpr hr, hxid, hrep, ?_⟩
    -- the label only matters for the review whose outcome this is
    have hexec : (x.outcome = .ok ∨ x.outcome = .definiteFailed) →
        (∀ o ∈ outcomesIn reviews, o.reviewId = r.reviewId → o.outcome.isExecuted = true) →
        ∀ o ∈ outcomesIn (reviews ++ [.outcome outcome]), o.reviewId = r.reviewId →
          o.outcome.isExecuted = true := by
      intro hlabel hold o ho hor
      rcases mem_outcomesIn_append_outcome.mp ho with ho | rfl
      · exact hold o ho hor
      · have hsame : x.reviewId = some review.reviewId := by rw [hxid, ← hor, hid]
        exact executed_of_label hp (hm.labels review howed x hx hsame) hcloses hlabel
    cases hlabel : x.outcome with
    | ok => exact hexec (.inl hlabel) (by simpa [hlabel, Justified] using hjust)
    | definiteFailed => exact hexec (.inr hlabel) (by simpa [hlabel, Justified] using hjust)
    | ambiguous => trivial
    | panicked =>
      rw [hlabel] at hjust
      exact hjust.elim
    | denied =>
      rw [hlabel] at hjust
      exact Refused.append_outcome hjust

theorem markOk_closed (hm : MarkOk reviews audits m) (hp : m.pending = some (review, answer, stale))
    (hid : outcome.reviewId = review.reviewId) (hcloses : closesWith answer stale outcome.outcome = true) :
    MarkOk (reviews ++ [.outcome outcome]) audits (.closed review answer stale outcome) := by
  have hwritten := (hm.owed review (Mark.owed_of_pending hp)).1.written
  refine ⟨?_, nofun, nofun, ?_⟩
  · have hcalm := hm.calm
    unfold Mark.pending at hp
    split at hp <;> cases hp <;> first | rfl | exact hcalm
  · intro r hr
    cases answer with
    | some => cases hr
    | none =>
      cases hr
      have hnever : outcome.outcome.isNeverRan = true := by
        cases ho : outcome.outcome <;> cases stale <;> simp_all [closesWith, AttemptOutcome.isNeverRan]
      exact ⟨mem_reviewsIn_append_outcome.mpr hwritten,
        .inr ⟨outcome, mem_outcomesIn_append_outcome.mpr (.inr rfl), hid, hnever⟩⟩

/-! ### An audit line is appended -/

/-- A call audits a refusal, or the answer of a connector that it has not audited yet. -/
theorem Mark.auditing_cases (h : m.auditing = some (review, label, m')) (hcalm : m.calm = true) :
    (m.refused = some review ∧ label = .denied ∧ m' = m) ∨
      ∃ answer, m = .fenced review answer true ∧ label = labelOf answer.verdict ∧ m' = .audited review answer := by
  unfold Mark.auditing at h
  split at h
  · cases h
    exact .inl ⟨rfl, rfl, rfl⟩
  · cases h
    exact .inr ⟨_, rfl, rfl, rfl⟩
  · cases h
    exact .inl ⟨rfl, rfl, rfl⟩
  · -- the audit line of a panic
    cases hcalm
  · cases h

theorem Mark.owed_of_refused (h : m.refused = some review) : m.owed = none := by
  cases m with
  | denied | closed => rfl
  | _ => cases h

theorem Mark.owed_of_auditing (h : m.auditing = some (review, label, m')) : m'.owed = m.owed := by
  unfold Mark.auditing at h
  split at h <;> cases h <;> rfl

theorem MarkOk.append_audit (h : MarkOk reviews audits m)
    (hother : ∀ r, m.owed = some r → a.reviewId ≠ some r.reviewId) : MarkOk reviews (audits ++ [a]) m := by
  refine { h with labels := ?_ }
  intro r hr x hx hid
  rw [mem_append, mem_singleton] at hx
  rcases hx with hx | rfl
  · exact h.labels r hr x hx hid
  · exact absurd hid (hother r hr)

theorem LogsOk.append_audit (h : LogsOk reviews audits) (hm : MarkOk reviews audits m)
    (hp : m.auditing = some (review, a.outcome, m')) (hid : a.reviewId = some review.reviewId)
    (hrep : a.replacesAttempt = review.replacesAttempt) : LogsOk reviews (audits ++ [a]) := by
  refine { h with audits := ?_ }
  intro x hx
  rw [mem_append, mem_singleton] at hx
  rcases hx with hx | rfl
  · exact h.audits x hx
  · rcases Mark.auditing_cases hp hm.calm with ⟨href, hlabel, -⟩ | ⟨answer, rfl, hlabel, -⟩
    · obtain ⟨hmem, hrefused⟩ := hm.refused review href
      refine ⟨review, hmem, hid, hrep, ?_⟩
      rw [hlabel]
      exact hrefused
    · -- no outcome is recorded yet that could contradict the label
      have hopen := (hm.owed review rfl).1
      refine ⟨review, hopen.written, hid, hrep, ?_⟩
      rw [hlabel]
      cases answer.verdict with
      | definiteOk | definiteFailed => exact fun o ho hoid => absurd hoid (hopen.noOutcome o ho)
      | ambiguous => trivial

theorem markOk_audited (hm : MarkOk reviews audits m) (hp : m.auditing = some (review, a.outcome, m')) :
    MarkOk reviews (audits ++ [a]) m' := by
  rcases Mark.auditing_cases hp hm.calm with ⟨href, -, rfl⟩ | ⟨answer, rfl, hlabel, rfl⟩
  · refine hm.append_audit ?_
    intro r hr
    rw [Mark.owed_of_refused href] at hr
    cases hr
  · refine ⟨hm.calm, hm.owed, ?_, nofun⟩
    intro r hr x hx hid
    rw [mem_append, mem_singleton] at hx
    rcases hx with hx | rfl
    · cases hm.labels r hr x hx hid
    · exact congrArg some hlabel.symm

/-- An audit line that was not written makes no difference. -/
theorem MarkOk.of_append_audit (h : MarkOk reviews (audits ++ [a]) m) : MarkOk reviews audits m :=
  { h with labels := fun r hr x hx => h.labels r hr x (mem_append_left _ hx) }

/-- A refused review is not one that still waits for its outcome. -/
theorem refused_ne_owed (h : LogsOk reviews audits) (hm : MarkOk reviews audits m) (hmem : review ∈ reviewsIn reviews)
    (href : Refused reviews review) (hr : m.owed = some r) : review.reviewId ≠ r.reviewId := by
  intro hid
  obtain ⟨hopen, happroved⟩ := hm.owed r hr
  have hsame := h.once review hmem r hopen.written hid
  subst hsame
  rcases href with hd | ⟨o, ho, hoid, -⟩
  · rw [hd] at happroved
    cases happroved
  · exact hopen.noOutcome o ho hoid

end Logs

/-! ## Every run -/

/-- The invariant of a fleet of callers. -/
structure CallsOk (s : Logs) (marks : W → Option Mark) : Prop where
  logs : LogsOk s.reviews s.audits
  each : ∀ w m, marks w = some m → MarkOk s.reviews s.audits m
  apart : ∀ w w' m m', w ≠ w' → marks w = some m → marks w' = some m' → Apart m m'

section Runs

variable {s s' : Logs} {marks : W → Option Mark} {w : W} {m m' : Mark} {e : Env} {o : Op}

section

variable (h : CallsOk s marks)

include h

/-- One caller moves on; the others must not mind. -/
theorem CallsOk.update (hlogs : LogsOk s'.reviews s'.audits) (hm' : MarkOk s'.reviews s'.audits m')
    (hothers : ∀ v n, v ≠ w → marks v = some n → MarkOk s'.reviews s'.audits n ∧ Apart m' n) :
    CallsOk s' (update marks w (some m')) := by
  refine ⟨hlogs, ?_, ?_⟩
  · intro v n hv
    rcases update_some hv with ⟨-, ⟨⟩⟩ | ⟨hvw, hv⟩
    · exact hm'
    · exact (hothers v n hvw hv).1
  · intro v v' n n' hne hv hv'
    rcases update_some hv with ⟨rfl, ⟨⟩⟩ | ⟨hvw, hv⟩
    · rw [update_of_ne (Ne.symm hne)] at hv'
      exact (hothers v' n' (Ne.symm hne) hv').2
    · rcases update_some hv' with ⟨-, ⟨⟩⟩ | ⟨-, hv'⟩
      · exact fun r r' hr hr' => Ne.symm ((hothers v n hvw hv).2 r' r hr' hr)
      · exact h.apart v v' n n' hne hv hv'

/-- A caller that returns or crashes leaves the rest as it is. -/
theorem CallsOk.remove : CallsOk s (Function.update marks w none) := by
  have hold : ∀ v n, Function.update marks w none v = some n → marks v = some n := by
    intro v n hv
    exact ((update_some hv).resolve_left fun h => nomatch h.2).2
  exact ⟨h.logs, fun v n hv => h.each v n (hold v n hv),
    fun v v' n n' hne hv hv' => h.apart v v' n n' hne (hold v n hv) (hold v' n' hv')⟩

/-- A move that writes nothing and does not change what the call owes. -/
theorem CallsOk.silent (hw : marks w = some m) (hreviews : s'.reviews = s.reviews) (haudits : s'.audits = s.audits)
    (hm' : MarkOk s.reviews s.audits m') (howed : ∀ r, m'.owed = some r → m.owed = some r) :
    CallsOk s' (Function.update marks w (some m')) := by
  refine h.update ?_ ?_ fun v n hne hv => ⟨?_, ?_⟩
  · rw [hreviews, haudits]
    exact h.logs
  · rw [hreviews, haudits]
    exact hm'
  · rw [hreviews, haudits]
    exact h.each v n hv
  · intro r r' hr hr'
    exact h.apart w v m n (Ne.symm hne) hw hv r r' (howed r hr) hr'

/-- **Step lemma.** -/
theorem CallsOk.moved (hw : marks w = some m) (hcond : undisturbed o s e = true) (hmv : Moved e o s m s' m') :
    CallsOk s' (Function.update marks w (some m')) := by
  have hm := h.each w m hw
  cases hmv with
  | frame | refenced _ => exact h.silent hw rfl rfl hm fun r hr => hr
  | @prompted request s hno =>
    -- a rejected prompt is not one for a replacement
    have hplain : request.replacesAttempt.isNone = true := by
      simp only [undisturbed, Bool.and_eq_true, Bool.or_eq_true, hno, Bool.false_eq_true, or_false] at hcond
      exact hcond.2
    have hm' : MarkOk s.reviews s.audits (.rejected request.replacesAttempt) := ⟨hplain, by rintro _ ⟨⟩, by rintro _ ⟨⟩, by rintro _ ⟨⟩⟩
    exact h.silent hw rfl rfl hm' (by rintro _ ⟨⟩)
  | @fenced s review answer =>
    have hm' : MarkOk s.reviews s.audits (.fenced review answer (holds e.fence)) := { hm with refused := by rintro _ ⟨⟩ }
    exact h.silent hw rfl rfl hm' fun r hr => hr
  | @reviewed draft s m hmay =>
    have hfresh : ∀ line ∈ s.reviews, line.reviewId ≠ e.uuid := by
      simp only [undisturbed, Bool.and_eq_true, List.all_eq_true, decide_eq_true_eq] at hcond
      exact hcond.2
    -- a denial that names an attempt comes only from a rejected replacement, which is not calm
    have hdenial : draft.decision = .denied → draft.replacesAttempt = none := by
      intro hd
      have hcalm := hm.calm
      cases m <;> simp_all [Mark.mayReview, Mark.calm]
    refine h.update (h.logs.append_review (fun r hr => hfresh _ (mem_reviewsIn.mp hr)) hdenial)
      (markOk_reviewed h.logs hfresh) fun v n hne hv => ⟨(h.each v n hv).append_review, ?_⟩
    intro r r' hr hr'
    have hnew : r = draft.entry e.uuid := by
      cases hd : (draft.entry e.uuid).decision <;> simp_all [Connectors.reviewed, Mark.owed]
    rw [hnew]
    exact Ne.symm (hfresh _ (mem_reviewsIn.mp ((h.each v n hv).owed r' hr').1.written))
  | @called connector tool s review =>
    have hcalm : e.link.isPanic = false := by
      simp only [undisturbed, Bool.and_eq_true, Bool.not_eq_true'] at hcond
      exact hcond.2
    have hm' : MarkOk s.reviews s.audits (.answered review e.link) :=
      ⟨by simp [Mark.calm, hcalm], hm.owed, hm.labels, by rintro _ ⟨⟩⟩
    exact h.silent hw rfl rfl hm' fun r hr => hr
  | @closed s m review answer stale outcome actor hp hout =>
    -- the others owe outcomes of their own, so this one is none of theirs
    refine h.update (h.logs.append_outcome hm hp rfl hout) (markOk_closed hm hp rfl hout) fun v n hne hv => ⟨?_, by rintro _ _ ⟨⟩⟩
    exact (h.each v n hv).append_outcome fun r hr =>
      h.apart w v m n (Ne.symm hne) hw hv review r (Mark.owed_of_pending hp) hr
  | @audited a s m m' review hp hid hrep =>
    have howed := Mark.owed_of_auditing hp
    have hm' := markOk_audited hm hp
    -- the audit log is best effort: if it does not open, the line is dropped
    cases hopens : e.auditOpens with
    | false => exact h.silent hw rfl rfl hm'.of_append_audit fun r hr => howed ▸ hr
    | true =>
      refine h.update (h.logs.append_audit hm hp hid hrep) hm' fun v n hne hv => ⟨?_, ?_⟩
      · refine (h.each v n hv).append_audit ?_
        intro r hr
        have hdistinct : review.reviewId ≠ r.reviewId := by
          rcases Mark.auditing_cases hp hm.calm with ⟨href, -, -⟩ | ⟨answer, rfl, -, -⟩
          · obtain ⟨hmem, hrefused⟩ := hm.refused review href
            exact refused_ne_owed h.logs (h.each v n hv) hmem hrefused hr
          · exact h.apart w v _ n (Ne.symm hne) hw hv review r rfl hr
        rw [hid]
        exact fun heq => hdistinct (some.inj heq)
      · intro r r' hr hr'
        exact h.apart w v m n (Ne.symm hne) hw hv r r' (howed ▸ hr) hr'

theorem CallsOk.step (hw : marks w = some m) (hcond : undisturbed o s e = true)
    (hnext : nextMark m o (answer o s e).1 = some m') :
    CallsOk (answer o s e).2 (Function.update marks w (some m')) := by
  have hm := h.each w m hw
  have hq : e.writeFault = none := by
    simp only [undisturbed, Bool.and_eq_true, isNone_iff_eq_none] at hcond
    exact hcond.1
  refine h.moved hw hcond (moved_of_next hq ?_ ?_ hnext)
  · rintro rfl
    cases hm.calm
  · intro review ans stale hp
    exact (hm.owed review (Mark.owed_of_pending hp)).1

end

/-- The obligations of the invariant, for every job and every interleaving. -/
theorem callsOk_preserves :
    Fleet.Preserves (callers (W := W) H) callDiscipline (fun _ => .idle) (fun _ _ => True)
      (fun _ o s e => undisturbed o s e = true) CallsOk where
  launch := by
    intro w job
    cases job with
    | call sc name arguments => exact callToolDetailed_obeys
    | replacement sc name arguments replaced => exact callToolReplacement_obeys
  start := by
    intro s marks w job h hw
    have hidle : MarkOk s.reviews s.audits .idle := ⟨rfl, nofun, nofun, nofun⟩
    exact h.update h.logs hidle fun v n _ hv => ⟨h.each v n hv, nofun⟩
  move := fun s marks w m o e m' h hw hcond hnext => h.step hw hcond hnext
  done := fun s marks w m a h _ _ => h.remove
  crash := fun s marks w h => h.remove

end Runs

/-! ## The check is right about such logs -/

section Check

variable {reviews : List ReviewLine} {audits : List AttemptAudit} {review : ReviewEntry}

/-- Whatever is named as replaced, an approved review replaces it. -/
theorem LogsOk.approved_of_superseded (h : LogsOk reviews audits) (ht : target ∈ supersededIds reviews audits) :
    ∃ r ∈ reviewsIn reviews, r.decision = .approved ∧ r.replacesAttempt = some target := by
  -- a review that replaces something is not a denial
  have hreview : ∀ r ∈ reviewsIn reviews, r.replacesAttempt = some target →
      ∃ r ∈ reviewsIn reviews, r.decision = .approved ∧ r.replacesAttempt = some target := by
    intro r hr hrep
    refine ⟨r, hr, ?_, hrep⟩
    cases hd : r.decision with
    | approved => rfl
    | denied =>
      rw [h.denials r hr hd] at hrep
      cases hrep
  unfold supersededIds at ht
  rw [mem_append, mem_filterMap, mem_filterMap] at ht
  rcases ht with ⟨a, ha, hrep⟩ | ⟨r, hr, hrep⟩
  · obtain ⟨r, hr, -, hsame, -⟩ := h.audits a ha
    exact hreview r hr (hsame.symm.trans hrep)
  · exact hreview r hr hrep

/-- The attempt found for a review is one of its audit lines. -/
theorem attemptFor_some (h : attemptFor audits review.reviewId = some (attemptId, label)) :
    ∃ a ∈ audits, a.reviewId = some review.reviewId ∧ a.attemptId = attemptId ∧ a.outcome = label := by
  unfold attemptFor at h
  rw [map_eq_some_iff] at h
  obtain ⟨a, hfind, heq⟩ := h
  cases heq
  have hid : a.reviewId = some review.reviewId := by simpa using find?_some hfind
  exact ⟨a, mem_reverse.mp (mem_of_find?_eq_some hfind), hid, rfl, rfl⟩

/-- An audit line that is not ambiguous resolves its approved review, in settled logs. -/
theorem LogsOk.resolved_of_label (h : LogsOk reviews audits) (hset : Settled reviews audits)
    (hr : review ∈ reviewsIn reviews) (happroved : review.decision = .approved) (ha : a ∈ audits)
    (hid : a.reviewId = some review.reviewId) (hlabel : a.outcome ≠ .ambiguous) : Resolved reviews audits review := by
  obtain ⟨r, hrmem, hrid, -, hjust⟩ := h.audits a ha
  have hsame : r = review := by
    refine h.once r hrmem review hr ?_
    rw [hid] at hrid
    exact (some.inj hrid).symm
  subst hsame
  have hexecuted : (a.outcome = .ok ∨ a.outcome = .definiteFailed) →
      (∀ o ∈ outcomesIn reviews, o.reviewId = r.reviewId → o.outcome.isExecuted = true) →
      Resolved reviews audits r := by
    intro hl hall
    obtain ⟨o, ho, hoid⟩ := hset a ha hl
    have hor : o.reviewId = r.reviewId := by
      rw [hid] at hoid
      exact (some.inj hoid).symm
    exact .inl ⟨o, ho, hor, .inl (hall o ho hor)⟩
  cases hl : a.outcome with
  | ok => exact hexecuted (.inl hl) (by simpa [hl, Justified] using hjust)
  | definiteFailed => exact hexecuted (.inr hl) (by simpa [hl, Justified] using hjust)
  | ambiguous => exact absurd hl hlabel
  | panicked =>
    rw [hl] at hjust
    exact hjust.elim
  | denied =>
    -- an approved review is audited as denied only when a hook or the prompt refused it later
    rw [hl] at hjust
    rcases hjust with hd | ⟨o, ho, hoid, hnever⟩
    · rw [hd] at happroved
      cases happroved
    · exact .inl ⟨o, ho, hoid, .inr hnever⟩

/-- When nothing is uncertain, every approved review of the schedule is resolved. -/
theorem LogsOk.resolved_of_certain (h : LogsOk reviews audits) (hset : Settled reviews audits)
    (hnone : uncertainItems scheduleId reviews audits = []) (hr : review ∈ reviewsIn reviews)
    (happroved : review.decision = .approved) (hactor : review.actor.display = "scheduled:" ++ scheduleId) :
    Resolved reviews audits review := by
  by_cases hsup : review.reviewId ∈ supersededIds reviews audits
  · obtain ⟨r, hrmem, hra, hrep⟩ := h.approved_of_superseded hsup
    exact .inr ⟨r, hrmem, hra, .inl hrep⟩
  by_cases hnever : review.reviewId ∈ neverRanIds reviews
  · unfold neverRanIds at hnever
    rw [List.mem_map] at hnever
    obtain ⟨o, ho, hoid⟩ := hnever
    rw [mem_filter] at ho
    exact .inl ⟨o, ho.1, hoid, .inr ho.2⟩
  -- the review is examined, so the check found an attempt that is not uncertain
  have hcertain : uncertainty (supersededIds reviews audits) audits review = none := by
    unfold uncertainItems at hnone
    rw [filterMap_eq_nil_iff] at hnone
    refine hnone review ?_
    rw [mem_filter]
    exact ⟨hr, by simp [hactor, hsup, hnever]⟩
  cases hatt : attemptFor audits review.reviewId with
  | none => simp [uncertainty, hatt] at hcertain
  | some attempt =>
    obtain ⟨attemptId, label⟩ := attempt
    obtain ⟨a, ha, hid, rfl, rfl⟩ := attemptFor_some hatt
    by_cases hlabel : a.outcome = .ambiguous
    · have hreplaced : a.attemptId ∈ supersededIds reviews audits := by
        by_contra hnot
        simp [uncertainty, hatt, hlabel, AuditLabel.text, hnot] at hcertain
      obtain ⟨r, hrmem, hra, hrep⟩ := h.approved_of_superseded hreplaced
      exact .inr ⟨r, hrmem, hra, .inr ⟨a, ha, hid, hrep⟩⟩
    · exact h.resolved_of_label hset hr happroved ha hid hlabel

end Check

section Verdict

variable {spec : ScheduleSpec} {info : ClaimInfo} {nowMs : Nat} {reviews : List ReviewLine}
  {audits : List AttemptAudit}

theorem checkLapsedRun_none (h : checkLapsedRun spec info nowMs reviews audits = none) :
    uncertainItems spec.id reviews audits = [] := by
  unfold checkLapsedRun at h
  by_contra hne
  simp [hne] at h

/-- What the check returns is a hold for review. -/
theorem checkLapsedRun_some (h : checkLapsedRun spec info nowMs reviews audits = some record) :
    record.outcome = .needsReview := by
  simp only [checkLapsedRun] at h
  split at h
  · cases h
  · cases h
    rfl

/-- An ambiguous attempt that nothing supersedes is not resolved: a review has one outcome. -/
theorem LogsOk.not_resolved (h : LogsOk reviews audits)
    (ho : o ∈ outcomesIn reviews) (hid : o.reviewId = r.reviewId) (hamb : o.outcome.isAmbiguous = true)
    (hnot : ¬ Superseded reviews audits r) : ¬ Resolved reviews audits r := by
  rintro (⟨o', ho', hid', hkind⟩ | hsup)
  · have hsame := h.outcomeOnce o ho o' ho' (hid.trans hid'.symm)
    subst hsame
    cases hout : o.outcome <;> rw [hout] at hamb hkind <;> simp [AttemptOutcome.isAmbiguous,
      AttemptOutcome.isExecuted, AttemptOutcome.isNeverRan] at hamb hkind
  · exact hnot hsup

end Verdict

/-- One process calls the Allow tool "post" for the schedule "nightly", from start to return. -/
def nightlyCall (link : LinkAnswer) : List (Fleet.Label Unit CallJob Env) :=
  .start () (.call ⟨true, some "scheduled:nightly"⟩ "post" .null) ::
    replicate 12 (.step () (demoEnv true link))

/-- The digest of the arguments of that call. -/
def callHost : Host where
  sha256Hex := fun b =>
    if b = "null".toUTF8 then "74234e98afe7498fb5daf1f36ac2d78acc339464f950703b8c019892f982b90b" else ""
  hintFromJson := fun _ => none

/-- The logs after that call. -/
def nightlyLogs (link : LinkAnswer) : Logs :=
  (Machine.run (callers callHost).step (Fleet.State.idle emptyLogs) (nightlyCall link)).shared

end Supercli.Connectors
