import Supercli.Connectors.CallDiscipline

/-!
# `Connectors.Outcomes` — the three records of one call

A call leaves three classifications behind: the failure it returns, the outcome in the review log, and the
fact whether the connector was called. `outcomes_agree_iff` says when they agree. They part in one place
only: when the fence turns stale while the connector is at work, the caller is told the lease was stale,
although the call was made, and is not told that its outcome is uncertain.
-/

namespace Supercli.Connectors

open Prog List

/-! ## Agreement -/

/-- The caller is told that the lease was stale. -/
def saysStale : Except ToolCallFailure String → Bool
  | .ok _ => false
  | .error failure => failure.staleLease

/-- The caller is told that the call may have taken effect. -/
def saysUncertain : Except ToolCallFailure String → Bool
  | .ok _ => false
  | .error failure => failure.uncertain

section

variable (result : Except ToolCallFailure String) (added : List ReviewLine) (called : Bool)

/-- The result of a call agrees with the lines it added to the review log and with whether the connector was
    called: a stale lease only without a call, uncertain exactly when recorded as ambiguous, a result exactly
    when recorded as executed with success, and an outcome for every review. -/
def Agrees : Prop :=
  (saysStale result = true → called = false) ∧
  (saysUncertain result = true ↔ ∃ o ∈ outcomesIn added, o.outcome.isAmbiguous = true) ∧
  (result.isOk = true ↔ ∃ o ∈ outcomesIn added, o.outcome = .executed true) ∧
  ∀ r ∈ reviewsIn added, ∃ o ∈ outcomesIn added, o.reviewId = r.reviewId

instance : Decidable (Agrees result added called) := by
  unfold Agrees
  infer_instance

end

/-- The connector was called. -/
def wasCalled (events : List Event) : Bool := events.contains .called

/-- The fence was read as stale after the connector was called; the events are newest first. -/
def staleAfterCall : List Event → Bool
  | [] => false
  | .fence current :: older => (!current && wasCalled older) || staleAfterCall older
  | .called :: older => staleAfterCall older

@[simp] theorem wasCalled_fence (current : Bool) (events : List Event) :
    wasCalled (.fence current :: events) = wasCalled events := by
  simp [wasCalled]

/-! ## What the mark of a call says about its trace -/

/-- The lines a call has added to the review log. -/
@[simp] def Mark.lines : Mark → List ReviewLine
  | .idle | .rejected _ | .lost => []
  | .denied review | .approved review | .answered review _ | .fenced review _ _ | .audited review _ =>
    [.review review]
  | .closed review _ _ outcome => [.review review, .outcome outcome]

/-- Has the connector been called? -/
def Mark.called : Mark → Bool
  | .answered _ _ | .fenced _ _ _ | .audited _ _ => true
  | .closed _ answer _ _ => answer.isSome
  | _ => false

/-- Was the fence stale after that? -/
def Mark.stale : Mark → Bool
  | .fenced _ _ current => !current
  | .closed _ _ stale _ => stale
  | _ => false

variable {review : ReviewEntry}

theorem Mark.pending_spec {m : Mark} {answer : Option LinkAnswer} {stale : Bool}
    (h : m.pending = some (review, answer, stale)) :
    m.lines = [.review review] ∧ m.called = answer.isSome ∧ m.stale = stale := by
  unfold Mark.pending at h
  split at h <;> cases h <;> exact ⟨rfl, rfl, rfl⟩

theorem Mark.auditing_spec {m : Mark} (h : m.auditing = some (review, label, m')) :
    m'.lines = m.lines ∧ m'.called = m.called ∧ m'.stale = m.stale ∧
      (m' = m ∨ ∃ answer, m' = .audited review answer) := by
  unfold Mark.auditing at h
  split at h <;> cases h <;> simp [Mark.called, Mark.stale]

/-- A call at this mark, over a log that was `before` when it began. -/
structure Witnessed (before : List ReviewLine) (m : Mark) (s : Logs) : Prop where
  kept : m ≠ .lost
  reviews : s.reviews = before ++ m.lines
  called : wasCalled s.events = m.called
  stale : staleAfterCall s.events = m.stale
  fresh : ∀ entry, .review entry ∈ m.lines → ∀ line ∈ before, line.reviewId ≠ entry.reviewId
  closes : ∀ review answer stale outcome, m = .closed review answer stale outcome →
    outcome.reviewId = review.reviewId ∧ closesWith answer stale outcome.outcome = true

section Step

variable {before : List ReviewLine} {e : Env} {o : Op} {s s' : Logs} {m m' : Mark}

theorem Witnessed.open_of_pending (h : Witnessed before m s) {answer : Option LinkAnswer}
    {stale : Bool} (hp : m.pending = some (review, answer, stale)) : OpenIn s.reviews review := by
  have hlines := (Mark.pending_spec hp).1
  have hreviews := h.reviews
  rw [hlines] at hreviews
  refine ⟨?_, ?_⟩
  · rw [mem_reviewsIn, hreviews]
    simp
  · intro o ho
    rw [mem_outcomesIn, hreviews] at ho
    have hbefore : .outcome o ∈ before := by simpa using ho
    exact h.fresh review (by rw [hlines]; exact mem_singleton_self _) _ hbefore

/-- **Step lemma.** -/
theorem Witnessed.moved (h : Witnessed before m s) (hfresh : ∀ line ∈ before, line.reviewId ≠ e.uuid)
    (hmv : Moved e o s m s' m') : Witnessed before m' s' := by
  cases hmv with
  | frame => exact h
  | prompted => exact ⟨by simp, h.reviews, h.called, h.stale, by simp, by simp⟩
  | refenced hm =>
    have hquiet : m.called = false := by
      rcases hm with rfl | ⟨review, rfl⟩ <;> rfl
    refine { h with called := ?_, stale := ?_ }
    · exact (wasCalled_fence _ _).trans h.called
    · -- a stale fence counts only after the connector, which was not called yet
      have hno : wasCalled s.events = false := h.called.trans hquiet
      show ((!holds e.fence && wasCalled s.events) || staleAfterCall s.events) = m.stale
      rw [hno, h.stale]
      simp
  | @fenced s review answer =>
    have hcalled : wasCalled s.events = true := h.called
    have hstale : staleAfterCall s.events = false := h.stale
    refine ⟨by simp, h.reviews, ?_, ?_, h.fresh, by simp⟩
    · exact (wasCalled_fence _ _).trans h.called
    · show ((!holds e.fence && wasCalled s.events) || staleAfterCall s.events) = !holds e.fence
      rw [hcalled, hstale]
      simp
  | @reviewed draft s m hm =>
    -- nothing was written before the review
    have hnone : m.lines = [] ∧ m.called = false ∧ m.stale = false := by
      cases m <;> first | exact ⟨rfl, rfl, rfl⟩ | cases hm
    obtain ⟨hlines, hcalled, hstale⟩ := hnone
    have hreviews : s.reviews = before := by
      have := h.reviews
      rwa [hlines, append_nil] at this
    have hdecided : reviewed (draft.entry e.uuid) = .approved (draft.entry e.uuid) ∨
        reviewed (draft.entry e.uuid) = .denied (draft.entry e.uuid) := by
      unfold reviewed
      split <;> simp
    rcases hdecided with hd | hd <;> rw [hd]
    all_goals
      refine ⟨by simp, ?_, h.called.trans hcalled, h.stale.trans hstale, ?_, by simp⟩
      · simp [Logs.write, hreviews]
      · intro entry hentry line hline
        have hid : entry = draft.entry e.uuid := by simpa using hentry
        rw [hid]
        exact hfresh line hline
  | @called connector tool s review =>
    refine ⟨by simp, h.reviews, ?_, h.stale, h.fresh, by simp⟩
    simp [Logs.note, wasCalled, Mark.called]
  | @closed s m review answer stale outcome actor hm hout =>
    obtain ⟨hlines, hcalled, hstale⟩ := Mark.pending_spec hm
    refine ⟨by simp, ?_, h.called.trans hcalled, h.stale.trans hstale, ?_, ?_⟩
    · show s.reviews ++ [_] = before ++ [_, _]
      rw [h.reviews, hlines, append_assoc]
      rfl
    · intro entry hentry
      have hmem : .review entry ∈ m.lines := by
        rw [hlines]
        simpa using hentry
      exact h.fresh entry hmem
    · intro review' answer' stale' outcome' heq
      cases heq
      exact ⟨rfl, hout⟩
  | @audited a s m m' review hm hid hrep =>
    obtain ⟨hlines, hcalled, hstale, hmark⟩ := Mark.auditing_spec hm
    have hreviews : (s.audit e.auditOpens a).reviews = s.reviews := by
      unfold Logs.audit
      split <;> rfl
    have hevents : (s.audit e.auditOpens a).events = s.events := by
      unfold Logs.audit
      split <;> rfl
    refine ⟨?_, ?_, ?_, ?_, ?_, ?_⟩
    · rcases hmark with rfl | ⟨answer, rfl⟩
      · exact h.kept
      · simp
    · rw [hreviews, hlines]
      exact h.reviews
    · rw [hevents, hcalled]
      exact h.called
    · rw [hevents, hstale]
      exact h.stale
    · rw [hlines]
      exact h.fresh
    · rcases hmark with rfl | ⟨answer, rfl⟩
      · exact h.closes
      · simp

theorem Witnessed.step (h : Witnessed before m s) (he : e.writeFault = none ∧ ∀ line ∈ before, line.reviewId ≠ e.uuid)
    (hnext : nextMark m o (answer o s e).1 = some m') : Witnessed before m' (answer o s e).2 :=
  h.moved he.2 (moved_of_next he.1 h.kept (fun _ _ _ hp => h.open_of_pending hp) hnext)

end Step

variable {result : Except ToolCallFailure String} {outcome : OutcomeEntry}

section

variable (hid : outcome.reviewId = review.reviewId)

include hid

/-- Agreement of a call that recorded one review and its outcome. -/
theorem agrees_closed_iff : Agrees result [.review review, .outcome outcome] called ↔
      (saysStale result = true → called = false) ∧
      (saysUncertain result = true ↔ outcome.outcome.isAmbiguous = true) ∧
      (result.isOk = true ↔ outcome.outcome = .executed true) := by
  simp [Agrees, outcomesIn, reviewsIn, hid]

/-- With the fence current to the end, the records agree. -/
theorem agrees_of_current {answer : Option LinkAnswer} (hcloses : closesWith answer false outcome.outcome = true)
    (hreturns : returnsWith answer false result = true) :
    Agrees result [.review review, .outcome outcome] answer.isSome := by
  rw [agrees_closed_iff hid]
  cases answer with
  | none =>
    -- the connector was not called: the outcome is `never_ran`, the failure certain
    cases result with
    | ok => cases hreturns
    | error =>
      cases ho : outcome.outcome <;> simp_all [closesWith, returnsWith, saysUncertain, Except.isOk, Except.toBool,
        AttemptOutcome.isAmbiguous]
  | some answer =>
    -- the verdict fixes both the recorded outcome and the kind of result
    cases hv : answer.verdict <;> cases ho : outcome.outcome <;> cases result <;>
      simp_all [closesWith, returnsWith, saysStale, saysUncertain, Except.isOk, Except.toBool,
        AttemptOutcome.isAmbiguous]

/-- A fence that turned stale during the call: the caller is told so although the connector was called. -/
theorem not_agrees_of_stale {answer : Option LinkAnswer} (hcloses : closesWith answer true outcome.outcome = true)
    (hreturns : returnsWith answer true result = true) :
    ¬ Agrees result [.review review, .outcome outcome] answer.isSome := by
  rw [agrees_closed_iff hid]
  rintro ⟨hstale, -, -⟩
  cases answer with
  | none => cases outcome.outcome <;> simp [closesWith] at hcloses
  | some =>
    -- a stale fence never returns a result, and its failure says `stale_lease`
    cases result with
    | ok => cases hreturns
    | error failure =>
      have hsays : failure.staleLease = true := by
        simp only [returnsWith, Bool.and_eq_true] at hreturns
        exact hreturns.1
      cases hstale hsays

end

/-- A returned call: its records agree exactly if the fence was not stale after the connector answered. -/
theorem Witnessed.agrees_iff (h : Witnessed before m s) (hend : Ended result m) :
    Agrees result m.lines m.called ↔ m.stale = false := by
  cases m with
  | idle =>
    -- refused before the review: the rate limit or a stale fence, and nothing is written
    cases result with
    | ok => cases hend
    | error failure =>
      have hu : failure.uncertain = false := by simpa [Ended, returnsWith] using hend
      simp [Agrees, Mark.called, Mark.stale, saysUncertain, hu, outcomesIn, reviewsIn, Except.isOk, Except.toBool]
  | closed review answer stale outcome =>
    obtain ⟨hid, hcloses⟩ := h.closes review answer stale outcome rfl
    cases stale with
    | false => exact iff_of_true (agrees_of_current hid hcloses hend) rfl
    | true => exact iff_of_false (not_agrees_of_stale hid hcloses hend) (by simp [Mark.stale])
  | lost => exact absurd rfl h.kept
  | _ => exact hend.elim

/-! ## `execute_call` as a whole -/

section Within

variable {sc : SessionConnectors} {c : ToolCall} {reviewId scheduleId actor : String}

theorem checkLeaseFence_within : (checkLeaseFence scheduleId).Within 1 := by
  refine within_perform_bind.mpr ?_
  intro r
  split <;> exact within_ret

theorem recordOutcome_within (outcome : AttemptOutcome) : (recordOutcome reviewId outcome actor).Within 1 :=
  within_perform_bind.mpr fun _ => within_ret

theorem requestToolApproval_within (request : ApprovalRequest) : (requestToolApproval request).Within 1 :=
  within_perform_bind.mpr fun _ => within_ret

theorem recordOutcome_return_within (outcome : AttemptOutcome) (r : Except ToolCallFailure String) :
    (recordOutcome reviewId outcome actor >>= fun _ => pure r).Within 1 :=
  (recordOutcome_within outcome).bind (k := 0) fun _ => within_ret

/-- The three ends of a call: the fence, an audit line, the outcome. -/
theorem finish_within {f : Except ToolCallFailure Unit → CallM (Except ToolCallFailure String)}
    (hstale : ∀ e, (f (.error e)).Within 2) (hok : (f (.ok ())).Within 2) :
    (checkLeaseFence scheduleId >>= f).Within 3 := by
  refine checkLeaseFence_within.bind (k := 2) ?_
  intro r
  cases r with
  | error e => exact hstale e
  | ok => exact hok

theorem callAndClassify_within : (callAndClassify c reviewId scheduleId actor).Within 4 := by
  unfold callAndClassify
  refine within_perform_bind.mpr ?_
  intro link
  -- the result, recorded, and recorded after its audit line
  have hend : ∀ outcome (r : Except ToolCallFailure String),
      (recordOutcome reviewId outcome actor >>= fun _ => pure r).Within 2 := by
    intro outcome r
    exact (recordOutcome_return_within outcome r).mono (by omega)
  have haudited : ∀ a outcome (r : Except ToolCallFailure String),
      (ask (.auditAttempt a) >>= fun _ => recordOutcome reviewId outcome actor >>= fun _ => pure r).Within 2 := by
    intro a outcome r
    exact within_perform_bind.mpr fun _ => recordOutcome_return_within outcome r
  split
  · exact (recordOutcome_within _).bind (k := 2) fun _ => within_perform_bind.mpr fun _ => within_ret
  · exact finish_within (fun e => hend _ _) (haudited _ _ _)
  · split
    · exact finish_within (fun e => hend _ _) (haudited _ _ _)
    · exact finish_within (fun e => hend _ _) (haudited _ _ _)
    · exact finish_within (fun e => hend _ _) (haudited _ _ _)

theorem hookGate_within : (hookGate sc c reviewId).Within 4 := by
  unfold hookGate
  refine within_perform_bind.mpr ?_
  intro decision
  split
  · split
    · unfold escalated
      split
      · exact (recordOutcome_return_within _ _).mono (by omega)
      · refine (requestToolApproval_within _).bind (k := 2) ?_
        intro response
        cases response with
        | ok => exact within_ret
        | error =>
          refine (recordOutcome_within _).bind (k := 1) fun _ => within_perform_bind.mpr ?_
          intro _
          split <;> exact within_ret
    · exact within_ret
  · exact (recordOutcome_return_within _ _).mono (by omega)
  · exact within_ret

/-- `execute_call` asks for at most twelve things. -/
theorem executeCall_within : (executeCall sc c).Within 12 := by
  unfold executeCall
  refine within_perform_bind.mpr ?_
  intro within
  split
  · exact within_ret
  · refine checkLeaseFence_within.bind (k := 10) ?_
    intro r
    split
    · exact within_ret
    · refine within_perform_bind.mpr ?_
      intro r
      split
      · exact within_ret
      · refine hookGate_within.bind (k := 5) ?_
        intro r
        split
        · exact within_ret
        · refine checkLeaseFence_within.bind (k := 4) ?_
          intro r
          split
          · exact (recordOutcome_return_within _ _).mono (by omega)
          · exact callAndClassify_within

end Within

/-- **When the three records of a call agree.** For every fence, hook, prompt and connector, as long as writes
    succeed and the review gets an id of its own: `execute_call` returns, and its result agrees with the
    recorded outcome and with whether the connector was called, if and only if the fence was not read as
    stale after the connector was called. -/
theorem outcomes_agree_iff (sc : SessionConnectors) (c : ToolCall) (s : Logs) (es : List Env) (hs : s.events = [])
    (hlen : 12 ≤ es.length) (hq : ∀ e ∈ es, e.writeFault = none)
    (hfresh : ∀ e ∈ es, ∀ line ∈ s.reviews, line.reviewId ≠ e.uuid) :
    ∃ result s', (executeCall sc c).exec callWorld s es = some (result, s') ∧
      (Agrees result (s'.reviews.drop s.reviews.length) (wasCalled s'.events) ↔ staleAfterCall s'.events = false) := by
  obtain ⟨⟨result, s'⟩, hrun⟩ := exec_of_within executeCall_within s hlen
  -- the invariant ties the mark of the call to the log and to the trace of events
  have h0 : Witnessed s.reviews .idle s := by
    refine ⟨by simp, by simp, ?_, ?_, by simp, by simp⟩ <;> rw [hs] <;> rfl
  have hstep : ∀ m o t e m', Witnessed s.reviews m t →
      (e.writeFault = none ∧ ∀ line ∈ s.reviews, line.reviewId ≠ e.uuid) →
      callDiscipline.next m o (callWorld.answer o t e).1 = some m' →
      Witnessed s.reviews m' (callWorld.answer o t e).2 := by
    intro m o t e m' h he hnext
    exact h.step he hnext
  obtain ⟨m, hended, hm⟩ := exec_sound _ _ hstep (executeCall_obeys sc c) h0 (fun e he => ⟨hq e he, hfresh e he⟩) hrun
  refine ⟨result, s', hrun, ?_⟩
  rw [hm.reviews, drop_left, hm.called, hm.stale]
  exact hm.agrees_iff hended

/-- A scheduled call of an Allow tool, with `null` arguments. -/
def demoCall : ToolCall :=
  ⟨"crm", "post", .allow, "a1", "74234e98afe7498fb5daf1f36ac2d78acc339464f950703b8c019892f982b90b", none,
    "scheduled:nightly"⟩

/-- Nothing fails, the fence reads as given, and the connector answers as given. -/
def demoEnv (fence : Bool) (link : LinkAnswer) : Env where
  found := some ("crm", .allow)
  skipped := []
  attemptId := "a1"
  withinRate := true
  fence := some fence
  uuid := "r1"
  writeFault := none
  hook := none
  approval := .ok ⟨some true, none⟩
  link := link
  auditOpens := true

/-- The logs of a new session. -/
def emptyLogs : Logs := ⟨[], [], []⟩

/-- A call that returns its result under a lease that stays current. -/
theorem outcomes_agree_iff_result :
    ∃ result s', (executeCall ⟨true, some "scheduled:nightly"⟩ demoCall).exec callWorld emptyLogs
        (replicate 12 (demoEnv true (.returned (.ok [some "done"]) (some 5)))) = some (result, s') ∧
      (Agrees result (s'.reviews.drop 0) (wasCalled s'.events) ↔ staleAfterCall s'.events = false) := by
  refine outcomes_agree_iff _ demoCall emptyLogs _ rfl (by simp) ?_ ?_
  · intro e he
    rw [eq_of_mem_replicate he]
    rfl
  · intro e _ line hline
    cases hline

/-- The lease lapses while the connector is at work: the call returned `ok` and is recorded as ambiguous, but
    the caller is told that the lease was stale, and not that the call is uncertain. -/
theorem stale_lease_after_connector_called :
    ((executeCall ⟨true, some "scheduled:nightly"⟩ demoCall).exec callWorld emptyLogs
      (replicate 6 (demoEnv true (.returned (.ok [some "done"]) (some 5))) ++
        replicate 6 (demoEnv false (.returned (.ok [some "done"]) (some 5))))).map
      (fun r => (decide (Agrees r.1 r.2.reviews (wasCalled r.2.events)), saysStale r.1, saysUncertain r.1,
        wasCalled r.2.events, (outcomesIn r.2.reviews).map fun o => o.outcome.isAmbiguous)) =
        some (false, true, false, true, [true]) := by
  decide +kernel

end Supercli.Connectors
