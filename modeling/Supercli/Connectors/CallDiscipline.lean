import Supercli.Connectors.CallWorld

/-!
# `Connectors.CallDiscipline` — the order of a call's records

A `Mark` says how far a call is with its records, and `callDiscipline` which operation may come next: the
review first, the connector only after an approved review, and one outcome per review, of the kind the
answer and the fence call for (`closesWith`). `executeCall_obeys` is the only proof about the program's text;
it also says which result is returned at which mark (`Ended`).

`Moved` turns a move of the discipline into what it does to the logs when no write fails.
-/

namespace Supercli.Connectors

open Prog

/-- How far a call is with its records. -/
inductive Mark
  /-- nothing is written -/
  | idle
  /-- the prompt for the call was not granted -/
  | rejected (replaces : Option String)
  /-- the denied review is written -/
  | denied (review : ReviewEntry)
  /-- the approved review is written, and the connector is not called -/
  | approved (review : ReviewEntry)
  /-- the connector has answered -/
  | answered (review : ReviewEntry) (answer : LinkAnswer)
  /-- and the fence was read after that -/
  | fenced (review : ReviewEntry) (answer : LinkAnswer) (current : Bool)
  /-- the audit line is written; the outcome comes next -/
  | audited (review : ReviewEntry) (answer : LinkAnswer)
  /-- the outcome is written: with what the connector answered, if it was called, and whether the fence was
      stale after that -/
  | closed (review : ReviewEntry) (answer : Option LinkAnswer) (stale : Bool) (outcome : OutcomeEntry)
  /-- a write failed -/
  | lost

/-- The outcome of the kind that the connector's answer (`none`: it was not called) and a stale fence after
    it call for. -/
def closesWith : Option LinkAnswer → Bool → AttemptOutcome → Bool
  | none, false, .neverRan _ => true
  | none, _, _ => false
  | some answer, stale, outcome =>
    match answer.verdict, stale, outcome with
    | .definiteOk, false, .executed success => success
    -- the call succeeded, but under a lease that may be another worker's by now
    | .definiteOk, true, .ambiguous _ => true
    | .definiteFailed, false, .executed success => !success
    | .definiteFailed, true, .neverRan _ => true
    | .ambiguous, _, .ambiguous _ => true
    | _, _, _ => false

/-- The audit label of an answer. -/
def labelOf : CallOutcome → AuditLabel
  | .definiteOk => .ok
  | .definiteFailed => .definiteFailed
  | .ambiguous => .ambiguous

/-- The review whose outcome may be recorded now, and what decides it. -/
def Mark.pending : Mark → Option (ReviewEntry × Option LinkAnswer × Bool)
  -- a stale fence or a hook can still refuse the call
  | .approved review => some (review, none, false)
  | .answered review (.panicked message) => some (review, some (.panicked message), false)
  | .fenced review answer false => some (review, some answer, true)
  | .audited review answer => some (review, some answer, false)
  | _ => none

/-- The review whose audit line may be written now, its label, and the mark after it. -/
def Mark.auditing : Mark → Option (ReviewEntry × AuditLabel × Mark)
  | .denied review => some (review, .denied, .denied review)
  | .fenced review answer true => some (review, labelOf answer.verdict, .audited review answer)
  | .closed review none stale outcome => some (review, .denied, .closed review none stale outcome)
  | .closed review (some (.panicked message)) stale outcome =>
    some (review, .panicked, .closed review (some (.panicked message)) stale outcome)
  | _ => none

/-- May this review be recorded now? A denial that names an attempt to replace comes only from a rejected
    prompt for that replacement. -/
def Mark.mayReview (draft : ReviewDraft) : Mark → Bool
  | .idle => draft.decision = .approved || draft.replacesAttempt = none
  | .rejected replaces => draft.decision = .denied && draft.replacesAttempt = replaces
  | _ => false

/-- The mark after a review is written. -/
def reviewed (entry : ReviewEntry) : Mark :=
  match entry.decision with
  | .approved => .approved entry
  | .denied => .denied entry

/-- The moves of a call. -/
@[simp] def nextMark (m : Mark) : (o : Op) → o.Ans → Option Mark
  | .fenceCurrent, r =>
    match m with
    | .idle | .approved _ | .lost => some m
    -- only the check after the connector decides the outcome
    | .answered review answer => some (.fenced review answer (holds r))
    | _ => none
  | .approve request, r =>
    match m with
    | .idle => some (if granted r then .idle else .rejected request.replacesAttempt)
    -- a prompt that a hook escalated to: its rejection closes the approved review
    | _ => some m
  | .recordReview draft, r =>
    match m with
    | .lost => some .lost
    | _ =>
      if m.mayReview draft then
        match r with
        | .ok reviewId => some (reviewed (draft.entry reviewId))
        | .error _ => some .lost
      else none
  | .callLink _ _, r =>
    match m with
    | .approved review => some (.answered review r)
    | .lost => some .lost
    | _ => none
  | .recordOutcome reviewId outcome actor, r =>
    match m.pending with
    | some (review, answer, stale) =>
      if reviewId = review.reviewId ∧ closesWith answer stale outcome then
        match r with
        | .ok _ => some (.closed review answer stale ⟨reviewId, actor, outcome⟩)
        | .error _ => some .lost
      else none
    | none => if m matches .lost then some m else none
  | .auditAttempt a, _ =>
    match m.auditing with
    | some (review, label, m') =>
      if a.reviewId = some review.reviewId ∧ a.outcome = label ∧ a.replacesAttempt = review.replacesAttempt then
        some m'
      else none
    | none => if m matches .lost then some m else none
  | _, _ => some m

/-- The discipline of a connector call. -/
def callDiscipline : Discipline sig Mark := ⟨nextMark⟩

/-! ## The programs obey -/

/-- The result that goes with the connector's answer and a stale fence after it. -/
def returnsWith : Option LinkAnswer → Bool → Except ToolCallFailure String → Bool
  | none, _, .error failure => !failure.uncertain
  | none, _, .ok _ => false
  | some _, true, .error failure => failure.staleLease && !failure.uncertain
  | some _, true, .ok _ => false
  | some answer, false, result =>
    match answer.verdict, result with
    | .definiteOk, .ok _ => true
    | .definiteFailed, .error failure => !failure.staleLease && !failure.uncertain
    | .ambiguous, .error failure => !failure.staleLease && failure.uncertain
    | _, _ => false

/-- A call returns with nothing written, or with its outcome recorded. -/
def Ended (result : Except ToolCallFailure String) : Mark → Prop
  | .idle => returnsWith none false result = true
  | .closed _ answer stale _ => returnsWith answer stale result = true
  | .lost => True
  | _ => False

section Obeys

variable {α β : Type} {m : Mark} {review : ReviewEntry} {Q : α → Mark → Prop} {R : β → Mark → Prop}

theorem nextMark_lost : nextMark .lost o r = some .lost := by
  cases o <;> rfl

/-- After a failed write the discipline asks for nothing more. -/
theorem obeys_lost {p : CallM α} (hQ : ∀ a, Q a .lost) : p.Obeys callDiscipline Q .lost := by
  induction p with
  | ret a => exact hQ a
  | ask o k ih => exact fun r => ⟨.lost, nextMark_lost, ih r⟩

/-- Operations the discipline does not mention. -/
def Op.isFrame : Op → Bool
  | .findTool _ | .skippedConnectors | .newAttemptId | .rateLimit _ | .beforeExecute _ _ _ => true
  | _ => false

theorem nextMark_frame (ho : o.isFrame = true) (r : o.Ans) : nextMark m o r = some m := by
  cases o <;> first | rfl | cases ho

theorem obeys_frame (ho : o.isFrame = true) {f : o.Ans → CallM β} (h : ∀ r, (f r).Obeys callDiscipline R m) :
    (ask o >>= f).Obeys callDiscipline R m :=
  obeys_idle_bind (nextMark_frame ho) h

theorem obeys_move (h : ∀ r, ∃ m', nextMark m o r = some m' ∧ (f r).Obeys callDiscipline R m') :
    (ask o >>= f).Obeys callDiscipline R m := h

theorem recordOutcome_obeys {answer : Option LinkAnswer}
    (hm : m.pending = some (review, answer, stale)) (hout : closesWith answer stale outcome = true)
    (hR : ∀ b, R b .lost)
    (h : (f ()).Obeys callDiscipline R (.closed review answer stale ⟨review.reviewId, Actor.parse actor, outcome⟩)) :
    (recordOutcome review.reviewId outcome actor >>= f).Obeys callDiscipline R m := by
  intro r
  cases r with
  | ok =>
    refine ⟨.closed review answer stale ⟨review.reviewId, Actor.parse actor, outcome⟩, ?_, h⟩
    simp [callDiscipline, hm, hout]
  | error =>
    refine ⟨.lost, ?_, obeys_lost hR⟩
    simp [callDiscipline, hm, hout]

theorem audit_obeys {f : Unit → CallM β} (hm : m.auditing = some (review, label, m'))
    (hid : a.reviewId = some review.reviewId) (hlabel : a.outcome = label)
    (hrep : a.replacesAttempt = review.replacesAttempt) (h : (f ()).Obeys callDiscipline R m') :
    (ask (.auditAttempt a) >>= f).Obeys callDiscipline R m := by
  refine obeys_move fun _ => ⟨m', ?_, h⟩
  simp [hm, hid, hlabel, hrep]

variable {f : Except ToolCallFailure Unit → CallM β}

/-- A fence check where the call can still be refused without a trace of the connector. -/
theorem checkLeaseFence_obeys (hm : ∀ r, nextMark m .fenceCurrent r = some m)
    (hstale : (f (.error (.staleLeaseFor scheduleId))).Obeys callDiscipline R m)
    (hok : (f (.ok ())).Obeys callDiscipline R m) : (checkLeaseFence scheduleId >>= f).Obeys callDiscipline R m := by
  refine Obeys.bind (obeys_move fun r => ⟨m, hm r, ?_⟩)
  cases r with
  | none => exact hok
  | some current => cases current <;> assumption

/-- The fence check after the connector answered. -/
theorem checkLeaseFence_answered {answer : LinkAnswer}
    (hstale : (f (.error (.staleLeaseFor scheduleId))).Obeys callDiscipline R (.fenced review answer false))
    (hok : (f (.ok ())).Obeys callDiscipline R (.fenced review answer true)) :
    (checkLeaseFence scheduleId >>= f).Obeys callDiscipline R (.answered review answer) := by
  refine Obeys.bind (obeys_move fun r => ⟨.fenced review answer (holds r), rfl, ?_⟩)
  cases r with
  | none => exact hok
  | some current => cases current <;> assumption

variable {f : Except ApprovalRejection String → CallM β} {request : ApprovalRequest}

/-! ### `execute_call` -/

variable {sc : SessionConnectors} {c : ToolCall} {scheduleId actor : String}

/-- The hook gate lets the call through at its approved review, or ends it. -/
def Gated (review : ReviewEntry) (r : Except ToolCallFailure String) (m : Mark) : Prop :=
  match r with
  | .ok _ => m = .approved review ∨ m = .lost
  | .error failure => Ended (.error failure) m

theorem gated_lost (r : Except ToolCallFailure String) : Gated review r .lost := by
  cases r with
  | ok => exact .inr rfl
  | error => trivial

theorem escalated_obeys (hc : review.replacesAttempt = c.replacesAttempt) :
    (escalated sc c review.reviewId hookReason).Obeys callDiscipline (Gated review) (.approved review) := by
  unfold escalated
  split
  · -- an autonomous session has nobody to ask
    exact recordOutcome_obeys rfl rfl gated_lost rfl
  · refine Obeys.bind (obeys_move fun r => ⟨_, rfl, ?_⟩)
    generalize approvalOutcome _ r = answered
    cases answered with
    | ok => exact .inl rfl
    | error =>
      refine recordOutcome_obeys rfl rfl gated_lost ?_
      refine audit_obeys rfl rfl rfl hc.symm ?_
      split <;> rfl

theorem hookGate_obeys (hc : review.replacesAttempt = c.replacesAttempt) :
    (hookGate sc c review.reviewId).Obeys callDiscipline (Gated review) (.approved review) := by
  unfold hookGate
  refine obeys_frame rfl ?_
  intro decision
  cases decision with
  | none => exact .inl rfl
  | some decision =>
    cases decision with
    | allow => exact .inl rfl
    | escalate =>
      by_cases hp : c.policy = .allow
      · simp only [hp, if_true]
        exact escalated_obeys hc
      · -- an Ask call was already approved by hand
        simp only [hp, if_false]
        exact .inl rfl
    | reject => exact recordOutcome_obeys rfl rfl gated_lost rfl

section Finish

variable {requestSentAt : Option Nat}

section

variable (hc : review.replacesAttempt = c.replacesAttempt)

include hc

theorem finishOk_obeys : (finishOk c review.reviewId scheduleId actor text requestSentAt).Obeys callDiscipline Ended
      (.answered review (.returned (.ok value) requestSentAt)) := by
  unfold finishOk
  refine checkLeaseFence_answered ?_ ?_
  · exact recordOutcome_obeys rfl rfl (fun _ => trivial) rfl
  · refine audit_obeys rfl rfl rfl hc.symm ?_
    exact recordOutcome_obeys rfl rfl (fun _ => trivial) rfl

theorem finishDefiniteFailed_obeys (he : e.callOutcome requestSentAt.isSome = .definiteFailed) :
    (finishDefiniteFailed c review.reviewId scheduleId actor e requestSentAt).Obeys callDiscipline Ended
      (.answered review (.returned (.error e) requestSentAt)) := by
  have hv : (LinkAnswer.returned (.error e) requestSentAt).verdict = .definiteFailed := he
  unfold finishDefiniteFailed
  refine checkLeaseFence_answered ?_ ?_
  · exact recordOutcome_obeys rfl (by simp [closesWith, hv]) (fun _ => trivial) rfl
  · refine audit_obeys rfl rfl (by rw [hv]; rfl) hc.symm ?_
    exact recordOutcome_obeys rfl (by simp [closesWith, hv]) (fun _ => trivial)
      (by simp [Ended, returnsWith, hv, ToolCallFailure.failed])

theorem finishAmbiguous_obeys (he : e.callOutcome requestSentAt.isSome = .ambiguous) :
    (finishAmbiguous c review.reviewId scheduleId actor e requestSentAt).Obeys callDiscipline Ended
      (.answered review (.returned (.error e) requestSentAt)) := by
  have hv : (LinkAnswer.returned (.error e) requestSentAt).verdict = .ambiguous := he
  unfold finishAmbiguous
  refine checkLeaseFence_answered ?_ ?_
  · exact recordOutcome_obeys rfl (by simp [closesWith, hv]) (fun _ => trivial) rfl
  · refine audit_obeys rfl rfl (by rw [hv]; rfl) hc.symm ?_
    exact recordOutcome_obeys rfl (by simp [closesWith, hv]) (fun _ => trivial)
      (by simp [Ended, returnsWith, hv, ToolCallFailure.uncertainOf])

end

end Finish

theorem callAndClassify_obeys (hc : review.replacesAttempt = c.replacesAttempt) :
    (callAndClassify c review.reviewId scheduleId actor).Obeys callDiscipline Ended (.approved review) := by
  unfold callAndClassify
  refine obeys_move fun link => ⟨.answered review link, rfl, ?_⟩
  cases link with
  | panicked =>
    -- the outcome first and the audit line after it, and no fence check
    refine recordOutcome_obeys rfl rfl (fun _ => trivial) ?_
    exact audit_obeys rfl rfl rfl hc.symm rfl
  | returned result requestSentAt =>
    cases result with
    | ok => exact finishOk_obeys hc
    | error e =>
      cases he : e.callOutcome requestSentAt.isSome with
      | definiteOk => exact absurd he callOutcome_ne_definiteOk
      | definiteFailed =>
        simp only [he]
        exact finishDefiniteFailed_obeys hc he
      | ambiguous =>
        simp only [he]
        exact finishAmbiguous_obeys hc he

theorem callApproved_obeys (hc : review.replacesAttempt = c.replacesAttempt) :
    (callApproved sc c review.reviewId scheduleId).Obeys callDiscipline Ended (.approved review) := by
  unfold callApproved
  refine Obeys.bind ((hookGate_obeys hc).mono ?_)
  intro r m hm
  cases r with
  | error => exact hm
  | ok =>
    rcases hm with rfl | rfl
    · -- the last fence check before the connector: if stale, the attempt never ran
      refine checkLeaseFence_obeys (fun r => rfl) ?_ (callAndClassify_obeys hc)
      exact recordOutcome_obeys rfl rfl (fun _ => trivial) rfl
    · exact obeys_lost fun _ => trivial

/-- **`execute_call` obeys the discipline**, and returns what goes with its records. -/
theorem executeCall_obeys (sc : SessionConnectors) (c : ToolCall) :
    (executeCall sc c).Obeys callDiscipline Ended .idle := by
  unfold executeCall
  refine obeys_frame rfl ?_
  intro within
  cases within with
  | false => exact rfl
  | true =>
    refine checkLeaseFence_obeys (fun r => rfl) rfl ?_
    refine obeys_move ?_
    intro r
    cases r with
    | error => exact ⟨.lost, rfl, trivial⟩
    | ok reviewId =>
      -- the review written is the one every later record of the call names
      let draft : ReviewDraft :=
        ⟨Actor.parse c.actor, c.connector, c.tool, c.argsHash, .approved, c.replacesAttempt⟩
      have h : ∀ scheduleId, (callApproved sc c (draft.entry reviewId).reviewId scheduleId).Obeys
          callDiscipline Ended (.approved (draft.entry reviewId)) := by
        intro _
        exact callApproved_obeys rfl
      exact ⟨_, rfl, h _⟩

/-! ### The callers -/

theorem recordDenied_obeys
    (hm : m.mayReview ⟨Actor.parse c.actor, c.connector, c.tool, c.argsHash, .denied, c.replacesAttempt⟩ = true)
    (hlost : m ≠ .lost) : (recordDenied c reason err).Obeys callDiscipline (fun _ _ => True) m := by
  unfold recordDenied
  refine obeys_move ?_
  intro r
  cases r with
  | error => exact ⟨.lost, by cases m <;> simp_all, trivial⟩
  | ok reviewId =>
    let draft : ReviewDraft :=
      ⟨Actor.parse c.actor, c.connector, c.tool, c.argsHash, .denied, c.replacesAttempt⟩
    refine ⟨.denied (draft.entry reviewId), ?_, ?_⟩
    · cases m <;> simp_all [reviewed, ReviewDraft.entry, draft]
    · exact audit_obeys rfl rfl rfl rfl trivial

theorem rejected_obeys :
    (rejected c rejection).Obeys callDiscipline (fun _ _ => True) (.rejected c.replacesAttempt) := by
  unfold rejected
  refine Obeys.bind ((recordDenied_obeys (by simp [Mark.mayReview]) (by simp)).mono ?_)
  intro failure m _
  split <;> trivial

theorem failUnknown_obeys : (failUnknown name).Obeys callDiscipline (fun _ _ => True) .idle :=
  obeys_frame rfl fun _ => trivial

theorem approvalOutcome_cases (request : ApprovalRequest) (r : Except String ApprovalResponse) :
    (granted r = true ∧ ∃ actor, approvalOutcome request r = .ok actor) ∨
      (granted r = false ∧ ∃ rejection, approvalOutcome request r = .error rejection) := by
  cases r with
  | error => exact .inr ⟨rfl, _, rfl⟩
  | ok response =>
    by_cases h : response.approved = some true
    · exact .inl ⟨by simp [granted, h], _, if_pos h⟩
    · exact .inr ⟨by simp [granted, h], _, if_neg h⟩

/-- The prompt for a call: granted, the call is made; rejected, the denial is recorded. -/
theorem prompt_obeys
    (hno : ∀ rejection, (f (.error rejection)).Obeys callDiscipline R (.rejected request.replacesAttempt))
    (hyes : ∀ actor, (f (.ok actor)).Obeys callDiscipline R .idle) :
    (requestToolApproval request >>= f).Obeys callDiscipline R .idle := by
  refine Obeys.bind (obeys_move ?_)
  intro r
  rcases approvalOutcome_cases request r with ⟨hg, actor, ho⟩ | ⟨hg, rejection, ho⟩
  · refine ⟨.idle, by simp [hg], ?_⟩
    rw [ho]
    exact hyes actor
  · refine ⟨.rejected request.replacesAttempt, by simp [hg], ?_⟩
    rw [ho]
    exact hno rejection

/-- **`call_tool_detailed` obeys the discipline.** -/
theorem callToolDetailed_obeys :
    (callToolDetailed H sc name arguments).Obeys callDiscipline (fun _ _ => True) .idle := by
  unfold callToolDetailed
  refine obeys_frame rfl ?_
  intro found
  cases found with
  | none => exact failUnknown_obeys
  | some tool =>
    obtain ⟨connector, policy⟩ := tool
    refine obeys_frame rfl ?_
    intro attemptId
    cases policy with
    | deny => exact Obeys.bind ((recordDenied_obeys rfl (by simp)).mono fun _ _ _ => trivial)
    | ask =>
      by_cases ha : sc.autonomous = true
      · simp only [ha, if_true]
        exact Obeys.bind ((recordDenied_obeys rfl (by simp)).mono fun _ _ _ => trivial)
      · simp only [ha]
        exact prompt_obeys (fun rejection => rejected_obeys)
          fun actor => (executeCall_obeys sc _).mono fun _ _ _ => trivial
    | allow => exact (executeCall_obeys sc _).mono fun _ _ _ => trivial

/-- **`call_tool_replacement` obeys the discipline.** -/
theorem callToolReplacement_obeys
    :
    (callToolReplacement H sc name arguments replacesAttempt).Obeys callDiscipline (fun _ _ => True) .idle := by
  unfold callToolReplacement
  split
  · trivial
  · refine obeys_frame rfl ?_
    intro found
    cases found with
    | none => exact failUnknown_obeys
    | some =>
      refine obeys_frame rfl ?_
      intro attemptId
      exact prompt_obeys (fun rejection => rejected_obeys)
        fun actor => (executeCall_obeys sc _).mono fun _ _ _ => trivial

end Obeys

/-! ## What a move does to the logs -/

/-- The review can still get its outcome: it is in the log, and no outcome names it. -/
structure OpenIn (log : List ReviewLine) (review : ReviewEntry) : Prop where
  written : review ∈ reviewsIn log
  noOutcome : ∀ o ∈ outcomesIn log, o.reviewId ≠ review.reviewId

/-- An open review gets the outcome. -/
theorem OpenIn.recordAttemptOutcome_eq (h : OpenIn log review) :
    recordAttemptOutcome log review.reviewId outcome actor =
      .ok (log ++ [.outcome ⟨review.reviewId, actor, outcome⟩]) := by
  have hknown : ((reviewsIn log).all fun r => decide (r.reviewId ≠ review.reviewId)) = false := by
    rw [List.all_eq_false]
    exact ⟨review, h.written, by simp⟩
  have hfirst : ((outcomesIn log).any fun o => decide (o.reviewId = review.reviewId)) = false := by
    rw [List.any_eq_false]
    exact fun o ho => by simpa using h.noOutcome o ho
  rw [recordAttemptOutcome, hknown, hfirst]
  rfl

/-- The moves of a call whose writes succeed, with what they do to the logs. -/
inductive Moved (e : Env) : Op → Logs → Mark → Logs → Mark → Prop
  | frame {o s m} : Moved e o s m s m
  | prompted {request s} (hno : granted e.approval = false) :
      Moved e (.approve request) s .idle s (.rejected request.replacesAttempt)
  | refenced {s m} (hm : m = .idle ∨ ∃ review, m = .approved review) :
      Moved e .fenceCurrent s m (s.note (.fence (holds e.fence))) m
  | fenced {s review answer} :
      Moved e .fenceCurrent s (.answered review answer) (s.note (.fence (holds e.fence)))
        (.fenced review answer (holds e.fence))
  | reviewed {draft s m} (hm : m.mayReview draft = true) :
      Moved e (.recordReview draft) s m (s.write (.review (draft.entry e.uuid))) (reviewed (draft.entry e.uuid))
  | called {connector tool s review} :
      Moved e (.callLink connector tool) s (.approved review) (s.note .called) (.answered review e.link)
  | closed {s m review answer stale outcome actor} (hm : m.pending = some (review, answer, stale))
      (hout : closesWith answer stale outcome = true) :
      Moved e (.recordOutcome review.reviewId outcome actor) s m
        (s.write (.outcome ⟨review.reviewId, actor, outcome⟩))
        (.closed review answer stale ⟨review.reviewId, actor, outcome⟩)
  | audited {a s m m' review} (hm : m.auditing = some (review, a.outcome, m'))
      (hid : a.reviewId = some review.reviewId) (hrep : a.replacesAttempt = review.replacesAttempt) :
      Moved e (.auditAttempt a) s m (s.audit e.auditOpens a) m'

variable {e : Env} {o : Op} {s : Logs} {m m' : Mark}

/-- **Inversion.** Every move of the discipline whose writes succeed is one of these. -/
theorem moved_of_next (hq : e.writeFault = none) (hm : m ≠ .lost)
    (hopen : ∀ review answer stale, m.pending = some (review, answer, stale) → OpenIn s.reviews review)
    (hnext : nextMark m o (answer o s e).1 = some m') : Moved e o s m (answer o s e).2 m' := by
  -- one case per operation; inside, the marks at which the discipline allows it
  cases o with
  | findTool | skippedConnectors | newAttemptId | rateLimit | beforeExecute =>
    cases hnext
    exact .frame
  | approve =>
    cases m with
    | idle =>
      cases hg : granted e.approval with
      | true =>
        simp only [nextMark, answer, hg] at hnext
        cases hnext
        exact .frame
      | false =>
        simp only [nextMark, answer, hg] at hnext
        cases hnext
        exact .prompted hg
    | _ =>
      cases hnext
      exact .frame
  | fenceCurrent =>
    cases m with
    | idle =>
      cases hnext
      exact .refenced (.inl rfl)
    | approved review =>
      cases hnext
      exact .refenced (.inr ⟨review, rfl⟩)
    | answered =>
      cases hnext
      exact .fenced
    | lost => exact absurd rfl hm
    | _ => cases hnext
  | recordReview draft =>
    have hans : answer (.recordReview draft) s e = (.ok e.uuid, s.write (.review (draft.entry e.uuid))) := by
      simp only [answer, faulty, hq]
      rfl
    rw [hans] at hnext ⊢
    by_cases hmay : m.mayReview draft = true
    · have : nextMark m (.recordReview draft) (.ok e.uuid) = some (Connectors.reviewed (draft.entry e.uuid)) := by
        cases m <;> simp_all
      rw [this] at hnext
      cases hnext
      exact .reviewed hmay
    · cases m <;> simp_all
  | callLink =>
    cases m with
    | approved =>
      cases hnext
      exact .called
    | lost => exact absurd rfl hm
    | _ => cases hnext
  | recordOutcome reviewId outcome actor =>
    cases hp : m.pending with
    | none => cases m <;> simp_all
    | some pending =>
      obtain ⟨review, ans, stale⟩ := pending
      by_cases hguard : reviewId = review.reviewId ∧ closesWith ans stale outcome = true
      · -- the review is open, so the store accepts its outcome
        obtain ⟨rfl, hout⟩ := hguard
        have hans : answer (.recordOutcome review.reviewId outcome actor) s e =
            (.ok (), s.write (.outcome ⟨review.reviewId, actor, outcome⟩)) := by
          simp only [answer, (hopen review ans stale hp).recordAttemptOutcome_eq, faulty, hq]
          rfl
        rw [hans] at hnext ⊢
        simp only [nextMark, hp, hout, and_self, if_true] at hnext
        cases hnext
        exact .closed hp hout
      · simp [hp, hguard] at hnext
  | auditAttempt =>
    cases hp : m.auditing with
    | none => cases m <;> simp_all
    | some due =>
      obtain ⟨review, label, after⟩ := due
      simp only [nextMark, hp] at hnext
      split at hnext
      · rename_i hguard
        obtain ⟨hid, rfl, hrep⟩ := hguard
        cases hnext
        exact .audited hp hid hrep
      · cases hnext

end Supercli.Connectors
