import Mathlib

/-!
# `Connectors.Reviews` — the two logs of a session's connector calls

`action-reviews.jsonl` holds, in one append-only file, the reviews written *before* a call (`record_review`)
and the outcomes written after it (`record_attempt_outcome`); `connectors-audit.jsonl` holds one line per
attempt. Both are lists of entries here. `ToolCallFailure` is what a caller gets back when a call does not
return a result.
-/

namespace Supercli

/-- Rust's `s.strip_prefix(pre)`. -/
def stripPrefix (pre s : String) : Option String :=
  if pre.toList.isPrefixOf s.toList then some (String.ofList (s.toList.drop pre.length)) else none

/-- One character of Rust's `{:?}` of a string: quotes, backslashes and the usual controls are escaped. -/
def debugChar (c : Char) : List Char :=
  let escaped (c : Char) : List Char := [Char.ofNat 92, c]
  if c.toNat = 34 ∨ c.toNat = 92 then escaped c
  else if c.toNat = 0 then escaped '0'
  else if c.toNat = 9 then escaped 't'
  else if c.toNat = 10 then escaped 'n'
  else if c.toNat = 13 then escaped 'r'
  else [c]

/-- `format!("{s:?}")`. -/
def debugStr (s : String) : String := "\"" ++ String.ofList (s.toList.flatMap debugChar) ++ "\""

/-! ## Reviews and outcomes -/

/-- Who authorized an action. -/
inductive Actor
  | human (deviceId : String)
  | scheduled (triggerId : String)
  | policyAllow
  | hook (name : String)
deriving DecidableEq, Repr

/-- `Display for Actor`. -/
def Actor.display : Actor → String
  | .human deviceId => "human:" ++ deviceId
  | .scheduled triggerId => "scheduled:" ++ triggerId
  | .policyAllow => "policy:allow"
  | .hook name => "hook:" ++ name

/-- `Actor::parse`; a string `Display` never produces becomes an explicit human label. -/
def Actor.parse (s : String) : Actor :=
  match stripPrefix "human:" s, stripPrefix "scheduled:" s, stripPrefix "hook:" s with
  | some id, _, _ => .human id
  | none, some id, _ => .scheduled id
  | none, none, some name => .hook name
  | none, none, none => if s = "policy:allow" then .policyAllow else .human "unidentified"

inductive ReviewDecision
  | approved
  | denied
deriving DecidableEq, Repr

/-- The recorded outcome of one authorized attempt. -/
inductive AttemptOutcome
  | executed (success : Bool)
  | ambiguous (reason : String)
  | neverRan (reason : String)
deriving DecidableEq, Repr

/-- May the attempt have taken effect or not? -/
def AttemptOutcome.isAmbiguous : AttemptOutcome → Bool
  | .ambiguous _ => true
  | _ => false

/-- Did the attempt run, with or without success? -/
def AttemptOutcome.isExecuted : AttemptOutcome → Bool
  | .executed _ => true
  | _ => false

/-- Did the attempt provably not run? -/
def AttemptOutcome.isNeverRan : AttemptOutcome → Bool
  | .neverRan _ => true
  | _ => false

structure ReviewEntry where
  reviewId : String
  actor : Actor
  connector : String
  tool : String
  argsHash : String
  decision : ReviewDecision
  replacesAttempt : Option String
deriving DecidableEq, Repr

structure OutcomeEntry where
  reviewId : String
  actor : Actor
  outcome : AttemptOutcome
deriving DecidableEq, Repr

/-- One line of `action-reviews.jsonl`. -/
inductive ReviewLine
  | review (entry : ReviewEntry)
  | outcome (entry : OutcomeEntry)
deriving DecidableEq, Repr

/-- The review a line is about. -/
def ReviewLine.reviewId : ReviewLine → String
  | .review entry => entry.reviewId
  | .outcome entry => entry.reviewId

/-- What went wrong recording a review. -/
inductive ReviewError
  | writeFailed (message : String)
deriving DecidableEq, Repr

/-- `Display for ReviewError`. -/
def ReviewError.display : ReviewError → String
  | .writeFailed e => "action review could not be durably recorded (" ++ e ++
      "); failing closed: the tool was not executed"

/-- The lines of the log that are reviews. -/
def reviewsIn (log : List ReviewLine) : List ReviewEntry :=
  log.filterMap fun line => match line with
    | .review entry => some entry
    | .outcome _ => none

/-- The lines of the log that are outcomes. -/
def outcomesIn (log : List ReviewLine) : List OutcomeEntry :=
  log.filterMap fun line => match line with
    | .review _ => none
    | .outcome entry => some entry

theorem mem_reviewsIn : entry ∈ reviewsIn log ↔ .review entry ∈ log := by
  unfold reviewsIn
  rw [List.mem_filterMap]
  constructor
  · rintro ⟨line, hmem, hline⟩
    cases line with
    | review => exact Option.some.inj hline ▸ hmem
    | outcome => cases hline
  · exact fun hmem => ⟨_, hmem, rfl⟩

theorem mem_outcomesIn : entry ∈ outcomesIn log ↔ .outcome entry ∈ log := by
  unfold outcomesIn
  rw [List.mem_filterMap]
  constructor
  · rintro ⟨line, hmem, hline⟩
    cases line with
    | review => cases hline
    | outcome => exact Option.some.inj hline ▸ hmem
  · exact fun hmem => ⟨_, hmem, rfl⟩

/-- `record_attempt_outcome`: the outcome must attach to a review, and a review gets at most one. -/
def recordAttemptOutcome (log : List ReviewLine) (reviewId : String) (outcome : AttemptOutcome) (actor : Actor) :
    Except ReviewError (List ReviewLine) :=
  if (reviewsIn log).all fun r => r.reviewId ≠ reviewId then
    .error (.writeFailed ("unknown review_id " ++ debugStr reviewId ++ ": refusing to record an orphan outcome"))
  else if (outcomesIn log).any fun o => o.reviewId = reviewId then
    .error (.writeFailed ("review " ++ debugStr reviewId ++
      " already has a recorded outcome: refusing to rewrite history"))
  else .ok (log ++ [.outcome ⟨reviewId, actor, outcome⟩])

/-! ## The audit log -/

/-- Approval policy of a tool. -/
inductive ApprovalPolicy
  | allow
  | ask
  | deny
deriving DecidableEq, Repr

/-- The outcome word of an audit line. -/
inductive AuditLabel
  | ok
  | definiteFailed
  | ambiguous
  | panicked
  | denied
deriving DecidableEq, Repr

/-- The word itself. -/
def AuditLabel.text : AuditLabel → String
  | .ok => "ok"
  | .definiteFailed => "definite_failed"
  | .ambiguous => "ambiguous"
  | .panicked => "panic"
  | .denied => "denied"

/-- One line of `connectors-audit.jsonl`. -/
structure AttemptAudit where
  connector : String
  tool : String
  policy : ApprovalPolicy
  approved : Option Bool
  attemptId : String
  argsHash : String
  reviewId : Option String
  requestSentAt : Option Nat
  outcome : AuditLabel
  retryable : Bool
  replacesAttempt : Option String
  error : Option String
deriving DecidableEq, Repr

/-! ## Failures -/

/-- Why an autonomous tool call was denied. -/
inductive DenyReason
  | noHumanPresent
  | askDeclined
  | explicitDeny
deriving DecidableEq, Repr

/-- Structured failure of a tool call. -/
structure ToolCallFailure where
  deniedFor : Option DenyReason
  uncertain : Bool
  staleLease : Bool
  message : String
deriving DecidableEq, Repr

namespace ToolCallFailure

def denied (reason : DenyReason) (message : String) : ToolCallFailure := ⟨some reason, false, false, message⟩

def failed (message : String) : ToolCallFailure := ⟨none, false, false, message⟩

/-- `ToolCallFailure::uncertain`. -/
def uncertainOf (message : String) : ToolCallFailure := ⟨none, true, false, message⟩

/-- The text every `review_failed` starts with. -/
def reviewFailedMark : String := "action review failed: "

def reviewFailed (message : String) : ToolCallFailure := ⟨none, false, false, reviewFailedMark ++ message⟩

/-- `ToolCallFailure::stale_lease`. -/
def staleLeaseFor (scheduleId : String) : ToolCallFailure :=
  ⟨none, false, true, "stale lease for schedule " ++ debugStr scheduleId ++
    ": another worker holds the lease now; refusing to execute"⟩

/-- Was this failure built by `review_failed`? -/
def isReviewFailed (f : ToolCallFailure) : Bool := reviewFailedMark.toList.isPrefixOf f.message.toList

end ToolCallFailure

end Supercli
