import Supercli.Connectors.Link
import Supercli.Lib.Program
import Supercli.Scheduled.Spec

/-!
# `Connectors.ExecuteCall` — one connector tool call

`call_tool_detailed`, `call_tool_replacement` and the `execute_call` they share, as programs over what they
ask for: the tool table, the rate limiter, the lease fence, the two logs, the hook, the approval prompt and
the connector itself. The order of the writes is the source's: the review before anything runs, and at the
end the audit line before the outcome, except where a call is refused or panics.
-/

namespace Supercli.Connectors

/-- A review about to be recorded; the log gives it its id. -/
structure ReviewDraft where
  actor : Actor
  connector : String
  tool : String
  argsHash : String
  decision : ReviewDecision
  replacesAttempt : Option String
deriving DecidableEq, Repr

/-- What a `before_execute` hook decides. -/
inductive BeforeExecuteDecision
  | allow
  | escalate (reason : String)
  | reject (reason : String)
deriving DecidableEq, Repr

/-- What the approval prompt shows beside the tool. -/
structure ApprovalRequest where
  connector : String
  tool : String
  replacesAttempt : Option String
  argsHash : Option String
  hookReason : Option String
deriving DecidableEq, Repr

/-- What the approval hub replies. -/
structure ApprovalResponse where
  approved : Option Bool
  answeredBy : Option String
deriving DecidableEq, Repr

/-- A rejected or uncompleted approval prompt. -/
structure ApprovalRejection where
  actor : Option String
  message : String
  declined : Bool
deriving DecidableEq, Repr

/-- The operations of a connector call. -/
inductive Op
  | findTool (name : String)
  | skippedConnectors
  | newAttemptId
  | rateLimit (deviceId : String)
  | fenceCurrent
  | recordReview (draft : ReviewDraft)
  | beforeExecute (tool attemptId actor : String)
  | approve (request : ApprovalRequest)
  | callLink (connector tool : String)
  | recordOutcome (reviewId : String) (outcome : AttemptOutcome) (actor : Actor)
  | auditAttempt (attempt : AttemptAudit)

/-- What each answers. `fenceCurrent` answers `none` when no fence is installed, `beforeExecute` when no hook
    is; `approve` fails when the prompt does not complete. -/
def Op.Ans : Op → Type
  | .findTool _ => Option (String × ApprovalPolicy)
  | .skippedConnectors => List (String × String)
  | .newAttemptId => String
  | .rateLimit _ => Bool
  | .fenceCurrent => Option Bool
  | .recordReview _ => Except ReviewError String
  | .beforeExecute _ _ _ => Option BeforeExecuteDecision
  | .approve _ => Except String ApprovalResponse
  | .callLink _ _ => LinkAnswer
  | .recordOutcome _ _ _ => Except ReviewError Unit
  | .auditAttempt _ => Unit

/-- The signature of connector calls. -/
abbrev sig : Sig := ⟨Op, Op.Ans⟩

/-- Connector-call programs. -/
abbrev CallM := Prog sig

/-- Ask one operation. -/
def ask (o : Op) : CallM o.Ans := Prog.perform (S := sig) o

/-- The settings of the connector set during a call. -/
structure SessionConnectors where
  autonomous : Bool
  actor : Option String
deriving DecidableEq, Repr

def SessionConnectors.autoActor (sc : SessionConnectors) (fallback : String) : String := sc.actor.getD fallback

/-- The arguments of `execute_call`. -/
structure ToolCall where
  connector : String
  tool : String
  policy : ApprovalPolicy
  attemptId : String
  argsHash : String
  replacesAttempt : Option String
  actor : String
deriving DecidableEq, Repr

/-- The audit line of a call. -/
def ToolCall.audit (c : ToolCall) (approved : Bool) (reviewId : String) (requestSentAt : Option Nat)
    (outcome : AuditLabel) (retryable : Bool) (error : Option String) : AttemptAudit :=
  ⟨c.connector, c.tool, c.policy, some approved, c.attemptId, c.argsHash, some reviewId, requestSentAt, outcome,
    retryable, c.replacesAttempt, error⟩

def checkLeaseFence (scheduleId : String) : CallM (Except ToolCallFailure Unit) := do
  match ← ask .fenceCurrent with
  | some false => return .error (.staleLeaseFor scheduleId)
  | _ => return .ok ()

/-- `record_outcome`: a failed write is logged and changes nothing. -/
def recordOutcome (reviewId : String) (outcome : AttemptOutcome) (actor : String) : CallM Unit := do
  let _ ← ask (.recordOutcome reviewId outcome (Actor.parse actor))
  return ()

/-- The user, or whoever answered for them, said yes. -/
def granted : Except String ApprovalResponse → Bool
  | .ok response => response.approved = some true
  | .error _ => false

/-- What `request_tool_approval` makes of the reply: the actor who approved, or the rejection. -/
def approvalOutcome (request : ApprovalRequest) : Except String ApprovalResponse → Except ApprovalRejection String
  | .error error => .error ⟨none, "Tool '" ++ request.tool ++ "' (connector '" ++ request.connector ++
      "') needs your approval, but the approval prompt did not complete: " ++ error ++
      ". If no Supercli frontend is running, start one; otherwise answer the prompt and retry.", false⟩
  | .ok response =>
    let answeredBy := (response.answeredBy.filter fun s => s ≠ "").getD "local-prompt"
    let actor := "human:" ++ answeredBy
    if response.approved = some true then .ok actor
    else .error ⟨some actor, "The user declined the '" ++ request.tool ++ "' call (connector '" ++
      request.connector ++
      "'). Do not retry on your own — ask the user if they want to approve future calls.", true⟩

def requestToolApproval (request : ApprovalRequest) : CallM (Except ApprovalRejection String) := do
  let response ← ask (.approve request)
  return approvalOutcome request response

/-! ## `execute_call` -/

/-- The hook's escalation of an Allow tool: somebody must approve. `ok` is the actor for the rest. -/
def escalated (sc : SessionConnectors) (c : ToolCall) (reviewId hookReason : String) :
    CallM (Except ToolCallFailure String) := do
  if sc.autonomous then
    let reason := "hook escalated Allow->Ask (" ++ hookReason ++ ") but no human can answer in autonomous mode"
    recordOutcome reviewId (.neverRan reason) c.actor
    return .error (.denied .noHumanPresent
      ("tool " ++ debugStr c.tool ++ " escalated to approval by before_execute hook: " ++ reason))
  else
    match ← requestToolApproval ⟨c.connector, c.tool, none, none, some hookReason⟩ with
    | .ok actor => return .ok actor
    | .error rejection =>
      let decider := rejection.actor.getD "human:unanswered-prompt"
      let completion := if rejection.declined then "declined by " ++ decider else "did not complete"
      recordOutcome reviewId
        (.neverRan ("hook escalated Allow->Ask (" ++ hookReason ++ "); approval " ++ completion)) decider
      ask (.auditAttempt (c.audit false reviewId none .denied false (some rejection.message)))
      if rejection.declined then
        return .error (.denied .askDeclined rejection.message)
      else
        return .error (.failed rejection.message)

/-- The `before_execute` hook. An escalation can only tighten: on Ask and Deny tools it does nothing. -/
def hookGate (sc : SessionConnectors) (c : ToolCall) (reviewId : String) : CallM (Except ToolCallFailure String) := do
  match ← ask (.beforeExecute c.tool c.attemptId c.actor) with
  | some (.escalate hookReason) =>
    if c.policy = .allow then escalated sc c reviewId hookReason else return .ok c.actor
  | some (.reject hookReason) =>
    recordOutcome reviewId (.neverRan ("hook_rejected: " ++ hookReason)) c.actor
    return .error (.failed ("tool " ++ debugStr c.tool ++ " rejected by before_execute hook: " ++ hookReason))
  | _ => return .ok c.actor

/-- The end of a call that returned a result. -/
def finishOk (c : ToolCall) (reviewId scheduleId actor text : String) (requestSentAt : Option Nat) :
    CallM (Except ToolCallFailure String) := do
  match ← checkLeaseFence scheduleId with
  | .error e =>
    recordOutcome reviewId (.ambiguous ("stale lease after tool call: " ++ e.message)) actor
    return .error e
  | .ok () =>
    ask (.auditAttempt (c.audit true reviewId requestSentAt .ok false none))
    recordOutcome reviewId (.executed true) actor
    return .ok text

section

variable (c : ToolCall) (reviewId scheduleId actor : String)

/-- The end of a call that provably did not take effect. -/
def finishDefiniteFailed (e : LinkError) (requestSentAt : Option Nat) : CallM (Except ToolCallFailure String) := do
  let err := "connector tool " ++ debugStr c.tool ++ " failed: " ++ e.display
  match ← checkLeaseFence scheduleId with
  | .error fenceErr =>
    recordOutcome reviewId (.neverRan ("stale lease after definite failure: " ++ fenceErr.message)) actor
    return .error fenceErr
  | .ok () =>
    ask (.auditAttempt (c.audit true reviewId requestSentAt .definiteFailed e.retryable (some err)))
    recordOutcome reviewId (.executed false) actor
    return .error (.failed err)

/-- The end of a call that may have taken effect. -/
def finishAmbiguous (e : LinkError) (requestSentAt : Option Nat) : CallM (Except ToolCallFailure String) := do
  let err := "connector tool " ++ debugStr c.tool ++ " may already have executed (attempt " ++ c.attemptId ++
    "): " ++ e.display ++ ". This attempt was recorded as ambiguous and will NOT be retried automatically. " ++
    "To supersede it, issue an explicit human-approved replacement call referencing attempt " ++ c.attemptId ++ "."
  match ← checkLeaseFence scheduleId with
  | .error fenceErr =>
    recordOutcome reviewId
      (.ambiguous ("ambiguous tool call, then stale lease: " ++ fenceErr.message ++ "; " ++ err)) actor
    return .error fenceErr
  | .ok () =>
    ask (.auditAttempt (c.audit true reviewId requestSentAt .ambiguous false (some err)))
    recordOutcome reviewId (.ambiguous err) actor
    return .error (.uncertainOf err)

/-- The call itself and what becomes of it. A panic records its outcome before its audit line. -/
def callAndClassify : CallM (Except ToolCallFailure String) := do
  match ← ask (.callLink c.connector c.tool) with
  | .panicked msg =>
    recordOutcome reviewId (.ambiguous ("tool call panicked: " ++ msg)) actor
    ask (.auditAttempt (c.audit true reviewId none .panicked false (some ("tool call panicked: " ++ msg))))
    return .error (.uncertainOf ("connector tool " ++ debugStr c.tool ++ " panicked: " ++ msg))
  | .returned (.ok value) requestSentAt =>
    finishOk c reviewId scheduleId actor (mcpTextResult value) requestSentAt
  | .returned (.error e) requestSentAt =>
    match e.callOutcome requestSentAt.isSome with
    | .definiteFailed => finishDefiniteFailed c reviewId scheduleId actor e requestSentAt
    -- `unreachable!` for `definiteOk`, see `callOutcome_ne_definiteOk`
    | .ambiguous | .definiteOk => finishAmbiguous c reviewId scheduleId actor e requestSentAt

end

/-- What follows the recorded review: the hook, the fence once more, and the call. -/
def callApproved (sc : SessionConnectors) (c : ToolCall) (reviewId scheduleId : String) :
    CallM (Except ToolCallFailure String) := do
  match ← hookGate sc c reviewId with
  | .error failure => return .error failure
  | .ok actor =>
    match ← checkLeaseFence scheduleId with
    | .error e =>
      recordOutcome reviewId (.neverRan ("stale lease before tool call: " ++ e.message)) actor
      return .error e
    | .ok () => callAndClassify c reviewId scheduleId actor

/-- `execute_call`, with `approved = Some(true)` as both callers pass it. -/
def executeCall (sc : SessionConnectors) (c : ToolCall) : CallM (Except ToolCallFailure String) := do
  let deviceId := (stripPrefix "human:" c.actor).getD c.actor
  if !(← ask (.rateLimit deviceId)) then
    return .error (.failed ("rate limit exceeded for connector calls (device " ++ deviceId ++ ")"))
  else
    let scheduleId := (stripPrefix "scheduled:" c.actor).getD c.actor
    match ← checkLeaseFence scheduleId with
    | .error e => return .error e
    | .ok () =>
      match ← ask (.recordReview ⟨Actor.parse c.actor, c.connector, c.tool, c.argsHash, .approved,
          c.replacesAttempt⟩) with
      | .error e => return .error (.reviewFailed e.display)
      | .ok reviewId => callApproved sc c reviewId scheduleId

/-! ## The callers -/

def recordDenied (c : ToolCall) (reason : DenyReason) (err : String) : CallM ToolCallFailure := do
  match ← ask (.recordReview ⟨Actor.parse c.actor, c.connector, c.tool, c.argsHash, .denied,
      c.replacesAttempt⟩) with
  | .error e => return .reviewFailed e.display
  | .ok reviewId =>
    ask (.auditAttempt (c.audit false reviewId none .denied false (some err)))
    return .denied reason err

/-- A rejected prompt is recorded as a denial; one that never completed is reported as a plain failure. -/
def rejected (c : ToolCall) (rejection : ApprovalRejection) : CallM (Except ToolCallFailure String) := do
  let failure ← recordDenied { c with actor := rejection.actor.getD "human:unanswered-prompt" } .askDeclined
    rejection.message
  if rejection.declined then return .error failure else return .error (.failed rejection.message)

/-- `unknown_tool_error`, given the connectors that were skipped and why. -/
def unknownToolError (name : String) (skipped : List (String × String)) : String :=
  let msg := "Unknown tool: " ++ name
  if skipped = [] then msg
  else
    let sorted := skipped.insertionSort fun a b => a.1 ≤ b.1
    msg ++ "; attached connectors currently unavailable: " ++
      ", ".intercalate (sorted.map fun kv => kv.1 ++ ": " ++ kv.2)

/-- A name no attached connector serves. -/
def failUnknown (name : String) : CallM (Except ToolCallFailure String) := do
  let skipped ← ask .skippedConnectors
  return .error (.failed (unknownToolError name skipped))

/-- The hash of a call's arguments. -/
def argsHash (H : Host) (arguments : Arguments) : String := H.sha256Hex arguments.text.toUTF8

section

variable (H : Host) (sc : SessionConnectors) (name : String) (arguments : Arguments)

def callToolDetailed : CallM (Except ToolCallFailure String) := do
  match ← ask (.findTool name) with
  | none => failUnknown name
  | some (connector, policy) =>
    let attemptId : String ← ask .newAttemptId
    let call := fun (actor : String) =>
      (⟨connector, name, policy, attemptId, argsHash H arguments, none, actor⟩ : ToolCall)
    match policy with
    | .deny =>
      let failure ← recordDenied (call "policy:deny") .explicitDeny
        ("tool " ++ debugStr name ++ " is denied by its approval policy")
      return .error failure
    | .ask =>
      if sc.autonomous then
        let failure ← recordDenied (call (sc.autoActor "scheduled:unknown-trigger")) .noHumanPresent
          ("tool " ++ debugStr name ++ " requires approval, which is unavailable in autonomous mode; " ++
            "denied by the scheduled-session policy")
        return .error failure
      else
        match ← requestToolApproval ⟨connector, name, none, none, none⟩ with
        | .error rejection => rejected (call "") rejection
        | .ok actor => executeCall sc (call actor)
    | .allow => executeCall sc (call (sc.autoActor "policy:allow"))

/-- `call_tool_replacement`: an explicit, always prompted replacement for an earlier attempt. -/
def callToolReplacement (replacesAttempt : String) : CallM (Except ToolCallFailure String) := do
  if sc.autonomous then
    return .error (.denied .noHumanPresent
      ("replacement for ambiguous attempt " ++ replacesAttempt ++
        " requires human approval, which is unavailable in autonomous mode; refused"))
  else
    match ← ask (.findTool name) with
    | none => failUnknown name
    | some (connector, policy) =>
      let attemptId : String ← ask .newAttemptId
      let hash := argsHash H arguments
      let call := fun (actor : String) =>
        (⟨connector, name, policy, attemptId, hash, some replacesAttempt, actor⟩ : ToolCall)
      match ← requestToolApproval ⟨connector, name, some replacesAttempt, some hash, none⟩ with
      | .error rejection => rejected (call "") rejection
      | .ok actor => executeCall sc (call actor)

end

end Supercli.Connectors
