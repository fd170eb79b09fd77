import Supercli.Runs.Journal

/-!
# `Scheduled.Spec` — schedules, their bounds, and the record of a trigger

A schedule names a session, an interval, an `AutonomousPolicy` and an explicit list of tool calls.
`validate` is the gate every trigger passes first; its checks and messages are those of the source, in
its order. A tool call's JSON arguments are kept as the text `serde_json` prints for them, together with
the one distinction the gate makes (an object, null, or something else).
-/

namespace Supercli

def minIntervalSecs : Nat := 60

/-- `MAX_DURATION_SECS`. -/
def maxDurationSecsLimit : Nat := 24 * 3600

/-- `MAX_STEPS`. -/
def maxStepsLimit : Nat := 10000

/-- `MAX_RETRIES`. -/
def maxRetriesLimit : Nat := 3

def maxIdLen : Nat := 64

def maxToolNameLen : Nat := 128

/-- Resource and retry bounds for one autonomous run. -/
structure AutonomousPolicy where
  maxDurationSecs : Nat
  maxSteps : Nat
  maxOutputBytes : Nat
  maxRetries : Nat
deriving DecidableEq, Repr

/-- `Default for AutonomousPolicy`. -/
def AutonomousPolicy.default : AutonomousPolicy := ⟨1800, 200, 4 * 1024 * 1024, 0⟩

/-- Why a spec was rejected. -/
inductive PolicyError
  | badId
  | emptySessionId
  | intervalTooShort
  | badDuration
  | badSteps
  | badRetries
  | emptyTask
  | badToolName
  | badArguments
  | tooManySteps
deriving DecidableEq, Repr

/-- `Display for PolicyError`. -/
def PolicyError.display : PolicyError → String
  | .badId => "schedule id must be 1-64 chars of [A-Za-z0-9_-]"
  | .emptySessionId => "schedule must name a session"
  | .intervalTooShort => "schedule interval must be at least 60 seconds"
  | .badDuration => "max_duration_secs must be 1..=86400"
  | .badSteps => "max_steps must be 1..=10000"
  | .badRetries => "max_retries must be 0..=3"
  | .emptyTask => "schedule task must list at least one tool call"
  | .badToolName => "tool names must be 1-128 chars of [A-Za-z0-9._-]"
  | .badArguments => "tool arguments must be a JSON object"
  | .tooManySteps => "task lists more steps than max_steps allows"

/-- A JSON value by its compact text. -/
inductive Arguments
  | null
  | object (text : String)
  | other (text : String)
deriving DecidableEq, Repr

/-- `Display for serde_json::Value`. -/
def Arguments.text : Arguments → String
  | .null => "null"
  | .object text => text
  | .other text => text

/-- The exact tool and its exact arguments. -/
structure ScheduledToolCall where
  tool : String
  arguments : Arguments
deriving DecidableEq, Repr

/-- `format!("{}:{}", call.tool, call.arguments)`, the text a step's input hash is taken of. -/
def ScheduledToolCall.canonical (call : ScheduledToolCall) : String := call.tool ++ ":" ++ call.arguments.text

/-- The input hash of a call. -/
def ScheduledToolCall.inputHash (H : Host) (call : ScheduledToolCall) : String :=
  stepInputHash H call.canonical

/-- One armed schedule. The task is its list of tool calls. -/
structure ScheduleSpec where
  id : String
  sessionId : String
  intervalSecs : Nat
  policy : AutonomousPolicy
  enabled : Bool
  calls : List ScheduledToolCall
deriving DecidableEq, Repr

/-- A name of 1 to `maxLen` bytes, all of them ASCII letters, digits or `extra`. -/
def nameOk (maxLen : Nat) (extra : List Char) (s : String) : Bool :=
  s ≠ "" && s.utf8ByteSize ≤ maxLen && s.toList.all fun c => c.isAlphanum || extra.contains c

/-- The checks of one tool call. -/
def ScheduledToolCall.validate (call : ScheduledToolCall) : Except PolicyError Unit :=
  if ! nameOk maxToolNameLen ['.', '_', '-'] call.tool then .error .badToolName
  else match call.arguments with
    | .null | .object _ => .ok ()
    | .other _ => .error .badArguments

/-- The loop over the task's calls: the first bad one decides. -/
def validateCalls : List ScheduledToolCall → Except PolicyError Unit
  | [] => .ok ()
  | call :: rest => do
    call.validate
    validateCalls rest

/-- `ScheduleSpec::validate`. The step count is compared after its cast to `u32`. -/
def ScheduleSpec.validate (spec : ScheduleSpec) : Except PolicyError Unit :=
  if ! nameOk maxIdLen ['-', '_'] spec.id then .error .badId
  else if spec.sessionId = "" then .error .emptySessionId
  else if spec.intervalSecs < minIntervalSecs then .error .intervalTooShort
  else if spec.policy.maxDurationSecs = 0 ∨ maxDurationSecsLimit < spec.policy.maxDurationSecs then
    .error .badDuration
  else if spec.policy.maxSteps = 0 ∨ maxStepsLimit < spec.policy.maxSteps then .error .badSteps
  else if maxRetriesLimit < spec.policy.maxRetries then .error .badRetries
  else if spec.calls = [] then .error .emptyTask
  else if spec.policy.maxSteps < spec.calls.length % 2 ^ 32 then .error .tooManySteps
  else validateCalls spec.calls

/-- `retry_delay_for_attempt`, in seconds: 5, 10, 20, … capped at five minutes. -/
def retryDelayForAttempt (retryIndex : Nat) : Nat := min (5 * 2 ^ min retryIndex 6) 300

/-- How a scheduled run ended. -/
inductive RunOutcome
  | completed
  | failed
  | killed
  | timedOut
  | skippedOverlap
  | needsReview
deriving DecidableEq, Repr

/-- One audit line per trigger. -/
structure RunRecord where
  scheduleId : String
  sessionId : String
  triggeredAtMs : Nat
  outcome : RunOutcome
  steps : Nat
  deniedTools : List String
  error : Option String
deriving DecidableEq, Repr

theorem validateCalls_ok (h : ∀ call ∈ calls, call.validate = .ok ()) : validateCalls calls = .ok () := by
  induction calls with
  | nil => rfl
  | cons call rest ih =>
    have hhead := h call List.mem_cons_self
    have htail := ih fun c hc => h c (List.mem_cons_of_mem _ hc)
    simp [validateCalls, hhead, htail, bind, Except.bind]

/-- The default policy passes every bound of the gate. -/
theorem validate_default {spec : ScheduleSpec} (hid : nameOk maxIdLen ['-', '_'] spec.id = true)
    (hs : spec.sessionId ≠ "") (hi : minIntervalSecs ≤ spec.intervalSecs)
    (hp : spec.policy = AutonomousPolicy.default) (hc : spec.calls ≠ []) (hn : spec.calls.length ≤ 200)
    (hcalls : ∀ call ∈ spec.calls, call.validate = .ok ()) : spec.validate = .ok () := by
  simp only [ScheduleSpec.validate, hid, hp, AutonomousPolicy.default, maxDurationSecsLimit, maxStepsLimit,
    maxRetriesLimit, validateCalls_ok hcalls]
  simp [hs, hc, Nat.not_lt.mpr hi]
  -- what is left is the number of calls, as `u32`
  omega

/-- An accepted spec has at least one call and a positive step bound. -/
theorem validate_ok {spec : ScheduleSpec} (h : spec.validate = .ok ()) :
    spec.calls ≠ [] ∧ 0 < spec.policy.maxSteps := by
  unfold ScheduleSpec.validate at h
  repeat' split at h
  all_goals first | cases h | skip
  all_goals exact ⟨by assumption, by omega⟩

end Supercli
