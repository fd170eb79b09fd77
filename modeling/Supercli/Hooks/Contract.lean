import Supercli.Connectors.ExecuteCall

/-!
# `Hooks.Contract` — document events and what handlers are asked and answer

The model of the catalog in `lib.rs`: the entities and events that `hooks.toml` may name, the decisions of a handler and
how they combine, and the JSON that goes to a handler and comes back from it.
-/

namespace Supercli.Hooks

/-! ## Entities and events -/

inductive DocType
  | session | turn | toolCall | approval | grant | schedule | job | run | connector | device | fileWrite | gitOp | idea
deriving DecidableEq, Repr

def DocType.parse (s : String) : Option DocType :=
  match s with
  | "Session" => some .session
  | "Turn" => some .turn
  | "ToolCall" => some .toolCall
  | "Approval" => some .approval
  | "Grant" => some .grant
  | "Schedule" => some .schedule
  | "Job" => some .job
  | "Run" => some .run
  | "Connector" => some .connector
  | "Device" => some .device
  | "FileWrite" => some .fileWrite
  | "GitOp" => some .gitOp
  | "Idea" => some .idea
  | _ => none

def DocType.asStr : DocType → String
  | .session => "Session"
  | .turn => "Turn"
  | .toolCall => "ToolCall"
  | .approval => "Approval"
  | .grant => "Grant"
  | .schedule => "Schedule"
  | .job => "Job"
  | .run => "Run"
  | .connector => "Connector"
  | .device => "Device"
  | .fileWrite => "FileWrite"
  | .gitOp => "GitOp"
  | .idea => "Idea"

inductive DocEvent
  | beforeInsert | autoname | afterInsert | beforeValidate | validate | beforeSave | onUpdate | onChange | onTrash
  | afterDelete | onArchive | onRestore | beforeSubmit | onSubmit | onCancel | onExpire | beforeExecute | onExecute | onFail
  | onOutcomeUnknown
deriving DecidableEq, Repr

def DocEvent.parse (s : String) : Option DocEvent :=
  match s with
  | "before_insert" => some .beforeInsert
  | "autoname" => some .autoname
  | "after_insert" => some .afterInsert
  | "before_validate" => some .beforeValidate
  | "validate" => some .validate
  | "before_save" => some .beforeSave
  | "on_update" => some .onUpdate
  | "on_change" => some .onChange
  | "on_trash" => some .onTrash
  | "after_delete" => some .afterDelete
  | "on_archive" => some .onArchive
  | "on_restore" => some .onRestore
  | "before_submit" => some .beforeSubmit
  | "on_submit" => some .onSubmit
  | "on_cancel" => some .onCancel
  | "on_expire" => some .onExpire
  | "before_execute" => some .beforeExecute
  | "on_execute" => some .onExecute
  | "on_fail" => some .onFail
  | "on_outcome_unknown" => some .onOutcomeUnknown
  | _ => none

def DocEvent.asStr : DocEvent → String
  | .beforeInsert => "before_insert"
  | .autoname => "autoname"
  | .afterInsert => "after_insert"
  | .beforeValidate => "before_validate"
  | .validate => "validate"
  | .beforeSave => "before_save"
  | .onUpdate => "on_update"
  | .onChange => "on_change"
  | .onTrash => "on_trash"
  | .afterDelete => "after_delete"
  | .onArchive => "on_archive"
  | .onRestore => "on_restore"
  | .beforeSubmit => "before_submit"
  | .onSubmit => "on_submit"
  | .onCancel => "on_cancel"
  | .onExpire => "on_expire"
  | .beforeExecute => "before_execute"
  | .onExecute => "on_execute"
  | .onFail => "on_fail"
  | .onOutcomeUnknown => "on_outcome_unknown"

/-! ## Decisions -/

inductive HookDecision
  | allow
  | escalate
  | reject
deriving DecidableEq, Repr

def HookDecision.strictness : HookDecision → Nat
  | .allow => 0
  | .escalate => 1
  | .reject => 2

/-- **Hooks only tighten**: the stricter decision wins. -/
def HookDecision.combine (a b : HookDecision) : HookDecision := if a.strictness < b.strictness then b else a

theorem HookDecision.combine_eq_allow {a : HookDecision} : a.combine b = .allow ↔ a = .allow ∧ b = .allow := by
  cases a <;> cases b <;> decide

inductive RunOutcome
  | ok
  | timeout
  | crash
  | skippedRecursionGuard
deriving DecidableEq, Repr

/-! ## What handlers are asked and answer -/

/-- `serde_json::Value`. -/
inductive JsonValue
  | null
  | bool (b : Bool)
  | number (n : Int)
  | string (s : String)
  | array (items : List JsonValue)
  | object (fields : List (String × JsonValue))

def JsonValue.asObject : JsonValue → Option (List (String × JsonValue))
  | .object fields => some fields
  | _ => none

structure HandlerContext where
  actor : String
  depth : Nat
  dryRun : Bool
deriving DecidableEq, Repr

structure HandlerInput where
  eventId : String
  entity : String
  event : String
  doc : JsonValue
  context : HandlerContext

/-- `HandlerOutput`; a `decision` that is not stated is read as `default_allow`, a `patch` as null. -/
structure HandlerOutput where
  decision : Option String
  patch : JsonValue
  message : String

def defaultAllow : String := "allow"

def HandlerOutput.decisionOrReject (o : HandlerOutput) : HookDecision × Option String :=
  match o.decision.getD defaultAllow with
  | "allow" => (.allow, none)
  | "escalate" => (.escalate, none)
  | "reject" => (.reject, none)
  | _ => (.reject, some "hook_bad_output")

def HandlerOutput.isPatchEmpty (o : HandlerOutput) : Bool :=
  match o.patch with
  | .null => true
  | .object fields => fields.isEmpty
  | _ => false

def maxHookDepth : Nat := 3

def eventId (entity : DocType) (docId : String) (event : DocEvent) (seq : Nat) : String :=
  entity.asStr ++ ":" ++ docId ++ ":" ++ event.asStr ++ ":" ++ toString seq

end Supercli.Hooks
