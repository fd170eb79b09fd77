import Supercli.Hooks.Registry

/-!
# `Hooks.Dispatch` — handlers are run and their decisions combined

The models of `handlers.rs` (a process or a webhook is asked, and whatever goes wrong fails closed), of the synchronous
dispatch of `runner.rs` (handlers run in order, each sees the patches of those before it, and the strictest decision wins)
and of `emit_sync` and `before_execute_hook`. What processes and webhooks do is up to the world, differently every time one
is asked. The audit entries and the trace, which nothing here reads back, are left out.
-/

namespace Supercli.Hooks

open Connectors (BeforeExecuteDecision)

/-! ## Running one handler -/

inductive ExecFailure
  | timeout
  | badOutput (reason : String)
  | transport (reason : String)
deriving DecidableEq, Repr

/-- `ExecResult`: an output or a failure. -/
structure ExecResult where
  result : Except ExecFailure HandlerOutput
  elapsedMs : Nat
  stderr : String

/-- How the wait for a process ends. -/
inductive Waited
  | exited
  | late
  | failed (error : String)
deriving DecidableEq, Repr

/-- What a process does. -/
structure ProcessRun where
  spawnError : Option String
  stdinWritten : Bool
  waited : Waited
  outputError : Option String
  /-- `none` if it is not UTF-8. -/
  stdout : Option String
  stderr : String
  elapsedMs : Nat

/-- One turn of the loop that reads a response. -/
inductive Read
  | data (bytes : List UInt8) (late : Bool)
  | timedOut
  | failed (error : String)
deriving DecidableEq, Repr

inductive Dial
  | badAddr (error : String)
  | refused (error : String)
  | connected
deriving DecidableEq, Repr

/-- What a webhook does; the response ends after its reads. -/
structure WebhookRun where
  dial : Dial
  timeoutsSet : Bool
  requestWritten : Bool
  reads : List Read
  elapsedMs : Nat

/-- What the libraries that speak JSON do. -/
structure JsonLibs where
  /-- `serde_json::to_string`. -/
  encode : HandlerInput → Except String String
  /-- `serde_json::from_str`. -/
  decode : String → Except String HandlerOutput
  /-- `String::from_utf8_lossy`. -/
  lossy : List UInt8 → String

structure Libs extends TomlLibs, JsonLibs

/-- The world around a call. Every handler that is asked counts up. -/
structure HookWorld extends HookEnv where
  process : Nat → List String → String → ProcessRun
  webhook : Nat → String → Nat → String → WebhookRun

/-- `str::parse::<u16>`. -/
def parseU16 (text : List Char) : Option Nat :=
  let digits : List Char := match text with
    | '+' :: rest => rest
    | _ => text
  let value : Nat := digits.foldl (fun n c => n * 10 + (c.toNat - 48)) 0
  if digits ≠ [] ∧ digits.all Char.isDigit ∧ value < 65536 then some value else none

/-- `parse_local_url`: host, port and path. -/
def parseLocalUrl (url : String) : Except String (String × Nat × String) := do
  let lower := String.ofList (url.toList.map Char.toLower)
  let (defaultPort, rest) ← match stripPrefix "http://" lower, stripPrefix "https://" lower with
    | some rest, _ => pure (80, rest.toList)
    | none, some rest => pure (443, rest.toList)
    | none, none => throw "URL must start with http:// or https://"
  let authority := rest.takeWhile (· != '/')
  let path := if rest.contains '/' then String.ofList (rest.dropWhile (· != '/')) else "/"
  let authority := (authority.reverse.takeWhile (· != '@')).reverse
  let (host, port) ← match authority with
    | '[' :: stripped =>
      if stripped.contains ']' then
        let after := (stripped.dropWhile (· != ']')).drop 1
        let port := match after with
          | ':' :: digits => (parseU16 digits).getD defaultPort
          | _ => defaultPort
        pure ("[" ++ String.ofList (stripped.takeWhile (· != ']')) ++ "]", port)
      else throw "bad IPv6 literal"
    | _ =>
      if authority.contains ':' then
        let digits := (authority.reverse.takeWhile (· != ':')).reverse
        pure (String.ofList (authority.take (authority.length - digits.length - 1)), (parseU16 digits).getD defaultPort)
      else pure (String.ofList authority, defaultPort)
  pure (if host = "localhost" then "127.0.0.1" else host, port, path)

/-- What follows the first blank line of a response, or all of it. -/
def responseBody (text : List Char) : List Char :=
  let rec search : List Char → Option (List Char)
    | [] => none
    | c :: rest => if "\r\n\r\n".toList.isPrefixOf (c :: rest) then some (rest.drop 3) else search rest
  (search text).getD text

/-- The response is read to its end, at most 1 MiB of it. -/
def readResponse (resp : List UInt8) : List Read → Except ExecFailure (List UInt8)
  | [] => .ok resp
  | .data bytes late :: rest =>
    if 1048576 < (resp ++ bytes).length then .error (.badOutput "response too large")
    else if late then .error .timeout
    else readResponse (resp ++ bytes) rest
  | .timedOut :: _ => .error .timeout
  | .failed error :: _ => .error (.transport ("read: " ++ error))

section Execute

variable (libs : Libs)

/-- What came back, as the contract has it. -/
def readAnswer (text noText notJson : String) : Except ExecFailure HandlerOutput :=
  let trimmed := libs.trim text
  if trimmed = "" then .error (.badOutput noText)
  else match libs.decode trimmed with
    | .ok output => .ok output
    | .error e => .error (.badOutput (notJson ++ ": " ++ e))

def executeCommand (argv : List String) (run : String → ProcessRun) (input : HandlerInput) : ExecResult :=
  match libs.encode input with
  | .error e => ⟨.error (.badOutput ("serialize input: " ++ e)), 0, ""⟩
  | .ok body =>
    let child := run body
    let failed (failure : ExecFailure) : ExecResult := ⟨.error failure, child.elapsedMs, ""⟩
    match child.spawnError with
    | some e => failed (.badOutput ("spawn " ++ argv.headD "" ++ ": " ++ e))
    | none =>
      if child.stdinWritten = false then failed (.badOutput "write stdin")
      else match child.waited with
        | .late => failed .timeout
        | .failed e => failed (.badOutput ("wait: " ++ e))
        | .exited =>
          match child.outputError with
          | some e => failed (.badOutput ("read output: " ++ e))
          | none =>
            match child.stdout with
            | none => ⟨.error (.badOutput "non-UTF8 stdout"), child.elapsedMs, child.stderr⟩
            | some stdout =>
              ⟨readAnswer libs stdout "empty stdout" "stdout is not the JSON contract", child.elapsedMs, child.stderr⟩

/-- The part of `execute_webhook` after the input was written as JSON. -/
def webhookAnswer (addr : String) (hook : WebhookRun) : Except ExecFailure HandlerOutput := do
  match hook.dial with
  | .badAddr e => throw (.transport ("parse addr " ++ debugStr addr ++ ": " ++ e))
  | .refused e => throw (.transport ("connect " ++ addr ++ ": " ++ e))
  | .connected => pure ()
  if hook.timeoutsSet = false then throw (.transport "set timeout")
  if hook.requestWritten = false then throw (.transport "write request")
  let resp ← readResponse [] hook.reads
  readAnswer libs (String.ofList (responseBody (libs.lossy resp).toList)) "empty response body"
    "response is not the JSON contract"

def executeWebhook (url : String) (run : String → Nat → String → WebhookRun) (input : HandlerInput) : ExecResult :=
  match parseLocalUrl url with
  | .error e => ⟨.error (.transport e), 0, ""⟩
  | .ok (host, port, path) =>
    match libs.encode input with
    | .error e => ⟨.error (.badOutput ("serialize input: " ++ e)), 0, ""⟩
    | .ok body =>
      let hook := run host port ("POST " ++ path ++ " HTTP/1.0\r\nHost: " ++ host
        ++ "\r\nContent-Type: application/json\r\nX-Supercli-Event-Id: " ++ input.eventId ++ "\r\nContent-Length: "
        ++ toString body.utf8ByteSize ++ "\r\nConnection: close\r\n\r\n" ++ body)
      ⟨webhookAnswer libs (host ++ ":" ++ toString port) hook, hook.elapsedMs, ""⟩

def execute (world : HookWorld) (asked : Nat) (target : HandlerTarget) (input : HandlerInput) : ExecResult :=
  match target with
  | .command argv => executeCommand libs argv (world.process asked argv) input
  | .webhook url => executeWebhook libs url (world.webhook asked) input

end Execute

def classifyExec (exec : ExecResult) : RunOutcome × HookDecision × Option String :=
  match exec.result with
  | .error .timeout => (.timeout, .reject, some "hook_timeout")
  | .error (.badOutput _) => (.crash, .reject, some "hook_bad_output")
  | .error (.transport _) => (.crash, .reject, some "hook_crash")
  | .ok output =>
    match output.decisionOrReject with
    | (_, some bad) => (.crash, .reject, some bad)
    | (decision, none) => (.ok, decision, none)

/-! ## The dispatcher -/

structure HandlerRun where
  name : String
  priority : Nat
  decision : HookDecision
  outcome : RunOutcome
  elapsedMs : Nat
  message : String
  droppedKeys : List String
  observerPatchIgnored : Bool
  patch : Option JsonValue

def reservedPatchKeys : List String := ["id", "type", "entity", "event", "tool"]

/-- `Map::insert`; the keys of an object are sorted. -/
def insertField (key : String) (value : JsonValue) : List (String × JsonValue) → List (String × JsonValue)
  | [] => [(key, value)]
  | (k, v) :: rest =>
    if key = k then (key, value) :: rest
    else if key < k then (key, value) :: (k, v) :: rest
    else (k, v) :: insertField key value rest

/-- `apply_patch`: the patched document, and the keys that may not be changed. -/
def applyPatch (doc patch : JsonValue) : JsonValue × List String :=
  match doc, patch with
  | .object fields, .object changes =>
    let (fields, dropped) := changes.foldl (fun (s : List (String × JsonValue) × List String) change =>
      if reservedPatchKeys.contains change.1 then (s.1, s.2 ++ [change.1]) else (insertField change.1 change.2 s.1, s.2))
      (fields, [])
    (.object fields, dropped)
  | doc, _ => (doc, [])

structure SyncParams where
  entity : DocType
  event : DocEvent
  docId : String
  doc : JsonValue
  proposed : HookDecision
  ctx : HandlerContext
  seq : Nat

/-- `SyncOutcome`, and what the handlers that ran came back with. -/
structure SyncOutcome where
  decision : HookDecision
  patchedDoc : JsonValue
  runs : List HandlerRun
  rejectReason : Option String
  /-- What was executed, in order. -/
  execs : List (HookHandler × ExecResult)

/-- `run_one_sync`, after the handler was executed. -/
def runOneSync (handler : HookHandler) (exec : ExecResult) : HandlerRun :=
  let (outcome, decision, failReason) := classifyExec exec
  let message := match failReason.getD "", exec.result with
    | "", .ok output => output.message
    | message, _ => message
  let patch := match outcome, exec.result with
    | .ok, .ok output => if output.isPatchEmpty then none else some output.patch
    | _, _ => none
  ⟨handler.name, handler.priority, decision, outcome, exec.elapsedMs, message, [], false, patch⟩

section Dispatch

variable (libs : Libs) (world : HookWorld)

/-- One turn of the loop of `run_sync`. -/
def dispatchOne (p : SyncParams) (s : SyncOutcome) (handler : HookHandler) : SyncOutcome :=
  let input : HandlerInput :=
    ⟨eventId p.entity p.docId p.event p.seq, p.entity.asStr, p.event.asStr, s.patchedDoc, p.ctx⟩
  let exec := execute libs world s.execs.length handler.target input
  let run := runOneSync handler exec
  let rejectReason :=
    if run.decision = .reject ∧ s.rejectReason.isNone then
      some (if run.message = "" then "hook " ++ debugStr run.name ++ " rejected" else run.message)
    else s.rejectReason
  let (doc, dropped) := match run.patch with
    | some patch => applyPatch s.patchedDoc patch
    | none => (s.patchedDoc, [])
  ⟨s.decision.combine run.decision, doc, s.runs ++ [{ run with droppedKeys := dropped, patch := none }], rejectReason,
    s.execs ++ [(handler, exec)]⟩

def runSync (reg : HookRegistry) (p : SyncParams) : SyncOutcome :=
  if maxHookDepth ≤ p.ctx.depth then
    ⟨p.proposed, p.doc, [⟨"<dispatcher>", 0, p.proposed, .skippedRecursionGuard, 0,
      "recursion_guard: depth >= 3, hooks skipped", [], false, none⟩], none, []⟩
  else (reg.handlersFor p.entity p.event).foldl (dispatchOne libs world p) ⟨p.proposed, p.doc, [], none, []⟩

def emitSync (entity : DocType) (event : DocEvent) (docId : String) (doc : JsonValue) (actor : String) :
    Option SyncOutcome :=
  let (global, project) := defaultPaths world.toHookEnv
  if !(world.file global).exists && !(world.file project).exists then none
  else
    match HookRegistry.load libs.toTomlLibs world.toHookEnv global project with
    | .error _ => none
    | .ok reg =>
      if reg.hasHandlers entity event then
        some (runSync libs world reg ⟨entity, event, docId, doc, .allow, ⟨actor, 0, false⟩, 0⟩)
      else none

/-- `BeforeExecuteContext`; the directory of the Session is only for the audit. -/
structure BeforeExecuteContext where
  tool : String
  arguments : JsonValue
  attemptId : String
  actor : String

/-- What the outcome of a dispatch means for a call. -/
def SyncOutcome.forCall (o : SyncOutcome) : BeforeExecuteDecision :=
  match o.decision with
  | .allow => .allow
  | .escalate =>
    .escalate (match o.runs.find? fun r => r.decision == .escalate with
      | some r => if r.message = "" then "hook " ++ r.name ++ " escalated" else r.message
      | none => "hook escalated")
  | .reject => .reject (o.rejectReason.getD "hook rejected")

/-- The dispatch of a call. -/
def emitBeforeExecute (ctx : BeforeExecuteContext) : Option SyncOutcome :=
  emitSync libs world .toolCall .beforeExecute ctx.attemptId
    (.object [("arguments", ctx.arguments), ("attempt_id", .string ctx.attemptId), ("tool", .string ctx.tool)]) ctx.actor

/-- **`before_execute_hook`.** -/
def beforeExecuteHook (ctx : BeforeExecuteContext) : BeforeExecuteDecision :=
  match emitBeforeExecute libs world ctx with
  | none => .allow
  | some outcome => outcome.forCall

end Dispatch

end Supercli.Hooks
