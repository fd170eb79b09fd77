import Supercli.Connectors.ExecuteCall

/-!
# `Connectors.CallWorld` — calls over the two logs of a session

How the operations of a connector call are answered: the two record operations append to
`action-reviews.jsonl` under its checks, the audit appends to `connectors-audit.jsonl`, and everything else
(fence, hook, prompt, connector, failing writes) comes from the environment, one value per operation.
The trace of fence readings and connector calls is written here and read only by statements.
-/

namespace Supercli.Connectors

/-- A reading of the fence under which a call goes on. -/
def holds : Option Bool → Bool
  | some false => false
  | _ => true

/-- What happens during calls besides the writes. -/
inductive Event
  | fence (current : Bool)
  | called
deriving DecidableEq, Repr

/-- The two logs of a session, and a trace, newest first, that only statements read. -/
structure Logs where
  reviews : List ReviewLine
  audits : List AttemptAudit
  events : List Event
deriving DecidableEq, Repr

/-- What the environment supplies to one operation. A `writeFault` is the error of a failing review or
    outcome write, and whether the line reached the file before the failure. -/
structure Env where
  found : Option (String × ApprovalPolicy)
  skipped : List (String × String)
  attemptId : String
  withinRate : Bool
  fence : Option Bool
  uuid : String
  writeFault : Option (String × Bool)
  hook : Option BeforeExecuteDecision
  approval : Except String ApprovalResponse
  link : LinkAnswer
  auditOpens : Bool

/-- The entry `record_review` writes under the id it draws. -/
def ReviewDraft.entry (draft : ReviewDraft) (reviewId : String) : ReviewEntry :=
  ⟨reviewId, draft.actor, draft.connector, draft.tool, draft.argsHash, draft.decision, draft.replacesAttempt⟩

namespace Logs

/-- Append a line to the review log. -/
def write (s : Logs) (line : ReviewLine) : Logs := { s with reviews := s.reviews ++ [line] }

/-- Append a line to the audit log, if it can be opened. -/
def audit (s : Logs) (opens : Bool) (a : AttemptAudit) : Logs :=
  if opens then { s with audits := s.audits ++ [a] } else s

/-- Note an event. -/
def note (s : Logs) (ev : Event) : Logs := { s with events := ev :: s.events }

end Logs

/-- A write that may fail, and then may have landed all the same. -/
def faulty {α : Type} (e : Env) (before after : Logs) (a : α) : Except ReviewError α × Logs :=
  match e.writeFault with
  | none => (.ok a, after)
  | some (message, landed) => (.error (.writeFailed message), if landed then after else before)

/-- How a call is answered. -/
def answer : (o : Op) → Logs → Env → o.Ans × Logs
  | .findTool _, s, e => (e.found, s)
  | .skippedConnectors, s, e => (e.skipped, s)
  | .newAttemptId, s, e => (e.attemptId, s)
  | .rateLimit _, s, e => (e.withinRate, s)
  | .fenceCurrent, s, e => (e.fence, s.note (.fence (holds e.fence)))
  | .recordReview draft, s, e => faulty e s (s.write (.review (draft.entry e.uuid))) e.uuid
  | .beforeExecute _ _ _, s, e => (e.hook, s)
  | .approve _, s, e => (e.approval, s)
  | .callLink _ _, s, e => (e.link, s.note .called)
  | .recordOutcome reviewId outcome actor, s, e =>
    match recordAttemptOutcome s.reviews reviewId outcome actor with
    | .error err => (.error err, s)
    | .ok reviews => faulty e s { s with reviews := reviews } ()
  | .auditAttempt a, s, e => ((), s.audit e.auditOpens a)

/-- The world of connector calls. -/
def callWorld : World sig Logs Env := ⟨answer⟩

end Supercli.Connectors
