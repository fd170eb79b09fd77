import Supercli.Connectors.Reviews
import Supercli.Lib.Json

/-!
# `Audit.ReviewChain` — the hash chain of a review log

Every line of `action-reviews.jsonl` carries the hash of the line before it and its own, over the canonical JSON of the
entry. `verifyReviewReader` is `verify_review_reader`: it stops at the first line that does not parse, does not link, is not
spelled canonically or does not hash to what it says. The JSON parser and SHA-256 are parameters.
-/

namespace Supercli

/-- A review with its stamps. -/
structure ChainedReview where
  entry : ReviewEntry
  tsMs : Nat
  prevHash : String
  entryHash : String
deriving DecidableEq

/-- An outcome with its stamps. -/
structure ChainedOutcome where
  entry : OutcomeEntry
  tsMs : Nat
  prevHash : String
  entryHash : String
deriving DecidableEq

def ReviewDecision.asStr : ReviewDecision → String
  | .approved => "approved"
  | .denied => "denied"

def AttemptOutcome.kindStr : AttemptOutcome → String
  | .executed _ => "executed"
  | .ambiguous _ => "ambiguous"
  | .neverRan _ => "never_ran"

def AttemptOutcome.successJson : AttemptOutcome → Json
  | .executed success => .bool success
  | _ => .null

def AttemptOutcome.reasonJson : AttemptOutcome → Json
  | .executed _ => .null
  | .ambiguous reason => .str reason
  | .neverRan reason => .str reason

/-- `canonical_bytes`: the members in the order of their keys. -/
def canonicalBytes (e : ChainedReview) : Bytes :=
  encodeUtf8 (Json.render (.obj [
    ("actor", .str e.entry.actor.display),
    ("args_hash", .str e.entry.argsHash),
    ("connector", .str e.entry.connector),
    ("decision", .str e.entry.decision.asStr),
    ("prev_hash", .str e.prevHash),
    ("replaces_attempt", .ofOption e.entry.replacesAttempt),
    ("review_id", .str e.entry.reviewId),
    ("tool", .str e.entry.tool),
    ("ts_ms", .nat e.tsMs)]))

/-- The value of `entry_line`. -/
def entryJson (e : ChainedReview) : Json := .obj [
  ("actor", .str e.entry.actor.display),
  ("args_hash", .str e.entry.argsHash),
  ("connector", .str e.entry.connector),
  ("decision", .str e.entry.decision.asStr),
  ("entry_hash", .str e.entryHash),
  ("prev_hash", .str e.prevHash),
  ("replaces_attempt", .ofOption e.entry.replacesAttempt),
  ("review_id", .str e.entry.reviewId),
  ("tool", .str e.entry.tool),
  ("ts_ms", .nat e.tsMs)]

def entryLine (e : ChainedReview) : Text := (entryJson e).render

def canonicalOutcomeBytes (e : ChainedOutcome) : Bytes :=
  encodeUtf8 (Json.render (.obj [
    ("actor", .str e.entry.actor.display),
    ("outcome", .str e.entry.outcome.kindStr),
    ("prev_hash", .str e.prevHash),
    ("reason", e.entry.outcome.reasonJson),
    ("review_id", .str e.entry.reviewId),
    ("success", e.entry.outcome.successJson),
    ("ts_ms", .nat e.tsMs),
    ("type", .str "attempt_outcome")]))

/-- The value of `outcome_entry_line`. -/
def outcomeEntryJson (e : ChainedOutcome) : Json := .obj [
  ("actor", .str e.entry.actor.display),
  ("entry_hash", .str e.entryHash),
  ("outcome", .str e.entry.outcome.kindStr),
  ("prev_hash", .str e.prevHash),
  ("reason", e.entry.outcome.reasonJson),
  ("review_id", .str e.entry.reviewId),
  ("success", e.entry.outcome.successJson),
  ("ts_ms", .nat e.tsMs),
  ("type", .str "attempt_outcome")]

def outcomeEntryLine (e : ChainedOutcome) : Text := (outcomeEntryJson e).render

/-- What went wrong verifying a review chain. -/
inductive ChainError
  | io (message : String)
  | corruptLine (line : Nat) (detail : String)
  | hashMismatch (line : Nat)
  | brokenLink (line : Nat)
  | nonCanonical (line : Nat)
deriving DecidableEq

/-- `Display for ChainError`. -/
def ChainError.display : ChainError → String
  | .io message => "cannot read review log: " ++ message
  | .corruptLine line detail => "review log line " ++ toString line ++ " is corrupt: " ++ detail
  | .hashMismatch line => "review log line " ++ toString line ++ " failed hash verification (tampered?)"
  | .brokenLink line => "review log line " ++ toString line ++ " does not link to the previous entry (tampered?)"
  | .nonCanonical line => "review log line " ++ toString line ++ " is not the canonical serialization (tampered?)"

/-- The libraries a chain is checked with: SHA-256 in hex, and the JSON parser. -/
structure ChainLibs where
  sha256 : Bytes → String
  parseJson : Text → Except String Json

section Verify

variable (libs : ChainLibs)

def genesisPrevHash : String := "genesis"

section

variable (line : Nat)

section

variable (v : Json)

/-- The `get` closure of the verifier: a member that is a string. -/
def strField (key : String) : Except ChainError String :=
  match (v.get key).bind Json.asStr with
  | some s => .ok s
  | none => .error (.corruptLine line ("missing/invalid field " ++ debugStr key))

def tsField : Except ChainError Nat :=
  match (v.get "ts_ms").bind Json.asU64 with
  | some n => .ok n
  | none => .error (.corruptLine line ("missing/invalid field " ++ debugStr "ts_ms"))

/-- The outcome a line records. -/
def outcomeField : Except ChainError AttemptOutcome := do
  let kind ← strField line v "outcome"
  if kind = "executed" then
    match (v.get "success").bind Json.asBool with
    | some success => .ok (.executed success)
    | none => .error (.corruptLine line ("missing/invalid field " ++ debugStr "success"))
  else if kind = "ambiguous" then return .ambiguous (← strField line v "reason")
  else if kind = "never_ran" then return .neverRan (← strField line v "reason")
  else .error (.corruptLine line ("unknown outcome " ++ debugStr kind))

def parseOutcome : Except ChainError ChainedOutcome := do
  let outcome ← outcomeField line v
  let reviewId ← strField line v "review_id"
  let tsMs ← tsField line v
  let actor ← strField line v "actor"
  let prevHash ← strField line v "prev_hash"
  let entryHash ← strField line v "entry_hash"
  return ⟨⟨reviewId, .parse actor, outcome⟩, tsMs, prevHash, entryHash⟩

def decisionField : Except ChainError ReviewDecision := do
  let word ← strField line v "decision"
  if word = "approved" then return .approved
  else if word = "denied" then return .denied
  else .error (.corruptLine line ("unknown decision " ++ debugStr word))

def parseReview : Except ChainError ChainedReview := do
  let reviewId ← strField line v "review_id"
  let tsMs ← tsField line v
  let actor ← strField line v "actor"
  let connector ← strField line v "connector"
  let tool ← strField line v "tool"
  let argsHash ← strField line v "args_hash"
  let decision ← decisionField line v
  let prevHash ← strField line v "prev_hash"
  let entryHash ← strField line v "entry_hash"
  return ⟨⟨reviewId, .parse actor, connector, tool, argsHash, decision, (v.get "replaces_attempt").bind Json.asStr⟩,
    tsMs, prevHash, entryHash⟩

end

/-- The three checks of an entry: it links, it is spelled canonically, it hashes to what it says. -/
def checkEntry (prev entryPrev : String) (canonical : Bool) (hash entryHash : String) : Except ChainError String :=
  if entryPrev ≠ prev then .error (.brokenLink line)
  else if canonical = false then .error (.nonCanonical line)
  else if hash ≠ entryHash then .error (.hashMismatch line)
  else .ok entryHash

/-- One line that is not blank: the hash the next one has to link to. -/
def verifyLine (text : Text) (prev : String) : Except ChainError String :=
  match libs.parseJson text with
  | .error e => .error (.corruptLine line e)
  | .ok v =>
    if (v.get "type").bind Json.asStr = some "attempt_outcome" then do
      let e ← parseOutcome line v
      checkEntry line prev e.prevHash (outcomeEntryLine e = text) (libs.sha256 (canonicalOutcomeBytes e)) e.entryHash
    else do
      let e ← parseReview line v
      checkEntry line prev e.prevHash (entryLine e = text) (libs.sha256 (canonicalBytes e)) e.entryHash

end

/-- The loop: the hash to link to and the entries verified so far; `none` is a line that could not be read. -/
def verifyReviewLines (label : String) : Nat → List (Option Text) → String → Nat → Except ChainError Nat
  | _, [], _, count => .ok count
  | _, none :: _, _, _ => .error (.io ("read " ++ label ++ ": stream did not contain valid UTF-8"))
  | line, some text :: rest, prev, count =>
    if trimText text = [] then verifyReviewLines label (line + 1) rest prev count
    else match verifyLine libs line text prev with
      | .error e => .error e
      | .ok hash => verifyReviewLines label (line + 1) rest hash (count + 1)

def verifyReviewBytes (bytes : Bytes) (label : String) : Except ChainError Nat :=
  verifyReviewLines libs label 1 (byteLines bytes) genesisPrevHash 0

end Verify

end Supercli
