import Supercli.Audit.ReviewChain

/-!
# `Audit.GrantAudit` — the hash chain of the grant audit

`grant-audit.jsonl` has one line per grant that was created. An entry is written with its members in the order they are
declared and hashed over its sorted members without `entry_hash`; `verifyGrantAudit` is the loop of
`verify_grant_audit_at`.
-/

namespace Supercli

structure GrantAuditEntry where
  entryId : String
  tsMs : Nat
  actor : String
  scope : String
  tool : String
  grantKey : String
  prevHash : String
  entryHash : String
deriving DecidableEq

/-- The line of an entry, as `serde_json::to_string` writes it. -/
def auditLine (e : GrantAuditEntry) : Text := Json.render (.obj [
  ("entry_id", .str e.entryId),
  ("ts_ms", .nat e.tsMs),
  ("actor", .str e.actor),
  ("scope", .str e.scope),
  ("tool", .str e.tool),
  ("grant_key", .str e.grantKey),
  ("prev_hash", .str e.prevHash),
  ("entry_hash", .str e.entryHash)])

/-- What the entry's hash is taken over. -/
def auditCanonicalBytes (e : GrantAuditEntry) : Bytes := encodeUtf8 (Json.render (.obj [
  ("actor", .str e.actor),
  ("entry_id", .str e.entryId),
  ("grant_key", .str e.grantKey),
  ("prev_hash", .str e.prevHash),
  ("scope", .str e.scope),
  ("tool", .str e.tool),
  ("ts_ms", .nat e.tsMs)]))

/-- The libraries of the audit: SHA-256 in hex, and `serde_json::from_str::<GrantAuditEntry>`. -/
structure AuditLibs where
  sha256 : Bytes → String
  parseEntry : Text → Except String GrantAuditEntry

section Verify

variable (libs : AuditLibs)

/-- `GENESIS_PREV_HASH` of the grant audit. -/
def auditGenesisPrevHash : String := "0"

/-- One line that is not blank: the hash the next one has to link to. -/
def verifyAuditLine (idx : Nat) (line : Text) (prev : String) : Except String String :=
  match libs.parseEntry line with
  | .error e => .error ("line " ++ toString idx ++ ": parse: " ++ e)
  | .ok entry =>
    if entry.prevHash ≠ prev then
      .error ("line " ++ toString idx ++ ": prev_hash mismatch (expected " ++ prev ++ ", got " ++ entry.prevHash ++ ")")
    else if libs.sha256 (auditCanonicalBytes entry) ≠ entry.entryHash then
      .error ("line " ++ toString idx ++ ": entry_hash mismatch (tamper detected)")
    else .ok entry.entryHash

/-- The loop: the hash to link to and the entries verified so far. -/
def verifyAuditLines : Nat → List Text → String → Nat → Except String Nat
  | _, [], _, count => .ok count
  | idx, line :: rest, prev, count =>
    if trimText line = [] then verifyAuditLines (idx + 1) rest prev count
    else match verifyAuditLine libs idx (trimText line) prev with
      | .error e => .error e
      | .ok hash => verifyAuditLines (idx + 1) rest hash (count + 1)

/-- `verify_grant_audit_at` on the bytes of the file. -/
def verifyGrantAudit (bytes : Bytes) : Except String Nat :=
  match decodeUtf8 bytes with
  | none => .error "stream did not contain valid UTF-8"
  | some content => verifyAuditLines libs 0 (lines content) auditGenesisPrevHash 0

end Verify

end Supercli
