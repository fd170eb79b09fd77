import Mathlib

/-!
# `Remote.Connection` — what a Controller's connection to a Host may answer

The contract of `HostConnection`: a call is prepared, bound to a transport generation or not, and requested once. A
request is answered, lost after it was sent, or fails before anything was sent (`TransportResult`); which of these it
was, the error says (`DeliveryState`).

Bodies are given by what they parse as.
-/

namespace Supercli.Remote

/-- `ConnectionGeneration`, opaque to whoever holds one. -/
abbrev ConnectionGeneration := Nat

inductive RequestSemantics
  | readOnly
  | effect
deriving DecidableEq, Repr

inductive DeliveryState
  | notSent
  | outcomeUnknown
deriving DecidableEq, Repr

inductive HostConnectionError
  | invalidTarget (message : String)
  | configuration (message : String)
  | hostUpgradeRequired (message : String)
  | closed
  | closedRequest (requestId : Nat)
  | requestIdExhausted
  | wrongConnection (requestId : Nat)
  | wrongGeneration (generation : ConnectionGeneration)
  | generationChanged (requestId : Nat) (expected : ConnectionGeneration)
  | requestTooLarge (requestId encodedBytes maxBytes : Nat)
  | tooManyInFlight (requestId limit : Nat)
  | duplicateRequestId (requestId : Nat)
  | launch (requestId : Nat) (message : String)
  | disconnected (requestId : Nat) (semantics : RequestSemantics) (delivery : DeliveryState) (message : String)
  | timedOut (requestId : Nat) (semantics : RequestSemantics) (delivery : DeliveryState)
deriving DecidableEq, Repr

namespace HostConnectionError

def delivery : HostConnectionError → Option DeliveryState
  | closed | closedRequest _ | generationChanged _ _ | wrongConnection _ | wrongGeneration _ | duplicateRequestId _
  | requestTooLarge _ _ _ | tooManyInFlight _ _ | launch _ _ => some .notSent
  | disconnected _ _ delivery _ | timedOut _ _ delivery => some delivery
  | invalidTarget _ | configuration _ | hostUpgradeRequired _ | requestIdExhausted => none

def effectOutcomeIsUnknown : HostConnectionError → Bool
  | disconnected _ .effect .outcomeUnknown _ | timedOut _ .effect .outcomeUnknown => true
  | _ => false

/-- `connection_error_invalidates_generation`. -/
def invalidatesGeneration : HostConnectionError → Bool
  | closed | closedRequest _ | launch _ _ | requestIdExhausted | wrongConnection _ | wrongGeneration _
  | generationChanged _ _ | disconnected _ _ _ _ | timedOut _ _ _ => true
  | _ => false

end HostConnectionError

/-! ## Bodies -/

structure HostProtocolDescriptor where
  majorVersion : Nat
  minorVersion : Nat
  capabilities : List String
deriving DecidableEq, Repr

/-- `RemoteBootstrapSnapshot`, with the fields the backend looks at. -/
structure RemoteBootstrapSnapshot where
  protocolVersion : Nat
  hostProtocol : Option HostProtocolDescriptor
  hostId : Option String
  capturedAtUnixMs : Int
deriving DecidableEq, Repr

def bootstrapCapability : String := "host.bootstrap"

def outputCapability : String := "session.output.read"

def HostProtocolDescriptor.isCompatibleWith (protocol : HostProtocolDescriptor) (controllerMajor : Nat) : Bool :=
  protocol.majorVersion == controllerMajor

def HostProtocolDescriptor.supports (protocol : HostProtocolDescriptor) (capability : String) : Bool :=
  protocol.capabilities.any (· == capability)

def RemoteBootstrapSnapshot.supports (snapshot : RemoteBootstrapSnapshot) (capability : String) : Bool :=
  match snapshot.hostProtocol with
  | some protocol => protocol.supports capability
  | none => capability == bootstrapCapability || capability == outputCapability

/-- `OutputChunkWire`. For `data_base64`: what it decodes to, and whether encoding that gives it back. -/
structure OutputChunkWire where
  sessionId : String
  offset : Nat
  nextOffset : Nat
  data : Except String (List UInt8)
  canonical : Bool
  truncated : Bool
  capturedAtUnixMs : Int

/-- A body, by what it parses as; the text of an `error` is that of the parser. -/
structure ReplyBody where
  bootstrap : Except String RemoteBootstrapSnapshot
  output : Except String OutputChunkWire
  /-- `EffectReceiptWire`: the field `ok`. -/
  receipt : Except String Bool
  /-- `CreateSessionResponseWire`: the id of the Session. -/
  createdSession : Except String String
  /-- `UploadResponseWire`: the path. -/
  uploadedPath : Except String String
  /-- What `host_status` shows of it. -/
  message : Option String

structure HostReply where
  requestId : Nat
  generation : ConnectionGeneration
  status : Nat
  body : ReplyBody

/-! ## Calls -/

/-- What a call is for. -/
inductive Purpose
  | bootstrap
  | read
  | output
  /-- An effect, with the ticket of its turn. -/
  | effect (ticket : Nat) (capability : String)
deriving DecidableEq, Repr

def Purpose.semantics : Purpose → RequestSemantics
  | .effect _ _ => .effect
  | _ => .readOnly

structure PreparedHostCall where
  requestId : Nat
  requiredGeneration : Option ConnectionGeneration
  purpose : Purpose
deriving DecidableEq, Repr

/-- **What becomes of a request**: it is answered, it is lost after some of it was sent, it fails before, or the
    connection panics. -/
inductive TransportResult
  | answered (reply : HostReply)
  | lost (timedOut : Bool) (message : String)
  | notSent (error : { error : HostConnectionError // error.delivery ≠ some .outcomeUnknown })
  | panics

/-- What the caller sees of it; `none` is a panic. -/
def TransportResult.seen (call : PreparedHostCall) : TransportResult → Option (Except HostConnectionError HostReply)
  | .answered reply => some (.ok reply)
  | .lost true _ => some (.error (.timedOut call.requestId call.purpose.semantics .outcomeUnknown))
  | .lost false message =>
    some (.error (.disconnected call.requestId call.purpose.semantics .outcomeUnknown message))
  | .notSent error => some (.error error)
  | .panics => none

/-- Losing an effect invalidates its generation. -/
theorem HostConnectionError.invalidatesGeneration_of_unknown {error : HostConnectionError}
    (h : error.effectOutcomeIsUnknown = true) : error.invalidatesGeneration = true := by
  cases error with
  | disconnected _ _ _ _ | timedOut _ _ _ => rfl
  | _ => exact absurd h Bool.false_ne_true

end Supercli.Remote
