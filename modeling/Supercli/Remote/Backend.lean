import Supercli.Remote.Connection

/-!
# `Remote.Backend` — a Controller's backend for the Sessions of a remote Host

The state of a `RemoteSessionBackend`: the bootstrap it has accepted with the transport generation it came on, and for
every Session how far its output is committed and whether a page is being fetched or waits to be committed. Each function
of `BackendState` is what is done under the lock of the state in one go. With them, the checks of what the Host sends.
-/

namespace Supercli.Remote

/-! ## State -/

/-- `RemoteSessionBackendError`. -/
inductive BackendError
  | connection (error : HostConnectionError)
  | hostStatus (operation : String) (status : Nat) (message : Option String)
  | invalidResponse (operation message : String)
  | unsupportedMobileProtocol (advertised required : Nat)
  | incompatibleHostProtocol (advertisedMajor advertisedMinor requiredMajor : Nat)
  | missingCapability (capability : String)
  | hostIdentityChanged (expected : String) (received : Option String)
  | invalidSessionId
  | invalidOutputOptions (message : String)
  | invalidEffectInput (operation message : String)
  | outputPagePending (sessionId : String)
  | bootstrapChanged
  | staleOutputPage
deriving DecidableEq, Repr

inductive PendingOutput
  | fetching (pageId : Nat) (generation : ConnectionGeneration)
  | staged (pageId : Nat) (generation : ConnectionGeneration)
deriving DecidableEq, Repr

structure OutputCursor where
  committed : Option Nat
  version : Nat
  pending : Option PendingOutput
deriving DecidableEq, Repr

def OutputCursor.default : OutputCursor := ⟨none, 0, none⟩

/-- `OutputPollCursor`: go on from the committed page, or from there. -/
inductive OutputPollCursor
  | continued
  | fromOffset (requestedOffset : Option Nat)
deriving DecidableEq, Repr

/-- `OutputPageToken`. The backend's own id is the same in all of them. -/
structure OutputPageToken where
  sessionId : String
  pageId : Nat
  cursorVersion : Nat
  generation : ConnectionGeneration
  requestedOffset : Option Nat
  nextOffset : Nat
deriving DecidableEq, Repr

structure RemoteOutputPage where
  token : OutputPageToken
  offset : Nat
  nextOffset : Nat
  bytes : List UInt8
  resetBeforeFeed : Bool
  truncated : Bool
  capturedAtUnixMs : Int
deriving DecidableEq, Repr

structure AcceptedBootstrap where
  generation : ConnectionGeneration
  snapshot : RemoteBootstrapSnapshot
deriving DecidableEq, Repr

structure BackendState where
  lastBootstrap : Option RemoteBootstrapSnapshot
  acceptedGeneration : Option ConnectionGeneration
  pinnedHostId : Option String
  bootstrapRevision : Nat
  nextPageId : Nat
  cursors : String → Option OutputCursor

namespace BackendState

def new : BackendState := ⟨none, none, none, 0, 0, fun _ => none⟩

variable (state : BackendState)

/-- The cursor of a Session, or the one `or_default` makes. -/
def cursor (sessionId : String) : OutputCursor := (state.cursors sessionId).getD .default

def setCursor (sessionId : String) (cursor : OutputCursor) : BackendState :=
  { state with cursors := Function.update state.cursors sessionId (some cursor) }

def clearFetchingPages (generation : Option ConnectionGeneration) : BackendState :=
  { state with
    cursors := fun sessionId => (state.cursors sessionId).map fun cursor =>
      match cursor.pending with
      | some (.fetching _ pendingGeneration) =>
        if generation.all (· == pendingGeneration) then { cursor with pending := none } else cursor
      | _ => cursor }

def clearMatchingPage (token : OutputPageToken) : BackendState :=
  match state.cursors token.sessionId with
  | none => state
  | some cursor =>
    let matchingId := match cursor.pending with
      | some (.fetching pageId generation) | some (.staged pageId generation) =>
        pageId == token.pageId && generation == token.generation
      | none => false
    if cursor.version = token.cursorVersion ∧ matchingId = true then
      state.setCursor token.sessionId { cursor with pending := none }
    else state

def invalidateGeneration (generation : ConnectionGeneration) : BackendState :=
  if state.acceptedGeneration ≠ some generation then state
  else
    { state with
      acceptedGeneration := none
      bootstrapRevision := state.bootstrapRevision + 1 }.clearFetchingPages (some generation)

def invalidateAll : BackendState :=
  { state with
    acceptedGeneration := none
    bootstrapRevision := state.bootstrapRevision + 1 }.clearFetchingPages none

/-- The bootstrap that makes calls possible. -/
def accepted : Option AcceptedBootstrap :=
  match state.acceptedGeneration, state.lastBootstrap with
  | some generation, some snapshot => some ⟨generation, snapshot⟩
  | _, _ => none

/-- The refresh that others shared, at the start of `refresh_bootstrap_observed`. -/
def sharedBootstrap (observedRevision : Nat) : Option RemoteBootstrapSnapshot :=
  if state.bootstrapRevision ≠ observedRevision ∧ state.acceptedGeneration.isSome then state.lastBootstrap else none

/-- The end of `refresh_bootstrap_observed`. -/
def publish (dispatchRevision : Nat) (generation : ConnectionGeneration)
    (snapshot : RemoteBootstrapSnapshot) : Except BackendError Unit × BackendState :=
  if state.bootstrapRevision ≠ dispatchRevision then (.error .bootstrapChanged, state)
  else
    match state.pinnedHostId with
    | some expected =>
      if snapshot.hostId ≠ some expected then
        (.error (.hostIdentityChanged expected snapshot.hostId),
          { state with
            acceptedGeneration := none
            bootstrapRevision := state.bootstrapRevision + 1 }.clearFetchingPages none)
      else (.ok (), accept state)
    | none => (.ok (), accept { state with pinnedHostId := snapshot.hostId })
where
  accept (state : BackendState) : BackendState :=
    let state := if state.acceptedGeneration ≠ some generation then state.clearFetchingPages none else state
    { state with
      lastBootstrap := some snapshot
      acceptedGeneration := some generation
      bootstrapRevision := state.bootstrapRevision + 1 }

/-- A Session's output is continued elsewhere. -/
def reposition (sessionId : String) (offset : Option Nat) : BackendState :=
  state.setCursor sessionId ⟨offset, (state.cursor sessionId).version + 1, none⟩

/-- The cursor that a poll reserves its page on: the Session's, or one that begins elsewhere. -/
def reservedCursor (sessionId : String) : OutputPollCursor → OutputCursor
  | .fromOffset requestedOffset => ⟨requestedOffset, (state.cursor sessionId).version + 1, none⟩
  | .continued => state.cursor sessionId

/-- The reservation of `poll_output`. -/
def reserve (sessionId : String) (requestedCursor : OutputPollCursor)
    (generation : ConnectionGeneration) : Except BackendError OutputPageToken × BackendState :=
  if state.acceptedGeneration ≠ some generation then (.error .bootstrapChanged, state)
  else
    let pageId := state.nextPageId
    let cursor := state.reservedCursor sessionId requestedCursor
    let state := { state with nextPageId := pageId + 1 }.setCursor sessionId cursor
    if cursor.pending.isSome then (.error (.outputPagePending sessionId), state)
    else
      (.ok ⟨sessionId, pageId, cursor.version, generation, cursor.committed, 0⟩,
        state.setCursor sessionId { cursor with pending := some (.fetching pageId generation) })

/-- The staging of `poll_output`. -/
def stage (token : OutputPageToken) : Except BackendError Unit × BackendState :=
  if state.acceptedGeneration ≠ some token.generation then (.error .bootstrapChanged, state.clearMatchingPage token)
  else
    match state.cursors token.sessionId with
    | none => (.error .bootstrapChanged, state)
    | some cursor =>
      if cursor.version ≠ token.cursorVersion ∨ cursor.committed ≠ token.requestedOffset ∨
          cursor.pending ≠ some (.fetching token.pageId token.generation) then (.error .bootstrapChanged, state)
      else
        (.ok (), state.setCursor token.sessionId { cursor with pending := some (.staged token.pageId token.generation) })

def commitPage (token : OutputPageToken) : Except BackendError Unit × BackendState :=
  match state.cursors token.sessionId with
  | none => (.error .staleOutputPage, state)
  | some cursor =>
    if cursor.version ≠ token.cursorVersion ∨ cursor.committed ≠ token.requestedOffset ∨
        cursor.pending ≠ some (.staged token.pageId token.generation) then (.error .staleOutputPage, state)
    else
      (.ok (), state.setCursor token.sessionId { cursor with committed := some token.nextOffset, pending := none })

end BackendState

/-! ## Checks -/

def maxSessionIdBytes : Nat := 128

def maxHostIdBytes : Nat := 256

def mobileProtocolVersion : Nat := 1

def hostProtocolMajor : Nat := 1

def remoteOutputMaxLimit : Nat := 200 * 1024

/-- `REMOTE_OUTPUT_MAX_WAIT`. -/
def remoteOutputMaxWaitMs : Nat := 25000

def initialTailAlignmentAllowance : Nat := 16 * 1024

/-- `str::contains` for a text of two characters. -/
def containsPair (a b : Char) : List Char → Bool
  | x :: y :: rest => (x == a && y == b) || containsPair a b (y :: rest)
  | _ => false

def validateSessionId (sessionId : String) : Bool :=
  !(sessionId.toList.isEmpty || decide (sessionId.utf8ByteSize > maxSessionIdBytes) || sessionId.toList.contains '/' ||
    sessionId.toList.contains '\\' || containsPair '.' '.' sessionId.toList || sessionId.toList.contains '\x00')

structure RemoteOutputPollOptions where
  limit : Nat
  waitMs : Nat
deriving DecidableEq, Repr

/-- `validate_output_options`; the texts are for the numbers of this file. -/
def validateOutputOptions (options : RemoteOutputPollOptions) : Option BackendError :=
  if options.limit = 0 ∨ options.limit > remoteOutputMaxLimit then
    some (.invalidOutputOptions "limit must be between 1 and 204800")
  else if options.waitMs > remoteOutputMaxWaitMs then some (.invalidOutputOptions "wait must not exceed 25000ms")
  else none

/-- The control characters of Unicode. -/
def isControl (c : Char) : Bool := c.val < 0x20 || (0x7f ≤ c.val && c.val < 0xa0)

def validateBootstrap (snapshot : RemoteBootstrapSnapshot) : Option BackendError :=
  if snapshot.protocolVersion ≠ mobileProtocolVersion then
    some (.unsupportedMobileProtocol snapshot.protocolVersion mobileProtocolVersion)
  else if snapshot.capturedAtUnixMs < 0 then
    some (.invalidResponse "bootstrap" "capturedAtUnixMs must not be negative")
  else if snapshot.hostId.any fun hostId =>
      hostId.toList.isEmpty || decide (hostId.utf8ByteSize > maxHostIdBytes) || hostId.toList.any isControl then
    some (.invalidResponse "bootstrap" "macID is invalid")
  else
    match snapshot.hostProtocol with
    | none => none
    | some protocol =>
      if !protocol.isCompatibleWith hostProtocolMajor then
        some (.incompatibleHostProtocol protocol.majorVersion protocol.minorVersion hostProtocolMajor)
      else if !protocol.supports bootstrapCapability then some (.missingCapability bootstrapCapability)
      else none

def invalidOutput (message : String) : BackendError := .invalidResponse "output" message

def decodeOutputChunk (body : ReplyBody) (sessionId : String) (requestedOffset : Option Nat) (requestedLimit : Nat) :
    Except BackendError (OutputChunkWire × List UInt8) :=
  match body.output with
  | .error message => .error (invalidOutput message)
  | .ok wire =>
    if wire.sessionId ≠ sessionId then .error (invalidOutput "response Session id does not match request")
    else if wire.capturedAtUnixMs < 0 then .error (invalidOutput "capturedAtUnixMs must not be negative")
    else
      match wire.data with
      | .error message => .error (invalidOutput s!"invalid base64: {message}")
      | .ok bytes =>
        if !wire.canonical then .error (invalidOutput "base64 is not canonical padded standard form")
        else
          let rebased := requestedOffset.any (fun requested => requested != wire.offset) || wire.truncated
          let allowedBytes :=
            if requestedOffset.isNone || rebased then requestedLimit + initialTailAlignmentAllowance else requestedLimit
          if bytes.length > allowedBytes then .error (invalidOutput "response exceeds requested byte limit")
          else if wire.nextOffset ≠ wire.offset + bytes.length then
            .error (invalidOutput "nextOffset does not equal offset plus decoded bytes")
          else .ok (wire, bytes)

/-! ## Effects -/

inductive EffectFailureKind
  | notApplied
  | outcomeUnknown
deriving DecidableEq, Repr

structure EffectFailure where
  operation : String
  kind : EffectFailureKind
  error : BackendError
deriving DecidableEq, Repr

def correlatedEffectFailureKind (status : Nat) : EffectFailureKind :=
  if 400 ≤ status ∧ status ≤ 499 ∨ status = 503 then .notApplied else .outcomeUnknown

/-- How the body of a success is read. -/
inductive ReceiptKind
  /-- `perform_effect`. -/
  | acknowledged
  /-- `create_session`. -/
  | createdSession
  /-- `upload_attachment`. -/
  | uploadedPath
  /-- Handed on as it is. -/
  | forwarded
deriving DecidableEq, Repr

/-- Whether the body of a success can be trusted. -/
def ReceiptKind.check (kind : ReceiptKind) (body : ReplyBody) : Except String Unit :=
  match kind with
  | .acknowledged =>
    match body.receipt with
    | .error message => .error message
    | .ok true => .ok ()
    | .ok false => .error "success receipt did not contain ok=true"
  | .createdSession =>
    match body.createdSession with
    | .error message => .error message
    | .ok sessionId => if validateSessionId sessionId then .ok () else .error "created Session id is invalid"
  | .uploadedPath =>
    match body.uploadedPath with
    | .error message => .error message
    | .ok path =>
      if path.toList.head? = some '/' then .ok () else .error "upload receipt did not name an absolute Host path"
  | .forwarded => .ok ()

/-- One effect: what its method does before and after the exchange. -/
structure EffectCall where
  operation : String
  capability : String
  /-- What `effect_preflight` and `encode_effect_body` find wrong with it. -/
  preflight : Option BackendError
  receipt : ReceiptKind
deriving DecidableEq, Repr

end Supercli.Remote
