import Supercli.Lib.Fleet
import Supercli.Remote.Backend

/-!
# `Remote.Calls` — the methods of the backend, on any number of threads

`RemoteSessionBackend` as its threads run it. What is done under the lock of the state is one operation (`Op`); a
bootstrap refresh and an effect hold the bootstrap gate across their request, and effects take turns by ticket.
Everything else of a thread may come in between: the programs of this file are the methods of the source, and the machine
(`threads`) runs any number of them in any order, with whatever the connection answers.

A thread whose next operation is a lock or a turn that is taken waits (`ready`).
-/

namespace Supercli.Remote

/-! ## Operations -/

/-- What a thread does to what it shares with the others, at one go. -/
inductive Op
  /-- `bootstrap_revision`. -/
  | revision
  | lockGate
  | unlockGate
  | sharedBootstrap (observedRevision : Nat)
  | accepted
  | publish (dispatchRevision : Nat) (generation : ConnectionGeneration) (snapshot : RemoteBootstrapSnapshot)
  | invalidateGeneration (generation : ConnectionGeneration)
  | invalidateAll
  /-- `prepare` and `prepare_in_generation`. -/
  | prepare (generation : Option ConnectionGeneration)
  | request (call : PreparedHostCall)
  | reserve (sessionId : String) (requestedCursor : OutputPollCursor) (generation : ConnectionGeneration)
  | clearReservation (token : OutputPageToken)
  | stage (token : OutputPageToken)
  /-- The caller gives a page away. -/
  | takePage (page : RemoteOutputPage)
  | commitPage (page : RemoteOutputPage)
  | discardPage (page : RemoteOutputPage)
  | resetOutputCursor (sessionId : String)
  /-- The first part of `EffectSequence::enter`. -/
  | takeTicket
  /-- The rest of it. -/
  | awaitTurn (ticket : Nat)
  /-- The `Drop` of an `EffectTurn`. -/
  | finishTurn (ticket : Nat)

def Op.Ans : Op → Type
  | .revision => Nat
  | .sharedBootstrap _ => Option RemoteBootstrapSnapshot
  | .accepted => Option AcceptedBootstrap
  | .publish _ _ _ => Except BackendError Unit
  | .prepare _ => Except HostConnectionError Nat
  | .request _ => Option (Except HostConnectionError HostReply)
  | .reserve _ _ _ => Except BackendError OutputPageToken
  | .stage _ => Except BackendError Unit
  | .takePage _ => Bool
  | .commitPage _ => Except BackendError Unit
  | .takeTicket => Nat
  | _ => Unit

def Ops : Sig := ⟨Op, Op.Ans⟩

abbrev Thread (α : Type) := Prog Ops α

/-- Ask for an operation. -/
def op (o : Op) : Thread o.Ans := Prog.perform (S := Ops) o

/-! ## Programs

`none` in an answer or a result is a panic; the guards of the locks and of the turn are dropped on its way. -/

/-- The scope of `lock_bootstrap_gate`. -/
def withGate {α : Type} (body : Thread α) : Thread α := do
  op .lockGate
  let result ← body
  op .unlockGate
  pure result

/-- The answer to a bootstrap. -/
def acceptReply (dispatchRevision : Nat) (reply : HostReply) : Thread (Except BackendError RemoteBootstrapSnapshot) :=
  if reply.status ≠ 200 then do
    op .invalidateAll
    pure (.error (.hostStatus "bootstrap" reply.status reply.body.message))
  else
    match reply.body.bootstrap with
    | .error message => do
      op .invalidateAll
      pure (.error (.invalidResponse "bootstrap" message))
    | .ok snapshot =>
      match validateBootstrap snapshot with
      | some error => do
        op .invalidateAll
        pure (.error error)
      | none => do
        let published ← op (.publish dispatchRevision reply.generation snapshot)
        pure (published.map fun _ => snapshot)

/-- A bootstrap that fails before it is answered. -/
def bootstrapFails (error : HostConnectionError) : Thread (Except BackendError RemoteBootstrapSnapshot) := do
  if error.invalidatesGeneration then op .invalidateAll
  pure (.error (.connection error))

/-- `refresh_bootstrap_observed`, behind the gate. -/
def refreshBehindGate (observedRevision : Nat) : Thread (Option (Except BackendError RemoteBootstrapSnapshot)) := do
  match ← op (.sharedBootstrap observedRevision) with
  | some snapshot => pure (some (.ok snapshot))
  | none =>
    let dispatchRevision ← op .revision
    match ← op (.prepare none) with
    | .error error => some <$> bootstrapFails error
    | .ok requestId =>
      match ← op (.request ⟨requestId, none, .bootstrap⟩) with
      | none => pure none
      | some (.error error) => some <$> bootstrapFails error
      | some (.ok reply) => some <$> acceptReply dispatchRevision reply

def refreshBootstrap : Thread (Option (Except BackendError RemoteBootstrapSnapshot)) := do
  let observedRevision ← op .revision
  withGate (refreshBehindGate observedRevision)

def ensureBootstrap : Thread (Option (Except BackendError AcceptedBootstrap)) := do
  match ← op .accepted with
  | some accepted => pure (some (.ok accepted))
  | none =>
    match ← refreshBootstrap with
    | none => pure none
    | some (.error error) => pure (some (.error error))
    | some (.ok _) =>
      match ← op .accepted with
      | some accepted => pure (some (.ok accepted))
      | none => pure (some (.error .bootstrapChanged))

/-- A poll that fails with its reservation. -/
def pollFails (token : OutputPageToken) (error : HostConnectionError) : Thread (Except BackendError RemoteOutputPage) := do
  op (.clearReservation token)
  if error.invalidatesGeneration then op (.invalidateGeneration token.generation)
  pure (.error (.connection error))

/-- The page that is returned. -/
def outputPage (token : OutputPageToken) (wire : OutputChunkWire) (bytes : List UInt8) : RemoteOutputPage :=
  { token := token
    offset := wire.offset
    nextOffset := wire.nextOffset
    bytes := bytes
    resetBeforeFeed := (token.requestedOffset.map fun offset => offset != wire.offset).getD true || wire.truncated
    truncated := wire.truncated
    capturedAtUnixMs := wire.capturedAtUnixMs }

section

variable (sessionId : String) (options : RemoteOutputPollOptions)

/-- The answer to a poll. -/
def stageReply (token : OutputPageToken) (reply : HostReply) : Thread (Except BackendError RemoteOutputPage) :=
  if reply.generation ≠ token.generation then do
    op (.clearReservation token)
    op (.invalidateGeneration token.generation)
    pure (.error .bootstrapChanged)
  else if reply.status ≠ 200 then do
    op (.clearReservation token)
    pure (.error (.hostStatus "output" reply.status reply.body.message))
  else
    match decodeOutputChunk reply.body sessionId token.requestedOffset options.limit with
    | .error error => do
      op (.clearReservation token)
      pure (.error error)
    | .ok (wire, bytes) => do
      let token := { token with nextOffset := wire.nextOffset }
      match ← op (.stage token) with
      | .error error => pure (.error error)
      | .ok () => pure (.ok (outputPage token wire bytes))

/-- `poll_output` and `poll_output_from`. The connection does not panic here. -/
def pollOutput (requestedCursor : OutputPollCursor) : Thread (Option (Except BackendError RemoteOutputPage)) :=
  if !validateSessionId sessionId then pure (some (.error .invalidSessionId))
  else
    match validateOutputOptions options with
    | some error => pure (some (.error error))
    | none => do
      match ← ensureBootstrap with
      | none => pure none
      | some (.error error) => pure (some (.error error))
      | some (.ok accepted) =>
        if !accepted.snapshot.supports outputCapability then
          pure (some (.error (.missingCapability outputCapability)))
        else
          match ← op (.reserve sessionId requestedCursor accepted.generation) with
          | .error error => pure (some (.error error))
          | .ok token =>
            match ← op (.prepare (some accepted.generation)) with
            | .error error => some <$> pollFails token error
            | .ok requestId =>
              match ← op (.request ⟨requestId, some accepted.generation, .output⟩) with
              | none => pure none
              | some (.error error) => some <$> pollFails token error
              | some (.ok reply) => some <$> stageReply sessionId options token reply

end

def performRead (operation capability : String) : Thread (Option (Except BackendError ReplyBody)) := do
  match ← ensureBootstrap with
  | none => pure none
  | some (.error error) => pure (some (.error error))
  | some (.ok accepted) =>
    if !accepted.snapshot.supports capability then pure (some (.error (.missingCapability capability)))
    else
      match ← op (.prepare (some accepted.generation)) with
      | .error error => do
        if error.invalidatesGeneration then op (.invalidateGeneration accepted.generation)
        pure (some (.error (.connection error)))
      | .ok requestId =>
        match ← op (.request ⟨requestId, some accepted.generation, .read⟩) with
        | none => pure none
        | some (.error error) => do
          if error.invalidatesGeneration then op (.invalidateGeneration accepted.generation)
          pure (some (.error (.connection error)))
        | some (.ok reply) =>
          if reply.generation ≠ accepted.generation then do
            op (.invalidateGeneration accepted.generation)
            pure (some (.error .bootstrapChanged))
          else if reply.status ≠ 200 then
            pure (some (.error (.hostStatus operation reply.status reply.body.message)))
          else pure (some (.ok reply.body))

/-- A correlated, generation-matched success whose body has not been read: `EffectExchange`. -/
structure EffectExchange where
  requestId : Nat
  generation : ConnectionGeneration
  body : ReplyBody

/-- What is made of the answer to an effect. -/
def effectReply (operation : String) (call : PreparedHostCall) (generation : ConnectionGeneration) (reply : HostReply) :
    Thread (Except EffectFailure EffectExchange) :=
  if reply.requestId ≠ call.requestId then do
    op (.invalidateGeneration generation)
    pure (.error ⟨operation, .outcomeUnknown, .invalidResponse operation
      s!"reply request id {reply.requestId} did not match {call.requestId}"⟩)
  else if reply.generation ≠ generation then do
    op (.invalidateGeneration generation)
    pure (.error ⟨operation, .outcomeUnknown, .bootstrapChanged⟩)
  else if reply.status ≠ 200 then do
    let kind := correlatedEffectFailureKind reply.status
    if kind = .outcomeUnknown then op (.invalidateGeneration generation)
    pure (.error ⟨operation, kind, .hostStatus operation reply.status reply.body.message⟩)
  else pure (.ok ⟨call.requestId, generation, reply.body⟩)

section

variable (ticket : Nat) (effect : EffectCall)

/-- `perform_effect_exchange`, behind the gate. -/
def exchangeBehindGate (generation : ConnectionGeneration) :
    Thread (Option (Except EffectFailure EffectExchange)) := do
  match ← op .accepted with
  | none => pure (some (.error ⟨effect.operation, .notApplied, .bootstrapChanged⟩))
  | some latest =>
    if latest.generation ≠ generation then pure (some (.error ⟨effect.operation, .notApplied, .bootstrapChanged⟩))
    else if !latest.snapshot.supports effect.capability then
      pure (some (.error ⟨effect.operation, .notApplied, .missingCapability effect.capability⟩))
    else
      match ← op (.prepare (some generation)) with
      | .error error => do
        if error.invalidatesGeneration then op (.invalidateGeneration generation)
        pure (some (.error ⟨effect.operation, .notApplied, .connection error⟩))
      | .ok requestId =>
        let call : PreparedHostCall := ⟨requestId, some generation, .effect ticket effect.capability⟩
        match ← op (.request call) with
        | none => pure none
        | some (.error error) => do
          if error.invalidatesGeneration then op (.invalidateGeneration generation)
          let kind : EffectFailureKind := if error.effectOutcomeIsUnknown then .outcomeUnknown else .notApplied
          pure (some (.error ⟨effect.operation, kind, .connection error⟩))
        | some (.ok reply) => some <$> effectReply effect.operation call generation reply

def performEffectExchange : Thread (Option (Except EffectFailure EffectExchange)) := do
  match ← ensureBootstrap with
  | none => pure none
  | some (.error error) => pure (some (.error ⟨effect.operation, .notApplied, error⟩))
  | some (.ok accepted) => withGate (exchangeBehindGate ticket effect accepted.generation)

/-- The exchange and its receipt; `effect_receipt_unknown`. -/
def performEffect : Thread (Option (Except EffectFailure Nat)) := do
  match effect.preflight with
  | some error => pure (some (.error ⟨effect.operation, .notApplied, error⟩))
  | none =>
    match ← performEffectExchange ticket effect with
    | none => pure none
    | some (.error failure) => pure (some (.error failure))
    | some (.ok exchange) =>
      match effect.receipt.check exchange.body with
      | .ok () => pure (some (.ok exchange.requestId))
      | .error message => do
        op (.invalidateGeneration exchange.generation)
        pure (some (.error ⟨effect.operation, .outcomeUnknown, .invalidResponse effect.operation message⟩))

end

/-- How an effect ends: with the id of its request, a failure, or a panic. -/
abbrev EffectResult := Option (Except EffectFailure Nat)

/-- A method that performs an effect, in its turn. -/
def effectMethod (effect : EffectCall) : Thread (Nat × EffectResult) := do
  let ticket ← op .takeTicket
  op (.awaitTurn ticket)
  let result ← performEffect ticket effect
  op (.finishTurn ticket)
  pure (ticket, result)

/-! ## Threads -/

/-- What a thread may call. -/
inductive Call
  | bootstrap
  | poll (sessionId : String) (options : RemoteOutputPollOptions) (requestedCursor : OutputPollCursor)
  | commit (page : RemoteOutputPage)
  /-- `discard`, or the page is dropped. -/
  | discard (page : RemoteOutputPage)
  | resetOutputCursor (sessionId : String)
  | read (operation capability : String)
  | effect (call : EffectCall)
  | disconnect
deriving DecidableEq, Repr

/-- What a call returns, as far as anything depends on it. -/
inductive Result
  | done
  | page (page : RemoteOutputPage)
  | committed (result : Except BackendError Unit)
  | effect (ticket : Nat) (result : EffectResult)

/-- A method, on its own thread. -/
def Call.run : Call → Thread Result
  | .bootstrap => do
    let _ ← refreshBootstrap
    pure .done
  | .poll sessionId options start => do
    match ← pollOutput sessionId options start with
    | some (.ok page) => pure (.page page)
    | _ => pure .done
  | .commit page => do
    let taken : Bool ← op (.takePage page)
    if taken then
      let result ← op (.commitPage page)
      pure (.committed result)
    else pure .done
  | .discard page => do
    let taken : Bool ← op (.takePage page)
    if taken then op (.discardPage page)
    pure .done
  | .resetOutputCursor sessionId =>
    if !validateSessionId sessionId then pure .done
    else do
      op (.resetOutputCursor sessionId)
      pure .done
  | .read operation capability => do
    let _ ← performRead operation capability
    pure .done
  | .effect call => do
    let (ticket, result) ← effectMethod call
    pure (.effect ticket result)
  | .disconnect => do
    op .invalidateAll
    pure .done

/-- What has happened, in order. -/
inductive Event
  | accepted (generation : ConnectionGeneration) (snapshot : RemoteBootstrapSnapshot)
  | invalidated (generation : ConnectionGeneration)
  | dispatched (call : PreparedHostCall) (result : TransportResult)
  | returned (ticket : Nat) (result : EffectResult)
  | repositioned (sessionId : String)
  | reserved (sessionId : String) (pageId : Nat)
  | committed (page : RemoteOutputPage)

/-- What the threads share. `pages`, `calls` and `trace` are not in the code: the pages that callers have, what every
    thread was called for, and what has happened. -/
structure Shared where
  backend : BackendState
  gate : Option Nat
  nextTicket : Nat
  serving : Nat
  pages : List RemoteOutputPage
  calls : Nat → Option Call
  trace : List Event

def Shared.new : Shared := ⟨.new, none, 0, 0, [], fun _ => none, []⟩

/-- What the connection does. -/
structure Env where
  prepared : Except HostConnectionError Nat
  transport : TransportResult

/-- What becomes of a request; a poll that panics would keep its reservation, and is left out. -/
def Env.outcome (env : Env) (call : PreparedHostCall) : TransportResult :=
  match call.purpose, env.transport with
  | .output, .panics => .notSent ⟨.closed, by decide⟩
  | _, transport => transport

def Shared.record (s : Shared) (events : List Event) : Shared := { s with trace := s.trace ++ events }

/-- **What an operation does.** -/
def answer (w : Nat) (s : Shared) (env : Env) : (o : Op) → o.Ans × Shared
  | .revision => (s.backend.bootstrapRevision, s)
  | .lockGate => ((), { s with gate := some w })
  | .unlockGate => ((), { s with gate := none })
  | .sharedBootstrap observed => (s.backend.sharedBootstrap observed, s)
  | .accepted => (s.backend.accepted, s)
  | .publish revision generation snapshot =>
    let (result, backend) := s.backend.publish revision generation snapshot
    match result with
    | .ok () => (.ok (), { s with backend := backend }.record [.accepted generation snapshot])
    | .error error => (.error error, { s with backend := backend })
  | .invalidateGeneration generation =>
    ((), { s with backend := s.backend.invalidateGeneration generation }.record [.invalidated generation])
  | .invalidateAll => ((), { s with backend := s.backend.invalidateAll })
  | .prepare _ => (env.prepared, s)
  | .request call =>
    ((env.outcome call).seen call, s.record [.dispatched call (env.outcome call)])
  | .reserve sessionId start generation =>
    let (result, backend) := s.backend.reserve sessionId start generation
    let moved := match start with
      | .fromOffset _ => if s.backend.acceptedGeneration = some generation then [Event.repositioned sessionId] else []
      | .continued => []
    match result with
    | .ok token => (.ok token, { s with backend := backend }.record (moved ++ [Event.reserved sessionId token.pageId]))
    | .error error => (.error error, { s with backend := backend }.record moved)
  | .clearReservation token => ((), { s with backend := s.backend.clearMatchingPage token })
  | .stage token =>
    let (result, backend) := s.backend.stage token
    (result, { s with backend := backend })
  | .takePage page =>
    if page ∈ s.pages then (true, { s with pages := s.pages.erase page }) else (false, s)
  | .commitPage page =>
    let (result, backend) := s.backend.commitPage page.token
    match result with
    | .ok () => (.ok (), { s with backend := backend }.record [.committed page])
    | .error error => (.error error, { s with backend := backend })
  | .discardPage page => ((), { s with backend := s.backend.clearMatchingPage page.token })
  | .resetOutputCursor sessionId =>
    ((), { s with backend := s.backend.reposition sessionId none }.record [.repositioned sessionId])
  | .takeTicket => (s.nextTicket, { s with nextTicket := s.nextTicket + 1 })
  | .awaitTurn _ => ((), s)
  | .finishTurn _ => ((), { s with serving := s.serving + 1 })

/-- A thread can go on: what it wants to lock is free, it is its turn. -/
def ready (s : Shared) : Op → Bool
  | .lockGate => s.gate.isNone
  | .awaitTurn ticket => s.serving == ticket
  | _ => true

/-- The threads of a Controller. -/
def threads : Fleet Ops Nat Call Shared Env Result where
  world w := ⟨fun o s env => answer w s env o⟩
  launch _ call := call.run
  onStart w call s := { s with calls := Function.update s.calls w (some call) }
  onReturn w result s :=
    let s := { s with calls := Function.update s.calls w none }
    match result with
    | .page page => { s with pages := s.pages ++ [page] }
    | .effect ticket result => s.record [.returned ticket result]
    | _ => s
  onCrash _ s := s

abbrev State := Fleet.State Ops Nat Shared Result

/-- An event of a trace with one more is that one, or it was there. -/
theorem split_concat (h : trace ++ [e] = pre ++ x :: post) :
    pre = trace ∧ x = e ∨ ∃ post', post = post' ++ [e] ∧ trace = pre ++ x :: post' := by
  rcases List.eq_nil_or_concat post with rfl | ⟨post', last, rfl⟩
  · obtain ⟨hpre, hx⟩ := List.append_inj' h rfl
    exact .inl ⟨hpre.symm, (List.cons.inj hx).1.symm⟩
  · right
    rw [List.concat_eq_append, ← List.cons_append, ← List.append_assoc] at h
    obtain ⟨hpre, hlast⟩ := List.append_inj' h rfl
    exact ⟨post', by rw [List.concat_eq_append, (List.cons.inj hlast).1], hpre⟩

end Supercli.Remote
