import Mathlib

/-!
# `Reactor.SessionIo` — the I/O of one hosted Session

All Sessions of the PTY core share a registry of tokens, one read buffer, and two channels. This module has
the state they share and what the callbacks of a single Session do to it: reading its PTY
(`pty_readable`, `drain_after_stop`), publishing output to its journal, registering and finishing.

Of a buffer only its length matters, of a chunk only its size. Sessions are told apart by the id of their
journal, which is drawn from one counter; the session id string is not unique in time. The flags a Session
shares with other threads (`Arc`s in the source) are kept by that id, so they outlive its slot. What a
system call answers, and where a callback panics, comes from the environment. The trace, newest first, is
read only by statements.
-/

namespace Supercli.Reactor

open Function

/-- `SESSION_OUTPUT_READ_BUFFER_BYTES`. -/
def readBufferBytes : Nat := 64 * 1024

def journalBacklogHighBytes : Nat := 4 * 1024 * 1024

/-- `usize::MAX`. -/
def usizeMax : Nat := 2 ^ 64 - 1

/-! ## Shared state -/

/-- What a registered fd is. -/
inductive TokenKind
  | pty
  | listener
  | client
  | process
deriving DecidableEq, Repr

/-- One hosted Session, as the reactor holds it. -/
structure SessionIo where
  id : Nat
  ended : Bool
  hasListener : Bool
  ptyToken : Nat
  listenerToken : Nat
  clients : List Nat
  ptyReadInterest : Bool
  handingOff : Bool
deriving DecidableEq, Repr

def SessionIo.new (id : Nat) (hasListener : Bool) : SessionIo := ⟨id, false, hasListener, 0, 0, [], false, false⟩

/-- What a Session shares with other threads: `SessionShared`, the `failed` flag of its journal handle and
    its `JournalBackpressure`, which has a slot of its own. -/
structure SessionShared where
  running : Bool
  slot : Nat
  journalFailed : Bool
  backlog : Nat
  paused : Bool
  journalSlot : Nat
deriving DecidableEq, Repr

/-- Before registration. -/
def SessionShared.new : SessionShared := ⟨true, usizeMax, false, 0, false, 0⟩

/-- A message to the reactor. `journalFailed` names a slot; the stream it speaks for is for statements. -/
inductive Control
  | register (session : SessionIo)
  | wake (slot : Nat)
  | journalDrained (slot : Nat)
  | journalFailed (slot : Nat) (stream : Nat)
  | sessionEnded
  | handoff
  | adopt (session : SessionIo) (childPid : Option Nat)
deriving DecidableEq, Repr

/-- A message to the journal writer. -/
inductive JournalMsg
  | opened (id : Nat)
  | chunk (id : Nat) (len : Nat)
  | close (id : Nat)
  | flush (id : Nat)
deriving DecidableEq, Repr

/-- A message to the timer thread. -/
inductive TimerMsg
  | add (slot : Nat)
  | remove (slot : Nat)
deriving DecidableEq, Repr

/-- The writer's side of a journal. -/
structure JournalSession where
  pending : Nat
  firstPendingAt : Option Nat
  error : Option String
deriving DecidableEq, Repr

/-- What a finished Session leaves to its teardown thread. -/
structure SessionTeardown where
  slot : Nat
  journalId : Nat
  outcome : Except String Unit

/-- A readiness event. -/
structure PollEvent where
  token : Nat
  readable : Bool
  writable : Bool
  hup : Bool
deriving DecidableEq, Repr

/-- The result of a `read`. -/
inductive ReadResult
  | ok (n : Nat)
  | wouldBlock
  | interrupted
  | error (message : String)
deriving DecidableEq, Repr

/-- What happens to Sessions, for statements. -/
inductive Event
  | read (id len : Nat) (result : ReadResult)
  | stopped (id : Nat)
  | journalFailed (id : Nat)
  | panicked (id : Nat)
  | ended (id : Nat)
deriving DecidableEq, Repr

/-- Where the reactor thread is in its loop. -/
inductive Phase
  | control
  | events (pending : List PollEvent) (touched : List Nat)
  | flushing (slots : List Nat)
  | ticking (slots : List Nat)
deriving DecidableEq, Repr

/-- The core: the reactor thread with its registry, the journal writer, and what is on its way between the
    threads. -/
structure State where
  phase : Phase
  sessions : List (Option SessionIo)
  freeSlots : List Nat
  releasePending : Bool
  processWatches : List Nat
  nextToken : Nat
  owners : Nat → Option (Nat × TokenKind)
  scratch : Nat
  shared : Nat → SessionShared
  control : List Control
  timer : List TimerMsg
  exiting : List SessionTeardown
  journal : List JournalMsg
  streams : List (Nat × JournalSession)
  nextJournalId : Nat
  trace : List Event

/-- A core that has just started. -/
def State.boot : State where
  phase := .control
  sessions := []
  freeSlots := []
  releasePending := false
  processWatches := []
  nextToken := 1
  owners := fun _ => none
  scratch := readBufferBytes
  shared := fun _ => .new
  control := []
  timer := []
  exiting := []
  journal := []
  streams := []
  nextJournalId := 1
  trace := []

namespace State

section

variable (s : State)

/-- Note an event. -/
def log (ev : Event) : State := { s with trace := ev :: s.trace }

/-- Change the flags of a Session. -/
def setShared (id : Nat) (f : SessionShared → SessionShared) : State :=
  { s with shared := update s.shared id (f (s.shared id)) }

/-- The Session in a slot. -/
def sessionAt (slot : Nat) : Option SessionIo := (s.sessions[slot]?).join

/-- `Registry::add`; the token is spent even if the poller refuses the fd. -/
def add (accepted : Bool) (slot : Nat) (kind : TokenKind) : Option Nat × State :=
  let token := s.nextToken
  let s := { s with nextToken := max ((token + 1) % 2 ^ 64) 1 }
  if accepted then (some token, { s with owners := update s.owners token (some (slot, kind)) })
  else (none, s)

/-- `Registry::remove`. -/
def remove (token : Nat) : State := { s with owners := update s.owners token none }

end

end State

/-! ## Callbacks of one Session -/

/-- How a callback ends: it returns, asks for the Session to be ended, or panics. -/
inductive Callback
  | done
  | ends
  | panicked (message : String)
deriving DecidableEq, Repr

/-- One attempt to read the PTY: what `read` says, the size of the chunk left of it after the query scanner,
    whether the journal's channel is closed, and a panic before the read buffer is put back. -/
structure PtyRead where
  result : ReadResult
  chunk : Nat
  journalGone : Bool
  panics : Option String
deriving DecidableEq, Repr

/-- What a callback does to the clients: accepted fds (and whether the poller takes them), closed ones, and
    a panic. -/
structure ClientWork where
  accepted : List Bool
  closed : List Nat
  panics : Option String
deriving DecidableEq, Repr

/-- What `read` says of a buffer of that size: it fills no more than there is, and a buffer without room
    reads nothing. -/
def ReadResult.into (len : Nat) : ReadResult → ReadResult
  | .ok n => .ok (min n len)
  | .wouldBlock => if len = 0 then .ok 0 else .wouldBlock
  | result => result

/-- `publish_chunk`: the backlog grows before the chunk is sent; a closed channel marks the journal failed. -/
def publishChunk (id len : Nat) (journalGone : Bool) (s : State) : State :=
  if len = 0 then s
  else
    let s := s.setShared id fun f => { f with backlog := (f.backlog + len) % 2 ^ 64 }
    if journalGone then (s.setShared id fun f => { f with journalFailed := true }).log (.journalFailed id)
    else { s with journal := s.journal ++ [.chunk id len] }

def applyJournalBackpressure (session : SessionIo) (s : State) : SessionIo × State :=
  if journalBacklogHighBytes < (s.shared session.id).backlog ∧ session.ptyReadInterest then
    ({ session with ptyReadInterest := false }, s.setShared session.id fun f => { f with paused := true })
  else (session, s)

def journalDrained (session : SessionIo) : SessionIo :=
  if !session.ptyReadInterest && !session.ended then { session with ptyReadInterest := true } else session

/-- What `pty_readable` does with the result of its read. The buffer is out of the registry here; it is put
    back on every path but one, the early return for a stopped Session. -/
def afterRead (r : PtyRead) (len : Nat) (session : SessionIo) (s : State) : Callback × SessionIo × State :=
  let putBack := fun (s : State) => { s with scratch := len }
  match r.result.into len with
  | .ok 0 => (.ends, session, putBack s)
  | .ok (_ + 1) =>
    let pressed := applyJournalBackpressure session (publishChunk session.id r.chunk r.journalGone s)
    (.done, pressed.1, putBack pressed.2)
  | .wouldBlock =>
    if !(s.shared session.id).running then (.ends, session, s)
    else (.done, session, putBack s)
  | .interrupted => (.done, session, putBack s)
  | .error _ => (.ends, session, putBack s)

/-- `SessionIo::pty_readable`. -/
def ptyReadable (r : PtyRead) (session : SessionIo) (s : State) : Callback × SessionIo × State :=
  if session.ended then (.ends, session, s)
  else if (s.shared session.id).journalFailed then (.ends, session, s)
  else
    let len := s.scratch
    let s := { s with scratch := 0 }
    match r.panics with
    | some message => (.panicked message, session, publishChunk session.id r.chunk r.journalGone s)
    | none => afterRead r len session (s.log (.read session.id len (r.result.into len)))

/-- A read that is interrupted. -/
def PtyRead.interrupted : PtyRead := ⟨.interrupted, 0, false, none⟩

/-- The loop of `drain_after_stop`, with the reads it will see; past the list, reads are interrupted. -/
def drainLoop : Nat → List PtyRead → SessionIo → State → Callback × SessionIo × State
  | 0, _, session, s => (.done, session, s)
  | left + 1, reads, session, s =>
    match ptyReadable (reads.headD .interrupted) session s with
    | (.done, session, s) =>
      if !(s.shared session.id).running then drainLoop left reads.tail session s else (.done, session, s)
    | ended => ended

/-- `SessionIo::drain_after_stop`. -/
def drainAfterStop (reads : List PtyRead) (session : SessionIo) (s : State) : Callback × SessionIo × State :=
  drainLoop 64 reads session s

/-- Register the fds of accepted clients. -/
def acceptClients (slot : Nat) : List Bool → SessionIo → State → SessionIo × State
  | [], session, s => (session, s)
  | accepted :: rest, session, s =>
    match s.add accepted slot .client with
    | (some token, s) => acceptClients slot rest { session with clients := token :: session.clients } s
    | (none, s) => acceptClients slot rest session s

/-- `close_client` for those of the tokens that are clients of the Session. -/
def closeClients : List Nat → SessionIo → State → SessionIo × State
  | [], session, s => (session, s)
  | token :: rest, session, s =>
    if token ∈ session.clients then
      closeClients rest { session with clients := session.clients.erase token } (s.remove token)
    else closeClients rest session s

/-- Every callback on a Session's listener, clients and input queue, by what it does to its fds. -/
def serveClients (work : ClientWork) (slot : Nat) (session : SessionIo) (s : State) : Callback × SessionIo × State :=
  let accepted := acceptClients slot work.accepted session s
  let closed := closeClients work.closed accepted.1 accepted.2
  match work.panics with
  | some message => (.panicked message, closed)
  | none => (.done, closed)

/-! ## Registration and end -/

/-- What the poller says to the fds of a new Session. -/
structure RegisterIo where
  pty : Bool
  listener : Bool
  clients : List Bool
deriving DecidableEq, Repr

/-- `SessionIo::register`; a refused fd leaves those before it registered. -/
def SessionIo.register (io : RegisterIo) (slot : Nat) (session : SessionIo) (s : State) : Option SessionIo × State :=
  let s := s.setShared session.id fun f => { f with slot := slot, journalSlot := slot }
  match s.add io.pty slot .pty with
  | (none, s) => (none, s)
  | (some ptyToken, s) =>
    let session := { session with ptyToken := ptyToken, ptyReadInterest := true }
    if !session.hasListener then
      let adopted := acceptClients slot io.clients session s
      (some adopted.1, adopted.2)
    else
      match s.add io.listener slot .listener with
      | (none, s) => (none, s)
      | (some listenerToken, s) =>
        let adopted := acceptClients slot io.clients { session with listenerToken := listenerToken } s
        (some adopted.1, adopted.2)

/-- How finishing goes: the bytes the query scanner still held, whether the journal's channel is closed, a
    panic before the fds are removed, and whether the teardown thread could be spawned. -/
structure FinishIo where
  pending : Nat
  journalGone : Bool
  panics : Bool
  spawns : Bool
deriving DecidableEq, Repr

/-- Take every fd of the Session out of the registry. -/
def SessionIo.deregister (session : SessionIo) (s : State) : State :=
  let s := s.remove session.ptyToken
  let s := if session.hasListener then s.remove session.listenerToken else s
  session.clients.foldl State.remove s

/-- `SessionIo::finish`; `none` is a panic. -/
def SessionIo.finish (io : FinishIo) (session : SessionIo) (s : State) : Option Nat × State :=
  let s := publishChunk session.id io.pending io.journalGone s
  if io.panics then (none, s)
  else
    let s := session.deregister s
    (some (s.shared session.id).slot, s)

end Supercli.Reactor
