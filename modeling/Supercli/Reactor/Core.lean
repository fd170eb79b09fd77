import Supercli.Reactor.SessionIo

/-!
# `Reactor.Core` — the reactor thread, the journal writer, and who talks to them

`step` is one move of one thread. The reactor thread walks its loop callback by callback: it drains the
control channel, dispatches the events of one poll, flushes the touched Sessions and, once a second, ticks.
The journal writer takes one message or times out. Hosting threads send Sessions, `Kill` clears a `running`
flag and wakes the reactor, and teardown threads close journals. Any of them may move next.
-/

namespace Supercli.Reactor

/-! ## The slot table -/

/-- What the environment decides in one move of the reactor thread. -/
structure ReactorIo where
  polled : Option (List PollEvent)
  tickDue : Bool
  work : ClientWork
  flush : ClientWork
  reads : List PtyRead
  finish : FinishIo
  register : RegisterIo
  watches : Bool
  handoffCommits : Bool

/-- Put a Session into its slot. -/
def State.store (s : State) (slot : Nat) (session : Option SessionIo) : State :=
  { s with sessions := s.sessions.set slot session }

section

variable (io : FinishIo)

/-- Finish a Session and leave the rest to a teardown thread. -/
def leave (session : SessionIo) (outcome : Except String Unit) (s : State) : State :=
  match session.finish io s with
  | (none, s) => s
  | (some slot, s) => if io.spawns then { s with exiting := s.exiting ++ [⟨slot, session.id, outcome⟩] } else s

def endSession (slot : Nat) (outcome : Except String Unit) (s : State) : State :=
  match s.sessionAt slot with
  | none => s
  | some session =>
    leave io session outcome { (s.store slot none).log (.ended session.id) with freeSlots := slot :: s.freeSlots }

section

variable (slot : Nat) (f : SessionIo → State → Callback × SessionIo × State) (s : State)

/-- `Reactor::with_session`: a callback that panics ends its Session. The answer says whether the callback
    asked for the end. -/
def withSession : Bool × State :=
  match s.sessionAt slot with
  | none => (false, s)
  | some session =>
    match f session s with
    | (.done, session, s) => (false, s.store slot (some session))
    | (.ends, session, s) => (true, s.store slot (some session))
    | (.panicked message, session, s) =>
      (false, endSession io slot (.error ("session I/O panicked: " ++ message))
        ((s.store slot (some session)).log (.panicked session.id)))

/-- Run a callback and end the Session if it asks for it. -/
def serve : State :=
  match withSession io slot f s with
  | (true, s) => endSession io slot (.ok ()) s
  | (false, s) => s

end

end

/-- The slot a new Session gets: the one freed last, or a new one. -/
def takeSlot (s : State) : Nat × State :=
  match s.freeSlots with
  | slot :: rest => (slot, { s with freeSlots := rest })
  | [] => (s.sessions.length, { s with sessions := s.sessions ++ [none] })

/-- `Reactor::register`, and whether it succeeded. -/
def register (io : RegisterIo) (session : SessionIo) (s : State) : Bool × State :=
  let slot := (takeSlot s).1
  match session.register io slot (takeSlot s).2 with
  | (none, s) => (false, { s with freeSlots := slot :: s.freeSlots })
  | (some session, s) =>
    let s := { s with timer := s.timer ++ [TimerMsg.add slot] }
    (true, s.store slot (some session))

section

variable (io : ReactorIo)

/-- `Reactor::adopt`: the slot is guessed before `register` takes it; the child is watched if the platform
    can. -/
def adopt (session : SessionIo) (childPid : Option Nat) (s : State) : State :=
  let slot := s.freeSlots.headD s.sessions.length
  match register io.register session s, childPid with
  | (true, s), some _ =>
    match s.add io.watches slot .process with
    | (some token, s) => { s with processWatches := token :: s.processWatches }
    | (none, s) => s
  | (_, s), _ => s

/-- The occupied slots, in order. -/
def occupied (s : State) : List Nat := (List.range s.sessions.length).filter fun slot => (s.sessionAt slot).isSome

/-- A Session that moved to another core: its slot is free, its fds are forgotten, and it lives on. -/
def forget (s : State) (slot : Nat) : State :=
  match s.sessionAt slot with
  | none => s
  | some session =>
    let s := { s.store slot none with freeSlots := slot :: s.freeSlots }
    session.deregister s

/-- `Reactor::handoff`, by its effect on the slot table: the journals are asked to flush, and all Sessions
    leave together or stay. One that is stopping refuses for all. -/
def handoff (commits : Bool) (s : State) : State :=
  let slots := occupied s
  let flushes := slots.filterMap fun slot => (s.sessionAt slot).map fun session => JournalMsg.flush session.id
  let s := { s with journal := s.journal ++ flushes }
  let stopping := slots.any fun slot => (s.sessionAt slot).any fun session => !(s.shared session.id).running
  if commits && !stopping then slots.foldl forget s else s

/-! ## The reactor loop -/

/-- The check of a wake and of the idle tick: a Session that was stopped is drained. -/
def drainIfStopped (reads : List PtyRead) (session : SessionIo) (s : State) : Callback × SessionIo × State :=
  if !(s.shared session.id).running then drainAfterStop reads session s else (.done, session, s)

/-- `drain_control`, one message. The thread that hosts a refused Session closes its journal. -/
def handleControl (s : State) : Control → State
  | .register session =>
    match register io.register session s with
    | (true, s) => s
    | (false, s) => { s with journal := s.journal ++ [.close session.id] }
  | .wake slot =>
    match withSession io.finish slot (drainIfStopped io.reads) s with
    | (true, s) => endSession io.finish slot (.ok ()) s
    | (false, s) => serve io.finish slot (serveClients io.flush slot) s
  | .journalDrained slot => serve io.finish slot (fun session s => (.done, Reactor.journalDrained session, s)) s
  | .journalFailed slot _ => endSession io.finish slot (.error "Failed to write output log") s
  | .sessionEnded => { s with releasePending := true }
  | .handoff => handoff io.handoffCommits s
  | .adopt session childPid => adopt io session childPid s

/-- `Reactor::dispatch`, with the slots it touched. -/
def dispatch (slot : Nat) (kind : TokenKind) (event : PollEvent) (s : State) : State × List Nat :=
  match kind with
  | .process =>
    ({ s.remove event.token with processWatches := s.processWatches.erase event.token }, [])
  | .pty =>
    let s := if event.writable then serve io.finish slot (serveClients io.work slot) s else s
    if event.readable || event.hup then
      (serve io.finish slot (ptyReadable (io.reads.headD .interrupted)) s, [slot])
    else (s, [])
  | .listener => (serve io.finish slot (serveClients io.work slot) s, [])
  | .client => (serve io.finish slot (serveClients io.work slot) s, [slot])

def wakerToken : Nat := 2 ^ 64 - 1

/-- One event of a poll. -/
def handleEvent (event : PollEvent) (s : State) : State × List Nat :=
  if event.token = wakerToken then (s, [])
  else
    match s.owners event.token with
    | none => (s, [])
    | some (slot, kind) => dispatch io slot kind event s

/-- `idle_tick`, one Session. -/
def tickSession (slot : Nat) (s : State) : State :=
  serve io.finish slot (fun session s =>
    match serveClients io.work slot session s with
    | (.done, session, s) => drainIfStopped io.reads session s
    | failed => failed) s

/-- The next move of `Reactor::run`. -/
def reactorStep (s : State) : State :=
  match s.phase with
  | .control =>
    match s.control with
    | control :: rest => handleControl io { s with control := rest } control
    | [] =>
      match io.polled with
      | some events => { s with phase := .events events [] }
      | none => s
  | .events (event :: rest) touched =>
    let r := handleEvent io event s
    { r.1 with phase := .events rest (touched ++ r.2) }
  | .events [] touched => { s with phase := .flushing ((touched.insertionSort (· ≤ ·)).dedup) }
  | .flushing (slot :: rest) =>
    { serve io.finish slot (serveClients io.flush slot) s with phase := .flushing rest }
  | .flushing [] =>
    if io.tickDue then { s with releasePending := false, phase := .ticking (occupied s) }
    else { s with phase := .control }
  | .ticking (slot :: rest) => { tickSession io slot s with phase := .ticking rest }
  | .ticking [] => { s with phase := .control }

end

/-! ## The journal writer -/

def journalBacklogLowBytes : Nat := 1024 * 1024

def journalBatchMaxBytes : Nat := 128 * 1024

/-- `JOURNAL_FLUSH_INTERVAL` in milliseconds. -/
def journalFlushMs : Nat := 32

/-- What the environment decides in one move of the writer: whether a message arrives before the deadline,
    the clock, and the error of a write to a journal. -/
structure WriterIo where
  receives : Bool
  now : Nat
  writeError : Nat → Option String

def JournalSession.flush (writeError : Option String) (j : JournalSession) : JournalSession :=
  if j.pending = 0 ∨ j.error.isSome then { j with pending := 0, firstPendingAt := none }
  else ⟨0, none, writeError.map fun e => "Failed to write output log: " ++ e⟩

/-- Change a stream, noting when it fails. -/
def State.setStream (s : State) (id : Nat) (j j' : JournalSession) : State :=
  let s := { s with streams := s.streams.map fun p => if p.1 = id then (id, j') else p }
  if j.error.isNone && j'.error.isSome then s.log (.journalFailed id) else s

/-- Tell the reactor. -/
def State.send (s : State) (control : Control) : State := { s with control := s.control ++ [control] }

/-- The backlog shrinks by a chunk, and the reactor is told when reads may resume. -/
def shrinkBacklog (id len : Nat) (s : State) : State :=
  let shared := s.shared id
  let s := s.setShared id fun f => { f with backlog := (f.backlog + 2 ^ 64 - len % 2 ^ 64) % 2 ^ 64 }
  if shared.paused && shared.backlog - len < journalBacklogLowBytes then
    (s.setShared id fun f => { f with paused := false }).send (.journalDrained shared.journalSlot)
  else s

section

variable (io : WriterIo)

/-- The stream with a chunk more; a full batch is flushed. -/
def JournalSession.append (id len : Nat) (j : JournalSession) : JournalSession :=
  let firstPendingAt := if j.pending = 0 then some io.now else j.firstPendingAt
  let filled : JournalSession := ⟨j.pending + len, firstPendingAt, none⟩
  if journalBatchMaxBytes ≤ filled.pending then filled.flush (io.writeError id) else filled

/-- A chunk for a stream. A stream that has failed takes no more. -/
def writeChunk (id len : Nat) (j : JournalSession) (s : State) : State :=
  let slot := (s.shared id).journalSlot
  let s := shrinkBacklog id len s
  if j.error.isSome then s
  else
    let s := s.setStream id j (j.append io id len)
    if (j.append io id len).error.isSome then s.send (.journalFailed slot id) else s

/-- One message. -/
def handleJournal (s : State) : JournalMsg → State
  | .opened id => { s with streams := s.streams.filter (fun p => p.1 ≠ id) ++ [(id, ⟨0, none, none⟩)] }
  | .chunk id len =>
    match s.streams.lookup id with
    | none => s
    | some j => writeChunk io id len j s
  | .flush id =>
    match s.streams.lookup id with
    | none => s
    | some j => s.setStream id j (j.flush (io.writeError id))
  | .close id =>
    match s.streams.lookup id with
    | none => s
    | some j =>
      let s := s.setStream id j (j.flush (io.writeError id))
      { s with streams := s.streams.filter fun p => p.1 ≠ id }

/-- The sweep after each message, one stream: a batch that is due is flushed, and a failure reported. -/
def sweepStream (s : State) (stream : Nat × JournalSession) : State :=
  let id := stream.1
  if stream.2.firstPendingAt.any fun since => journalFlushMs ≤ io.now - since then
    let j := stream.2.flush (io.writeError id)
    let s := s.setStream id stream.2 j
    if j.error.isSome then s.send (.journalFailed (s.shared id).journalSlot id) else s
  else s

/-- `run_journal_writer`, one turn of its loop. A message about an unknown stream skips the sweep. -/
def writerStep (s : State) : State :=
  let sweep := fun (s : State) => s.streams.foldl (sweepStream io) s
  match io.receives, s.journal with
  | true, message :: rest =>
    let s := { s with journal := rest }
    match message with
    | .chunk id _ => if (s.streams.lookup id).isNone then s else sweep (handleJournal io s message)
    | _ => sweep (handleJournal io s message)
  | _, _ => sweep s

end

/-! ## The other threads -/

/-- One move of one thread. -/
inductive Input
  /-- the reactor thread goes on -/
  | reactor (io : ReactorIo)
  /-- the journal writer goes on -/
  | writer (io : WriterIo)
  /-- a Session is set up and sent to the reactor -/
  | host (hasListener : Bool)
  /-- the same for a Session handed over by another core -/
  | adopt (hasListener : Bool) (childPid : Option Nat)
  /-- `running` is cleared, by `Kill` or a teardown -/
  | stop (id : Nat)
  /-- `SessionShared::wake` -/
  | wake (id : Nat)
  /-- the oldest teardown thread runs -/
  | teardown
  /-- another core asks for the Sessions -/
  | handoff

/-- `SessionTeardown::run`, by what other threads see of it. -/
def runTeardown (t : SessionTeardown) (s : State) : State :=
  let s := (s.setShared t.journalId fun f => { f with running := false }).log (.stopped t.journalId)
  let s := { s with journal := s.journal ++ [JournalMsg.close t.journalId], timer := s.timer ++ [TimerMsg.remove t.slot] }
  s.send .sessionEnded

/-- A new Session: its journal is opened before the reactor hears of it. -/
def State.arrive (s : State) (control : SessionIo → Control) (hasListener : Bool) : State :=
  let id := s.nextJournalId
  let s := { s with nextJournalId := id + 1, journal := s.journal ++ [JournalMsg.opened id] }
  s.send (control (.new id hasListener))

/-- One move of the core. -/
def step (s : State) : Input → State
  | .reactor io => reactorStep io s
  | .writer io => writerStep io s
  | .host hasListener => s.arrive .register hasListener
  | .adopt hasListener childPid => s.arrive (fun session => .adopt session childPid) hasListener
  | .stop id => (s.setShared id fun f => { f with running := false }).log (.stopped id)
  | .wake id => s.send (.wake (s.shared id).slot)
  | .teardown =>
    match s.exiting with
    | [] => s
    | t :: rest => runTeardown t { s with exiting := rest }
  | .handoff => s.send .handoff

end Supercli.Reactor
