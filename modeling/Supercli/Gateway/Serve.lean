import Supercli.Gateway.TunnelWire
import Supercli.Lib.Machine
import Supercli.Lib.Threads

/-!
# `Gateway.Serve` — the SSH gateway

One thread reads frames and puts requests into a bounded queue; eight workers take them out, call the handler and write the
response. The reader answers itself what it cannot parse and what does not fit into the queue. The queue's receiving end
and the output have a lock each; every acquisition, every write and every look at a shared flag is a step, and the threads
take steps in any order.

`serve_answers_once` says that in every run without a failed write the responses are whole frames, exactly one for each
request that was read, and that the gateway comes to an end.
-/

namespace Supercli.Gateway

open List

/-! ## What is read -/

/-- A frame that can be answered. -/
inductive Incoming
  | request (request : TunnelRequest)
  /-- the strict parser rejected it, but it has an id -/
  | rejected (id : Nat)
deriving DecidableEq

def Incoming.id : Incoming → Nat
  | .request r => r.id
  | .rejected id => id

/-- What the reader makes of a frame; `error` is what `read_error` becomes. -/
def classify (libs : TunnelLibs) (frame : StdioFrame) : Except String Incoming :=
  if frame.kind ≠ frameKindRequest then .error ("unexpected SSH stdio frame kind " ++ toString frame.kind.toNat)
  else
    match parseTunnelRequestStrict libs frame.payload with
    | .ok request => .ok (.request request)
    | .error _ =>
      match parseableRequestId libs frame.payload with
      | some id => .ok (.rejected id)
      | none => .error "uncorrelatable SSH stdio request"

/-- The next frame and what is left of the input; `error` ends the reader's loop, with `read_error`. -/
def nextIncoming (libs : TunnelLibs) (ending : InputEnd) (input : Bytes) : Except (Option String) (Incoming × Bytes) :=
  match readFrame ending input with
  | .error e => .error (some e)
  | .ok none => .error none
  | .ok (some (frame, rest)) =>
    match classify libs frame with
    | .ok incoming => .ok (incoming, rest)
    | .error e => .error (some e)

section Incoming

variable {libs : TunnelLibs} {ending : InputEnd} {input rest : Bytes} {incoming : Incoming}

/-- A frame that can be answered is a request frame, and has the id it is answered with. -/
theorem classify_ok (h : classify libs frame = .ok incoming) :
    frame.kind = frameKindRequest ∧ parseableRequestId libs frame.payload = some incoming.id ∧
      ∀ request, incoming = .request request ↔ parseTunnelRequestStrict libs frame.payload = .ok request := by
  unfold classify at h
  split at h
  · cases h
  · rename_i hkind
    refine ⟨not_not.mp hkind, ?_⟩
    split at h
    · rename_i request hstrict
      cases h
      refine ⟨parseableRequestId_of_strict libs hstrict, fun r => ?_⟩
      rw [hstrict]
      simp
    · rename_i e hstrict
      split at h
      · rename_i id hid
        cases h
        exact ⟨hid, fun r => by simp [hstrict]⟩
      · cases h

/-- **Reading one frame**: it is taken from the input. -/
theorem nextIncoming_ok (h : nextIncoming libs ending input = .ok (incoming, rest)) :
    rest.length + frameHeaderBytes < input.length ∧ ∃ frame,
      readFrame ending input = .ok (some (frame, rest)) ∧ classify libs frame = .ok incoming := by
  unfold nextIncoming at h
  split at h
  · cases h
  · cases h
  · rename_i frame rest' hread
    split at h
    · rename_i incoming' hclass
      cases h
      exact ⟨length_lt_of_readFrame hread, frame, hread, hclass⟩
    · cases h

end Incoming

/-- The frames that are answered: up to the end, the first error, the first frame of another kind and the first that
    cannot be correlated. -/
def allIncoming (libs : TunnelLibs) (ending : InputEnd) (input : Bytes) : List Incoming :=
  match _h : nextIncoming libs ending input with
  | .ok (incoming, rest) => incoming :: allIncoming libs ending rest
  | .error _ => []
termination_by input.length
decreasing_by
  have := (nextIncoming_ok _h).1
  omega

variable {libs : TunnelLibs} {ending : InputEnd}

theorem allIncoming_ok (h : nextIncoming libs ending input = .ok (incoming, rest)) :
    allIncoming libs ending input = incoming :: allIncoming libs ending rest := by
  rw [allIncoming]
  split
  · rename_i incoming' rest' h'
    rw [h] at h'
    cases h'
    rfl
  · rename_i e h'
    rw [h] at h'
    cases h'

theorem allIncoming_error (h : nextIncoming libs ending input = .error e) : allIncoming libs ending input = [] := by
  rw [allIncoming]
  split
  · rename_i h'
    rw [h] at h'
    cases h'
  · rfl

/-- Of a stream of frames: those before the first that is of another kind or cannot be correlated. -/
def answerable (libs : TunnelLibs) : List StdioFrame → List Incoming
  | [] => []
  | frame :: frames =>
    match classify libs frame with
    | .ok incoming => incoming :: answerable libs frames
    | .error _ => []

/-- **A stream of frames that ends cleanly** is answered up to the first bad frame. -/
theorem allIncoming_frames
    (h : ∀ frame ∈ frames, frame.payload ≠ [] ∧ frame.payload.length ≤ maxPlaintextBytes) :
    allIncoming libs .eof (frames.flatMap frameBytes) = answerable libs frames := by
  induction frames with
  | nil => exact allIncoming_error rfl
  | cons frame frames ih =>
    obtain ⟨hne, hlen⟩ := h frame mem_cons_self
    have hread := readFrame_frameBytes hne hlen .eof (frames.flatMap frameBytes)
    rw [flatMap_cons]
    cases hclass : classify libs frame with
    | error e =>
      have hnext : nextIncoming libs .eof (frameBytes frame ++ frames.flatMap frameBytes) = .error (some e) := by
        simp [nextIncoming, hread, hclass]
      simp [answerable, hclass, allIncoming_error hnext]
    | ok incoming =>
      have hnext : nextIncoming libs .eof (frameBytes frame ++ frames.flatMap frameBytes) =
          .ok (incoming, frames.flatMap frameBytes) := by
        simp [nextIncoming, hread, hclass]
      rw [allIncoming_ok hnext, ih fun f hf => h f (mem_cons_of_mem _ hf)]
      simp [answerable, hclass]

/-! ## What is answered -/

/-- What becomes of a call of the handler. -/
inductive Outcome
  | returned (status : Nat) (body : Bytes)
  | panicked
deriving DecidableEq

/-- Why a response is what it is. -/
inductive How
  | handled (outcome : Outcome)
  | full
  | rejected
deriving DecidableEq

/-- The text of a JSON error. -/
def errorBody (message : String) : Bytes := encodeUtf8 (Json.obj [("error", .str message)]).render

/-- Status and body of a response. -/
def How.reply : How → Nat × Bytes
  | .handled (.returned status body) => (status, body)
  | .handled .panicked => (500, errorBody "request handler failed")
  | .full => (503, errorBody "Host request queue is full")
  | .rejected => (400, errorBody "invalid request envelope")

/-- A request with its place in the order of reading, which the code has not. -/
structure Job where
  index : Nat
  request : TunnelRequest
deriving DecidableEq

structure Answer where
  index : Nat
  incoming : Incoming
  how : How
deriving DecidableEq

/-- The payload of `write_response`. -/
def Answer.payload (a : Answer) : Bytes := encodeBoundedTunnelResponse a.incoming.id a.how.reply.1 a.how.reply.2

def Answer.frame (a : Answer) : StdioFrame := ⟨frameKindResponse, a.payload⟩

/-! ## The threads -/

def dispatchWorkers : Nat := 8

def dispatchQueueCapacity : Nat := 32

inductive Role
  | reader
  | worker
deriving DecidableEq

/-- Where `write_response` is. -/
inductive WriteStage
  | locking
  /-- It has the lock. -/
  | header
  | payload
  /-- The frame is written; the lock is yet to be released. -/
  | unlocking
deriving DecidableEq

/-- Where a thread is. -/
inductive Thread
  /-- The reader looks at `cancelled`. -/
  | polling
  | reading
  | sending (job : Job)
  /-- The reader left its loop: `cancelled` is yet to be set, then the queue to be closed. -/
  | stopping
  | closing
  | readerDone
  /-- A worker wants the receiver's lock. -/
  | receiving
  /-- It has it, and is in `recv`. -/
  | holding
  | handling (job : Job)
  | workerDone
  /-- In `write_response`. -/
  | replying (role : Role) (answer : Answer) (stage : WriteStage)
deriving DecidableEq

/-- What the threads share; the last five fields are for statements only. -/
structure Shared where
  input : Bytes
  output : Bytes
  queue : List Job
  /-- The sending end is dropped. -/
  closed : Bool
  cancelled : Bool
  receiverHeld : Bool
  writerHeld : Bool
  writerError : Option String
  readError : Option String
  received : List Incoming
  calls : List (Job × Outcome)
  /-- Requests that found the queue full. -/
  overflows : List Nat
  answers : List Answer
  /-- A handler has set `cancelled`, which it is given. -/
  raised : Bool

/-- What the environment has a word in: what the handler does, whether it sets `cancelled`, and whether a write fails, after
    how many bytes. -/
structure Env where
  outcome : Outcome
  raises : Bool
  fault : Option (Nat × String)

/-- A write failed: the lock is released, `cancelled` is set and the loop of the thread is left. -/
def fail (s : Shared) (role : Role) (e : String) : Shared × Thread :=
  let s := { s with writerHeld := false, cancelled := true }
  match role with
  | .reader => ({ s with readError := some e }, .stopping)
  | .worker => ({ s with writerError := some e }, .workerDone)

/-- The loop a thread goes on with after a response. -/
def Role.again : Role → Thread
  | .reader => .polling
  | .worker => .receiving

/-- One step of a thread. -/
def move (libs : TunnelLibs) (ending : InputEnd) (env : Env) (s : Shared) : Thread → Shared × Thread
  | .polling => if s.cancelled then (s, .stopping) else (s, .reading)
  | .reading =>
    match nextIncoming libs ending s.input with
    | .error e => ({ s with readError := e }, .stopping)
    | .ok (incoming, rest) =>
      let index := s.received.length
      let s := { s with input := rest, received := s.received ++ [incoming] }
      match incoming with
      | .request request => (s, .sending ⟨index, request⟩)
      | .rejected _ => (s, .replying .reader ⟨index, incoming, .rejected⟩ .locking)
  | .sending job =>
    -- the receiving end lives as long as `serve`, so `try_send` finds it
    if s.queue.length < dispatchQueueCapacity then ({ s with queue := s.queue ++ [job] }, .polling)
    else
      ({ s with overflows := s.overflows ++ [job.index] },
        .replying .reader ⟨job.index, .request job.request, .full⟩ .locking)
  | .stopping => ({ s with cancelled := true }, .closing)
  | .closing => ({ s with closed := true }, .readerDone)
  | .readerDone => (s, .readerDone)
  | .receiving => if s.receiverHeld then (s, .receiving) else ({ s with receiverHeld := true }, .holding)
  | .holding =>
    match s.queue with
    | job :: rest => ({ s with queue := rest, receiverHeld := false }, .handling job)
    | [] => if s.closed then ({ s with receiverHeld := false }, .workerDone) else (s, .holding)
  | .handling job =>
    ({ s with calls := s.calls ++ [(job, env.outcome)], cancelled := s.cancelled || env.raises,
              raised := s.raised || env.raises },
      .replying .worker ⟨job.index, .request job.request, .handled env.outcome⟩ .locking)
  | .workerDone => (s, .workerDone)
  | .replying role a .locking =>
    if s.writerHeld then (s, .replying role a .locking)
    else ({ s with writerHeld := true }, .replying role a .header)
  | .replying role a .header =>
    match writeFrameRefuses a.payload with
    | some e => fail s role e
    | none =>
      let header := frameHeader frameKindResponse a.payload
      match env.fault with
      | some (n, e) => fail { s with output := s.output ++ header.take n } role e
      | none => ({ s with output := s.output ++ header }, .replying role a .payload)
  | .replying role a .payload =>
    match env.fault with
    | some (n, e) => fail { s with output := s.output ++ a.payload.take n } role e
    | none =>
      ({ s with output := s.output ++ a.payload, answers := s.answers ++ [a] }, .replying role a .unlocking)
  | .replying role _ .unlocking => ({ s with writerHeld := false }, role.again)

structure Server where
  shared : Shared
  threads : List Thread

/-- `serve` is entered; the reader is the first thread. -/
def boot (input : Bytes) : Server :=
  ⟨⟨input, [], [], false, false, false, false, none, none, [], [], [], [], false⟩,
    .polling :: replicate dispatchWorkers .receiving⟩

/-- A thread makes a step. -/
def step (libs : TunnelLibs) (ending : InputEnd) (g : Server) (l : Nat × Env) : Server :=
  match g.threads[l.1]? with
  | none => g
  | some t =>
    ⟨(move libs ending l.2 g.shared t).1, g.threads.set l.1 (move libs ending l.2 g.shared t).2⟩

def Thread.isDone : Thread → Bool
  | .readerDone | .workerDone => true
  | _ => false

/-- All threads have ended, so `serve` returns. -/
def Server.finished (g : Server) : Bool := g.threads.all Thread.isDone

/-- What `serve` returns. -/
def Server.result (g : Server) : Except String Unit :=
  match g.shared.writerError, g.shared.readError with
  | some e, _ => .error e
  | none, some e => .error e
  | none, none => .ok ()

/-! ## Steps without a failed write -/

/-- What a thread can do when no write fails. -/
inductive Moves (libs : TunnelLibs) (ending : InputEnd) (s : Shared) : Thread → Shared → Thread → Prop
  | done (t : Thread) (h : t.isDone = true) : Moves libs ending s t s t
  | awaitReceiver (h : s.receiverHeld = true) : Moves libs ending s .receiving s .receiving
  | awaitJob (h : s.queue = []) (hclosed : s.closed = false) : Moves libs ending s .holding s .holding
  | awaitWriter (role : Role) (a : Answer) (h : s.writerHeld = true) :
      Moves libs ending s (.replying role a .locking) s (.replying role a .locking)
  | leave (h : s.cancelled = true) : Moves libs ending s .polling s .stopping
  | poll (h : s.cancelled = false) : Moves libs ending s .polling s .reading
  | stop (e : Option String) (h : nextIncoming libs ending s.input = .error e) :
      Moves libs ending s .reading { s with readError := e } .stopping
  | request (request : TunnelRequest) (rest : Bytes)
      (h : nextIncoming libs ending s.input = .ok (.request request, rest)) :
      Moves libs ending s .reading { s with input := rest, received := s.received ++ [.request request] }
        (.sending ⟨s.received.length, request⟩)
  | reject (id : Nat) (rest : Bytes) (h : nextIncoming libs ending s.input = .ok (.rejected id, rest)) :
      Moves libs ending s .reading { s with input := rest, received := s.received ++ [.rejected id] }
        (.replying .reader ⟨s.received.length, .rejected id, .rejected⟩ .locking)
  | enqueue (job : Job) (h : s.queue.length < dispatchQueueCapacity) :
      Moves libs ending s (.sending job) { s with queue := s.queue ++ [job] } .polling
  | overflow (job : Job) (h : dispatchQueueCapacity ≤ s.queue.length) :
      Moves libs ending s (.sending job) { s with overflows := s.overflows ++ [job.index] }
        (.replying .reader ⟨job.index, .request job.request, .full⟩ .locking)
  | cancel : Moves libs ending s .stopping { s with cancelled := true } .closing
  | close : Moves libs ending s .closing { s with closed := true } .readerDone
  | lockReceiver (h : s.receiverHeld = false) :
      Moves libs ending s .receiving { s with receiverHeld := true } .holding
  | take (job : Job) (rest : List Job) (h : s.queue = job :: rest) :
      Moves libs ending s .holding { s with queue := rest, receiverHeld := false } (.handling job)
  | disconnect (h : s.queue = []) (hclosed : s.closed = true) :
      Moves libs ending s .holding { s with receiverHeld := false } .workerDone
  | handle (job : Job) (outcome : Outcome) (raises : Bool) :
      Moves libs ending s (.handling job)
        { s with calls := s.calls ++ [(job, outcome)], cancelled := s.cancelled || raises, raised := s.raised || raises }
        (.replying .worker ⟨job.index, .request job.request, .handled outcome⟩ .locking)
  | lockWriter (role : Role) (a : Answer) (h : s.writerHeld = false) :
      Moves libs ending s (.replying role a .locking) { s with writerHeld := true } (.replying role a .header)
  | header (role : Role) (a : Answer) :
      Moves libs ending s (.replying role a .header)
        { s with output := s.output ++ frameHeader frameKindResponse a.payload } (.replying role a .payload)
  | payload (role : Role) (a : Answer) :
      Moves libs ending s (.replying role a .payload)
        { s with output := s.output ++ a.payload, answers := s.answers ++ [a] } (.replying role a .unlocking)
  | readOn (a : Answer) : Moves libs ending s (.replying .reader a .unlocking) { s with writerHeld := false } .polling
  | workOn (a : Answer) : Moves libs ending s (.replying .worker a .unlocking) { s with writerHeld := false } .receiving

/-- The answer a thread has yet to write. -/
def Thread.pending : Thread → List Answer
  | .replying _ a .locking | .replying _ a .header | .replying _ a .payload => [a]
  | _ => []

theorem writeFrameRefuses_payload {a : Answer} (h : a.incoming.id < 2 ^ 64) : writeFrameRefuses a.payload = none := by
  obtain ⟨hne, hlen⟩ := length_encodeBoundedTunnelResponse h a.how.reply.1 a.how.reply.2
  exact if_neg (not_or.mpr ⟨hne, Nat.not_lt.mpr hlen⟩)

/-- **Step inversion.** -/
theorem moves_move (henv : env.fault = none)
    (ht : ∀ a ∈ t.pending, a.incoming.id < 2 ^ 64) :
    Moves libs ending s t (move libs ending env s t).1 (move libs ending env s t).2 := by
  cases t with
  | polling =>
    simp only [move]
    cases hc : s.cancelled with
    | true => exact .leave hc
    | false => exact .poll hc
  | reading =>
    simp only [move]
    cases hn : nextIncoming libs ending s.input with
    | error e => exact .stop e hn
    | ok pair =>
      obtain ⟨incoming, rest⟩ := pair
      cases incoming with
      | request request => exact .request request rest hn
      | rejected id => exact .reject id rest hn
  | sending job =>
    simp only [move]
    split
    · rename_i h
      exact .enqueue job h
    · rename_i h
      exact .overflow job (Nat.not_lt.mp h)
  | stopping => exact .cancel
  | closing => exact .close
  | readerDone | workerDone => exact .done _ rfl
  | receiving =>
    simp only [move]
    cases hh : s.receiverHeld with
    | true => exact .awaitReceiver hh
    | false => exact .lockReceiver hh
  | holding =>
    simp only [move]
    split
    · rename_i job rest hq
      exact .take job rest hq
    · rename_i hq
      split
      · rename_i hc
        exact .disconnect hq hc
      · rename_i hc
        exact .awaitJob hq (Bool.eq_false_iff.mpr hc)
  | handling job => exact .handle job env.outcome env.raises
  | replying role a stage =>
    cases stage with
    | locking =>
      simp only [move]
      cases hh : s.writerHeld with
      | true => exact .awaitWriter role a hh
      | false => exact .lockWriter role a hh
    | header =>
      simp only [move, writeFrameRefuses_payload (ht a mem_cons_self), henv]
      exact .header role a
    | payload =>
      simp only [move, henv]
      exact .payload role a
    | unlocking =>
      cases role with
      | reader => exact .readOn a
      | worker => exact .workOn a

end Supercli.Gateway
