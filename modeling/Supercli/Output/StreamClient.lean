import Supercli.Output.Broadcaster

/-!
# `Output.StreamClient` — from a channel to a socket

`pump_stream_client` takes chunks from the channel of a subscriber, merges neighbours up to the batch size, frames
them into the outbox, and writes as much of the outbox as the socket takes. It goes on until the socket is full or the
channel empty.

Two facts carry everything said about a client. Bytes that were framed are either on the socket or still in the
outbox (`Written`). And the chunks framed, held back and queued stay the same up to merges of neighbours
(`pump_pumps`), so whatever merging keeps, pumping keeps.
-/

namespace Supercli.Output

def sessionOutputStreamBatchMaxBytes : Nat := 64 * 1024

def canMergeOutputStreamChunk (pending next : SessionOutputChunk) (maxBatchBytes : Nat) : Bool :=
  if pending.exited || next.exited || pending.existing != next.existing then false
  else
    let nextStart := next.nextOffset - next.data.length
    pending.nextOffset == nextStart && decide (pending.data.length + next.data.length ≤ maxBatchBytes)

/-- The pending chunk with the next one in it. -/
def SessionOutputChunk.extend (pending next : SessionOutputChunk) : SessionOutputChunk :=
  { pending with data := pending.data ++ next.data, nextOffset := next.nextOffset }

/-- A client in `ClientState::StreamOut`. Of the last three fields the code has none: the offset it asked for, what
    it was sent, and what was framed for it. -/
structure StreamClient where
  subscriberId : Nat
  pending : Option SessionOutputChunk
  closing : Bool
  outbuf : List UInt8
  outPos : Nat
  /-- `last_progress` is further back than `SESSION_OUTPUT_STREAM_WRITE_TIMEOUT_MS`. -/
  stalled : Bool
  offset : Nat
  sent : List UInt8
  framed : List SessionOutputChunk
deriving DecidableEq, Repr

/-- The client after its subscription was accepted. -/
def StreamClient.accepted (subscriberId offset : Nat) : StreamClient :=
  ⟨subscriberId, none, false, [], 0, false, offset, [], []⟩

/-! ## Writing -/

/-- What a `write` on the socket comes to. -/
inductive WriteResult
  | wrote (n : Nat)
  | wouldBlock
  | interrupted
  | failed
deriving DecidableEq, Repr

/-- The loop of `flush_client_outbuf`: the client, the results not used, and whether it is still there. A socket with
    nothing more to say blocks. -/
def StreamClient.writeLoop : StreamClient → List WriteResult → StreamClient × List WriteResult × Bool
  | client, [] => (client, [], true)
  | client, result :: results =>
    if client.outPos < client.outbuf.length then
      match result with
      | .wrote n =>
        let taken := min n (client.outbuf.length - client.outPos)
        if taken = 0 then (client, results, false)
        else
          writeLoop { client with
            outPos := client.outPos + taken
            stalled := false
            sent := client.sent ++ (client.outbuf.drop client.outPos).take taken } results
      | .wouldBlock => (client, results, true)
      | .interrupted => writeLoop client results
      | .failed => (client, results, false)
    else (client, result :: results, true)

section

variable (client : StreamClient)

/-- What was written is dropped from the outbox, at once or when it is half of it. -/
def StreamClient.compact : StreamClient :=
  if client.outPos ≥ client.outbuf.length then { client with outbuf := [], outPos := 0 }
  else if client.outPos > 0 ∧ client.outPos ≥ client.outbuf.length / 2 then
    { client with outbuf := client.outbuf.drop client.outPos, outPos := 0 }
  else client

def StreamClient.flushClientOutbuf (results : List WriteResult) : StreamClient × List WriteResult × Bool :=
  match client.writeLoop results with
  | (client, results, false) => (client, results, false)
  | (client, results, true) =>
    let client := client.compact
    (client, results, !(client.outbuf ≠ [] && client.stalled))

/-! ## Pulling chunks -/

variable (chunk : SessionOutputChunk)

/-- A frame into the outbox. -/
@[simp] def StreamClient.frame : StreamClient :=
  { client with outbuf := client.outbuf ++ sessionOutputFrameBytes chunk, framed := client.framed ++ [chunk] }

/-- `pending.take()`, framed. -/
def StreamClient.framePending : StreamClient :=
  match client.pending with
  | none => client
  | some current => { client.frame current with pending := none }

/-- A chunk with no pending one before it, and whether the outbox is full. -/
def StreamClient.place : StreamClient × Bool :=
  let client :=
    if chunk.data.length ≥ sessionOutputStreamBatchMaxBytes then client.frame chunk
    else { client with pending := some chunk }
  (client, decide (client.outbuf.length ≥ sessionOutputStreamBatchMaxBytes * 4))

/-- One chunk from the channel, and whether the loop stops there. -/
def StreamClient.receive : StreamClient × Bool :=
  if chunk.exited then ({ client.framePending.frame chunk with closing := true }, true)
  else
    match client.pending with
    | none => client.place chunk
    | some current =>
      if canMergeOutputStreamChunk current chunk sessionOutputStreamBatchMaxBytes then
        let merged := current.extend chunk
        if merged.data.length ≥ sessionOutputStreamBatchMaxBytes then
          ({ client.frame merged with pending := none }, false)
        else ({ client with pending := some merged }, false)
      else client.framePending.place chunk

end

/-- The receiving loop: the client, what is left of the channel, and whether the channel was found empty. -/
def StreamClient.pull :
    StreamClient → List SessionOutputChunk → Nat → StreamClient × List SessionOutputChunk × Nat × Bool
  | client, [], buffered => (client, [], buffered, true)
  | client, chunk :: queue, buffered =>
    let buffered := buffered - min chunk.data.length buffered
    match client.receive chunk with
    | (client, true) => (client, queue, buffered, false)
    | (client, false) => client.pull queue buffered

open StreamClient

theorem length_pull_le (client : StreamClient) (queue : List SessionOutputChunk) (buffered : Nat) :
    (client.pull queue buffered).2.1.length ≤ queue.length := by
  induction queue generalizing client buffered with
  | nil => exact le_rfl
  | cons chunk queue ih =>
    rw [pull]
    split
    · exact Nat.le_succ _
    · exact Nat.le_succ_of_le (ih _ _)

variable {queue : List SessionOutputChunk} {client : StreamClient}

section

variable (client : StreamClient)

theorem length_pull_lt (hq : queue ≠ []) :
    (client.pull queue buffered).2.1.length < queue.length := by
  cases queue with
  | nil => exact absurd rfl hq
  | cons =>
    rw [pull]
    split
    · exact Nat.lt_succ_self _
    · exact Nat.lt_succ_of_le (length_pull_le _ _ _)

theorem framePending_pending : client.framePending.pending = none := by
  unfold framePending
  split
  · assumption
  · rfl

theorem writeLoop_pending : (client.writeLoop results).1.pending = client.pending := by
  fun_induction writeLoop client results <;> first | rfl | assumption

theorem compact_pending : client.compact.pending = client.pending := by
  unfold compact
  split
  · rfl
  · split <;> rfl

end

/-- A compacted outbox with nothing to write is empty. -/
theorem compact_empty (h : ¬ client.compact.outPos < client.compact.outbuf.length) :
    client.compact.outbuf = [] ∧ client.compact.outPos = 0 := by
  unfold compact at h ⊢
  split
  · exact ⟨rfl, rfl⟩
  · rename_i hmore
    rw [if_neg hmore] at h
    split at h
    · exact absurd h (by simp only [List.length_drop]; omega)
    · exact absurd (Nat.lt_of_not_le hmore) h

section Flush

variable {client client' : StreamClient} {results results' : List WriteResult}

section

variable (h : client.flushClientOutbuf results = (client', results', true))

include h

/-- A flush that keeps the client is a write loop and a compaction. -/
theorem flushClientOutbuf_kept : client' = (client.writeLoop results).1.compact := by
  unfold flushClientOutbuf at h
  split at h
  · cases h
  · rename_i written _ heq
    rw [heq]
    exact (congrArg Prod.fst h).symm

theorem flushClientOutbuf_pending : client'.pending = client.pending := by
  rw [flushClientOutbuf_kept h, compact_pending, writeLoop_pending]

theorem flushClientOutbuf_empty
    (hdone : ¬ client'.outPos < client'.outbuf.length) : client'.outbuf = [] ∧ client'.outPos = 0 := by
  rw [flushClientOutbuf_kept h] at hdone ⊢
  exact compact_empty hdone

end

end Flush

/-- A turn that leaves something to write has taken a chunk from the channel, or the pending one. -/
theorem pull_progress (hempty : client.outbuf = [] ∧ client.outPos = 0)
    (hmore : (client.pull queue buffered).1.framePending.outPos
      ≠ (client.pull queue buffered).1.framePending.outbuf.length) :
    (client.pull queue buffered).2.1.length < queue.length + client.pending.toList.length := by
  by_cases hq : queue = []
  · subst hq
    cases hp : client.pending with
    | none =>
      -- nothing was there to frame
      refine absurd ?_ hmore
      simp [pull, framePending, hp, hempty]
    | some => exact Nat.zero_lt_one
  · exact Nat.lt_of_lt_of_le (length_pull_lt client hq) (Nat.le_add_right _ _)

/-- `pump_stream_client`: the client and its channel afterwards, and whether the client is kept. `sender` says that
    the broadcaster still has the subscriber. -/
def StreamClient.pump (sender : Bool) (client : StreamClient) (queue : List SessionOutputChunk) (buffered : Nat)
    (results : List WriteResult) : StreamClient × List SessionOutputChunk × Nat × Bool :=
  match _hflush : client.flushClientOutbuf results with
  | (flushed, _, false) => (flushed, queue, buffered, false)
  | (flushed, results, true) =>
    -- the socket is full
    if _hfull : flushed.outPos < flushed.outbuf.length then (flushed, queue, buffered, true)
    else if flushed.closing then (flushed, queue, buffered, false)
    else
      let pulled := flushed.pull queue buffered
      let disconnected := pulled.2.2.2 && !sender
      let framed := pulled.1.framePending
      if _hmore : framed.outPos = framed.outbuf.length then
        (framed, pulled.2.1, pulled.2.2.1, !(disconnected || framed.closing))
      else if disconnected then ((framed.flushClientOutbuf results).1, pulled.2.1, pulled.2.2.1, false)
      else framed.pump sender pulled.2.1 pulled.2.2.1 results
termination_by queue.length + client.pending.toList.length
decreasing_by
  rw [framePending_pending, ← flushClientOutbuf_pending _hflush]
  exact pull_progress (flushClientOutbuf_empty _hflush _hfull) _hmore

/-- One turn of the loop, of a client whose socket is not full and whose channel goes on. -/
theorem pump_turn (hflush : client.flushClientOutbuf results = (flushed, results', true))
    (hdone : ¬ flushed.outPos < flushed.outbuf.length) (hopen : flushed.closing = false)
    (hpull : flushed.pull queue buffered = (pulled, queue', buffered', empty)) (hsender : (empty && !sender) = false) :
    client.pump sender queue buffered results = if pulled.framePending.outPos = pulled.framePending.outbuf.length then
        (pulled.framePending, queue', buffered', !pulled.framePending.closing)
      else pulled.framePending.pump sender queue' buffered' results' := by
  rw [pump]
  split
  · rename_i heq
    rw [hflush] at heq
    cases heq
  · rename_i heq
    rw [hflush] at heq
    cases heq
    rw [dif_neg hdone, hopen]
    simp only [hpull, hsender, Bool.false_or, Bool.false_eq_true, if_false, dite_eq_ite]

/-! ## What pumping keeps -/

/-- Two neighbours become one. -/
def Merge (chunks chunks' : List SessionOutputChunk) : Prop :=
  ∃ before current next after, canMergeOutputStreamChunk current next sessionOutputStreamBatchMaxBytes = true ∧
      chunks = before ++ current :: next :: after ∧ chunks' = before ++ current.extend next :: after

section

variable (client : StreamClient)

/-- The chunks on their way to a client: framed, held back, and in its channel. -/
@[simp] def StreamClient.carried (queue : List SessionOutputChunk) : List SessionOutputChunk :=
  client.framed ++ client.pending.toList ++ queue

/-- Every byte framed is on the socket or in the outbox. -/
structure StreamClient.Written : Prop where
  bytes : client.framed.flatMap sessionOutputFrameBytes = client.sent ++ client.outbuf.drop client.outPos
  pos : client.outPos ≤ client.outbuf.length

/-- All that pumping does to a client and its channel, as far as the stream is concerned. -/
structure Pumps (queue : List SessionOutputChunk) (client' : StreamClient)
    (queue' : List SessionOutputChunk) : Prop where
  subscriberId : client'.subscriberId = client.subscriberId
  offset : client'.offset = client.offset
  written : client.Written → client'.Written
  merges : Relation.ReflTransGen Merge (client.carried queue) (client'.carried queue')

end

section Pumps

variable {client client' client'' : StreamClient} {queue queue' queue'' : List SessionOutputChunk}
  {chunk : SessionOutputChunk}

theorem Pumps.refl : Pumps client queue client queue :=
  ⟨rfl, rfl, id, .refl⟩

theorem Pumps.trans (h : Pumps client queue client' queue') (h' : Pumps client' queue' client'' queue'') :
    Pumps client queue client'' queue'' :=
  ⟨h'.subscriberId.trans h.subscriberId, h'.offset.trans h.offset, h'.written ∘ h.written, h.merges.trans h'.merges⟩

theorem written_accepted {subscriberId offset : Nat} : (accepted subscriberId offset).Written :=
  ⟨rfl, le_rfl⟩

section

variable (client : StreamClient)

/-- Writing moves bytes from the outbox to the socket. -/
theorem wrote_pumps (h : taken ≤ client.outbuf.length - client.outPos) :
    Pumps client queue { client with
      outPos := client.outPos + taken
      stalled := false
      sent := client.sent ++ (client.outbuf.drop client.outPos).take taken } queue := by
  refine ⟨rfl, rfl, fun hw => ⟨?_, ?_⟩, .refl⟩
  · rw [hw.bytes, List.append_assoc, ← List.drop_drop, List.take_append_drop]
  · have hpos := hw.pos
    show client.outPos + taken ≤ client.outbuf.length
    omega

theorem writeLoop_pumps (results : List WriteResult) (queue : List SessionOutputChunk) :
    Pumps client queue (client.writeLoop results).1 queue := by
  fun_induction writeLoop client results
  case case3 client _ _ _ _ _ ih => exact (wrote_pumps client (Nat.min_le_right _ _)).trans ih
  case case5 ih => exact ih
  all_goals exact .refl

theorem compact_pumps : Pumps client queue client.compact queue := by
  unfold compact
  split
  · rename_i hall
    refine ⟨rfl, rfl, fun hw => ⟨?_, le_rfl⟩, .refl⟩
    rw [hw.bytes, List.drop_eq_nil_of_le hall]
    rfl
  · split
    · exact ⟨rfl, rfl, fun hw => ⟨hw.bytes, Nat.zero_le _⟩, .refl⟩
    · exact .refl

theorem flushClientOutbuf_pumps (results : List WriteResult) (queue : List SessionOutputChunk) :
    Pumps client queue (client.flushClientOutbuf results).1 queue := by
  have hwrite := writeLoop_pumps client results queue
  unfold flushClientOutbuf
  split
  · rename_i heq
    rw [heq] at hwrite
    exact hwrite
  · rename_i heq
    rw [heq] at hwrite
    exact hwrite.trans (compact_pumps _)

end

variable {results' results : List WriteResult}

theorem flushed_pumps (h : client.flushClientOutbuf results = (client', results', kept)) :
    Pumps client queue client' queue := by
  have hpumps := flushClientOutbuf_pumps client results queue
  rw [h] at hpumps
  exact hpumps

theorem StreamClient.Written.frame (h : client.Written) (chunk : SessionOutputChunk) :
    (client.frame chunk).Written := by
  constructor
  · show (client.framed ++ [chunk]).flatMap sessionOutputFrameBytes = _
    rw [List.flatMap_append, h.bytes, List.append_assoc]
    show _ = client.sent ++ (client.outbuf ++ sessionOutputFrameBytes chunk).drop client.outPos
    rw [List.drop_append_of_le_length h.pos]
    simp
  · show client.outPos ≤ (client.outbuf ++ _).length
    rw [List.length_append]
    exact Nat.le_add_right_of_le h.pos

theorem framePending_pumps (client : StreamClient) (queue : List SessionOutputChunk) :
    Pumps client queue client.framePending queue := by
  unfold framePending
  split
  · exact .refl
  · rename_i current hp
    refine ⟨rfl, rfl, fun hw => ⟨(hw.frame current).bytes, (hw.frame current).pos⟩, ?_⟩
    simp [hp]
    exact .refl

theorem place_pumps (hp : client.pending = none) :
    Pumps client (chunk :: queue) (client.place chunk).1 queue := by
  unfold place
  dsimp only
  split
  · refine ⟨rfl, rfl, fun hw => hw.frame chunk, ?_⟩
    simp [hp]
    exact .refl
  · refine ⟨rfl, rfl, fun hw => ⟨hw.bytes, hw.pos⟩, ?_⟩
    simp [hp]
    exact .refl

/-- **One chunk received**: it is framed, held back, or merged into the one before it. -/
theorem receive_pumps (client : StreamClient) (chunk : SessionOutputChunk) (queue : List SessionOutputChunk) :
    Pumps client (chunk :: queue) (client.receive chunk).1 queue := by
  unfold receive
  split
  · -- the last chunk: what was held back goes before it
    refine (framePending_pumps client (chunk :: queue)).trans
      ⟨rfl, rfl, fun hw => ⟨(hw.frame chunk).bytes, (hw.frame chunk).pos⟩, ?_⟩
    simp [framePending_pending]
    exact .refl
  · split
    · rename_i hp
      exact place_pumps hp
    · rename_i current hp
      split
      · rename_i hmerge
        have hstep : Merge (client.carried (chunk :: queue)) (client.framed ++ current.extend chunk :: queue) :=
          ⟨client.framed, current, chunk, queue, hmerge, by simp [hp], rfl⟩
        dsimp only
        split
        · refine ⟨rfl, rfl, fun hw => ⟨(hw.frame _).bytes, (hw.frame _).pos⟩, .single ?_⟩
          simpa using hstep
        · refine ⟨rfl, rfl, fun hw => ⟨hw.bytes, hw.pos⟩, .single ?_⟩
          simpa using hstep
      · exact (framePending_pumps client _).trans (place_pumps (framePending_pending client))

theorem pull_pumps (client : StreamClient) (buffered : Nat) :
    Pumps client queue (client.pull queue buffered).1 (client.pull queue buffered).2.1 := by
  induction queue generalizing client buffered with
  | nil => exact .refl
  | cons chunk queue ih =>
    have hreceive := receive_pumps client chunk queue
    rw [pull]
    split
    · rename_i heq
      rw [heq] at hreceive
      exact hreceive
    · rename_i heq
      rw [heq] at hreceive
      exact hreceive.trans (ih _ _)

/-- One turn of the loop, up to the frames it leaves in the outbox. -/
theorem turn_pumps (h : client.flushClientOutbuf results = (client', results', kept)) :
    Pumps client queue (client'.pull queue buffered).1.framePending (client'.pull queue buffered).2.1 :=
  ((flushed_pumps h).trans (pull_pumps client' buffered)).trans (framePending_pumps _ _)

/-- **A whole pump** only writes, frames and merges. -/
theorem pump_pumps (sender : Bool) (client : StreamClient) (queue : List SessionOutputChunk) (buffered : Nat)
    (results : List WriteResult) :
    Pumps client queue (client.pump sender queue buffered results).1
      (client.pump sender queue buffered results).2.1 := by
  fun_induction pump sender client queue buffered results
  -- the client is gone, its socket is full, or its last frame is out
  case case1 hflush => exact flushed_pumps hflush
  case case2 hflush _ => exact flushed_pumps hflush
  case case3 hflush _ _ => exact flushed_pumps hflush
  -- the channel was empty
  case case4 hflush _ _ _ _ _ _ => exact turn_pumps hflush
  -- the broadcaster has dropped the subscriber
  case case5 hflush _ _ _ _ _ _ _ => exact (turn_pumps hflush).trans (flushClientOutbuf_pumps _ _ _)
  case case6 hflush _ _ _ _ _ _ _ ih => exact (turn_pumps hflush).trans ih

end Pumps

end Supercli.Output
