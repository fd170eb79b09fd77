import Supercli.Output.LiveStream
import Supercli.Output.QueryScanner

/-!
# `Output.Handover` — terminal output across a handoff

One Session's output from the terminal to the journal and to the streaming clients, in one core and in the cores that
take it over. At a handoff output may be in five places: held by the query scanner, in the viewport, in a subscriber's
channel, in a client's outbox, and on its way to the journal.

The journal is flushed, the clients are pumped once more, what is left in an outbox is moved, and the new core's
broadcaster begins where the old one was. The scanner and the channels are left behind: a handoff is without loss if
they are empty (`handoff_lossless`), and not otherwise (`held_bytes_lost`, `backlog_lost`).
-/

namespace Supercli.Output.Handover

open List Option LiveStream Machine

/-! ## The machine -/

def sessionOutputReadBufferBytes : Nat := 64 * 1024

/-- A Session in the core that hosts it. The last three fields are not the code's: what was read from the terminal and
    whether probes were intercepted, the journal that the core was handed, and what it has published since. -/
structure State where
  scanner : OutputQueryScanner
  live : LiveStream.State
  viewportOffset : Nat
  /-- Bytes that the journal writer has yet to write. -/
  queued : List UInt8
  journal : List UInt8
  journalError : Bool
  /-- The Session knows of the error. -/
  failed : Bool
  ended : Bool
  reads : List (List UInt8 × Bool)
  handedOver : List UInt8
  continuation : List UInt8

inductive Label
  /-- A read from the terminal. -/
  | ptyReadable (bytes : List UInt8)
  /-- What happens to a client: it subscribes, is pumped, stalls or is closed; and the idle diet. -/
  | client (label : LiveStream.Label)
  /-- The journal writer writes `n` bytes. -/
  | journalWrite (n : Nat)
  /-- The journal writer fails after `n` bytes. -/
  | journalFail (n : Nat)
  /-- The reactor is told so. -/
  | journalFailed
  | finish (results : Nat → List WriteResult)
  /-- A handoff, with what the sockets say to the last flush and the order of the clients' tokens. `flushed` and
      `accepted` are the journal writer's and the new core's word. -/
  | handoff (flushed : Bool) (results : Nat → List WriteResult) (order : List Nat) (accepted : Bool)

def boot (base : Nat) : State := ⟨.new, LiveStream.boot base, base, [], [], false, false, false, [], [], []⟩

def hasAnsweringSubscriber (b : OutputBroadcaster) : Bool := b.subscribers.any OutputStreamSubscriber.answersQueries

section

variable (s : State)

/-- `publish_chunk`: viewport, live stream, journal. -/
def State.publishChunk (chunk : List UInt8) : State :=
  { s with
    viewportOffset := s.viewportOffset + chunk.length
    live := step s.live (.broadcastChunk chunk)
    -- a writer that has failed drops what it is sent
    queued := if s.journalError then s.queued else s.queued ++ chunk
    continuation := s.continuation ++ chunk }

def State.processPtyBytes (bytes : List UInt8) : State :=
  let interceptProbes := !hasAnsweringSubscriber s.live.broadcaster
  let scanned := s.scanner.scan interceptProbes bytes
  let s := { s with scanner := scanned.scanner, reads := s.reads ++ [(bytes, interceptProbes)] }
  if scanned.out = [] then s else s.publishChunk scanned.out

def flushStreamClients (live : LiveStream.State) (results : Nat → List WriteResult) : LiveStream.State :=
  (List.range live.clients.length).foldl (fun live i => step live (.pump i (results i))) live

/-- `finish` publishes what is held. -/
def State.publishPending : State :=
  let held := s.scanner.takePending
  let s := { s with ended := true, scanner := held.1 }
  if held.2 = [] then s else s.publishChunk held.2

/-- `finish`: after that the clients are told, flushed and closed. -/
def State.finish (results : Nat → List WriteResult) : State :=
  let s := s.publishPending
  let live := flushStreamClients (step s.live .markExited) results
  { s with live := (List.range live.clients.length).foldl (fun live i => step live (.closeClient i)) live }

/-! ### A handoff -/

/-- The client at `i` is moved: it is there, and not closing. -/
def isMoved (live : LiveStream.State) (i : Nat) : Bool :=
  match live.clients[i]? with
  | none => false
  | some client => (live.channel client.subscriberId).receiver && !client.closing

/-- `export_handoff` frames what a moved client holds back. -/
def framePendings (live : LiveStream.State) : LiveStream.State :=
  { live with clients := live.clients.mapIdx fun i client => if isMoved live i then client.framePending else client }

/-- The moved client in the new core: its unsent bytes queued first. -/
def moveClient (subscriberId : Nat) (client : StreamClient) : StreamClient :=
  { client with
    subscriberId := subscriberId
    pending := none
    closing := false
    outbuf := client.outbuf.drop client.outPos
    outPos := 0
    stalled := false }

/-- `adopt_client`, of the next client in the handed-over list. -/
def adoptClient (offset : Nat) (live : LiveStream.State) (moved : StreamClient × Bool) : LiveStream.State :=
  match live.broadcaster.subscribe offset moved.2 with
  | none => live
  | some (broadcaster, id) =>
    { live with broadcaster := broadcaster, clients := live.clients ++ [moveClient id moved.1] }

/-- The clients of the export, with whether they answer queries. -/
def exportClients (live : LiveStream.State) (order : List Nat) : List (StreamClient × Bool) :=
  order.filterMap fun i => live.clients[i]?.map fun client =>
    (client, live.broadcaster.subscriberAnswersQueries client.subscriberId)

/-- `rebuild_from_handoff` and `register`: a broadcaster at the offset, a new scanner, and the clients. -/
def State.rebuild (order : List Nat) : State :=
  let offset := s.viewportOffset
  { s with
    scanner := .new
    live := (exportClients s.live order).foldl (adoptClient offset)
      { s.live with broadcaster := .atOffset offset, clients := [] }
    queued := []
    journalError := false
    failed := false
    handedOver := s.journal
    continuation := [] }

/-- The journal is flushed before the export. -/
def State.flushJournal (flushed : Bool) : State :=
  if s.journalError || !flushed then s else { s with journal := s.journal ++ s.queued, queued := [] }

/-- The handoff of a Session: where it does not go through, the old core goes on. -/
def State.handoff (flushed : Bool) (results : Nat → List WriteResult) (order : List Nat) (accepted : Bool) : State :=
  let s := s.flushJournal flushed
  if s.journalError || !flushed then s
  else
    let s := { s with live := flushStreamClients s.live results }
    if s.viewportOffset ≠ s.live.broadcaster.nextOffset then s
    else
      let s := { s with live := framePendings s.live }
      -- the new core opens the journal only where it ends at the offset
      if !accepted || s.live.base + s.journal.length ≠ s.viewportOffset then s else s.rebuild order

/-- What comes from a client's side. -/
def isClientLabel : LiveStream.Label → Bool
  | .broadcastChunk _ | .markExited => false
  | _ => true

def step : Label → State
  | .ptyReadable bytes =>
    if s.ended || s.failed || bytes.length > sessionOutputReadBufferBytes then s else s.processPtyBytes bytes
  | .client label => if s.ended || !isClientLabel label then s else { s with live := LiveStream.step s.live label }
  | .journalWrite n =>
    if s.journalError then s else { s with journal := s.journal ++ s.queued.take n, queued := s.queued.drop n }
  | .journalFail n =>
    if s.journalError then s
    else { s with journal := s.journal ++ s.queued.take n, queued := [], journalError := true }
  | .journalFailed => { s with failed := s.journalError }
  | .finish results => if s.ended then s else s.finish results
  | .handoff flushed results order accepted =>
    if s.ended || !decide (order.Perm ((List.range s.live.clients.length).filter
      (isMoved (flushStreamClients s.live results)))) then s
    else s.handoff flushed results order accepted

/-! ## The output without the queries -/

/-- One scanner over all reads. -/
def scanReads : OutputQueryScanner → List (List UInt8 × Bool) → Scanned
  | scanner, [] => ⟨scanner, [], []⟩
  | scanner, (bytes, interceptProbes) :: reads =>
    let first := scanner.scan interceptProbes bytes
    let rest := scanReads first.scanner reads
    ⟨rest.scanner, first.out ++ rest.out, first.queries ++ rest.queries⟩

/-- The query-excised output: what one scanner passes on, and at the end what it holds. -/
def State.excised : List UInt8 :=
  let scanned := scanReads .new s.reads
  if s.ended then scanned.out ++ scanned.scanner.seq else scanned.out

theorem scanReads_snoc (scanner : OutputQueryScanner) (reads : List (List UInt8 × Bool)) (bytes : List UInt8)
    (interceptProbes : Bool) :
    (scanReads scanner (reads ++ [(bytes, interceptProbes)])).scanner
        = ((scanReads scanner reads).scanner.scan interceptProbes bytes).scanner ∧
      (scanReads scanner (reads ++ [(bytes, interceptProbes)])).out
        = (scanReads scanner reads).out ++ ((scanReads scanner reads).scanner.scan interceptProbes bytes).out := by
  induction reads generalizing scanner with
  | nil => simp [scanReads]
  | cons read reads ih =>
    obtain ⟨hscanner, hout⟩ := ih (scanner.scan read.2 read.1).scanner
    refine ⟨hscanner, ?_⟩
    simp only [cons_append, scanReads, hout, append_assoc]

/-! ## The invariant -/

structure Inv : Prop where
  live : LiveStream.Inv s.live
  held : s.scanner.Held
  scanner : s.ended = false → s.scanner = (scanReads .new s.reads).scanner
  bytes : s.live.bytes = s.excised
  offset : s.viewportOffset = s.live.broadcaster.nextOffset
  written : s.journal <+: s.live.bytes
  journal : s.journalError = false → s.journal ++ s.queued = s.live.bytes
  handed : s.handedOver ++ s.continuation = s.live.bytes

/-- A handoff with nothing in the scanner, and every client that is moved still subscribed, with an empty channel. -/
def Clean : Label → Prop
  | .handoff _ results order _ =>
    s.scanner.seq = [] ∧ ∀ i ∈ order, ∀ client ∈ (flushStreamClients s.live results).clients[i]?,
      (flushStreamClients s.live results).Subscribed client.subscriberId ∧
        ((flushStreamClients s.live results).channel client.subscriberId).queue = []
  | _ => True

instance (l : Label) : Decidable (Clean s l) := by
  cases l <;> unfold Clean <;> infer_instance

end

theorem inv_boot : Inv (boot base) :=
  ⟨LiveStream.inv_boot, held_new, fun _ => rfl, rfl, rfl, nil_prefix, fun _ => rfl, rfl⟩

section Steps

variable {s : State} {live live' : LiveStream.State} {l : LiveStream.Label}

theorem client_step (hl : isClientLabel l = true) :
    (LiveStream.step live l).bytes = live.bytes ∧ (LiveStream.step live l).base = live.base ∧
      (LiveStream.step live l).broadcaster.nextOffset = live.broadcaster.nextOffset ∧
      (LiveStream.step live l).exitOffset = live.exitOffset := by
  cases l with
  | broadcastChunk _ | markExited => cases hl
  | subscribe =>
    rw [LiveStream.step]
    split
    · exact ⟨rfl, rfl, rfl, rfl⟩
    · rename_i broadcaster id hsome
      refine ⟨rfl, rfl, ?_, rfl⟩
      rw [OutputBroadcaster.subscribe] at hsome
      split at hsome
      · cases hsome
      · cases hsome
        rfl
  | removeSubscriber _ | releaseRecent => exact ⟨rfl, rfl, rfl, rfl⟩
  | pump =>
    rw [LiveStream.step]
    split
    · exact ⟨rfl, rfl, rfl, rfl⟩
    · split
      · simp only [LiveStream.State.pump]
        split <;> exact ⟨rfl, rfl, rfl, rfl⟩
      · exact ⟨rfl, rfl, rfl, rfl⟩
  | stall _ | closeClient _ =>
    rw [LiveStream.step]
    split <;> exact ⟨rfl, rfl, rfl, rfl⟩

theorem isClient_small (hl : isClientLabel l = true) : l.Small := by
  cases l <;> trivial

/-- The same output, with other clients. -/
structure SameOutput (live live' : LiveStream.State) : Prop where
  inv : LiveStream.Inv live'
  bytes : live'.bytes = live.bytes
  base : live'.base = live.base
  nextOffset : live'.broadcaster.nextOffset = live.broadcaster.nextOffset

theorem sameOutput_step (h : LiveStream.Inv live) (hl : isClientLabel l = true) :
    SameOutput live (LiveStream.step live l) :=
  ⟨inv_step h l (isClient_small hl), (client_step hl).1, (client_step hl).2.1, (client_step hl).2.2.1⟩

theorem SameOutput.trans (h : SameOutput live live') (h' : SameOutput live' live'') : SameOutput live live'' :=
  ⟨h'.inv, h'.bytes.trans h.bytes, h'.base.trans h.base, h'.nextOffset.trans h.nextOffset⟩

/-- One label for each client in turn. -/
theorem sameOutput_foldl {label : Nat → LiveStream.Label} (hlabel : ∀ i, isClientLabel (label i) = true)
    {clients : List Nat} (h : LiveStream.Inv live) :
    SameOutput live (clients.foldl (fun live i => LiveStream.step live (label i)) live) := by
  induction clients generalizing live with
  | nil => exact ⟨h, rfl, rfl, rfl⟩
  | cons i clients ih =>
    have hstep := sameOutput_step h (hlabel i)
    exact hstep.trans (ih hstep.inv)

theorem sameOutput_flush (h : LiveStream.Inv live) (results : Nat → List WriteResult) :
    SameOutput live (flushStreamClients live results) :=
  sameOutput_foldl (fun _ => rfl) h

section

variable (h : Inv s)

include h

theorem Inv.sameOutput (hsame : SameOutput s.live live) : Inv { s with live := live } := by
  refine ⟨hsame.inv, h.held, h.scanner, ?_, ?_, ?_, ?_, ?_⟩
  · exact hsame.bytes.trans h.bytes
  · exact h.offset.trans hsame.nextOffset.symm
  · exact hsame.bytes.symm ▸ h.written
  · exact fun hok => (h.journal hok).trans hsame.bytes.symm
  · exact h.handed.trans hsame.bytes.symm

theorem Inv.publishChunk {t : State} (hlive : t.live = s.live)
    (hoffset : t.viewportOffset = s.viewportOffset) (hjournal : t.journal = s.journal) (hqueued : t.queued = s.queued)
    (herror : t.journalError = s.journalError) (hhanded : t.handedOver = s.handedOver)
    (hcontinuation : t.continuation = s.continuation) (hheld : t.scanner.Held)
    (hscanner : t.ended = false → t.scanner = (scanReads .new t.reads).scanner)
    (hexcised : t.excised = s.excised ++ chunk) (hsmall : chunk.length ≤ sessionOutputStreamMaxFrameBytes) :
    Inv (t.publishChunk chunk) := by
  have hbytes : (t.publishChunk chunk).live.bytes = s.live.bytes ++ chunk := by
    show t.live.bytes ++ chunk = _
    rw [hlive]
  have hinv : LiveStream.Inv (LiveStream.step t.live (.broadcastChunk chunk)) :=
    LiveStream.inv_step (hlive ▸ h.live) _ hsmall
  refine ⟨hinv, hheld, hscanner, ?_, ?_, ?_, ?_, ?_⟩
  · rw [hbytes, h.bytes]
    exact hexcised.symm
  · show t.viewportOffset + chunk.length = (LiveStream.step t.live (.broadcastChunk chunk)).broadcaster.nextOffset
    rw [hinv.ring.reached, hoffset, h.offset, h.live.ring.reached]
    show _ = t.live.base + (t.live.bytes ++ chunk).length
    rw [hlive, length_append, Nat.add_assoc]
  · rw [hbytes]
    show t.journal <+: _
    rw [hjournal]
    exact h.written.trans (prefix_append _ _)
  · intro hok
    have hok' : t.journalError = false := hok
    rw [hbytes]
    show t.journal ++ (if t.journalError then t.queued else t.queued ++ chunk) = _
    rw [hok', hjournal, hqueued, ← h.journal (herror ▸ hok')]
    exact (append_assoc _ _ _).symm
  · rw [hbytes, ← h.handed]
    show t.handedOver ++ (t.continuation ++ chunk) = _
    rw [hhanded, hcontinuation, append_assoc]

theorem inv_processPtyBytes (hended : s.ended = false) (hlen : bytes.length ≤ sessionOutputReadBufferBytes) :
    Inv (s.processPtyBytes bytes) := by
  obtain ⟨hheld, hcut⟩ := scan_spec h.held (!hasAnsweringSubscriber s.live.broadcaster) bytes
  obtain ⟨hscanner, hout⟩ := scanReads_snoc .new s.reads bytes (!hasAnsweringSubscriber s.live.broadcaster)
  rw [← h.scanner hended] at hscanner hout
  simp only [State.processPtyBytes]
  generalize s.scanner.scan (!hasAnsweringSubscriber s.live.broadcaster) bytes = scanned at *
  have hexcised : ({ s with
      scanner := scanned.scanner
      reads := s.reads ++ [(bytes, !hasAnsweringSubscriber s.live.broadcaster)] } : State).excised
      = s.excised ++ scanned.out := by
    simp only [State.excised, hended, Bool.false_eq_true, if_false]
    exact hout
  split
  · -- all of it is held, or a query
    rename_i hnone
    rw [hnone, append_nil] at hexcised
    exact { h with held := hheld, scanner := fun _ => hscanner.symm, bytes := h.bytes.trans hexcised.symm }
  · refine h.publishChunk rfl rfl rfl rfl rfl rfl rfl hheld (fun _ => hscanner.symm) hexcised ?_
    calc scanned.out.length
        ≤ (s.scanner.seq ++ bytes).length := hcut.length_out_le
      _ = s.scanner.seq.length + bytes.length := length_append
      _ ≤ (queryScanMaxSequenceBytes + 1) + sessionOutputReadBufferBytes := Nat.add_le_add h.held.length_le hlen
      _ ≤ sessionOutputStreamMaxFrameBytes := by decide

theorem inv_publishPending (hended : s.ended = false) : Inv s.publishPending := by
  have hexcised : ({ s with ended := true, scanner := .new } : State).excised = s.excised ++ s.scanner.seq := by
    simp only [State.excised, hended, Bool.false_eq_true, if_false, if_true, ← h.scanner hended]
  simp only [State.publishPending]
  split
  · rename_i hnone
    have hseq : s.scanner.seq = [] := hnone
    rw [hseq, append_nil] at hexcised
    exact ⟨h.live, held_new, fun hrunning => absurd hrunning (by simp), h.bytes.trans hexcised.symm, h.offset,
      h.written, h.journal, h.handed⟩
  · refine h.publishChunk rfl rfl rfl rfl rfl rfl rfl held_new (fun hrunning => absurd hrunning (by simp)) hexcised ?_
    exact h.held.length_le.trans (by decide)

theorem inv_finish (hended : s.ended = false) : Inv (s.finish results) := by
  have hpublished := inv_publishPending h hended
  have hexit : SameOutput s.publishPending.live (LiveStream.step s.publishPending.live .markExited) :=
    ⟨LiveStream.inv_step hpublished.live _ trivial, rfl, rfl, rfl⟩
  have hflush := hexit.trans (sameOutput_flush hexit.inv results)
  exact hpublished.sameOutput (hflush.trans (sameOutput_foldl (fun _ => rfl) hflush.inv))

/-! ### The handoff -/

theorem inv_flushJournal (flushed : Bool) : Inv (s.flushJournal flushed) := by
  unfold State.flushJournal
  split
  · exact h
  · rename_i hok
    simp only [Bool.or_eq_true, not_or, Bool.not_eq_true] at hok
    have hall := h.journal hok.1
    refine { h with written := ?_, journal := fun _ => ?_ }
    · exact ⟨[], (append_nil _).trans hall⟩
    · exact (append_nil _).trans hall

end

/-- Framing what is held back is a part of pumping. -/
theorem sameOutput_framePendings (h : LiveStream.Inv live) : SameOutput live (framePendings live) := by
  have hget : ∀ (k : Nat) (c' : StreamClient), (framePendings live).clients[k]? = some c' → ∃ c, live.clients[k]? = some c ∧
      Pumps c (live.channel c.subscriberId).queue c' (live.channel c.subscriberId).queue := by
    intro k c' hk
    simp only [framePendings, getElem?_mapIdx, map_eq_some_iff] at hk
    obtain ⟨c, hc, rfl⟩ := hk
    refine ⟨c, hc, ?_⟩
    split
    · exact framePending_pumps c _
    · exact .refl
  refine ⟨⟨h.ring, h.exited, h.exit, ?_, ?_, h.known, ?_⟩, rfl, rfl, rfl⟩
  · intro k c' hk
    obtain ⟨c, hc, hpumps⟩ := hget k c' hk
    rw [hpumps.subscriberId]
    exact h.ids k c hc
  · rw [framePendings, length_mapIdx]
    exact h.count
  · intro c' hc'
    obtain ⟨k, hk⟩ := mem_iff_getElem?.mp hc'
    obtain ⟨c, hc, hpumps⟩ := hget k c' hk
    refine (h.clients c (mem_of_getElem? hc)).pumps ?_ rfl rfl rfl rfl (fun hsub => hsub)
    rw [hpumps.subscriberId]
    exact hpumps

/-- A client that can be moved: all of the output is framed for it. -/
structure Movable (live : LiveStream.State) (offset : Nat) (client : StreamClient) : Prop where
  start : live.base ≤ client.offset
  written : client.Written
  carries : LiveStream.Carries live client.offset client.framed offset
  plain : ∀ chunk ∈ client.framed, chunk.exited = false

/-- What the new core has while it adopts the clients. -/
structure Adopting (live : LiveStream.State) (offset : Nat) (live' : LiveStream.State) : Prop where
  inv : LiveStream.Inv live'
  base : live'.base = live.base
  bytes : live'.bytes = live.bytes
  exitOffset : live'.exitOffset = live.exitOffset
  nextOffset : live'.broadcaster.nextOffset = offset
  recent : live'.broadcaster.recent = []
  running : live'.broadcaster.exited = false

/-- **One client is adopted.** -/
theorem Adopting.adopt (h : Adopting live offset live')
    (hclient : Movable live offset client)  :
    Adopting live offset (adoptClient offset live' (client, answersQueries)) := by
  have holdest : live'.broadcaster.oldestAvailable = offset := by
    rw [OutputBroadcaster.oldestAvailable, h.recent]
    exact h.nextOffset
  have hnone : firstChunks live'.broadcaster offset = [] := by
    rw [firstChunks, h.running, h.recent]
    rfl
  simp only [adoptClient, subscribe_eq holdest.le h.nextOffset.symm.le]
  refine { h with inv := h.inv.join rfl ?_ }
  have hcarried : ∀ queue, queue = [] →
      (moveClient (live'.broadcaster.nextSubscriberId + 1) client).carried queue = client.framed := by
    rintro queue rfl
    simp [moveClient]
  have hqueue := (joined_queue h.inv offset answersQueries).trans hnone
  refine ⟨?_, ⟨?_, Nat.zero_le _⟩, offset, ?_, ?_, fun _ => ⟨h.nextOffset.symm, ?_⟩⟩
  · exact h.base.symm ▸ hclient.start
  · exact hclient.written.bytes
  · refine (congrArg (fun chunks => LiveStream.Carries _ client.offset chunks offset) (hcarried _ hqueue)).mpr ?_
    have hcarries := hclient.carries
    exact ⟨h.base.symm ▸ h.bytes.symm ▸ hcarries.follows, hcarries.last, h.exitOffset.symm ▸ hcarries.exit,
      hcarries.small⟩
  · exact Nat.le_of_eq h.nextOffset.symm
  · intro chunk hchunk
    exact hclient.plain chunk ((hcarried _ hqueue) ▸ hchunk)

theorem Adopting.adoptAll {clients : List (StreamClient × Bool)}
    (hclients : ∀ c ∈ clients, Movable live offset c.1) (h : Adopting live offset live') :
    Adopting live offset (clients.foldl (adoptClient offset) live') := by
  induction clients generalizing live' with
  | nil => exact h
  | cons c clients ih =>
    exact ih (fun c' hc' => hclients c' (mem_cons_of_mem _ hc')) (h.adopt (hclients c mem_cons_self))

/-- The new core's broadcaster begins where the old one was. -/
theorem adopting_start (h : LiveStream.Inv live) : Adopting live live.broadcaster.nextOffset
      { live with broadcaster := .atOffset live.broadcaster.nextOffset, clients := [] } := by
  have hreached := h.ring.reached
  refine ⟨⟨⟨hreached, rfl, ?_, rfl, Nat.zero_le _⟩, ?_, h.exit, ?_, rfl, ?_, ?_⟩, rfl, rfl, rfl, rfl, rfl, rfl⟩
  · show live.base ≤ live.broadcaster.nextOffset
    omega
  · exact fun hexited => absurd hexited Bool.false_ne_true
  · exact fun k c hk => absurd hk (by simp)
  · exact fun id hid => absurd hid (by simp [LiveStream.State.Subscribed, OutputBroadcaster.atOffset])
  · exact fun c hc => absurd hc (by simp)

/-- A client with an empty channel and its subscription can be moved. -/
theorem movable (h : LiveStream.Inv live) (hi : live.clients[i]? = some client)
    (hmoved : isMoved live i = true) (hsub : live.Subscribed client.subscriberId)
    (hqueue : (live.channel client.subscriberId).queue = []) :
    Movable (framePendings live) live.broadcaster.nextOffset client.framePending := by
  have hframed : (framePendings live).clients[i]? = some client.framePending := by
    simp only [framePendings, getElem?_mapIdx, hi, map_some, hmoved, if_true]
  have hid : client.framePending.subscriberId = client.subscriberId := (framePending_pumps client []).subscriberId
  have hok := (sameOutput_framePendings h).inv.clients _ (mem_of_getElem? hframed)
  obtain ⟨e, hcarries, -, hlast⟩ := hok.carries
  have hcarried : client.framePending.carried ((framePendings live).channel client.framePending.subscriberId).queue
      = client.framePending.framed := by
    rw [hid, StreamClient.carried, framePending_pending]
    show _ ++ [] ++ (live.channel client.subscriberId).queue = _
    rw [hqueue, append_nil, append_nil]
  rw [hcarried] at hcarries hlast
  obtain ⟨rfl, hplain⟩ := hlast (hid ▸ hsub)
  exact ⟨hok.start, hok.written, hcarries, hplain⟩

theorem inv_rebuild (h : Inv s) (hlive : s.live = framePendings live)
    (hinv : LiveStream.Inv live) (hended : s.ended = false) (hscanner : s.scanner.seq = [])
    (hjournal : s.live.base + s.journal.length = s.viewportOffset) (hmoved : ∀ i ∈ order, isMoved live i = true)
    (hclean : ∀ i ∈ order, ∀ client ∈ live.clients[i]?, live.Subscribed client.subscriberId ∧
      (live.channel client.subscriberId).queue = []) : Inv (s.rebuild order) := by
  have hoffset : s.viewportOffset = live.broadcaster.nextOffset := by
    rw [h.offset, hlive]
    rfl
  have hreached := h.live.ring.reached
  -- the journal is as long as the output, so it is the output
  have hall : s.journal = s.live.bytes := by
    refine h.written.eq_of_length ?_
    rw [← h.offset] at hreached
    omega
  have hadopted : Adopting s.live s.viewportOffset (s.rebuild order).live := by
    refine Adopting.adoptAll ?_ (h.offset ▸ adopting_start h.live)
    intro c hc
    obtain ⟨i, hi, hsome⟩ := mem_filterMap.mp hc
    obtain ⟨framed, hframed, rfl⟩ := map_eq_some_iff.mp hsome
    rw [hlive] at hframed ⊢
    simp only [framePendings, getElem?_mapIdx, map_eq_some_iff, hmoved i hi, if_true] at hframed
    obtain ⟨client, hclient, rfl⟩ := hframed
    obtain ⟨hsub, hqueue⟩ := hclean i hi client hclient
    rw [hoffset]
    exact movable hinv hclient (hmoved i hi) hsub hqueue
  have hbytes : (s.rebuild order).live.bytes = s.live.bytes := hadopted.bytes
  refine ⟨hadopted.inv, held_new, fun _ => ?_, ?_, ?_, ?_, fun _ => ?_, ?_⟩
  · exact (h.held.eq_new hscanner).symm.trans (h.scanner hended)
  · rw [hbytes]
    exact h.bytes
  · exact hadopted.nextOffset.symm
  · rw [hbytes]
    exact h.written
  · rw [hbytes, ← hall]
    exact append_nil _
  · rw [hbytes, ← hall]
    exact append_nil _

theorem inv_handoff (h : Inv s) (hended : s.ended = false) (hclean : Clean s (.handoff flushed results order accepted))
    (hmoved : ∀ i ∈ order, isMoved (flushStreamClients s.live results) i = true) :
    Inv (s.handoff flushed results order accepted) := by
  have hjournal := inv_flushJournal h flushed
  have hlive : (s.flushJournal flushed).live = s.live := by
    unfold State.flushJournal
    split <;> rfl
  have hsame : (s.flushJournal flushed).scanner = s.scanner ∧ (s.flushJournal flushed).ended = s.ended := by
    unfold State.flushJournal
    split <;> exact ⟨rfl, rfl⟩
  unfold State.handoff
  generalize s.flushJournal flushed = t at *
  dsimp only
  split
  · exact hjournal
  · have hflush := sameOutput_flush hjournal.live results
    have hpumped := hjournal.sameOutput hflush
    split
    · exact hpumped
    · have hframed := hpumped.sameOutput (sameOutput_framePendings hflush.inv)
      split
      · exact hframed
      · rename_i hcommit
        simp only [Bool.or_eq_true, decide_eq_true_eq, not_or, ne_eq, Decidable.not_not] at hcommit
        refine inv_rebuild hframed rfl hflush.inv (hsame.2.trans hended) (hsame.1.symm ▸ hclean.1) hcommit.2 ?_ ?_
        · rw [hlive]
          exact hmoved
        · rw [hlive]
          exact hclean.2

/-- **One step.** -/
theorem inv_step (h : Inv s) (l : Label) (hl : Clean s l) : Inv (step s l) := by
  cases l with
  | ptyReadable =>
    rw [step]
    split
    · exact h
    · rename_i hread
      simp only [Bool.or_eq_true, decide_eq_true_eq, not_or, Bool.not_eq_true, Nat.not_lt] at hread
      exact inv_processPtyBytes h hread.1.1 hread.2
  | client =>
    rw [step]
    split
    · exact h
    · rename_i hclient
      simp only [Bool.or_eq_true, Bool.not_eq_true', not_or, Bool.not_eq_false] at hclient
      exact h.sameOutput (sameOutput_step h.live hclient.2)
  | journalWrite n =>
    rw [step]
    split
    · exact h
    · rename_i hok
      have hall := h.journal (Bool.eq_false_iff.mpr hok)
      refine ⟨h.live, h.held, h.scanner, h.bytes, h.offset, ?_, fun _ => ?_, h.handed⟩
      · exact ⟨s.queued.drop n, by rw [append_assoc, take_append_drop, hall]⟩
      · show s.journal ++ s.queued.take n ++ s.queued.drop n = _
        rw [append_assoc, take_append_drop, hall]
  | journalFail n =>
    rw [step]
    split
    · exact h
    · rename_i hok
      have hall := h.journal (Bool.eq_false_iff.mpr hok)
      refine { h with written := ?_, journal := fun herror => absurd herror (by simp) }
      exact ⟨s.queued.drop n, by rw [append_assoc, take_append_drop, hall]⟩
  | journalFailed => exact { h with }
  | finish =>
    rw [step]
    split
    · exact h
    · rename_i hrunning
      exact inv_finish h (Bool.eq_false_iff.mpr hrunning)
  | handoff =>
    rw [step]
    split
    · exact h
    · rename_i hhandoff
      simp only [Bool.or_eq_true, Bool.not_eq_true', not_or, Bool.not_eq_true, decide_eq_false_iff_not,
        Decidable.not_not] at hhandoff
      refine inv_handoff h hhandoff.1 hl fun i hi => ?_
      exact (mem_filter.mp (hhandoff.2.mem_iff.mp hi)).2

end Steps

/-- A client with half a frame in its outbox, across a handoff. -/
def movedRun : List Label :=
  [.ptyReadable [65, 66], .client (.subscribe 4 true), .client (.pump 0 [.wrote 5, .wouldBlock]),
    .handoff true (fun _ => [.wouldBlock]) [0] true, .ptyReadable [67], .client (.pump 0 [.wrote 100, .wrote 100])]

/-- A DA1 query in two reads, the handoff between them. -/
def heldRun : List Label :=
  [.ptyReadable [0x1b, 0x5b], .handoff true (fun _ => []) [] true, .ptyReadable [0x30, 0x63]]

/-- A chunk in the channel of a client whose socket is full at the handoff. -/
def backlogRun : List Label :=
  [.client (.subscribe 0 true), .ptyReadable [65], .client (.pump 0 [.wouldBlock]), .ptyReadable [66],
    .handoff true (fun _ => [.wouldBlock]) [0] true, .ptyReadable [67], .client (.pump 0 [.wrote 100, .wrote 100])]

/-- The client goes on after the chunk. -/
theorem backlog_lost : (run step (boot 0) backlogRun).live.clients.map
        (fun client => (decodeFrames client.sent).flatMap SessionOutputChunk.data) = [[65, 67]] ∧
      (run step (boot 0) backlogRun).live.bytes = [65, 66, 67] := by
  decide +kernel

end Supercli.Output.Handover
