import Supercli.Output.Frame

/-!
# `Output.Broadcaster` — live output and its subscribers

`OutputBroadcaster` numbers the output of a Session, keeps the last of it in a ring, and hands every chunk to the
channels of its subscribers. A subscriber names the offset it wants to go on from: what the ring still has is
replayed into its channel, and an offset that the ring does not cover is refused. A subscriber whose channel holds
too much is dropped.

What a channel is for is said by `Follows`: a list of chunks that carries the output from one offset to another.
-/

namespace Supercli.Output

open List

def sessionOutputStreamRecentBytes : Nat := 128 * 1024

def sessionOutputStreamSubscriberMaxBufferedBytes : Nat := 8 * 1024 * 1024

/-! ## The broadcaster -/

structure RecentOutputChunk where
  startOffset : Nat
  data : List UInt8
deriving DecidableEq, Repr

structure OutputStreamSubscriber where
  id : Nat
  answersQueries : Bool
deriving DecidableEq, Repr

/-- The channel between a subscriber and its client, with the count `buffered` that they share. -/
structure Channel where
  queue : List SessionOutputChunk
  buffered : Nat
  /-- The client still has its end. -/
  receiver : Bool
deriving DecidableEq, Repr

/-- `OutputBroadcaster`, with the channels of its subscribers by id. -/
structure OutputBroadcaster where
  nextSubscriberId : Nat
  nextOffset : Nat
  exited : Bool
  recentBytes : Nat
  recent : List RecentOutputChunk
  subscribers : List OutputStreamSubscriber
  channels : Nat → Channel

def OutputBroadcaster.atOffset (nextOffset : Nat) : OutputBroadcaster :=
  ⟨0, nextOffset, false, 0, [], [], fun _ => ⟨[], 0, false⟩⟩

/-- `enqueue_output_chunk`, and whether the subscriber is kept. -/
def enqueueOutputChunk (channel : Channel) (chunk : SessionOutputChunk) : Channel × Bool :=
  if channel.buffered > sessionOutputStreamSubscriberMaxBufferedBytes then (channel, false)
  else if channel.receiver then
    ({ channel with queue := channel.queue ++ [chunk], buffered := channel.buffered + chunk.data.length }, true)
  else (channel, false)

variable (b : OutputBroadcaster)

/-- A chunk for everyone: those that cannot take it are dropped. -/
def OutputBroadcaster.toAll (chunk : SessionOutputChunk) : OutputBroadcaster :=
  { b with
    subscribers := b.subscribers.filter fun s => (enqueueOutputChunk (b.channels s.id) chunk).2
    channels := fun id =>
      if id ∈ b.subscribers.map OutputStreamSubscriber.id then (enqueueOutputChunk (b.channels id) chunk).1
      else b.channels id }

/-- The ring is cut from the front until it is small enough. -/
def trimRecent : Nat → List RecentOutputChunk → Nat × List RecentOutputChunk
  | bytes, [] => (bytes, [])
  | bytes, oldest :: recent =>
    if bytes > sessionOutputStreamRecentBytes then trimRecent (bytes - oldest.data.length) recent
    else (bytes, oldest :: recent)

def OutputBroadcaster.broadcastChunk (data : List UInt8) : OutputBroadcaster :=
  if data = [] then b
  else
    let nextOffset := b.nextOffset + data.length
    let trimmed := trimRecent (b.recentBytes + data.length) (b.recent ++ [⟨b.nextOffset, data⟩])
    { b with nextOffset := nextOffset, recentBytes := trimmed.1, recent := trimmed.2 }.toAll
      ⟨data, nextOffset, false, true⟩

/-- The chunk that says that the Session is over. -/
def OutputBroadcaster.exitChunk : SessionOutputChunk := ⟨[], b.nextOffset, true, true⟩

def OutputBroadcaster.markExited : OutputBroadcaster :=
  { { b with exited := true }.toAll b.exitChunk with subscribers := [] }

def OutputBroadcaster.releaseRecent : OutputBroadcaster :=
  { b with recent := [], recentBytes := 0 }

def OutputBroadcaster.removeSubscriber (id : Nat) : OutputBroadcaster :=
  { b with subscribers := b.subscribers.filter (·.id ≠ id) }

open RecentOutputChunk

/-- The oldest offset that the ring covers. -/
def OutputBroadcaster.oldestAvailable : Nat :=
  (b.recent.head?.map startOffset).getD b.nextOffset

/-- What of a chunk of the ring a new subscriber gets. -/
def RecentOutputChunk.replay (offset : Nat) (chunk : RecentOutputChunk) : Option SessionOutputChunk :=
  let chunkEnd := chunk.startOffset + chunk.data.length
  if chunkEnd ≤ offset then none
  else
    let data := chunk.data.drop (offset - chunk.startOffset)
    if data = [] then none else some ⟨data, chunkEnd, false, true⟩

/-- Chunks for one channel, whatever becomes of them. -/
def Channel.enqueueAll (channel : Channel) (chunks : List SessionOutputChunk) : Channel :=
  chunks.foldl (fun channel chunk => (enqueueOutputChunk channel chunk).1) channel

/-- `subscribe`, and the id of the subscriber if it is accepted. -/
def OutputBroadcaster.subscribe (offset : Nat) (answersQueries : Bool) : Option (OutputBroadcaster × Nat) :=
  if offset < b.oldestAvailable ∨ offset > b.nextOffset then none
  else
    let id := b.nextSubscriberId + 1
    let replayed := b.recent.filterMap (replay offset)
    let chunks := if b.exited then replayed ++ [b.exitChunk] else replayed
    let channel := (⟨[], 0, true⟩ : Channel).enqueueAll chunks
    some ({ b with
      nextSubscriberId := id
      subscribers := if b.exited then b.subscribers else b.subscribers ++ [⟨id, answersQueries⟩]
      channels := fun k => if k = id then channel else b.channels k }, id)

def OutputBroadcaster.subscriberAnswersQueries (id : Nat) : Bool :=
  b.subscribers.any fun s => s.id == id && s.answersQueries

/-! ## What a list of chunks carries -/

/-- `Follows base bytes offset chunks e`: the chunks carry the output from `offset` to `e`, of a stream that began at
    `base` and is `bytes` so far. -/
def Follows (base : Nat) (bytes : List UInt8) : Nat → List SessionOutputChunk → Nat → Prop
  | offset, [], e => offset = e
  | offset, chunk :: chunks, e =>
    chunk.nextOffset = offset + chunk.data.length ∧ chunk.data <+: bytes.drop (offset - base) ∧
      Follows base bytes chunk.nextOffset chunks e

section Follows

variable {base offset m e : Nat} {bytes : List UInt8} {chunks chunks' : List SessionOutputChunk}

theorem follows_append : Follows base bytes offset (chunks ++ chunks') e ↔
    ∃ m, Follows base bytes offset chunks m ∧ Follows base bytes m chunks' e := by
  induction chunks generalizing offset with
  | nil => simp [Follows]
  | cons chunk chunks ih =>
    simp only [cons_append, Follows, ih]
    constructor
    · rintro ⟨h1, h2, m, h3, h4⟩
      exact ⟨m, ⟨h1, h2, h3⟩, h4⟩
    · rintro ⟨m, ⟨h1, h2, h3⟩, h4⟩
      exact ⟨h1, h2, m, h3, h4⟩

section

variable (h : Follows base bytes offset chunks e)

include h

theorem Follows.le : offset ≤ e := by
  induction chunks generalizing offset with
  | nil => exact Nat.le_of_eq h
  | cons chunk chunks ih =>
    have := ih h.2.2
    have := h.1
    omega

theorem Follows.extend (he : e ≤ base + bytes.length) (hb : base ≤ offset)
    (more : List UInt8) : Follows base (bytes ++ more) offset chunks e := by
  induction chunks generalizing offset with
  | nil => exact h
  | cons chunk chunks ih =>
    obtain ⟨hnext, hdata, hrest⟩ := h
    have hle := hrest.le
    refine ⟨hnext, ?_, ih hrest (by omega)⟩
    rw [drop_append_of_le_length (by omega)]
    exact hdata.trans (prefix_append _ _)

theorem Follows.snoc (chunk : SessionOutputChunk) (hnext : chunk.nextOffset = e + chunk.data.length)
    (hdata : chunk.data <+: bytes.drop (e - base)) : Follows base bytes offset (chunks ++ [chunk]) chunk.nextOffset :=
  follows_append.mpr ⟨e, h, hnext, hdata, rfl⟩

/-- **What is carried**: the output from `offset` on. -/
theorem Follows.data_stream (hb : base ≤ offset) :
    chunks.flatMap SessionOutputChunk.data <+: bytes.drop (offset - base) := by
  induction chunks generalizing offset with
  | nil => exact nil_prefix
  | cons chunk chunks ih =>
    obtain ⟨hnext, ⟨rest, hrest⟩, hfollows⟩ := h
    have hlater := ih hfollows (by omega)
    have hdrop : bytes.drop (chunk.nextOffset - base) = rest := by
      rw [show chunk.nextOffset - base = offset - base + chunk.data.length by omega, ← drop_drop, ← hrest, drop_left]
    rw [flatMap_cons, ← hrest]
    exact (prefix_append_right_inj _).mpr (hdrop ▸ hlater)

end

variable {chunk : SessionOutputChunk}

section

variable (h : Follows base bytes offset chunks e)

include h

/-- **Where each chunk ends**: after what is carried so far. -/
theorem Follows.nextOffset_eq (hk : chunks[k]? = some chunk) :
    chunk.nextOffset = offset + ((chunks.take (k + 1)).flatMap SessionOutputChunk.data).length := by
  induction chunks generalizing offset k with
  | nil => cases hk
  | cons first chunks ih =>
    obtain ⟨hnext, -, hfollows⟩ := h
    cases k with
    | zero =>
      simp only [getElem?_cons_zero, Option.some.injEq] at hk
      subst hk
      simpa using hnext
    | succ =>
      rw [getElem?_cons_succ] at hk
      rw [ih hfollows hk, take_succ_cons, flatMap_cons, length_append, hnext]
      omega

theorem Follows.length : e = offset + (chunks.flatMap SessionOutputChunk.data).length := by
  induction chunks generalizing offset with
  | nil => exact h.symm
  | cons chunk chunks ih =>
    obtain ⟨hnext, -, hfollows⟩ := h
    rw [ih hfollows, hnext, flatMap_cons, length_append, Nat.add_assoc]

theorem Follows.nextOffset_le (hin : chunk ∈ chunks) : chunk.nextOffset ≤ e := by
  obtain ⟨before, after, rfl⟩ := append_of_mem hin
  obtain ⟨_, -, -, -, hafter⟩ := follows_append.mp h
  exact hafter.le

end

end Follows

/-! ## The ring -/

/-- A chunk of the ring, as it was broadcast. -/
def RecentOutputChunk.chunk (r : RecentOutputChunk) : SessionOutputChunk :=
  ⟨r.data, r.startOffset + r.data.length, false, true⟩

/-- Where a ring begins whose end is `e`. -/
def ringStart (recent : List RecentOutputChunk) (e : Nat) : Nat :=
  (recent.head?.map startOffset).getD e

/-- The ring covers the output from its oldest offset on, and is small. -/
structure OutputBroadcaster.RingOk (b : OutputBroadcaster) (base : Nat) (bytes : List UInt8) : Prop where
  reached : b.nextOffset = base + bytes.length
  covers : Follows base bytes b.oldestAvailable (b.recent.map chunk) b.nextOffset
  oldest : base ≤ b.oldestAvailable
  size : b.recentBytes = (b.recent.flatMap data).length
  small : b.recentBytes ≤ sessionOutputStreamRecentBytes

section Ring

variable {base offset e : Nat} {bytes : List UInt8} {recent : List RecentOutputChunk} {b : OutputBroadcaster}

theorem ringOk_atOffset : (OutputBroadcaster.atOffset base).RingOk base [] :=
  ⟨rfl, rfl, le_rfl, rfl, Nat.zero_le _⟩

/-- Nothing else of a broadcaster matters. -/
theorem OutputBroadcaster.RingOk.congr {b' : OutputBroadcaster} (h : b.RingOk base bytes)
    (hnext : b'.nextOffset = b.nextOffset) (hsize : b'.recentBytes = b.recentBytes) (hrecent : b'.recent = b.recent) :
    b'.RingOk base bytes := by
  have holdest : b'.oldestAvailable = b.oldestAvailable := by
    rw [oldestAvailable, oldestAvailable, hrecent, hnext]
  constructor
  · rw [hnext]
    exact h.reached
  · rw [hrecent, hnext, holdest]
    exact h.covers
  · rw [holdest]
    exact h.oldest
  · rw [hsize, hrecent]
    exact h.size
  · rw [hsize]
    exact h.small

theorem ringStart_of_follows (h : Follows base bytes offset (recent.map chunk) e) : ringStart recent e = offset := by
  cases recent with
  | nil => exact h.symm
  | cons r recent =>
    have hnext : r.startOffset + r.data.length = offset + r.data.length := h.1
    show r.startOffset = offset
    omega

variable (recent : List RecentOutputChunk)

/-- What is left of the ring still goes up to its end. -/
theorem trimRecent_spec (h : Follows base bytes offset (recent.map chunk) e) (hn : n = (recent.flatMap data).length) :
    ∃ start, offset ≤ start ∧ Follows base bytes start ((trimRecent n recent).2.map chunk) e ∧
      (trimRecent n recent).1 = ((trimRecent n recent).2.flatMap data).length ∧
      (trimRecent n recent).1 ≤ sessionOutputStreamRecentBytes := by
  induction recent generalizing n offset with
  | nil =>
    refine ⟨offset, le_rfl, h, hn, ?_⟩
    show n ≤ _
    rw [hn]
    exact Nat.zero_le _
  | cons r recent ih =>
    rw [trimRecent]
    by_cases hbig : n > sessionOutputStreamRecentBytes
    · rw [if_pos hbig]
      have hn' : n - r.data.length = (recent.flatMap data).length := by
        rw [hn, flatMap_cons, length_append]
        omega
      obtain ⟨start, hle, hrest⟩ := ih h.2.2 hn'
      have hnext := h.1
      exact ⟨start, by omega, hrest⟩
    · rw [if_neg hbig]
      exact ⟨offset, le_rfl, h, hn, Nat.le_of_not_lt hbig⟩

/-- **The ring after a broadcast.** -/
theorem OutputBroadcaster.RingOk.broadcastChunk (h : b.RingOk base bytes) (data : List UInt8) :
    (b.broadcastChunk data).RingOk base (bytes ++ data) := by
  rw [OutputBroadcaster.broadcastChunk]
  by_cases hd : data = []
  · rw [if_pos hd, hd, append_nil]
    exact h
  · rw [if_neg hd]
    -- the new chunk is what the stream has at the old end
    have hend : (bytes ++ data).drop (b.nextOffset - base) = data := by
      rw [h.reached, Nat.add_sub_cancel_left, drop_left]
    have hdata : data <+: (bytes ++ data).drop (b.nextOffset - base) := ⟨[], (append_nil data).trans hend.symm⟩
    have hcovers := (h.covers.extend h.reached.le h.oldest data).snoc
      (⟨b.nextOffset, data⟩ : RecentOutputChunk).chunk rfl hdata
    rw [show [(⟨b.nextOffset, data⟩ : RecentOutputChunk).chunk]
      = [(⟨b.nextOffset, data⟩ : RecentOutputChunk)].map chunk from rfl,
      ← map_append] at hcovers
    have hsize : b.recentBytes + data.length
        = ((b.recent ++ [(⟨b.nextOffset, data⟩ : RecentOutputChunk)]).flatMap RecentOutputChunk.data).length := by
      rw [flatMap_append, length_append, ← h.size]
      simp
    obtain ⟨start, hle, hfollows, hbytes, hsmall⟩ := trimRecent_spec _ hcovers hsize
    obtain rfl := ringStart_of_follows hfollows
    refine ⟨?_, hfollows, h.oldest.trans hle, hbytes, hsmall⟩
    show b.nextOffset + data.length = base + (bytes ++ data).length
    rw [h.reached, length_append, Nat.add_assoc]

theorem OutputBroadcaster.RingOk.releaseRecent (h : b.RingOk base bytes) : b.releaseRecent.RingOk base bytes := by
  have hreached := h.reached
  refine ⟨h.reached, rfl, ?_, rfl, Nat.zero_le _⟩
  show base ≤ b.nextOffset
  omega

/-! ## The replay -/

/-- Past the offset asked for, a ring is replayed whole. -/
theorem replay_after (hx : x ≤ offset) (h : Follows base bytes offset (recent.map chunk) e) :
    Follows base bytes offset (recent.filterMap (replay x)) e := by
  induction recent generalizing offset with
  | nil => exact h
  | cons r recent ih =>
    obtain ⟨hnext, hdata, hrest⟩ := h
    have hend : r.startOffset + r.data.length = offset + r.data.length := hnext
    have hskip : x - r.startOffset = 0 := by omega
    have hlater := ih (show x ≤ r.startOffset + r.data.length by omega) hrest
    by_cases hempty : r.data = []
    · have hnone : r.replay x = none := by simp [replay, hempty]
      have hsame : r.chunk.nextOffset = offset := by
        rw [hnext]
        simp [chunk, hempty]
      rw [filterMap_cons_none hnone, ← hsame]
      exact hlater
    · have hpos := length_pos_iff.mpr hempty
      have hsome : r.replay x = some r.chunk := by
        simp only [replay, hskip, drop_zero, hempty, if_false]
        rw [if_neg (by omega)]
        rfl
      rw [filterMap_cons_some hsome]
      exact ⟨hnext, hdata, hlater⟩

/-- **The replay begins where it was asked to**, inside the chunk that holds the offset. -/
theorem replay_from (hb : base ≤ offset) (hx : offset ≤ x) (hxe : x ≤ e)
    (h : Follows base bytes offset (recent.map chunk) e) :
    Follows base bytes x (recent.filterMap (replay x)) e := by
  induction recent generalizing offset with
  | nil =>
    have hend : offset = e := h
    show x = e
    omega
  | cons r recent ih =>
    obtain ⟨hnext, hdata, hrest⟩ := h
    have hend : r.startOffset + r.data.length = offset + r.data.length := hnext
    by_cases hpast : r.startOffset + r.data.length ≤ x
    · have hnone : r.replay x = none := if_pos hpast
      rw [filterMap_cons_none hnone]
      exact ih (show base ≤ r.startOffset + r.data.length by omega) hpast hrest
    · -- the chunk with the offset in it, cut at the offset
      have hcut : (r.data.drop (x - r.startOffset)).length = r.startOffset + r.data.length - x := by
        rw [length_drop]
        omega
      have hne : r.data.drop (x - r.startOffset) ≠ [] := by
        apply ne_nil_of_length_pos
        omega
      have hsome : r.replay x
          = some ⟨r.data.drop (x - r.startOffset), r.startOffset + r.data.length, false, true⟩ := by
        simp only [replay]
        rw [if_neg hpast, if_neg hne]
      rw [filterMap_cons_some hsome]
      refine ⟨?_, ?_, replay_after recent (by show x ≤ r.startOffset + r.data.length; omega) hrest⟩
      · show r.startOffset + r.data.length = x + (r.data.drop (x - r.startOffset)).length
        omega
      · obtain ⟨rest, hrest'⟩ := hdata
        have hdata' : r.data ++ rest = bytes.drop (offset - base) := hrest'
        rw [show x - base = offset - base + (x - r.startOffset) by omega, ← drop_drop, ← hdata',
          drop_append_of_le_length (by omega)]
        exact prefix_append _ _

/-- The bytes of a replay are bytes of the ring. -/
theorem length_replay_le : ((recent.filterMap (replay x)).flatMap SessionOutputChunk.data).length
      ≤ (recent.flatMap data).length := by
  induction recent with
  | nil => exact le_rfl
  | cons r recent ih =>
    rw [flatMap_cons, length_append]
    cases hr : r.replay x with
    | none =>
      rw [filterMap_cons_none hr]
      omega
    | some chunk =>
      rw [filterMap_cons_some hr, flatMap_cons, length_append]
      have hcut : chunk.data.length ≤ r.data.length := by
        simp only [replay] at hr
        split at hr
        · cases hr
        · split at hr
          · cases hr
          · cases hr
            simp
      omega

theorem enqueueAll_eq {channel : Channel} (hr : channel.receiver = true)
    (hroom : channel.buffered + (chunks.flatMap SessionOutputChunk.data).length
      ≤ sessionOutputStreamSubscriberMaxBufferedBytes) :
    (channel.enqueueAll chunks).queue = channel.queue ++ chunks := by
  induction chunks generalizing channel with
  | nil => exact (append_nil _).symm
  | cons chunk chunks ih =>
    rw [flatMap_cons, length_append] at hroom
    have hfirst : (enqueueOutputChunk channel chunk).1
        = { channel with queue := channel.queue ++ [chunk], buffered := channel.buffered + chunk.data.length } := by
      rw [enqueueOutputChunk, if_neg (by omega), if_pos hr]
    show (((enqueueOutputChunk channel chunk).1).enqueueAll chunks).queue = _
    rw [hfirst]
    refine (ih ?_ ?_).trans (append_assoc _ _ _)
    · exact hr
    · show channel.buffered + chunk.data.length + _ ≤ _
      omega

end Ring

end Supercli.Output
