import Supercli.Lib.Machine
import Supercli.Output.StreamClient

/-!
# `Output.LiveStream` — what a streaming client receives

A Session's output is broadcast while clients come, lag, stop reading and go. The machine of this module takes every
call of the broadcaster, every subscription, and every pump with whatever the socket makes of its writes, in any order.

For each client that was accepted the chunks framed for it, held back and still in its channel carry the output from
the offset it asked for (`Carries`); a client that is still subscribed is carried up to the last byte. What it decodes
from its socket is the beginning of that (`no_gap`), as long as no chunk is larger than a frame may be.
-/

namespace Supercli.Output.LiveStream

open List OutputBroadcaster Machine SessionOutputChunk

/-! ## The machine -/

/-- A broadcaster and the clients it has accepted, in the order of their ids. `base`, `bytes` and `exitOffset` say
    what was broadcast, from which offset on, and where the output was when `mark_exited` was first called. -/
structure State where
  broadcaster : OutputBroadcaster
  clients : List StreamClient
  base : Nat
  bytes : List UInt8
  exitOffset : Option Nat

inductive Label
  | broadcastChunk (data : List UInt8)
  | subscribe (offset : Nat) (answersQueries : Bool)
  | removeSubscriber (id : Nat)
  | releaseRecent
  | markExited
  /-- `pump_stream_client` for a client, with what its socket answers. -/
  | pump (client : Nat) (results : List WriteResult)
  /-- The write timeout passes without progress. -/
  | stall (client : Nat)
  /-- `close_client`: the peer hung up, or the sweep of stalled clients found it. -/
  | closeClient (client : Nat)
deriving DecidableEq, Repr

def boot (base : Nat) : State := ⟨.atOffset base, [], base, [], none⟩

section

variable (s : State)

/-- The broadcaster has a subscriber of that id. -/
def State.Subscribed (id : Nat) : Prop := id ∈ s.broadcaster.subscribers.map OutputStreamSubscriber.id

instance (id : Nat) : Decidable (s.Subscribed id) := inferInstanceAs (Decidable (_ ∈ _))

def State.channel (id : Nat) : Channel := s.broadcaster.channels id

def State.setChannel (id : Nat) (channel : Channel) : State :=
  { s with broadcaster :=
    { s.broadcaster with channels := fun k => if k = id then channel else s.broadcaster.channels k } }

/-- `close_client`: the subscriber is removed and the client's end of the channel dropped. -/
def State.closeClient (id : Nat) : State :=
  let removed := { s with broadcaster := s.broadcaster.removeSubscriber id }
  removed.setChannel id { removed.channel id with receiver := false }

/-- One pump of the client at `i`, which is closed if it is not kept. -/
def State.pump (i : Nat) (client : StreamClient) (results : List WriteResult) : State :=
  let channel := s.channel client.subscriberId
  let pumped := client.pump (decide (s.Subscribed client.subscriberId)) channel.queue channel.buffered results
  let after := { s.setChannel client.subscriberId ⟨pumped.2.1, pumped.2.2.1, true⟩ with
    clients := s.clients.set i pumped.1 }
  if pumped.2.2.2 then after else after.closeClient client.subscriberId

def step : Label → State
  | .broadcastChunk data =>
    { s with broadcaster := s.broadcaster.broadcastChunk data, bytes := s.bytes ++ data }
  | .subscribe offset answersQueries =>
    match s.broadcaster.subscribe offset answersQueries with
    | none => s
    | some (broadcaster, id) =>
      { s with broadcaster := broadcaster, clients := s.clients ++ [.accepted id offset] }
  | .removeSubscriber id => { s with broadcaster := s.broadcaster.removeSubscriber id }
  | .releaseRecent => { s with broadcaster := s.broadcaster.releaseRecent }
  | .markExited =>
    { s with
      broadcaster := s.broadcaster.markExited
      exitOffset := s.exitOffset <|> some s.broadcaster.nextOffset }
  | .pump i results =>
    match s.clients[i]? with
    | none => s
    -- a closed client is not pumped any more
    | some client => if (s.channel client.subscriberId).receiver then s.pump i client results else s
  | .stall i =>
    match s.clients[i]? with
    | none => s
    | some client => { s with clients := s.clients.set i { client with stalled := true } }
  | .closeClient i =>
    match s.clients[i]? with
    | none => s
    | some client => s.closeClient client.subscriberId

/-! ## What a client is carried -/

/-- The chunks carry the output from `offset` to `e`; an exited chunk comes last, not before the output there was at
    the exit, and a frame can hold each. -/
structure Carries (offset : Nat) (chunks : List SessionOutputChunk) (e : Nat) : Prop where
  follows : Follows s.base s.bytes offset chunks e
  last : chunks.Pairwise fun chunk _ => chunk.exited = false
  exit : ∀ chunk ∈ chunks, chunk.exited = true → ∃ x, s.exitOffset = some x ∧ x ≤ chunk.nextOffset
  small : ∀ chunk ∈ chunks, chunk.data.length ≤ sessionOutputStreamMaxFrameBytes

end

section Carries

variable {s s' : State} {offset e : Nat} {chunks chunks' : List SessionOutputChunk} {current next : SessionOutputChunk}

/-- What can be merged is two chunks of output, the second right after the first. -/
theorem canMerge_iff (h : canMergeOutputStreamChunk current next n = true) :
    current.exited = false ∧ next.exited = false ∧ current.data.length + next.data.length ≤ n := by
  unfold canMergeOutputStreamChunk at h
  split at h
  · cases h
  · rename_i hplain
    simp only [Bool.or_eq_true, not_or, Bool.not_eq_true] at hplain
    simp only [Bool.and_eq_true, decide_eq_true_eq] at h
    exact ⟨hplain.1.1, hplain.1.2, h.2⟩

theorem follows_extend (hb : base ≤ offset) (h : Follows base bytes offset (current :: next :: chunks) e) :
    Follows base bytes offset (current.extend next :: chunks) e := by
  obtain ⟨hcurrent, ⟨rest, hrest⟩, hnext, hdata, hfollows⟩ := h
  refine ⟨?_, ?_, hfollows⟩
  · show next.nextOffset = offset + (current.data ++ next.data).length
    rw [length_append]
    omega
  · -- the second is what the stream has after the first
    have hdrop : bytes.drop (current.nextOffset - base) = rest := by
      rw [show current.nextOffset - base = offset - base + current.data.length by omega, ← drop_drop, ← hrest,
        drop_left]
    rw [hdrop] at hdata
    rw [← hrest]
    exact (prefix_append_right_inj _).mpr hdata

/-- What holds of every chunk holds after a merge, if it holds of the merged one. -/
theorem forall_merge {P : SessionOutputChunk → Prop} (hm : Merge chunks chunks')
    (hmerged : ∀ current next, canMergeOutputStreamChunk current next sessionOutputStreamBatchMaxBytes = true →
      P current → P next → P (current.extend next)) (h : ∀ chunk ∈ chunks, P chunk) : ∀ chunk ∈ chunks', P chunk := by
  obtain ⟨before, current, next, after, hcan, rfl, rfl⟩ := hm
  rw [forall_mem_append, forall_mem_cons] at h ⊢
  obtain ⟨hbefore, hcurrent, hrest⟩ := h
  obtain ⟨hnext, hafter⟩ := forall_mem_cons.mp hrest
  exact ⟨hbefore, hmerged current next hcan hcurrent hnext, hafter⟩

section

variable (h : Carries s offset chunks e)

include h

/-- **Merging keeps what is carried.** -/
theorem Carries.merge (hb : s.base ≤ offset) (hm : Merge chunks chunks') : Carries s offset chunks' e := by
  have hexit := forall_merge hm (fun current next hcan _ _ hexited =>
    absurd (hexited.symm.trans (canMerge_iff hcan).1) (by decide)) h.exit
  have hsmall : ∀ chunk ∈ chunks', chunk.data.length ≤ sessionOutputStreamMaxFrameBytes := by
    refine forall_merge hm (fun current next hcan _ _ => ?_) h.small
    show (current.data ++ next.data).length ≤ _
    rw [length_append]
    exact Nat.le_trans (canMerge_iff hcan).2.2 (by decide)
  obtain ⟨before, current, next, after, hcan, rfl, rfl⟩ := hm
  obtain ⟨m, hbefore, hrest⟩ := follows_append.mp h.follows
  have hlast := pairwise_append.mp h.last
  have hpair := pairwise_cons.mp (pairwise_cons.mp hlast.2.1).2
  refine ⟨follows_append.mpr ⟨m, hbefore, follows_extend (hb.trans hbefore.le) hrest⟩, ?_, hexit, hsmall⟩
  refine pairwise_append.mpr ⟨hlast.1, pairwise_cons.mpr ⟨fun _ _ => (canMerge_iff hcan).1, hpair.2⟩, ?_⟩
  intro chunk hchunk _ _
  exact hlast.2.2 chunk hchunk current mem_cons_self

theorem Carries.merges (hb : s.base ≤ offset)
    (hm : Relation.ReflTransGen Merge chunks chunks') : Carries s offset chunks' e := by
  induction hm with
  | refl => exact h
  | tail _ hstep ih => exact ih.merge hb hstep

/-- More output and a later exit keep what is carried. -/
theorem Carries.grow (hbase : s'.base = s.base)
    (hbytes : s'.bytes = s.bytes ++ more) (he : e ≤ s.base + s.bytes.length) (hb : s.base ≤ offset)
    (hexit : ∀ x, s.exitOffset = some x → s'.exitOffset = some x) : Carries s' offset chunks e := by
  refine ⟨?_, h.last, ?_, h.small⟩
  · rw [hbase, hbytes]
    exact h.follows.extend he hb more
  · intro chunk hchunk hexited
    obtain ⟨x, hx, hle⟩ := h.exit chunk hchunk hexited
    exact ⟨x, hexit x hx, hle⟩

/-- The next chunk, after chunks none of which is the last. -/
theorem Carries.snoc (hplain : ∀ chunk ∈ chunks, chunk.exited = false)
    (hnext : chunk.nextOffset = e + chunk.data.length) (hdata : chunk.data <+: s.bytes.drop (e - s.base))
    (hexit : chunk.exited = true → ∃ x, s.exitOffset = some x ∧ x ≤ chunk.nextOffset)
    (hsmall : chunk.data.length ≤ sessionOutputStreamMaxFrameBytes) :
    Carries s offset (chunks ++ [chunk]) chunk.nextOffset := by
  refine ⟨h.follows.snoc chunk hnext hdata, ?_, ?_, ?_⟩
  · exact pairwise_append.mpr ⟨h.last, pairwise_singleton _ _, fun c hc _ _ => hplain c hc⟩
  · exact forall_mem_append.mpr ⟨h.exit, forall_mem_singleton.mpr hexit⟩
  · exact forall_mem_append.mpr ⟨h.small, forall_mem_singleton.mpr hsmall⟩

end

end Carries

/-! ## The invariant -/

/-- A client is carried the output from the offset it asked for; up to the last byte while it is subscribed. -/
structure ClientOk (s : State) (client : StreamClient) : Prop where
  start : s.base ≤ client.offset
  written : client.Written
  carries : ∃ e, Carries s client.offset (client.carried (s.channel client.subscriberId).queue) e ∧
    e ≤ s.broadcaster.nextOffset ∧
    (s.Subscribed client.subscriberId → e = s.broadcaster.nextOffset ∧
      ∀ chunk ∈ client.carried (s.channel client.subscriberId).queue, chunk.exited = false)

/-- What every run keeps. -/
structure Inv (s : State) : Prop where
  ring : s.broadcaster.RingOk s.base s.bytes
  exited : s.broadcaster.exited = true → s.exitOffset ≠ none
  exit : ∀ x, s.exitOffset = some x → x ≤ s.broadcaster.nextOffset
  /-- The client at `k` has the id `k + 1`. -/
  ids : ∀ k client, s.clients[k]? = some client → client.subscriberId = k + 1
  count : s.broadcaster.nextSubscriberId = s.clients.length
  known : ∀ id, s.Subscribed id → id ≤ s.broadcaster.nextSubscriberId
  clients : ∀ client ∈ s.clients, ClientOk s client

section Frame

variable {s s' : State} {client : StreamClient}

/-- Merging does not make a chunk the last one. -/
theorem merges_exited (hm : Relation.ReflTransGen Merge chunks chunks') (h : ∀ chunk ∈ chunks, chunk.exited = false) :
    ∀ chunk ∈ chunks', chunk.exited = false := by
  induction hm with
  | refl => exact h
  | tail _ hstep ih =>
    exact forall_merge hstep (fun _ _ _ hcurrent _ => hcurrent) ih

/-- **What pumping keeps** of a client. -/
theorem ClientOk.pumps (h : ClientOk s client)
    (hpumps : Pumps client (s.channel client.subscriberId).queue client' (s'.channel client'.subscriberId).queue)
    (hbase : s'.base = s.base) (hbytes : s'.bytes = s.bytes) (hexit : s'.exitOffset = s.exitOffset)
    (hnext : s'.broadcaster.nextOffset = s.broadcaster.nextOffset)
    (hsub : s'.Subscribed client.subscriberId → s.Subscribed client.subscriberId) : ClientOk s' client' := by
  obtain ⟨e, hc, he, hs⟩ := h.carries
  have hmerged := hc.merges h.start hpumps.merges
  refine ⟨?_, hpumps.written h.written, e, ?_, ?_, ?_⟩
  · rw [hpumps.offset, hbase]
    exact h.start
  · rw [hpumps.offset]
    exact ⟨hbase ▸ hbytes ▸ hmerged.follows, hmerged.last, hexit ▸ hmerged.exit, hmerged.small⟩
  · rw [hnext]
    exact he
  · rw [hnext]
    intro hin
    have hold := hs (hsub (hpumps.subscriberId ▸ hin))
    exact ⟨hold.1, merges_exited hpumps.merges hold.2⟩

/-- What a client is carried depends on its channel and its subscription only. -/
theorem ClientOk.congr (h : ClientOk s client) (hbase : s'.base = s.base) (hbytes : s'.bytes = s.bytes)
    (hexit : s'.exitOffset = s.exitOffset) (hnext : s'.broadcaster.nextOffset = s.broadcaster.nextOffset)
    (hqueue : (s'.channel client.subscriberId).queue = (s.channel client.subscriberId).queue)
    (hsub : s'.Subscribed client.subscriberId → s.Subscribed client.subscriberId) : ClientOk s' client := by
  refine h.pumps ?_ hbase hbytes hexit hnext hsub
  rw [hqueue]
  exact Pumps.refl

/-- A chunk for everyone: a subscriber takes it at the end of its channel, or is a subscriber no more. -/
theorem toAll_cases {b : OutputBroadcaster} {id : Nat} :
    (id ∈ (b.toAll chunk).subscribers.map OutputStreamSubscriber.id ∧
        id ∈ b.subscribers.map OutputStreamSubscriber.id ∧
        ((b.toAll chunk).channels id).queue = (b.channels id).queue ++ [chunk]) ∨
      (id ∉ (b.toAll chunk).subscribers.map OutputStreamSubscriber.id ∧
        ((b.toAll chunk).channels id).queue = (b.channels id).queue) := by
  have hsub : id ∈ (b.toAll chunk).subscribers.map OutputStreamSubscriber.id ↔
      id ∈ b.subscribers.map OutputStreamSubscriber.id ∧ (enqueueOutputChunk (b.channels id) chunk).2 = true := by
    simp only [toAll, mem_map, mem_filter]
    constructor
    · rintro ⟨sub, ⟨hin, hkept⟩, rfl⟩
      exact ⟨⟨sub, hin, rfl⟩, hkept⟩
    · rintro ⟨⟨sub, hin, rfl⟩, hkept⟩
      exact ⟨sub, ⟨hin, hkept⟩, rfl⟩
  have hchannel : (b.toAll chunk).channels id
      = if id ∈ b.subscribers.map OutputStreamSubscriber.id then (enqueueOutputChunk (b.channels id) chunk).1
        else b.channels id := rfl
  rw [hsub, hchannel]
  by_cases hin : id ∈ b.subscribers.map OutputStreamSubscriber.id
  · rw [if_pos hin]
    unfold enqueueOutputChunk
    split
    · exact .inr ⟨by simp, rfl⟩
    · split
      · exact .inl ⟨⟨hin, rfl⟩, hin, rfl⟩
      · exact .inr ⟨by simp, rfl⟩
  · rw [if_neg hin]
    exact .inr ⟨fun h => hin h.1, rfl⟩

/-- A chunk for everyone keeps what a client is carried, if it is the next one. -/
theorem ClientOk.toAll (h : ClientOk s client) (hring : s.broadcaster.RingOk s.base s.bytes)
    (hbase : s'.base = s.base)
    (hbytes : s'.bytes = s.bytes ++ more)
    (hexit : ∀ x, s.exitOffset = some x → s'.exitOffset = some x)
    (hchannels : s'.broadcaster.channels = (s.broadcaster.toAll chunk).channels)
    (hsubs : ∀ id, s'.Subscribed id → id ∈ (s.broadcaster.toAll chunk).subscribers.map OutputStreamSubscriber.id)
    (hnext : s'.broadcaster.nextOffset = s.broadcaster.nextOffset + chunk.data.length)
    (hchunk : chunk.nextOffset = s.broadcaster.nextOffset + chunk.data.length) (hdata : chunk.data <+: more)
    (hlast : chunk.exited = true → (∃ x, s'.exitOffset = some x ∧ x ≤ chunk.nextOffset) ∧ ∀ id, ¬ s'.Subscribed id)
    (hsmall : chunk.data.length ≤ sessionOutputStreamMaxFrameBytes) : ClientOk s' client := by
  obtain ⟨e, hc, he, hs⟩ := h.carries
  have hreached := hring.reached
  have hgrown := hc.grow hbase hbytes (by omega) h.start hexit
  refine ⟨hbase ▸ h.start, h.written, ?_⟩
  have hqueue : (s'.channel client.subscriberId).queue
      = ((s.broadcaster.toAll chunk).channels client.subscriberId).queue := by
    rw [State.channel, hchannels]
  rcases toAll_cases with ⟨-, hin, hq⟩ | ⟨hout, hq⟩
  · -- the client has it
    obtain ⟨rfl, hplain⟩ := hs hin
    have hsplit : client.carried (s'.channel client.subscriberId).queue
        = client.carried (s.channel client.subscriberId).queue ++ [chunk] := by
      rw [hqueue, hq]
      exact (append_assoc _ _ _).symm
    have hstream : chunk.data <+: s'.bytes.drop (s.broadcaster.nextOffset - s'.base) := by
      rw [hbytes, hbase, hreached, Nat.add_sub_cancel_left, drop_left]
      exact hdata
    have hmore := hgrown.snoc hplain hchunk hstream (fun hx => (hlast hx).1) hsmall
    rw [← hsplit] at hmore
    refine ⟨chunk.nextOffset, hmore, by omega, fun hin' => ⟨by omega, ?_⟩⟩
    rw [hsplit, forall_mem_append, forall_mem_singleton]
    refine ⟨hplain, ?_⟩
    cases hx : chunk.exited with
    | false => rfl
    | true => exact absurd hin' ((hlast hx).2 _)
  · -- the client is not, or no longer, subscribed
    refine ⟨e, ?_, by omega, fun hin' => absurd (hsubs _ hin') hout⟩
    rw [hqueue, hq]
    exact hgrown

end Frame

/-! ## What each label keeps -/

/-- No chunk is larger than a frame may be. -/
def Label.Small : Label → Prop
  | .broadcastChunk data => data.length ≤ sessionOutputStreamMaxFrameBytes
  | _ => True

instance (l : Label) : Decidable l.Small := by
  cases l <;> unfold Label.Small <;> infer_instance

section Labels

variable {s : State}

theorem inv_boot : Inv (boot base) := by
  refine ⟨ringOk_atOffset, ?_, ?_, ?_, rfl, ?_, ?_⟩
  · exact fun h => absurd h Bool.false_ne_true
  · exact fun x h => absurd h (by simp [boot])
  · exact fun k client h => absurd h (by simp [boot])
  · exact fun id h => absurd h (by simp [State.Subscribed, boot, atOffset])
  · exact fun client h => absurd h (by simp [boot])

theorem inv_broadcastChunk (h : Inv s) {data : List UInt8} (hsmall : data.length ≤ sessionOutputStreamMaxFrameBytes) :
    Inv (step s (.broadcastChunk data)) := by
  have hring := h.ring.broadcastChunk data
  by_cases hd : data = []
  · have hsame : step s (.broadcastChunk data) = s := by
      rw [step, broadcastChunk, if_pos hd, hd, append_nil]
    rw [hsame]
    exact h
  · rw [broadcastChunk, if_neg hd] at hring
    rw [step, broadcastChunk, if_neg hd]
    refine ⟨hring, h.exited, ?_, h.ids, h.count, ?_, ?_⟩
    · exact fun x hx => Nat.le_trans (h.exit x hx) (Nat.le_add_right _ _)
    · intro id hid
      rcases toAll_cases with ⟨-, hin, -⟩ | ⟨hout, -⟩
      · exact h.known id hin
      · exact absurd hid hout
    · intro client hclient
      exact (h.clients client hclient).toAll h.ring rfl
        rfl (fun _ hx => hx) rfl (fun _ hid => hid) rfl rfl ⟨[], append_nil data⟩
        (fun hx => absurd hx Bool.false_ne_true) hsmall

theorem inv_markExited (h : Inv s) : Inv (step s .markExited) := by
  have hkept : ∀ x, s.exitOffset = some x → (step s .markExited).exitOffset = some x := by
    intro x hx
    simp [step, hx]
  have hnone : ∀ id, ¬ (step s .markExited).Subscribed id := by
    intro id hid
    simp [State.Subscribed, step, markExited] at hid
  have hexit : ∃ x, (step s .markExited).exitOffset = some x ∧ x ≤ s.broadcaster.nextOffset := by
    cases hx : s.exitOffset with
    | none => exact ⟨s.broadcaster.nextOffset, by simp [step, hx], le_rfl⟩
    | some x => exact ⟨x, hkept x hx, h.exit x hx⟩
  refine ⟨h.ring.congr rfl rfl rfl, ?_, ?_, h.ids, h.count, ?_, ?_⟩
  · obtain ⟨x, hx, -⟩ := hexit
    intro _
    rw [hx]
    exact Option.some_ne_none x
  · intro x hx
    obtain ⟨x', hx', hle⟩ := hexit
    rw [hx'] at hx
    cases hx
    exact hle
  · exact fun id hid => absurd hid (hnone id)
  · intro client hclient
    exact (h.clients client hclient).toAll h.ring rfl (append_nil _).symm hkept rfl
      (fun id hid => absurd hid (hnone id)) rfl rfl nil_prefix (fun _ => ⟨hexit, hnone⟩) (Nat.zero_le _)

/-- Fewer subscribers, and the same channels but for who holds them. -/
theorem Inv.unsubscribe (h : Inv s) (hb : s'.broadcaster.RingOk s.base s.bytes) (hbase : s'.base = s.base)
    (hbytes : s'.bytes = s.bytes) (hexit : s'.exitOffset = s.exitOffset) (hclients : s'.clients = s.clients)
    (hexited : s'.broadcaster.exited = s.broadcaster.exited)
    (hnext : s'.broadcaster.nextOffset = s.broadcaster.nextOffset)
    (hcount : s'.broadcaster.nextSubscriberId = s.broadcaster.nextSubscriberId)
    (hsub : ∀ id, s'.Subscribed id → s.Subscribed id) (hqueue : ∀ id, (s'.channel id).queue = (s.channel id).queue) :
    Inv s' := by
  constructor
  · rw [hbase, hbytes]
    exact hb
  · rw [hexited, hexit]
    exact h.exited
  · rw [hexit, hnext]
    exact h.exit
  · rw [hclients]
    exact h.ids
  · rw [hcount, hclients]
    exact h.count
  · rw [hcount]
    exact fun id hid => h.known id (hsub id hid)
  · rw [hclients]
    intro client hclient
    exact (h.clients client hclient).congr hbase hbytes hexit hnext (hqueue _) (hsub _)

theorem subscribed_of_removed {id : Nat}
    (h : k ∈ (s.broadcaster.removeSubscriber id).subscribers.map OutputStreamSubscriber.id) : s.Subscribed k := by
  obtain ⟨sub, hsub, rfl⟩ := mem_map.mp h
  exact mem_map.mpr ⟨sub, (mem_filter.mp hsub).1, rfl⟩

theorem inv_removeSubscriber (h : Inv s) {id : Nat} : Inv (step s (.removeSubscriber id)) :=
  h.unsubscribe (h.ring.congr rfl rfl rfl) rfl rfl rfl rfl rfl rfl rfl
    (fun _ hk => subscribed_of_removed hk) (fun _ => rfl)

theorem inv_releaseRecent (h : Inv s) : Inv (step s .releaseRecent) :=
  h.unsubscribe h.ring.releaseRecent rfl rfl rfl rfl rfl rfl rfl (fun _ hk => hk) (fun _ => rfl)

theorem inv_close (h : Inv s) {id : Nat} : Inv (s.closeClient id) := by
  refine h.unsubscribe (h.ring.congr rfl rfl rfl) rfl rfl rfl rfl rfl rfl rfl (fun _ hk => subscribed_of_removed hk) ?_
  intro k
  by_cases hk : k = id
  · subst hk
    simp [State.channel, State.closeClient, State.setChannel, removeSubscriber]
  · simp [State.channel, State.closeClient, State.setChannel, removeSubscriber, hk]

/-! ## Subscribing -/

variable {offset : Nat} {client : StreamClient} {chunk : SessionOutputChunk}

theorem replay_exited {recent : List RecentOutputChunk}
    (h : chunk ∈ recent.filterMap (RecentOutputChunk.replay offset)) : chunk.exited = false := by
  obtain ⟨r, -, hr⟩ := mem_filterMap.mp h
  simp only [RecentOutputChunk.replay] at hr
  split at hr
  · cases hr
  · split at hr
    · cases hr
    · cases hr
      rfl

/-- Every chunk is a part of what all of them hold. -/
theorem length_le_flatMap {chunks : List SessionOutputChunk} (h : chunk ∈ chunks) :
    chunk.data.length ≤ (chunks.flatMap data).length := by
  obtain ⟨before, after, rfl⟩ := append_of_mem h
  simp only [flatMap_append, flatMap_cons, length_append]
  omega

/-- **The replay carries** what was asked for. -/
theorem carries_replay (h : Inv s) (hlo : s.broadcaster.oldestAvailable ≤ offset)
    (hhi : offset ≤ s.broadcaster.nextOffset) :
    Carries s offset (s.broadcaster.recent.filterMap (RecentOutputChunk.replay offset)) s.broadcaster.nextOffset := by
  refine ⟨replay_from _ h.ring.oldest hlo hhi h.ring.covers, ?_, ?_, ?_⟩
  · exact pairwise_of_forall_mem_list fun chunk hchunk _ _ => replay_exited hchunk
  · intro chunk hchunk hexited
    exact absurd (hexited.symm.trans (replay_exited hchunk)) (by decide)
  · intro chunk hchunk
    have hsmall := h.ring.small
    rw [h.ring.size] at hsmall
    calc chunk.data.length
        ≤ ((s.broadcaster.recent.filterMap (RecentOutputChunk.replay offset)).flatMap
            data).length := length_le_flatMap hchunk
      _ ≤ (s.broadcaster.recent.flatMap RecentOutputChunk.data).length := length_replay_le _
      _ ≤ sessionOutputStreamRecentBytes := hsmall
      _ ≤ sessionOutputStreamMaxFrameBytes := by decide

/-- What a new channel is given. -/
def firstChunks (b : OutputBroadcaster) (offset : Nat) : List SessionOutputChunk :=
  if b.exited then b.recent.filterMap (RecentOutputChunk.replay offset) ++ [b.exitChunk]
  else b.recent.filterMap (RecentOutputChunk.replay offset)

/-- The ring is small, so that all of it goes into a new channel. -/
theorem firstChunks_queue (h : Inv s) :
    ((⟨[], 0, true⟩ : Channel).enqueueAll (firstChunks s.broadcaster offset)).queue
      = firstChunks s.broadcaster offset := by
  have hlen : ((firstChunks s.broadcaster offset).flatMap data).length
      = ((s.broadcaster.recent.filterMap (RecentOutputChunk.replay offset)).flatMap
          data).length := by
    unfold firstChunks
    split
    · simp [exitChunk]
    · rfl
  refine (enqueueAll_eq rfl ?_).trans (nil_append _)
  show 0 + _ ≤ _
  rw [hlen, Nat.zero_add]
  calc ((s.broadcaster.recent.filterMap (RecentOutputChunk.replay offset)).flatMap data).length
      ≤ (s.broadcaster.recent.flatMap RecentOutputChunk.data).length := length_replay_le _
    _ = s.broadcaster.recentBytes := h.ring.size.symm
    _ ≤ sessionOutputStreamRecentBytes := h.ring.small
    _ ≤ sessionOutputStreamSubscriberMaxBufferedBytes := by decide

theorem carries_firstChunks (h : Inv s) (hlo : s.broadcaster.oldestAvailable ≤ offset)
    (hhi : offset ≤ s.broadcaster.nextOffset) :
    Carries s offset (firstChunks s.broadcaster offset) s.broadcaster.nextOffset := by
  have hreplay := carries_replay h hlo hhi
  unfold firstChunks
  split
  · rename_i hexited
    obtain ⟨x, hx⟩ := Option.ne_none_iff_exists'.mp (h.exited hexited)
    exact hreplay.snoc (fun _ hchunk => replay_exited hchunk) rfl nil_prefix
      (fun _ => ⟨x, hx, h.exit x hx⟩) (Nat.zero_le _)
  · exact hreplay

/-- The broadcaster with one subscriber more, or with one that is only told of the exit. -/
def joined (b : OutputBroadcaster) (offset : Nat) (answersQueries : Bool) : OutputBroadcaster :=
  { b with
    nextSubscriberId := b.nextSubscriberId + 1
    subscribers :=
      if b.exited then b.subscribers else b.subscribers ++ [⟨b.nextSubscriberId + 1, answersQueries⟩]
    channels := fun k =>
      if k = b.nextSubscriberId + 1 then (⟨[], 0, true⟩ : Channel).enqueueAll (firstChunks b offset)
      else b.channels k }

theorem subscribe_eq (hlo : b.oldestAvailable ≤ offset) (hhi : offset ≤ b.nextOffset) :
    b.subscribe offset answersQueries = some (joined b offset answersQueries, b.nextSubscriberId + 1) := by
  unfold subscribe
  rw [if_neg (by omega)]
  rfl

/-- Who is subscribed after a new subscriber came. -/
theorem mem_joined {id : Nat} (h : id ∈ (joined b offset answersQueries).subscribers.map OutputStreamSubscriber.id) :
    id ∈ b.subscribers.map OutputStreamSubscriber.id ∨ (id = b.nextSubscriberId + 1 ∧ b.exited = false) := by
  cases hexited : b.exited with
  | true | false => simpa [joined, hexited] using h

section

variable (h : Inv s)

include h

/-- **A client joins**, if it is carried what it should be. -/
theorem Inv.join (hid : client.subscriberId = s.broadcaster.nextSubscriberId + 1) (hok : ClientOk { s with
      broadcaster := joined s.broadcaster offset answersQueries, clients := s.clients ++ [client] } client) :
    Inv { s with
      broadcaster := joined s.broadcaster offset answersQueries, clients := s.clients ++ [client] } := by
  refine ⟨h.ring.congr rfl rfl rfl, h.exited, h.exit, ?_, ?_, ?_, ?_⟩
  · -- the new client is the last
    intro k c hk
    rcases Nat.lt_or_ge k s.clients.length with hlt | hge
    · rw [List.getElem?_append_left hlt] at hk
      exact h.ids k c hk
    · rw [getElem?_append_right hge, getElem?_singleton] at hk
      split at hk
      · rename_i hzero
        cases hk
        rw [hid, h.count]
        omega
      · cases hk
  · show s.broadcaster.nextSubscriberId + 1 = (s.clients ++ [_]).length
    rw [length_append, h.count]
    rfl
  · intro id hin
    show id ≤ s.broadcaster.nextSubscriberId + 1
    rcases mem_joined hin with hold | ⟨rfl, -⟩
    · exact Nat.le_succ_of_le (h.known id hold)
    · exact le_rfl
  · intro c hc
    rcases mem_append.mp hc with hold | hnew
    · -- the ids before are smaller
      obtain ⟨k, hk⟩ := mem_iff_getElem?.mp hold
      have hlt : k < s.clients.length := (List.getElem?_eq_some_iff.mp hk).1
      have hne : c.subscriberId ≠ s.broadcaster.nextSubscriberId + 1 := by
        rw [h.ids k c hk, h.count]
        omega
      refine (h.clients c hold).congr rfl rfl rfl rfl ?_ ?_
      · exact congrArg Channel.queue (if_neg hne)
      · intro hsub
        rcases mem_joined hsub with hin | ⟨heq, -⟩
        · exact hin
        · exact absurd heq hne
    · rw [mem_singleton.mp hnew]
      exact hok

theorem joined_queue (offset : Nat) (answersQueries : Bool) :
    ((joined s.broadcaster offset answersQueries).channels (s.broadcaster.nextSubscriberId + 1)).queue
      = firstChunks s.broadcaster offset := by
  have hchannel : (joined s.broadcaster offset answersQueries).channels (s.broadcaster.nextSubscriberId + 1)
      = (⟨[], 0, true⟩ : Channel).enqueueAll (firstChunks s.broadcaster offset) := if_pos rfl
  rw [hchannel, firstChunks_queue h]

theorem inv_subscribe : Inv (step s (.subscribe offset answersQueries)) := by
  by_cases hrefused : offset < s.broadcaster.oldestAvailable ∨ offset > s.broadcaster.nextOffset
  · have hnone : s.broadcaster.subscribe offset answersQueries = none := if_pos hrefused
    simp only [step, hnone]
    exact h
  · have hlo : s.broadcaster.oldestAvailable ≤ offset := by omega
    have hhi : offset ≤ s.broadcaster.nextOffset := by omega
    simp only [step, subscribe_eq hlo hhi]
    have hcarries := carries_firstChunks h hlo hhi
    have hqueue := joined_queue h offset answersQueries
    refine h.join rfl ⟨h.ring.oldest.trans hlo, written_accepted,
      s.broadcaster.nextOffset, ?_, le_rfl, ?_⟩
    · show Carries _ offset ([] ++ [] ++
        ((joined s.broadcaster offset answersQueries).channels (s.broadcaster.nextSubscriberId + 1)).queue) _
      rw [hqueue]
      exact { hcarries with }
    · intro hsub
      refine ⟨rfl, fun chunk hchunk => ?_⟩
      change chunk ∈ [] ++ [] ++
        ((joined s.broadcaster offset answersQueries).channels (s.broadcaster.nextSubscriberId + 1)).queue at hchunk
      have hrunning : s.broadcaster.exited = false := by
        rcases mem_joined hsub with hin | ⟨-, hrunning⟩
        · exact absurd (h.known _ hin) (Nat.not_succ_le_self _)
        · exact hrunning
      rw [hqueue, firstChunks, hrunning] at hchunk
      exact replay_exited hchunk

/-! ## Pumping -/

/-- A client in place of another of the same id. -/
theorem Inv.replace (hi : s.clients[i]? = some client) (client' : StreamClient)
    (channel : Channel) (hid : client'.subscriberId = client.subscriberId)
    (hok : ClientOk { s.setChannel client.subscriberId channel with clients := s.clients.set i client' } client') :
    Inv { s.setChannel client.subscriberId channel with clients := s.clients.set i client' } := by
  have hlt : i < s.clients.length := (List.getElem?_eq_some_iff.mp hi).1
  refine ⟨h.ring.congr rfl rfl rfl, h.exited, h.exit, ?_, ?_, h.known, ?_⟩
  · intro k c hk
    by_cases hki : i = k
    · subst hki
      rw [List.getElem?_set_self hlt] at hk
      cases hk
      rw [hid]
      exact h.ids i client hi
    · rw [getElem?_set_ne hki] at hk
      exact h.ids k c hk
  · show s.broadcaster.nextSubscriberId = (s.clients.set i client').length
    rw [length_set]
    exact h.count
  · intro c hc
    obtain ⟨k, hk⟩ := mem_iff_getElem?.mp hc
    by_cases hki : i = k
    · subst hki
      rw [List.getElem?_set_self hlt] at hk
      cases hk
      exact hok
    · -- another client has another channel
      rw [getElem?_set_ne hki] at hk
      have hne : c.subscriberId ≠ client.subscriberId := by
        rw [h.ids k c hk, h.ids i client hi]
        omega
      exact (h.clients c (mem_of_getElem? hk)).congr rfl rfl rfl rfl
        (congrArg Channel.queue (if_neg hne)) (fun hsub => hsub)

theorem inv_pumped (hi : s.clients[i]? = some client) : Inv (s.pump i client results) := by
  have hok := h.clients client (mem_of_getElem? hi)
  have hpumps := pump_pumps (decide (s.Subscribed client.subscriberId)) client
    (s.channel client.subscriberId).queue (s.channel client.subscriberId).buffered results
  simp only [State.pump]
  generalize client.pump (decide (s.Subscribed client.subscriberId)) (s.channel client.subscriberId).queue
    (s.channel client.subscriberId).buffered results = pumped at hpumps ⊢
  obtain ⟨client', queue', buffered', kept⟩ := pumped
  have hafter : Inv { s.setChannel client.subscriberId ⟨queue', buffered', true⟩ with
      clients := s.clients.set i client' } := by
    refine h.replace hi client' ⟨queue', buffered', true⟩ hpumps.subscriberId ?_
    have hqueue : (({ s.setChannel client.subscriberId ⟨queue', buffered', true⟩ with
        clients := s.clients.set i client' } : State).channel client'.subscriberId).queue = queue' := by
      rw [show client'.subscriberId = client.subscriberId from hpumps.subscriberId]
      exact congrArg Channel.queue (if_pos rfl)
    refine hok.pumps ?_ rfl rfl rfl rfl (fun hsub => hsub)
    rw [hqueue]
    exact hpumps
  cases kept with
  | true => exact hafter
  | false => exact inv_close hafter

theorem inv_pump : Inv (step s (.pump i results)) := by
  rw [step]
  split
  · exact h
  · rename_i client hi
    split
    · exact inv_pumped h hi
    · exact h

end

theorem setChannel_channel {id : Nat} : s.setChannel id (s.channel id) = s := by
  have hchannels : (fun k => if k = id then s.channel id else s.broadcaster.channels k) = s.broadcaster.channels := by
    funext k
    split
    · rename_i hk
      rw [hk]
      rfl
    · rfl
  rw [State.setChannel, hchannels]

theorem inv_stall (h : Inv s) : Inv (step s (.stall i)) := by
  rw [step]
  split
  · exact h
  · rename_i client hi
    have hreplaced := h.replace hi { client with stalled := true } (s.channel client.subscriberId) rfl
    rw [setChannel_channel] at hreplaced
    exact hreplaced ((h.clients client (mem_of_getElem? hi)).pumps
      ⟨rfl, rfl, fun hw => ⟨hw.bytes, hw.pos⟩, .refl⟩ rfl rfl rfl rfl id)

theorem inv_closeClient (h : Inv s) : Inv (step s (.closeClient i)) := by
  rw [step]
  split
  · exact h
  · exact inv_close h

/-- **One label.** -/
theorem inv_step (h : Inv s) (l : Label) (hl : l.Small) : Inv (step s l) := by
  cases l with
  | broadcastChunk => exact inv_broadcastChunk h hl
  | subscribe => exact inv_subscribe h
  | removeSubscriber => exact inv_removeSubscriber h
  | releaseRecent => exact inv_releaseRecent h
  | markExited => exact inv_markExited h
  | pump => exact inv_pump h
  | stall => exact inv_stall h
  | closeClient => exact inv_closeClient h

end Labels

/-! ## What a client receives -/

/-- A client has received the output from the offset it asked for, frame after frame. -/
structure Received (s : State) (client : StreamClient) : Prop where
  /-- The frames hold the output from the offset on, without a gap or a repetition. -/
  data : (decodeFrames client.sent).flatMap data <+: s.bytes.drop (client.offset - s.base)
  /-- Each frame says where the output is after it. -/
  offsets : ∀ k frame, (decodeFrames client.sent)[k]? = some frame → frame.nextOffset
      = client.offset + (((decodeFrames client.sent).take (k + 1)).flatMap SessionOutputChunk.data).length
  /-- Nothing follows an exited frame. -/
  last : (decodeFrames client.sent).Pairwise fun frame _ => frame.exited = false
  /-- An exited frame comes after all there was when the Session was marked as exited. -/
  exit : ∀ frame ∈ decodeFrames client.sent, frame.exited = true → ∃ x, s.exitOffset = some x ∧ x ≤ frame.nextOffset
  /-- With an empty outbox every byte on the socket belongs to a frame that was decoded. -/
  whole : client.outbuf = [] → (decodeFrames client.sent).flatMap sessionOutputFrameBytes = client.sent
  /-- With nothing on its way a subscriber has all of it. -/
  complete : s.Subscribed client.subscriberId → client.outbuf = [] → client.pending = none →
    (s.channel client.subscriberId).queue = [] →
      (decodeFrames client.sent).flatMap SessionOutputChunk.data = s.bytes.drop (client.offset - s.base)

section Received

variable {s : State} {client : StreamClient} {offset : Nat} {chunks : List SessionOutputChunk}

theorem Carries.left (h : Carries s offset (chunks ++ more) e) : ∃ m, Carries s offset chunks m := by
  obtain ⟨m, hfollows, -⟩ := follows_append.mp h.follows
  exact ⟨m, hfollows, (pairwise_append.mp h.last).1, fun c hc => h.exit c (mem_append_left _ hc),
    fun c hc => h.small c (mem_append_left _ hc)⟩

theorem Carries.fits (h : Carries s offset chunks e) (he : e < 2 ^ 64) : ∀ c ∈ chunks, c.Fits :=
  fun c hc => ⟨h.small c hc, Nat.lt_of_le_of_lt (h.follows.nextOffset_le hc) he⟩

/-- With an empty outbox all that was framed is on the socket. -/
theorem sent_of_empty (h : client.Written) (hout : client.outbuf = []) :
    client.sent = client.framed.flatMap sessionOutputFrameBytes := by
  rw [h.bytes, hout, drop_nil, append_nil]

/-- **What is carried is received.** -/
theorem ClientOk.received (h : ClientOk s client) (hreached : s.broadcaster.nextOffset = s.base + s.bytes.length)
    (hoffset : s.broadcaster.nextOffset < 2 ^ 64) : Received s client := by
  obtain ⟨e, hcarries, he, hsub⟩ := h.carries
  have hframed : ∀ c ∈ client.framed, c.Fits := by
    intro c hc
    exact hcarries.fits (by omega) c (mem_append_left _ (mem_append_left _ hc))
  have hsent : client.sent <+: client.framed.flatMap sessionOutputFrameBytes := by
    rw [h.written.bytes]
    exact prefix_append _ _
  have hall : client.outbuf = [] → decodeFrames client.sent = client.framed := by
    intro hout
    rw [sent_of_empty h.written hout]
    exact decodeFrames_encoded hframed
  -- what is decoded is the first of what is carried
  obtain ⟨rest, hrest⟩ := decodeFrames_part hframed hsent
  have hdecoded : ∃ m, Carries s client.offset (decodeFrames client.sent) m := by
    rw [StreamClient.carried, ← hrest, append_assoc, append_assoc] at hcarries
    exact hcarries.left
  obtain ⟨m, hdecoded⟩ := hdecoded
  refine ⟨Follows.data_stream hdecoded.follows h.start, fun k frame hk => hdecoded.follows.nextOffset_eq hk,
    hdecoded.last, hdecoded.exit, ?_, ?_⟩
  · intro hout
    rw [hall hout]
    exact (sent_of_empty h.written hout).symm
  · intro hin hout hpending hqueue
    have hcarried : client.carried (s.channel client.subscriberId).queue = decodeFrames client.sent := by
      rw [StreamClient.carried, hpending, hqueue, hall hout]
      simp
    rw [hcarried] at hcarries
    refine List.IsPrefix.eq_of_length (Follows.data_stream hcarries.follows h.start) ?_
    have hlength := hcarries.follows.length
    have hlast := (hsub hin).1
    have hstart := h.start
    rw [length_drop]
    omega

/-- An accepted client keeps its place and its offset. -/
theorem step_offset {k : Nat} (h : s.clients[k]?.map StreamClient.offset = some offset) :
    (step s l).clients[k]?.map StreamClient.offset = some offset := by
  -- a client put in place of another one of the same offset
  have hset : ∀ (i : Nat) (client' : StreamClient), s.clients[i]?.map StreamClient.offset = some client'.offset →
      (s.clients.set i client')[k]?.map StreamClient.offset = some offset := by
    intro i client' hi
    by_cases hik : i = k
    · subst hik
      rw [h] at hi
      cases hi
      obtain ⟨client, hclient, -⟩ := Option.map_eq_some_iff.mp h
      rw [List.getElem?_set_self (List.getElem?_eq_some_iff.mp hclient).1]
      rfl
    · rw [getElem?_set_ne hik]
      exact h
  cases l with
  | subscribe =>
    rw [step]
    split
    · exact h
    · obtain ⟨client, hclient, ho⟩ := Option.map_eq_some_iff.mp h
      rw [List.getElem?_append_left (List.getElem?_eq_some_iff.mp hclient).1]
      exact h
  | pump i results =>
    rw [step]
    split
    · exact h
    · rename_i client hi
      have hpumps := pump_pumps (decide (s.Subscribed client.subscriberId)) client
        (s.channel client.subscriberId).queue (s.channel client.subscriberId).buffered results
      split
      · have hkept := hset i _ (by rw [hi, hpumps.offset]; rfl)
        simp only [State.pump]
        split
        · exact hkept
        · exact hkept
      · exact h
  | stall i =>
    rw [step]
    split
    · exact h
    · rename_i client hi
      exact hset i _ (by rw [hi]; rfl)
  | closeClient =>
    rw [step]
    split <;> exact h
  | broadcastChunk _ | removeSubscriber _ | releaseRecent | markExited => exact h

/-- A client stands after the ones before it from its subscription on. -/
theorem accepted_kept (h : (s.broadcaster.subscribe offset answersQueries).isSome)
    (after : List Label) :
    (run step s (.subscribe offset answersQueries :: after)).clients[s.clients.length]?.map
      StreamClient.offset = some offset := by
  obtain ⟨⟨broadcaster, id⟩, hsome⟩ := Option.isSome_iff_exists.mp h
  have hfirst : (step s (.subscribe offset answersQueries)).clients[s.clients.length]?.map StreamClient.offset
      = some offset := by
    simp [step, hsome, StreamClient.accepted]
  exact foldlRecOn after step (motive := fun t => t.clients[s.clients.length]?.map StreamClient.offset
    = some offset) hfirst (fun _ ht l _ => step_offset ht)

end Received

/-- **A whole run.** -/
theorem inv_run (hsmall : ∀ l ∈ labels, l.Small) : Inv (run step (boot base) labels) :=
  foldlRecOn labels step inv_boot (fun _ hs l hl => inv_step hs l (hsmall l hl))

/-- **A streaming client receives the output from its offset on**, whatever else is called, whatever its socket makes
    of the writes, and whether it is dropped or not: each accepted subscription, until the end of the run. -/
theorem no_gap (base : Nat) (before after : List Label) (offset : Nat) (answersQueries : Bool)
    (haccepted : ((run step (boot base) before).broadcaster.subscribe offset answersQueries).isSome)
    (hsmall : ∀ l ∈ before ++ .subscribe offset answersQueries :: after, l.Small) (hoffset : (run step (boot base)
      (before ++ .subscribe offset answersQueries :: after)).broadcaster.nextOffset < 2 ^ 64) :
    ∃ client, (run step (boot base) (before ++ .subscribe offset answersQueries :: after)).clients[
        (run step (boot base) before).clients.length]? = some client ∧ client.offset = offset ∧
      Received (run step (boot base) (before ++ .subscribe offset answersQueries :: after)) client := by
  have hinv : Inv (run step (boot base) (before ++ .subscribe offset answersQueries :: after)) := inv_run hsmall
  have hkept := accepted_kept haccepted after
  rw [run, List.foldl_append] at hoffset hinv ⊢
  obtain ⟨client, hclient, hclientOffset⟩ := Option.map_eq_some_iff.mp hkept
  exact ⟨client, hclient, hclientOffset,
    (hinv.clients client (List.mem_of_getElem? hclient)).received hinv.ring.reached hoffset⟩

/-- One client with the output replayed to it from the middle of a chunk, read in two pieces, and told of the exit. -/
theorem no_gap_replayed : ∃ client, (run step (boot 5) ([.broadcastChunk [10, 11, 12]] ++ .subscribe 6 false ::
        [.pump 0 [.wrote 4, .wouldBlock], .broadcastChunk [13], .pump 0 [.wrote 100, .wrote 100], .markExited,
          .pump 0 [.wrote 100]])).clients[0]? = some client ∧ client.offset = 6 ∧
      Received (run step (boot 5) ([.broadcastChunk [10, 11, 12]] ++ .subscribe 6 false ::
        [.pump 0 [.wrote 4, .wouldBlock], .broadcastChunk [13], .pump 0 [.wrote 100, .wrote 100], .markExited,
          .pump 0 [.wrote 100]])) client :=
  no_gap 5 [.broadcastChunk [10, 11, 12]] _ 6 false (by decide) (by decide) (by decide +kernel)

/-! ## A chunk that is too large -/

section TooLarge

variable {data : List UInt8}

/-- The first chunk of a Session. -/
abbrev firstChunk (data : List UInt8) : SessionOutputChunk := ⟨data, data.length, false, true⟩

/-- A client that was sent it. -/
abbrev served (data : List UInt8) : StreamClient :=
  { StreamClient.accepted 1 0 with sent := sessionOutputFrameBytes (firstChunk data), framed := [firstChunk data] }

section

variable (hlarge : sessionOutputStreamBatchMaxBytes * 4 ≤ data.length)

include hlarge

/-- A large chunk is framed at once, and a socket that has room for it takes it in one write. -/
theorem pump_large :
    (StreamClient.accepted 1 0).pump true [firstChunk data] buffered [.wrote (data.length + 13)]
      = (served data, [], buffered - min data.length buffered, true) := by
  have hlen : (sessionOutputFrameBytes (firstChunk data)).length = data.length + 13 :=
    (length_frameBytes _).trans (Nat.add_comm _ _)
  have htake : (sessionOutputFrameBytes (firstChunk data)).take (data.length + 13)
      = sessionOutputFrameBytes (firstChunk data) := by
    rw [← hlen, take_length]
  have hbatch : sessionOutputStreamBatchMaxBytes ≤ data.length := by omega
  have hfull : sessionOutputStreamBatchMaxBytes * 4 ≤ data.length + 13 := Nat.le_add_right_of_le hlarge
  have hpull : (StreamClient.accepted 1 0).pull [firstChunk data] buffered
      = ((StreamClient.accepted 1 0).frame (firstChunk data), [], buffered - min data.length buffered, false) := by
    simp [StreamClient.pull, StreamClient.receive, StreamClient.place, StreamClient.accepted, hbatch, hlen, hfull]
  have hwrite : ((StreamClient.accepted 1 0).frame (firstChunk data)).flushClientOutbuf [.wrote (data.length + 13)]
      = (served data, [], true) := by
    simp [StreamClient.flushClientOutbuf, StreamClient.writeLoop, StreamClient.compact, StreamClient.accepted, hlen, htake]
  -- the first turn frames it, the second writes it and finds the channel empty
  rw [pump_turn rfl (Nat.lt_irrefl 0) rfl hpull rfl]
  show (if 0 = (sessionOutputFrameBytes (firstChunk data)).length then _ else _) = _
  rw [if_neg (by omega)]
  exact pump_turn hwrite (Nat.lt_irrefl 0) rfl rfl rfl

/-- The client of a run with one large chunk. -/
theorem run_large :
    (run step (boot 0) [.subscribe 0 false, .broadcastChunk data, .pump 0 [.wrote (data.length + 13)]]).clients
      = [served data] := by
  have hdata : data ≠ [] := by
    rintro rfl
    exact absurd hlarge (by decide)
  have hchunk : (step (step (boot 0) (.subscribe 0 false)) (.broadcastChunk data)).broadcaster
      = (step (boot 0) (.subscribe 0 false)).broadcaster.broadcastChunk data := rfl
  have hsubscribed : (step (step (boot 0) (.subscribe 0 false)) (.broadcastChunk data)).Subscribed 1 := by
    rw [State.Subscribed, hchunk, broadcastChunk, if_neg hdata]
    exact mem_singleton.mpr rfl
  have hchannel : (step (step (boot 0) (.subscribe 0 false)) (.broadcastChunk data)).channel 1
      = ⟨[firstChunk data], data.length, true⟩ := by
    rw [State.channel, hchunk, broadcastChunk, if_neg hdata]
    simp [toAll, enqueueOutputChunk, step, boot, subscribe, atOffset, oldestAvailable, Channel.enqueueAll]
  show (step (step (step (boot 0) (.subscribe 0 false)) (.broadcastChunk data)) (.pump 0 _)).clients = _
  have hclients : (step (step (boot 0) (.subscribe 0 false)) (.broadcastChunk data)).clients
      = [StreamClient.accepted 1 0] := rfl
  generalize step (step (boot 0) (.subscribe 0 false)) (.broadcastChunk data) = s at *
  simp only [step, hclients, getElem?_cons_zero]
  rw [if_pos (by rw [StreamClient.accepted, hchannel])]
  have hid : (StreamClient.accepted 1 0).subscriberId = 1 := rfl
  simp only [State.pump, hid, hchannel, decide_eq_true hsubscribed, pump_large hlarge, hclients, if_true]
  rfl

end

/-- A chunk larger than a frame may be is sent, and refused by the client. -/
theorem not_received_large (hlarge : sessionOutputStreamMaxFrameBytes < data.length) (hlen : data.length < 2 ^ 32) :
    ∃ client, (run step (boot 0) [.subscribe 0 false, .broadcastChunk data,
        .pump 0 [.wrote (data.length + 13)]]).clients[0]? = some client ∧
      readOutputStreamFrame .quiet client.sent = .error (.tooLarge data.length) ∧
      ¬ Received (run step (boot 0) [.subscribe 0 false, .broadcastChunk data,
        .pump 0 [.wrote (data.length + 13)]]) client := by
  have hbatch : sessionOutputStreamBatchMaxBytes * 4 ≤ data.length := Nat.le_trans (by decide) (hlarge.le)
  have hrefused : readOutputStreamFrame .quiet (sessionOutputFrameBytes (firstChunk data))
      = .error (.tooLarge data.length) := by
    rw [← append_nil (sessionOutputFrameBytes _)]
    exact read_tooLarge hlarge hlen
  refine ⟨_, by rw [run_large hbatch]; rfl, hrefused, fun h => ?_⟩
  -- no frame is decoded, though the outbox is empty
  have hnothing : decodeFrames (sessionOutputFrameBytes (firstChunk data)) = [] := by
    rw [decodeFrames]
    split
    · rename_i heq
      rw [hrefused] at heq
      cases heq
    · rfl
  have hwhole : (decodeFrames (sessionOutputFrameBytes (firstChunk data))).flatMap
      sessionOutputFrameBytes = sessionOutputFrameBytes (firstChunk data) := h.whole rfl
  rw [hnothing, flatMap_nil] at hwhole
  have hlength := length_frameBytes (firstChunk data)
  rw [← hwhole, length_nil] at hlength
  omega

end TooLarge

/-- A chunk of one byte more than a frame may hold: the client has all of it on its socket, and none of the output. -/
theorem large_chunk_refused :
    ∃ client, (run step (boot 0) [.subscribe 0 false, .broadcastChunk (List.replicate 8388609 0),
        .pump 0 [.wrote 8388622]]).clients[0]? = some client ∧
      readOutputStreamFrame .quiet client.sent = .error (.tooLarge 8388609) ∧
      ¬ Received (run step (boot 0) [.subscribe 0 false, .broadcastChunk (List.replicate 8388609 0),
        .pump 0 [.wrote 8388622]]) client := by
  have hlength : (List.replicate 8388609 (0 : UInt8)).length = 8388609 := List.length_replicate
  have h := not_received_large (by rw [hlength]; decide) (by rw [hlength]; decide)
  rw [hlength] at h
  exact h

end Supercli.Output.LiveStream
