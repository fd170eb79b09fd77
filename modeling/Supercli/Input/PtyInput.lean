import Supercli.Lib.Blocks
import Supercli.Lib.Machine
import Supercli.Output.StreamClient

/-!
# `Input.PtyInput` — what is typed into a terminal

Three things write to the terminal of a Session: frames of streaming clients, which wait in `pending_input` while the
terminal takes no more, `Write` commands on threads of their own, and the Host's answers to queries. They share one
writer and its lock; but a frame that is half written has let go of the lock.

The bytes on the terminal and those that wait are whole units one after the other (`Uninterleaved`) as long as nothing
else is written while a frame is half written and what is dropped at the cap belongs to one client
(`input_uninterleaved`).
-/

namespace Supercli.Input

open List Option

open Output (WriteResult)
open Blocks

/-! ## The machine -/

def pendingPtyInputMaxBytes : Nat := 1024 * 1024

def sessionInputStreamMaxFrameBytes : Nat := 256 * 1024

/-- Who wants something written: a streaming client, a `Write` command (each on a connection of its own), or the
    Host. -/
inductive Source
  | client (token : Nat)
  | write (command : Nat)
  | answer
deriving DecidableEq, Repr

/-- What is written as one: a frame, the data of a `Write`, an answer. -/
structure InputUnit where
  source : Source
  data : List UInt8
deriving DecidableEq, Repr

/-- The input of a Session. Every byte carries the number of its unit, which the code has not; `errors` are those who
    were told of an error. -/
structure State where
  units : List InputUnit
  /-- `pending_input`. -/
  pending : List (Nat × UInt8)
  /-- What has reached the terminal. -/
  terminal : List (Nat × UInt8)
  errors : List Source
deriving DecidableEq, Repr

def boot : State := ⟨[], [], [], []⟩

inductive Drained
  | drained
  | blocked
  | failed
deriving DecidableEq, Repr

/-- The loop of `drain_pending_input`, under the writer's lock. A terminal with nothing more to say blocks. -/
def drainLoop (pending terminal : List (Nat × UInt8)) :
    List WriteResult → List (Nat × UInt8) × List (Nat × UInt8) × Drained
  | [] => (pending, terminal, if pending = [] then .drained else .blocked)
  | result :: results =>
    if pending = [] then (pending, terminal, .drained)
    else
      match result with
      | .wrote n =>
        if n = 0 then (pending, terminal, .blocked)
        else drainLoop (pending.drop n) (terminal ++ pending.take n) results
      | .wouldBlock => (pending, terminal, .blocked)
      | .interrupted => drainLoop pending terminal results
      | .failed => (pending, terminal, .failed)

section

variable (s : State)

/-- The queue is full. -/
def State.overflows (results : List WriteResult) : Bool :=
  (drainLoop s.pending s.terminal results).2.2 == .blocked &&
    decide ((drainLoop s.pending s.terminal results).1.length > pendingPtyInputMaxBytes)

/-- `drain_pending_input`, and whether it is without error. -/
def State.drainPendingInput (results : List WriteResult) : State × Bool :=
  let drained := drainLoop s.pending s.terminal results
  if drained.2.2 = .failed then ({ s with pending := drained.1, terminal := drained.2.1 }, false)
  else if s.overflows results then ({ s with pending := [], terminal := drained.2.1 }, false)
  else ({ s with pending := drained.1, terminal := drained.2.1 }, true)

/-- A unit is accepted. -/
def State.accept (source : Source) (data : List UInt8) : State :=
  { s with units := s.units ++ [⟨source, data⟩] }

/-- `write_pty_input` appends to the queue. -/
def State.enqueue (token : Nat) (data : List UInt8) : State :=
  { s.accept (.client token) data with
    pending := s.pending ++ (⟨s.units.length, data⟩ : Block Nat UInt8).items }

/-- The loop of `Write`, and of `write_all`: how much is written, and whether that is all. A terminal with nothing more
    to say takes the rest. -/
def writeAll (data : List UInt8) : List WriteResult → List UInt8 × Bool
  | [] => (data, true)
  | result :: results =>
    if data = [] then ([], true)
    else
      match result with
      | .wrote n =>
        if n = 0 then ([], false)
        else
          let rest := writeAll (data.drop n) results
          (data.take n ++ rest.1, rest.2)
      | .wouldBlock | .interrupted => writeAll data results
      | .failed => ([], false)

/-- Bytes written past the queue. -/
def State.writeDirectly (source : Source) (data : List UInt8) (results : List WriteResult) : State :=
  let written := writeAll data results
  let s := { s.accept source data with
    terminal := s.terminal ++ (⟨s.units.length, written.1⟩ : Block Nat UInt8).items }
  -- an answer that fails is nobody's error
  if written.2 || source = .answer then s else { s with errors := s.errors ++ [source] }

inductive Label
  /-- A frame of a client; the client is closed after an error. -/
  | frame (token : Nat) (data : List UInt8) (results : List WriteResult)
  /-- The terminal takes bytes again. -/
  | writable (results : List WriteResult)
  /-- A `Write` command that may proceed. -/
  | write (data : List UInt8) (results : List WriteResult)
  /-- An answer to a query. -/
  | answer (data : List UInt8) (results : List WriteResult)
deriving DecidableEq, Repr

def step : Label → State
  | .frame token data results =>
    if data = [] ∨ data.length > sessionInputStreamMaxFrameBytes ∨ .client token ∈ s.errors then s
    else
      match (s.enqueue token data).drainPendingInput results with
      | (s, true) => s
      | (s, false) => { s with errors := s.errors ++ [.client token] }
  | .writable results => (s.drainPendingInput results).1
  | .write data results => s.writeDirectly (.write s.units.length) data results
  | .answer data results => s.writeDirectly .answer data results

/-! ## What is promised -/

/-- Who a unit is from. -/
def State.sourceOf (id : Nat) : Option Source := s.units[id]?.map InputUnit.source

/-- **Whole units.** What has reached the terminal, and after it what waits, is a list of units. -/
structure Uninterleaved (blocks : List (Block Nat UInt8)) : Prop where
  stream : flat blocks = s.terminal ++ s.pending
  /-- No unit comes twice. -/
  once : (blocks.map Block.id).Nodup
  /-- A unit is there as a whole, or its client was told that the end of it is not. -/
  whole : ∀ b ∈ blocks, ∃ unit, s.units[b.id]? = some unit ∧ b.data ≠ [] ∧
    (b.data = unit.data ∨ b.data <+: unit.data ∧ unit.source ∈ s.errors)
  /-- No frame is empty. -/
  frames : ∀ id token, s.sourceOf id = some (.client token) → ∀ unit, s.units[id]? = some unit → unit.data ≠ []
  /-- Every unit is there, or its client was told. -/
  complete : ∀ id unit, s.units[id]? = some unit → unit.data ≠ [] → id ∈ blocks.map Block.id ∨ unit.source ∈ s.errors
  /-- The frames of a client keep their order. -/
  order : blocks.Pairwise fun b b' => ∀ token, s.sourceOf b.id = some (.client token) →
    s.sourceOf b'.id = some (.client token) → b.id < b'.id
  /-- What a client loses is the end of what it sent. -/
  suffix : ∀ b ∈ blocks, ∀ token, s.sourceOf b.id = some (.client token) → ∀ id < b.id, ∀ unit,
    s.units[id]? = some unit → unit.source = .client token → (⟨id, unit.data⟩ : Block Nat UInt8) ∈ blocks

section

variable (now : List Source) (results : List WriteResult)

/-- What is left in the queue is of those who were told, or are told now. -/
def Told : Prop :=
  s.overflows results = true → ∀ item ∈ (drainLoop s.pending s.terminal results).1,
    ∀ source ∈ s.sourceOf item.1, source ∈ s.errors ++ now

instance : Decidable (Told s now results) :=
  inferInstanceAs (Decidable (_ → _))

end

/-- Nothing else is written while a frame is half written, what is dropped at the cap belongs to those who are told, and
    the terminal takes the Host's answers. -/
def Clean : Label → Prop
  | .frame token data results => Told (s.enqueue token data) [.client token] results
  | .writable results => Told s [] results
  | .write _ _ => ¬ Straddles s.terminal s.pending
  | .answer data results => ¬ Straddles s.terminal s.pending ∧ (writeAll data results).2 = true

instance (l : Label) : Decidable (Clean s l) := by
  cases l <;> unfold Clean <;> infer_instance

end

section Steps

variable {s s' : State} {blocks : List (Block Nat UInt8)}

/-! ## Draining -/

theorem drainLoop_stream (pending terminal : List (Nat × UInt8)) (results : List WriteResult) :
    (drainLoop pending terminal results).2.1 ++ (drainLoop pending terminal results).1 = terminal ++ pending := by
  induction results generalizing pending terminal with
  | nil => rfl
  | cons result results ih =>
    simp only [drainLoop]
    split
    · rfl
    · cases result with
      | wrote =>
        dsimp only
        split
        · rfl
        · rw [ih, append_assoc, take_append_drop]
      | wouldBlock => rfl
      | interrupted => exact ih pending terminal
      | failed => rfl

/-- The same units and the same stream, with more who were told. -/
theorem Uninterleaved.congr (h : Uninterleaved s blocks) (hunits : s'.units = s.units)
    (hstream : s'.terminal ++ s'.pending = s.terminal ++ s.pending) (herrors : s.errors ⊆ s'.errors) :
    Uninterleaved s' blocks := by
  have hsource : s'.sourceOf = s.sourceOf := by
    funext id
    rw [State.sourceOf, State.sourceOf, hunits]
  refine ⟨h.stream.trans hstream.symm, h.once, ?_, ?_, ?_, ?_, ?_⟩
  · intro b hb
    obtain ⟨unit, hunit, hne, hdata⟩ := h.whole b hb
    exact ⟨unit, hunits ▸ hunit, hne, hdata.imp_right fun ⟨hpart, hin⟩ => ⟨hpart, herrors hin⟩⟩
  · rw [hsource, hunits]
    exact h.frames
  · intro id unit hunit hne
    exact (h.complete id unit (hunits ▸ hunit) hne).imp_right fun hin => herrors hin
  · rw [hsource]
    exact h.order
  · rw [hsource, hunits]
    exact h.suffix

variable {before after : List (Block Nat UInt8)} {data : List UInt8} {told : List Source} {source : Source}
  {b : Block Nat UInt8}

/-- Earlier frames of a client stand before later ones. -/
theorem Uninterleaved.earlier (h : Uninterleaved s (before ++ after)) (hb : b ∈ before) {id : Nat}
    (hsource : s.sourceOf b.id = some (.client token)) (hlt : id < b.id) (hunit : s.units[id]? = some unit)
    (hclient : unit.source = .client token) : (⟨id, unit.data⟩ : Block Nat UInt8) ∈ before := by
  rcases mem_append.mp (h.suffix b (mem_append_left _ hb) token hsource id hlt unit hunit hclient) with
    hin | hin
  · exact hin
  · -- one that stands later has a larger number
    have hid : s.sourceOf id = some (.client token) := by
      rw [State.sourceOf, hunit, map_some, hclient]
    have hlater := (pairwise_append.mp h.order).2.2 b hb _ hin token hsource hid
    exact absurd hlt (Nat.lt_asymm hlater)

/-- The blocks up to some place, if who has later ones was told. -/
theorem Uninterleaved.take (h : Uninterleaved s (before ++ after))
    (htold : ∀ b ∈ after, ∀ unit, s.units[b.id]? = some unit → unit.source ∈ s.errors ++ told) :
    Uninterleaved { s with terminal := flat before, pending := [], errors := s.errors ++ told } before := by
  have honce := h.once
  rw [map_append] at honce
  refine ⟨(append_nil _).symm, (nodup_append.mp honce).1, ?_, h.frames, ?_, (pairwise_append.mp h.order).1,
    fun b hb token hsource id hlt unit hget hclient => h.earlier hb hsource hlt hget hclient⟩
  · intro b hb
    obtain ⟨unit, hget, hne, hdata⟩ := h.whole b (mem_append_left _ hb)
    exact ⟨unit, hget, hne, hdata.imp_right fun ⟨hpart, hin⟩ => ⟨hpart, mem_append_left _ hin⟩⟩
  · intro id unit hget hne
    rcases h.complete id unit hget hne with hin | hin
    · rw [map_append] at hin
      rcases mem_append.mp hin with hin | hin
      · exact .inl hin
      · obtain ⟨b, hb, rfl⟩ := mem_map.mp hin
        exact .inr (htold b hb unit hget)
    · exact .inr (mem_append_left _ hin)

/-- The last block loses its end, if its client was told. -/
theorem Uninterleaved.shorten (h : Uninterleaved s (before ++ [b])) (hid : c.id = b.id)
    (hpart : c.data <+: b.data) (hdata : c.data ≠ [])
    (htold : ∀ unit, s.units[b.id]? = some unit → unit.source ∈ s.errors) :
    Uninterleaved { s with terminal := flat (before ++ [c]), pending := [] } (before ++ [c]) := by
  have hids : (before ++ [c]).map Block.id = (before ++ [b]).map Block.id := by simp [hid]
  have horder := pairwise_append.mp h.order
  refine ⟨(append_nil _).symm, hids ▸ h.once, ?_, h.frames, hids ▸ h.complete, ?_, ?_⟩
  · intro d hd
    rcases mem_append.mp hd with hd | hd
    · exact h.whole d (mem_append_left _ hd)
    · rw [mem_singleton.mp hd, hid]
      obtain ⟨unit, hget, -, hwhole⟩ := h.whole b (mem_append_right _ mem_cons_self)
      have hprefix : b.data <+: unit.data := hwhole.elim (fun heq => heq ▸ prefix_rfl) And.left
      exact ⟨unit, hget, hdata, .inr ⟨hpart.trans hprefix, htold unit hget⟩⟩
  · refine pairwise_append.mpr ⟨horder.1, pairwise_singleton _ _, ?_⟩
    intro d hd d' hd'
    rw [mem_singleton.mp hd', hid]
    exact horder.2.2 d hd b mem_cons_self
  · intro d hd token hsource id hlt unit hget hclient
    refine mem_append_left _ ?_
    rcases mem_append.mp hd with hd | hd
    · exact h.earlier hd hsource hlt hget hclient
    · rw [mem_singleton.mp hd, hid] at hsource hlt
      -- before the last block, as it is not that one
      have hin := h.suffix b (mem_append_right _ mem_cons_self) token hsource id hlt unit hget hclient
      refine (mem_append.mp hin).resolve_right fun hlast => ?_
      exact absurd (congrArg Block.id (mem_singleton.mp hlast)) (Nat.ne_of_lt hlt)

/-- **Dropping the queue** leaves whole units, but for those whose clients were told. -/
theorem Uninterleaved.cut (h : Uninterleaved s blocks)
    (htold : ∀ item ∈ s.pending, ∀ source ∈ s.sourceOf item.1, source ∈ s.errors ++ told) :
    ∃ kept, Uninterleaved { s with pending := [], errors := s.errors ++ told } kept := by
  -- who has bytes in the queue was told
  have hbytes : ∀ b : Block Nat UInt8, b.data ≠ [] → b.items ⊆ s.pending → ∀ unit, s.units[b.id]? = some unit →
      unit.source ∈ s.errors ++ told := by
    intro b hne hitems unit hget
    obtain ⟨byte, rest, hdata⟩ := exists_cons_of_ne_nil hne
    refine htold (b.id, byte) (hitems ?_) _ ?_
    · rw [Block.items, hdata]
      exact mem_cons_self
    · show s.units[b.id]?.map InputUnit.source = some unit.source
      rw [hget, map_some]
  have hafter : ∀ {after}, after ⊆ blocks → flat after ⊆ s.pending → ∀ b ∈ after, ∀ unit, s.units[b.id]? = some unit →
      unit.source ∈ s.errors ++ told := by
    intro after hblocks hitems b hb
    obtain ⟨_, -, hne, -⟩ := h.whole b (hblocks hb)
    exact hbytes b hne fun item hitem => hitems (mem_flatMap.mpr ⟨b, hb, hitem⟩)
  rcases flat_split h.stream with ⟨before, after, rfl, hterminal, hpending⟩ |
    ⟨before, id, data, more, after, rfl, hdata, hmore, hterminal, hpending⟩
  · -- the queue begins with a new unit
    have hkept := h.take (hafter (subset_append_right _ _) (hpending ▸ List.Subset.refl _))
    exact ⟨before, by rwa [← hterminal] at hkept⟩
  · -- the first unit of the queue is half written
    have hcut : Uninterleaved s (before ++ [⟨id, data ++ more⟩] ++ after) := by rwa [append_assoc]
    have hkept := hcut.take (hafter (fun b hb => mem_append_right _ (mem_cons_of_mem _ hb))
      (hpending ▸ subset_append_right _ _))
    have hshort := hkept.shorten (c := ⟨id, data⟩) rfl (prefix_append _ _) hdata
      (hbytes ⟨id, more⟩ hmore (hpending ▸ subset_append_left _ _))
    rw [show flat (before ++ [⟨id, data⟩]) = s.terminal by simp [hterminal]] at hshort
    exact ⟨_, hshort⟩

/-- **Draining.** -/
theorem Uninterleaved.drain (h : Uninterleaved s blocks) (htold : Told s told results) :
    ∃ kept, Uninterleaved (if (s.drainPendingInput results).2 then (s.drainPendingInput results).1
      else { (s.drainPendingInput results).1 with errors := (s.drainPendingInput results).1.errors ++ told }) kept := by
  have hstream := drainLoop_stream s.pending s.terminal results
  have hdrained : Uninterleaved { s with
      pending := (drainLoop s.pending s.terminal results).1
      terminal := (drainLoop s.pending s.terminal results).2.1 } blocks :=
    h.congr rfl hstream (List.Subset.refl _)
  simp only [State.drainPendingInput]
  split
  · -- an error leaves the queue as it is
    exact ⟨blocks, hdrained.congr rfl rfl (subset_append_left _ _)⟩
  · split
    · rename_i hover
      exact hdrained.cut (htold hover)
    · exact ⟨blocks, hdrained⟩

/-! ## A frame -/

section Accepted

variable {t : State} (hunits : t.units = s.units ++ [⟨source, data⟩])

include hunits

theorem getElem?_accept {id : Nat} :
    t.units[id]? = some unit ↔ s.units[id]? = some unit ∨ id = s.units.length ∧ unit = ⟨source, data⟩ := by
  rw [hunits]
  rcases Nat.lt_trichotomy id s.units.length with hlt | rfl | hgt
  · rw [getElem?_append_left hlt]
    simp [Nat.ne_of_lt hlt]
  · simp [eq_comm]
  · rw [getElem?_append_right (hgt.le), getElem?_eq_none (hgt.le), getElem?_singleton, if_neg (by omega)]
    simp [Nat.ne_of_gt hgt]

theorem sourceOf_accept {id : Nat} (h : id < s.units.length) : t.sourceOf id = s.sourceOf id := by
  rw [State.sourceOf, hunits, getElem?_append_left h, State.sourceOf]

theorem sourceOf_accept_new : t.sourceOf s.units.length = some source := by
  simp [State.sourceOf, hunits]

end Accepted

/-- Every block is of a unit that was accepted. -/
theorem Uninterleaved.id_lt (h : Uninterleaved s blocks) (hb : b ∈ blocks) : b.id < s.units.length := by
  obtain ⟨unit, hunit, -⟩ := h.whole b hb
  exact (List.getElem?_eq_some_iff.mp hunit).1

theorem Uninterleaved.fresh (h : Uninterleaved s blocks) : s.units.length ∉ blocks.map Block.id := by
  intro hin
  obtain ⟨b, hb, hid⟩ := mem_map.mp hin
  exact absurd (h.id_lt hb) (by omega)

/-- **One more unit** among the blocks: a frame at the end, or something that no frame is half written before. -/
theorem Uninterleaved.insert (h : Uninterleaved s (before ++ after))
    (hwritten : written ≠ []) (hdata : written = data ∨ written <+: data ∧ source ∈ s.errors ++ told)
    (hunits : t.units = s.units ++ [⟨source, data⟩]) (herrors : t.errors = s.errors ++ told)
    (hstream : t.terminal ++ t.pending = flat before ++ (⟨s.units.length, written⟩ : Block Nat UInt8).items ++ flat after)
    (hlast : ∀ token, source = .client token → after = [] ∧ ∀ id unit, s.units[id]? = some unit →
      unit.source = .client token → (⟨id, unit.data⟩ : Block Nat UInt8) ∈ before) :
    Uninterleaved t (before ++ ⟨s.units.length, written⟩ :: after) := by
  have hold : ∀ b ∈ before ++ after, t.sourceOf b.id = s.sourceOf b.id := fun b hb => sourceOf_accept hunits (h.id_lt hb)
  have hnew := sourceOf_accept_new hunits
  have hmem : ∀ b, b ∈ before ++ (⟨s.units.length, written⟩ : Block Nat UInt8) :: after ↔
      b = ⟨s.units.length, written⟩ ∨ b ∈ before ++ after := by
    intro b
    simp only [mem_append, mem_cons, or_left_comm]
  refine ⟨?_, ?_, ?_, ?_, ?_, ?_, ?_⟩
  · rw [hstream, flat_append, flat_cons, append_assoc]
  · have hfresh := h.fresh
    have honce := h.once
    rw [map_append] at hfresh honce ⊢
    exact (perm_middle.nodup_iff).mpr (nodup_cons.mpr ⟨hfresh, honce⟩)
  · intro b hb
    rcases (hmem b).mp hb with rfl | hb
    · refine ⟨⟨source, data⟩, (getElem?_accept hunits).mpr (.inr ⟨rfl, rfl⟩), hwritten, ?_⟩
      rw [herrors]
      exact hdata
    · obtain ⟨unit, hunit, hne, hwhole⟩ := h.whole b hb
      refine ⟨unit, (getElem?_accept hunits).mpr (.inl hunit), hne, ?_⟩
      rw [herrors]
      exact hwhole.imp_right fun ⟨hpart, hin⟩ => ⟨hpart, mem_append_left _ hin⟩
  · intro id token hclient unit hunit
    rcases (getElem?_accept hunits).mp hunit with hold' | ⟨rfl, rfl⟩
    · rw [sourceOf_accept hunits (List.getElem?_eq_some_iff.mp hold').1] at hclient
      exact h.frames id token hclient unit hold'
    · intro hempty
      rcases hdata with rfl | ⟨hpart, -⟩
      · exact hwritten hempty
      · exact hwritten (prefix_nil.mp (hempty ▸ hpart))
  · intro id unit hunit hne
    rw [herrors]
    rcases (getElem?_accept hunits).mp hunit with hunit | ⟨rfl, rfl⟩
    · rcases h.complete id unit hunit hne with hin | hin
      · refine .inl ?_
        obtain ⟨b, hb, rfl⟩ := mem_map.mp hin
        exact mem_map.mpr ⟨b, (hmem b).mpr (.inr hb), rfl⟩
      · exact .inr (mem_append_left _ hin)
    · exact .inl (mem_map.mpr ⟨_, (hmem _).mpr (.inl rfl), rfl⟩)
  · have horder := pairwise_append.mp (h.order.imp_of_mem fun {b b'} hb hb' hlt => by
      rwa [← hold b hb, ← hold b' hb'] at hlt)
    -- the new unit has the largest number, and stands last if it is a frame
    refine pairwise_append.mpr ⟨horder.1, pairwise_cons.mpr ⟨?_, horder.2.1⟩, ?_⟩
    · intro b hb token hclient
      rw [hnew] at hclient
      have hnone := (hlast token (some.inj hclient)).1
      rw [hnone] at hb
      exact absurd hb not_mem_nil
    · intro b hb b' hb' token hclient hclient'
      rcases mem_cons.mp hb' with rfl | hb'
      · exact h.id_lt (mem_append_left _ hb)
      · exact horder.2.2 b hb b' hb' token hclient hclient'
  · intro b hb token hclient id hlt unit hunit hsame
    rcases (hmem b).mp hb with rfl | hb
    · rw [hnew] at hclient
      rcases (getElem?_accept hunits).mp hunit with hunit | ⟨rfl, -⟩
      · exact mem_append_left _ ((hlast token (some.inj hclient)).2 id unit hunit hsame)
      · exact absurd hlt (Nat.lt_irrefl _)
    · rw [hold b hb] at hclient
      rcases (getElem?_accept hunits).mp hunit with hunit | ⟨rfl, -⟩
      · exact (hmem _).mpr (.inr (h.suffix b hb token hclient id hlt unit hunit hsame))
      · exact absurd hlt (Nat.lt_asymm (h.id_lt hb))

/-- **A frame goes to the end of the queue.** -/
theorem Uninterleaved.enqueue (h : Uninterleaved s blocks) (hdata : data ≠ []) (hopen : .client token ∉ s.errors) :
    Uninterleaved (s.enqueue token data) (blocks ++ [⟨s.units.length, data⟩]) := by
  have h' : Uninterleaved s (blocks ++ []) := by
    rw [append_nil]
    exact h
  refine h'.insert hdata (.inl rfl) rfl (append_nil _).symm ?_ ?_
  · rw [h.stream, flat_nil, append_nil, append_assoc]
    rfl
  · rintro token' hsource
    obtain rfl : token = token' := Source.client.inj hsource
    refine ⟨rfl, fun id unit hunit hclient => ?_⟩
    -- a client that was not told of an error has all its frames there
    have hsource : s.sourceOf id = some (.client token) := by
      rw [State.sourceOf, hunit, map_some, hclient]
    have hne := h.frames id token hsource unit hunit
    rcases h.complete id unit hunit hne with hin | hin
    · obtain ⟨b, hb, rfl⟩ := mem_map.mp hin
      obtain ⟨unit', hunit', -, hwhole⟩ := h.whole b hb
      obtain rfl : unit' = unit := mem_unique hunit' hunit
      rcases hwhole with hwhole | ⟨-, htold⟩
      · exact hwhole ▸ hb
      · exact absurd (hclient ▸ htold) hopen
    · exact absurd (hclient ▸ hin) hopen

/-! ## Past the queue -/

theorem writeAll_spec (data : List UInt8) (results : List WriteResult) :
    (writeAll data results).1 <+: data ∧ ((writeAll data results).2 = true → (writeAll data results).1 = data) := by
  induction results generalizing data with
  | nil => exact ⟨prefix_rfl, fun _ => rfl⟩
  | cons result results ih =>
    simp only [writeAll]
    split
    · rename_i hnil
      rw [hnil]
      exact ⟨prefix_rfl, fun _ => rfl⟩
    · cases result with
      | wrote n =>
        dsimp only
        split
        · exact ⟨ nil_prefix, fun hall => absurd hall Bool.false_ne_true⟩
        · obtain ⟨hpart, hall⟩ := ih (data.drop n)
          constructor
          · have htake := (prefix_append_right_inj (data.take n)).mpr hpart
            rw [take_append_drop] at htake
            exact htake
          · intro hok
            rw [hall hok, take_append_drop]
      | wouldBlock | interrupted => exact ih data
      | failed => exact ⟨ nil_prefix, fun hall => absurd hall Bool.false_ne_true⟩

/-- A unit of which nothing was written. -/
theorem Uninterleaved.nothing (h : Uninterleaved s blocks) (hclient : ∀ token, source ≠ .client token)
    (hdata : data = [] ∨ source ∈ s.errors ++ told) (hunits : t.units = s.units ++ [⟨source, data⟩])
    (herrors : t.errors = s.errors ++ told) (hstream : t.terminal ++ t.pending = s.terminal ++ s.pending) :
    Uninterleaved t blocks := by
  have hold : ∀ id < s.units.length, t.sourceOf id = s.sourceOf id := fun id hid => sourceOf_accept hunits hid
  refine ⟨h.stream.trans hstream.symm, h.once, ?_, ?_, ?_, ?_, ?_⟩
  · intro b hb
    obtain ⟨unit, hunit, hne, hwhole⟩ := h.whole b hb
    refine ⟨unit, (getElem?_accept hunits).mpr (.inl hunit), hne, ?_⟩
    rw [herrors]
    exact hwhole.imp_right fun ⟨hpart, hin⟩ => ⟨hpart, mem_append_left _ hin⟩
  · intro id token hsource unit hunit
    rcases (getElem?_accept hunits).mp hunit with hunit | ⟨rfl, rfl⟩
    · rw [hold id (List.getElem?_eq_some_iff.mp hunit).1] at hsource
      exact h.frames id token hsource unit hunit
    · rw [State.sourceOf, hunit] at hsource
      exact absurd (some.inj hsource) (hclient token)
  · intro id unit hunit hne
    rw [herrors]
    rcases (getElem?_accept hunits).mp hunit with hunit | ⟨rfl, rfl⟩
    · exact (h.complete id unit hunit hne).imp_right fun hin => mem_append_left _ hin
    · exact hdata.elim (fun hempty => absurd hempty hne) .inr
  · refine h.order.imp_of_mem fun {b b'} hb hb' hlt => ?_
    rw [hold b.id (h.id_lt hb), hold b'.id (h.id_lt hb')]
    exact hlt
  · intro b hb token hsource id hlt unit hunit hsame
    rw [hold b.id (h.id_lt hb)] at hsource
    rcases (getElem?_accept hunits).mp hunit with hunit | ⟨rfl, -⟩
    · exact h.suffix b hb token hsource id hlt unit hunit hsame
    · exact absurd hlt (Nat.lt_asymm (h.id_lt hb))

/-- Who is told of a write past the queue. -/
def toldOf (source : Source) (written : List UInt8 × Bool) : List Source :=
  if written.2 || source = .answer then [] else [source]

theorem writeDirectly_eq :
    s.writeDirectly source data results = { s.accept source data with
      terminal := s.terminal ++ (⟨s.units.length, (writeAll data results).1⟩ : Block Nat UInt8).items
      errors := s.errors ++ toldOf source (writeAll data results) } := by
  simp only [State.writeDirectly, toldOf]
  split
  · rw [append_nil]
    rfl
  · rfl

/-- **A write past the queue**, where no frame is half written. -/
theorem Uninterleaved.writeDirectly (h : Uninterleaved s blocks)
    (hclient : ∀ token, source ≠ .client token) (hcut : ¬ Straddles s.terminal s.pending)
    (hanswer : source = .answer → (writeAll data results).2 = true) :
    ∃ kept, Uninterleaved (s.writeDirectly source data results) kept := by
  obtain ⟨before, after, rfl, hterminal, hpending⟩ := flat_boundary h.stream hcut
  obtain ⟨hpart, hall⟩ := writeAll_spec data results
  rw [writeDirectly_eq]
  generalize writeAll data results = written at *
  have hdata : written.1 = data ∨ source ∈ s.errors ++ toldOf source written := by
    by_cases hok : written.2 = true
    · exact .inl (hall hok)
    · have hsource : source ≠ .answer := fun heq => hok (hanswer heq)
      refine .inr (mem_append_right _ ?_)
      rw [toldOf, if_neg (by simp [hok, hsource])]
      exact mem_cons_self
  by_cases hnone : written.1 = []
  · refine ⟨before ++ after, h.nothing hclient (hdata.imp_left fun heq => heq ▸ hnone) rfl rfl ?_⟩
    rw [hnone]
    show s.terminal ++ [] ++ s.pending = _
    rw [append_nil]
  · refine ⟨_, h.insert hnone (hdata.imp_right fun hin => ⟨hpart, hin⟩) rfl rfl ?_ ?_⟩
    · rw [← hterminal, ← hpending]
      rfl
    · exact fun token heq => absurd heq (hclient token)

/-- **One step.** -/
theorem uninterleaved_step (h : ∃ blocks, Uninterleaved s blocks) (hl : Clean s l) :
    ∃ blocks, Uninterleaved (step s l) blocks := by
  obtain ⟨blocks, h⟩ := h
  cases l with
  | frame token data results =>
    rw [step]
    split
    · exact ⟨blocks, h⟩
    · rename_i haccepted
      simp only [not_or] at haccepted
      have hdrained := (h.enqueue haccepted.1 haccepted.2.2).drain hl
      generalize (s.enqueue token data).drainPendingInput results = drained at hdrained ⊢
      obtain ⟨drained, ok⟩ := drained
      cases ok with
      | true | false => exact hdrained
  | writable =>
    have hdrained := h.drain hl
    rw [append_nil, ite_self] at hdrained
    exact hdrained
  | write => exact h.writeDirectly nofun hl nofun
  | answer => exact h.writeDirectly nofun hl.1 (fun _ => hl.2)

end Steps

/-! ## Every run -/

theorem uninterleaved_boot : Uninterleaved boot [] := by
  refine ⟨rfl, nodup_nil, ?_, ?_, ?_, List.Pairwise.nil, ?_⟩
  · exact fun b hb => absurd hb not_mem_nil
  · exact fun id token _ unit hunit => absurd hunit (by simp [boot])
  · exact fun id unit hunit => absurd hunit (by simp [boot])
  · exact fun b hb => absurd hb not_mem_nil

/-- **Input arrives in order, in whole units.** Whatever several clients, `Write` commands and answers do together, and
    wherever the terminal stops taking bytes, it receives the accepted units one after the other, each at most once and
    as a whole, the frames of one client in the order it sent them. What is missing belongs to clients that were told, and
    of each client it is the end of what it sent. -/
theorem input_uninterleaved (labels : List Label) (hclean : Machine.Along step Clean boot labels) :
    ∃ blocks, Uninterleaved (Machine.run step boot labels) blocks := by
  have hstep : ∀ s l, (∃ blocks, Uninterleaved s blocks) → Clean s l → ∃ blocks, Uninterleaved (step s l) blocks :=
    fun _ l h hl => uninterleaved_step h hl
  exact Machine.invariant hstep ⟨[], uninterleaved_boot⟩ hclean

/-- Two clients, with a terminal that stops inside the second frame; a `Write` command waits until it is out. -/
def sharedRun : List Label :=
  [.frame 0 [1, 2] [], .frame 1 [3, 4] [.wrote 2, .wrote 1, .wouldBlock], .writable [.wrote 1],
   .write [5, 6] [.wrote 1, .wouldBlock]]

theorem input_uninterleaved_shared :
    Machine.Along step Clean boot sharedRun ∧ ∃ blocks, Uninterleaved (Machine.run step boot sharedRun) blocks :=
  ⟨by decide, input_uninterleaved sharedRun (by decide)⟩

/-- A frame is half written when a `Write` command comes. -/
def bypassRun : List Label := [.frame 0 [1, 2] [.wrote 1, .wouldBlock], .write [9] []]

/-- **A `Write` command lands inside a frame**: nobody has seen an error, and the terminal has one byte of the frame and
    then the byte of the command. -/
theorem write_inside_frame : (Machine.run step boot bypassRun).errors = [] ∧
    ¬ ∃ blocks, Uninterleaved (Machine.run step boot bypassRun) blocks := by
  refine ⟨by decide, ?_⟩
  rintro ⟨blocks, h⟩
  have hstream : flat blocks = [(0, 1), (1, 9), (0, 2)] := h.stream.trans (by decide)
  cases blocks with
  | nil => exact absurd hstream (by decide)
  | cons b rest =>
    -- the first unit is the frame, and it is there as a whole
    obtain ⟨unit, hunit, hne, hwhole⟩ := h.whole b List.mem_cons_self
    obtain ⟨byte, more, hdata⟩ := List.exists_cons_of_ne_nil hne
    rw [flat_cons, Block.items, hdata] at hstream
    have hid : b.id = 0 := congrArg Prod.fst (List.cons.inj hstream).1
    rw [hid, show (Machine.run step boot bypassRun).units[0]? = some ⟨.client 0, [1, 2]⟩ by decide] at hunit
    obtain rfl := some.inj hunit
    rcases hwhole with hwhole | ⟨-, htold⟩
    · rw [hwhole] at hdata
      obtain ⟨rfl, rfl⟩ := List.cons.inj hdata
      rw [hid] at hstream
      simp at hstream
    · exact absurd htold (by decide)

end Supercli.Input
