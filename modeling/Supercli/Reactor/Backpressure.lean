import Supercli.Lib.Machine
import Supercli.Reactor.Core

/-!
# `Reactor.Backpressure` — the reactor and the journal writer, one atomic operation at a time

`Reactor.Core` runs a callback as one move. Journal backpressure is a conversation between two threads over
two atomics and two channels, so here every load, store, addition, subtraction, send and receive is a move of
its own. The reactor publishes a chunk (`fetch_add`, `send`), loads the backlog and, above the high mark,
stores `paused` and drops the PTY's read interest. The writer takes a chunk, loads the slot, subtracts
(`fetch_sub`), loads `paused` and, below the low mark, clears it and sends `JournalDrained`.

`never_wedged` is the result: reads that are off are going to be switched on again, in every run in which the
reactor never stores `paused` after the writer has looked at it for the last chunk. Without that condition
they are not: `writer_overtakes_pause`.
-/

namespace Supercli.Reactor.Backpressure

open List Function

/-! ## Threads -/

/-- `JournalBackpressure`. -/
structure Pressure where
  backlog : Nat
  paused : Bool
  slot : Nat
deriving DecidableEq, Repr

/-- A registered Session: its journal, and the two flags of its own. -/
structure Hosted where
  id : Nat
  ptyReadInterest : Bool
  handingOff : Bool
deriving DecidableEq, Repr

/-- Where the reactor thread is: between callbacks, or past an operation of `publish_chunk` or
    `apply_journal_backpressure`. `finishing` is `publish_chunk` called by `finish`. -/
inductive ReactorPc
  | idle
  | counted (slot id len : Nat)
  | sent (slot : Nat)
  | high (slot : Nat)
  | flagged (slot : Nat)
  | finishing (id len : Nat)
deriving DecidableEq, Repr

/-- Where the journal writer is in its treatment of a chunk. -/
inductive WriterPc
  | idle
  | took (id len : Nat)
  | addressed (id slot len : Nat)
  | subtracted (id slot remaining : Nat)
  | tested (id slot : Nat)
  | cleared (id slot : Nat)
deriving DecidableEq, Repr

/-- The two threads and what is between them. `opened` are journals whose Session is not registered yet,
    `closing` those whose teardown thread has not sent `Close`; `drained` are the `JournalDrained` messages in
    the control channel. -/
structure State where
  sessions : Nat → Option Hosted
  pressure : Nat → Pressure
  nextJournalId : Nat
  opened : List Nat
  closing : List Nat
  journal : List JournalMsg
  streams : List Nat
  drained : List Nat
  reactor : ReactorPc
  writer : WriterPc

/-- A core that has just started. -/
def boot : State := ⟨fun _ => none, fun _ => ⟨0, false, 0⟩, 1, [], [], [], [], [], .idle, .idle⟩

/-- What happens next. Labels other than `reactor` and `writer` start something: the reactor does so only
    between callbacks. -/
inductive Label
  /-- a hosting thread opens a journal -/
  | openJournal
  /-- the reactor registers its Session in a vacant slot -/
  | register (id slot : Nat)
  /-- a read of the PTY leaves a chunk to publish -/
  | read (slot len : Nat)
  /-- a read leaves nothing to publish -/
  | readNothing (slot : Nat)
  /-- the reactor goes on with its callback -/
  | reactor
  /-- the reactor takes the next `JournalDrained` -/
  | control
  /-- the reactor ends a Session whose query scanner still holds bytes -/
  | endSession (slot held : Nat)
  /-- a teardown thread closes a journal -/
  | close (id : Nat)
  /-- the steps of a handoff -/
  | flush (slot : Nat)
  | exportHandoff (slot : Nat)
  | resumeAfterHandoff (slot : Nat)
  | forgetAfterHandoff (slot : Nat)
  /-- the writer goes on -/
  | writer
deriving DecidableEq, Repr

namespace State

/-- Change the atomics of a journal. -/
@[simp] def setPressure (s : State) (id : Nat) (f : Pressure → Pressure) : State :=
  { s with pressure := Function.update s.pressure id (f (s.pressure id)) }

/-- Change a slot. -/
@[simp] def setSlot (s : State) (slot : Nat) (session : Option Hosted) : State :=
  { s with sessions := Function.update s.sessions slot session }

/-- Send to the writer. -/
def tell (s : State) (message : JournalMsg) : State := { s with journal := s.journal ++ [message] }

end State

variable (s : State)

/-- The reactor's next operation within a callback. -/
def reactorStep : State :=
  match s.reactor with
  | .idle => s
  | .counted slot id len => { s.tell (.chunk id len) with reactor := .sent slot }
  | .sent slot =>
    match s.sessions slot with
    | none => { s with reactor := .idle }
    | some session =>
      if journalBacklogHighBytes < (s.pressure session.id).backlog ∧ session.ptyReadInterest then
        { s with reactor := .high slot }
      else { s with reactor := .idle }
  | .high slot =>
    match s.sessions slot with
    | none => { s with reactor := .idle }
    | some session => { s.setPressure session.id (fun p => { p with paused := true }) with reactor := .flagged slot }
  | .flagged slot =>
    match s.sessions slot with
    | none => { s with reactor := .idle }
    | some session => { s.setSlot slot (some { session with ptyReadInterest := false }) with reactor := .idle }
  | .finishing id len => { s.tell (.chunk id len) with reactor := .idle, closing := id :: s.closing }

/-- The writer takes a message. A chunk of a closed journal is dropped. -/
def takeMessage : State :=
  match s.journal with
  | [] => s
  | .opened id :: rest => { s with journal := rest, streams := id :: s.streams }
  | .close id :: rest => { s with journal := rest, streams := s.streams.filter (· ≠ id) }
  | .flush _ :: rest => { s with journal := rest }
  | .chunk id len :: rest =>
    if id ∈ s.streams then { s with journal := rest, writer := .took id len } else { s with journal := rest }

/-- The writer's next operation. -/
def writerStep : State :=
  match s.writer with
  | .idle => takeMessage s
  | .took id len => { s with writer := .addressed id (s.pressure id).slot len }
  | .addressed id slot len =>
    { s.setPressure id (fun p => { p with backlog := p.backlog - len }) with
      writer := .subtracted id slot ((s.pressure id).backlog - len) }
  | .subtracted id slot remaining =>
    if (s.pressure id).paused ∧ remaining < journalBacklogLowBytes then { s with writer := .tested id slot }
    else { s with writer := .idle }
  | .tested id slot =>
    { s.setPressure id (fun p => { p with paused := false }) with writer := .cleared id slot }
  | .cleared _ slot => { s with drained := s.drained ++ [slot], writer := .idle }

/-- One label. What cannot happen in a state leaves it as it is. -/
def step : Label → State
  | .openJournal =>
    { s.tell (.opened s.nextJournalId) with
      nextJournalId := s.nextJournalId + 1
      opened := s.nextJournalId :: s.opened
      pressure := Function.update s.pressure s.nextJournalId ⟨0, false, 0⟩ }
  | .register id slot =>
    if s.reactor = .idle ∧ id ∈ s.opened ∧ s.sessions slot = none then
      { (s.setPressure id fun p => { p with slot := slot }).setSlot slot (some ⟨id, true, false⟩) with
        opened := s.opened.filter (· ≠ id) }
    else s
  | .read slot len =>
    match s.reactor, s.sessions slot with
    | .idle, some session =>
      if 0 < len then
        { s.setPressure session.id (fun p => { p with backlog := p.backlog + len }) with
          reactor := .counted slot session.id len }
      else s
    | _, _ => s
  | .readNothing slot =>
    match s.reactor, s.sessions slot with
    | .idle, some _ => { s with reactor := .sent slot }
    | _, _ => s
  | .reactor => reactorStep s
  | .control =>
    match s.reactor, s.drained with
    | .idle, slot :: rest =>
      match s.sessions slot with
      | none => { s with drained := rest }
      | some session => { s.setSlot slot (some { session with ptyReadInterest := true }) with drained := rest }
    | _, _ => s
  | .endSession slot held =>
    match s.reactor, s.sessions slot with
    | .idle, some session =>
      if 0 < held then
        { (s.setPressure session.id fun p => { p with backlog := p.backlog + held }).setSlot slot none with
          reactor := .finishing session.id held }
      else { s.setSlot slot none with closing := session.id :: s.closing }
    | _, _ => s
  | .close id =>
    if id ∈ s.closing then { s.tell (.close id) with closing := s.closing.filter (· ≠ id) } else s
  | .flush slot =>
    match s.reactor, s.sessions slot with
    | .idle, some session => s.tell (.flush session.id)
    | _, _ => s
  | .exportHandoff slot =>
    match s.reactor, s.sessions slot with
    | .idle, some session => s.setSlot slot (some { session with ptyReadInterest := false, handingOff := true })
    | _, _ => s
  | .resumeAfterHandoff slot =>
    match s.reactor, s.sessions slot with
    | .idle, some session => s.setSlot slot (some { session with ptyReadInterest := true, handingOff := false })
    | _, _ => s
  | .forgetAfterHandoff slot =>
    match s.reactor, s.sessions slot with
    | .idle, some _ => s.setSlot slot none
    | _, _ => s
  | .writer => writerStep s

/-! ## What is left to process -/

section

variable (id : Nat)

/-- The sizes of a journal's chunks among the messages. -/
def queuedOf : List JournalMsg → List Nat
  | [] => []
  | .chunk i len :: rest => if i = id then len :: queuedOf rest else queuedOf rest
  | _ :: rest => queuedOf rest

/-- The chunk the writer holds and has not subtracted. -/
@[simp] def WriterPc.inHand : WriterPc → List Nat
  | .took i len | .addressed i _ len => if i = id then [len] else []
  | _ => []

/-- The chunk the reactor has counted and not sent. -/
@[simp] def ReactorPc.sending : ReactorPc → List Nat
  | .counted _ i len | .finishing i len => if i = id then [len] else []
  | _ => []

/-- The chunks of a journal that count in its backlog, oldest first. -/
def unprocessed (id : Nat) : List Nat :=
  s.writer.inHand id ++ queuedOf id s.journal ++ s.reactor.sending id

/-- The next chunk of the journal that the writer finishes will send `JournalDrained` for the slot: it is past
    its test of `paused`, or will find it set. With less than the low mark left, every chunk does. -/
def WillSignal (slot id : Nat) : Prop :=
  s.writer = .tested id slot ∨ s.writer = .cleared id slot ∨
    ((s.pressure id).paused = true ∧ (unprocessed s id ≠ [] ∨
      ∃ remaining < journalBacklogLowBytes, s.writer = .subtracted id slot remaining))

/-- The Session in `slot` is being served: if its reads are off, and not for a handoff, the writer has enough
    to do, or the message that switches them on is on its way. -/
def Flows (slot : Nat) : Prop :=
  ∀ session, s.sessions slot = some session → session.ptyReadInterest = false → session.handingOff = false →
    journalBacklogLowBytes ≤ (unprocessed s session.id).sum ∨ slot ∈ s.drained ∨ WillSignal s slot session.id

/-- The writer has subtracted a chunk of the journal and not yet loaded `paused` for it. -/
def WriterPc.hasSubtracted : WriterPc → Bool
  | .subtracted i _ _ => i = id
  | _ => false

/-- The condition on runs: when the reactor stores `paused`, the writer has yet to load it for some chunk of
    the journal. -/
def PausesInTime : Label → Prop
  | .reactor =>
    match s.reactor with
    | .high slot =>
      ∀ session ∈ s.sessions slot, unprocessed s session.id ≠ [] ∨ s.writer.hasSubtracted session.id = true
    | _ => True
  | _ => True

/-! ## The invariant -/

/-- Every chunk of the journal among the messages will find the stream open, and so will one sent next. -/
def Served : List Nat → List JournalMsg → Prop
  | streams, [] => id ∈ streams
  | streams, .opened i :: rest => Served (i :: streams) rest
  | streams, .close i :: rest => Served (streams.filter (· ≠ i)) rest
  | streams, .chunk i _ :: rest => (i = id → id ∈ streams) ∧ Served streams rest
  | streams, .flush _ :: rest => Served streams rest

/-- The writer holds a chunk of the journal. -/
@[simp] def WriterPc.isOn : WriterPc → Bool
  | .idle => false
  | .took i _ | .addressed i _ _ | .subtracted i _ _ | .tested i _ | .cleared i _ => i = id

end

/-- The slot the writer has loaded for the chunk it holds. -/
@[simp] def WriterPc.slot? : WriterPc → Option Nat
  | .idle | .took _ _ => none
  | .addressed _ k _ | .subtracted _ k _ | .tested _ k | .cleared _ k => some k

/-- A journal no chunk was ever published to. -/
structure Unused (id : Nat) : Prop where
  unclosed : id ∉ s.closing
  writer : s.writer.isOn id = false
  unprocessed : unprocessed s id = []

/-- What holds of a registered Session. -/
structure Good (slot : Nat) (session : Hosted) : Prop where
  known : session.id < s.nextJournalId
  registered : session.id ∉ s.opened
  unclosed : session.id ∉ s.closing
  addressed : (s.pressure session.id).slot = slot
  served : Served session.id s.streams s.journal
  backlog : (s.pressure session.id).backlog = (unprocessed s session.id).sum
  loaded : s.writer.isOn session.id = true → ∀ k ∈ s.writer.slot?, k = slot
  remaining : ∀ k r, s.writer = .subtracted session.id k r → r < journalBacklogLowBytes ∨ unprocessed s session.id ≠ []
  signalled : (session.ptyReadInterest = false ∧ session.handingOff = false) ∨ s.reactor = .flagged slot →
    slot ∈ s.drained ∨ WillSignal s slot session.id

/-- The invariant. -/
structure Inv : Prop where
  hosted : ∀ slot session, s.sessions slot = some session → Good s slot session
  opened : ∀ id ∈ s.opened, id < s.nextJournalId ∧ Served id s.streams s.journal ∧
    (s.pressure id).backlog = 0 ∧ Unused s id
  unborn : ∀ id, s.nextJournalId ≤ id → id ∉ s.opened ∧ Unused s id
  finishing : ∀ id len, s.reactor = .finishing id len → id < s.nextJournalId ∧ id ∉ s.opened ∧
    ∀ slot session, s.sessions slot = some session → session.id ≠ id

section Lemmas

variable {id : Nat} {streams : List Nat} {rest : List JournalMsg}

theorem queuedOf_append (xs : List JournalMsg) :
    queuedOf id (xs ++ ys) = queuedOf id xs ++ queuedOf id ys := by
  induction xs with
  | nil => rfl
  | cons m xs ih =>
    cases m with
    | chunk =>
      simp only [cons_append, queuedOf]
      split <;> simp [ih]
    | _ => exact ih

/-- A message other than a close of the journal leaves it served. -/
theorem Served.append (h : Served id streams rest) (hm : m ≠ .close id) : Served id streams (rest ++ [m]) := by
  induction rest generalizing streams with
  | nil =>
    cases m with
    | opened => exact mem_cons_of_mem _ h
    | close => exact mem_filter.mpr ⟨h, decide_eq_true fun hi => hm (by rw [hi])⟩
    | chunk => exact ⟨fun _ => h, h⟩
    | flush => exact h
  | cons m' rest ih =>
    cases m' with
    | chunk => exact ⟨h.1, ih h.2⟩
    | _ => exact ih h

/-- A journal is served once its opening is on its way, if no chunk of it was sent before. -/
theorem served_opened (h : queuedOf id rest = []) : Served id streams (rest ++ [.opened id]) := by
  induction rest generalizing streams with
  | nil => exact mem_cons_self
  | cons m rest ih =>
    cases m with
    | chunk =>
      simp only [queuedOf] at h
      split at h
      · cases h
      · rename_i hne
        exact ⟨fun hi => absurd hi hne, ih h⟩
    | _ => exact ih h

end Lemmas

/-! ## What does not concern a journal -/

/-- From `s` to `s'`, nothing has changed for the journal. -/
structure Same (s s' : State) (id : Nat) : Prop where
  closing : id ∈ s'.closing → id ∈ s.closing
  pressure : s'.pressure id = s.pressure id
  served : Served id s.streams s.journal → Served id s'.streams s'.journal
  unprocessed : unprocessed s' id = unprocessed s id
  writer : s'.writer = s.writer ∨ (s'.writer.isOn id = false ∧ s.writer.isOn id = false)

section Same

variable {s s' : State} {id slot : Nat} {session session' : Hosted}

/-- The writer's step on a journal it holds is no step on another. -/
theorem Same.writer_eq (h : Same s s' id) (hpc : pc.isOn id = true) : s'.writer = pc ↔ s.writer = pc := by
  rcases h.writer with heq | ⟨h', h₀⟩
  · rw [heq]
  · constructor
    · rintro rfl
      rw [hpc] at h'
      cases h'
    · rintro rfl
      rw [hpc] at h₀
      cases h₀

theorem Same.willSignal (h : Same s s' id) (hw : WillSignal s slot id) : WillSignal s' slot id := by
  unfold WillSignal at hw ⊢
  rw [h.pressure, h.unprocessed, h.writer_eq (by simp), h.writer_eq (by simp)]
  refine hw.imp_right (Or.imp_right (And.imp_right (Or.imp_right ?_)))
  rintro ⟨r, hr, heq⟩
  exact ⟨r, hr, (h.writer_eq (by simp)).mpr heq⟩

theorem Same.unused (h : Same s s' id) (hu : Unused s id) : Unused s' id where
  unclosed := fun hc => hu.unclosed (h.closing hc)
  writer := by
    rcases h.writer with heq | ⟨h', -⟩
    · rw [heq]
      exact hu.writer
    · exact h'
  unprocessed := h.unprocessed.trans hu.unprocessed

/-- A Session whose journal is not concerned stays good, if its flags do. -/
theorem Good.of_same (hg : Good s slot session) (h : Same s s' session.id) (hid : session'.id = session.id)
    (hn : s.nextJournalId ≤ s'.nextJournalId) (ho : session.id ∉ s'.opened)
    (hsig : (session'.ptyReadInterest = false ∧ session'.handingOff = false) ∨ s'.reactor = .flagged slot →
      slot ∈ s'.drained ∨ WillSignal s slot session.id) : Good s' slot session' where
  known := by rw [hid]; exact hg.known.trans_le hn
  registered := by rw [hid]; exact ho
  unclosed := by rw [hid]; exact fun hc => hg.unclosed (h.closing hc)
  addressed := by rw [hid, h.pressure]; exact hg.addressed
  served := by rw [hid]; exact h.served hg.served
  backlog := by rw [hid, h.pressure, h.unprocessed]; exact hg.backlog
  loaded := by
    rw [hid]
    rcases h.writer with heq | ⟨h', -⟩
    · rw [heq]
      exact hg.loaded
    · intro hon
      rw [h'] at hon
      cases hon
  remaining := by
    rw [hid, h.unprocessed]
    intro k r heq
    exact hg.remaining k r ((h.writer_eq (by simp)).mp heq)
  signalled := by
    rw [hid]
    exact fun hc => (hsig hc).imp_right h.willSignal

/-- The same, when the flags of the Session, the reactor's and the queue are as they were. -/
theorem Good.of_same' (hg : Good s slot session) (h : Same s s' session.id) (hn : s.nextJournalId ≤ s'.nextJournalId)
    (ho : session.id ∉ s'.opened) (hr : s'.reactor = .flagged slot → s.reactor = .flagged slot)
    (hd : slot ∈ s.drained → slot ∈ s'.drained) : Good s' slot session :=
  hg.of_same h rfl hn ho fun hc => (hg.signalled (hc.imp_right hr)).imp_left hd

section

variable (hI : Inv s)

include hI

section

variable (h : s.sessions slot = some session) (h' : s.sessions slot' = some session')

include h h'

/-- A journal has one slot. -/
theorem Inv.slot_eq (hid : session'.id = session.id) : slot' = slot := by
  rw [← (hI.hosted slot session h).addressed, ← (hI.hosted slot' session' h').addressed, hid]

/-- A Session of another slot has another journal. -/
theorem Inv.id_ne (hne : slot' ≠ slot) : session'.id ≠ session.id :=
  fun hid => hne (hI.slot_eq h h' hid)

end

/-- **Rebuilding the invariant** after a step that concerns at most the journals in `C`, which are past their
    registration: the Sessions of these journals are good, and the others are where they were. -/
theorem Inv.rebuild (C : Nat → Prop) (hknown : ∀ id, C id → id < s.nextJournalId ∧ id ∉ s.opened)
    (hsame : ∀ id, ¬ C id → Same s s' id) (hn : s'.nextJournalId = s.nextJournalId) (ho : s'.opened = s.opened)
    (hhosted : ∀ k t, s'.sessions k = some t → Good s' k t ∨ (s.sessions k = some t ∧ ¬ C t.id))
    (hr : ∀ k t, s.sessions k = some t → ¬ C t.id → s'.reactor = .flagged k → s.reactor = .flagged k)
    (hd : ∀ k t, s.sessions k = some t → ¬ C t.id → k ∈ s.drained → k ∈ s'.drained)
    (hf : ∀ id len, s'.reactor = .finishing id len → id < s.nextJournalId ∧ id ∉ s.opened ∧
      ∀ k t, s'.sessions k = some t → t.id ≠ id) : Inv s' where
  hosted := by
    intro k t ht
    rcases hhosted k t ht with hg | ⟨ht₀, hne⟩
    · exact hg
    · have hg := hI.hosted k t ht₀
      exact hg.of_same' (hsame t.id hne) hn.ge (by rw [ho]; exact hg.registered) (hr k t ht₀ hne) (hd k t ht₀ hne)
  opened := by
    intro id hid
    rw [ho] at hid
    obtain ⟨hlt, hserved, hback, hun⟩ := hI.opened id hid
    have hs := hsame id fun hC => (hknown id hC).2 hid
    exact ⟨by rw [hn]; exact hlt, hs.served hserved, by rw [hs.pressure]; exact hback, hs.unused hun⟩
  unborn := by
    intro id hid
    rw [hn] at hid
    rw [ho]
    have hs := hsame id fun hC => absurd (hknown id hC).1 (by omega)
    exact ⟨(hI.unborn id hid).1, hs.unused (hI.unborn id hid).2⟩
  finishing := by
    intro id len hfin
    rw [hn, ho]
    exact hf id len hfin

/-- The same after a step that concerns no journal and no Session. -/
theorem Inv.of_same (hsame : ∀ id, Same s s' id) (hn : s'.nextJournalId = s.nextJournalId) (ho : s'.opened = s.opened)
    (hses : s'.sessions = s.sessions) (hr : ∀ k, s'.reactor = .flagged k → s.reactor = .flagged k)
    (hd : ∀ k t, s.sessions k = some t → k ∈ s.drained → k ∈ s'.drained)
    (hf : ∀ id len, s'.reactor = .finishing id len → s.reactor = .finishing id len) : Inv s' :=
  hI.rebuild (fun _ => False) (fun _ h => h.elim) (fun id _ => hsame id) hn ho
    (fun _ _ ht => .inr ⟨hses ▸ ht, fun h => h⟩) (fun k _ _ _ => hr k) (fun k t ht _ => hd k t ht)
    (fun id len hfin => hses ▸ hI.finishing id len (hf id len hfin))

/-- The same after a step on the journal `id` that moves no Session: only the Session of that journal is to be
    looked at. -/
theorem Inv.step_on (hknown : id < s.nextJournalId ∧ id ∉ s.opened) (hsame : ∀ i, i ≠ id → Same s s' i)
    (hn : s'.nextJournalId = s.nextJournalId) (ho : s'.opened = s.opened) (hses : s'.sessions = s.sessions)
    (hr : ∀ k t, s.sessions k = some t → t.id ≠ id → s'.reactor = .flagged k → s.reactor = .flagged k)
    (hd : ∀ k ∈ s.drained, k ∈ s'.drained)
    (hf : ∀ id len, s'.reactor = .finishing id len → s.reactor = .finishing id len)
    (hgood : ∀ k t, s.sessions k = some t → t.id = id → Good s k t → Good s' k t) : Inv s' := by
  refine hI.rebuild (· = id) (fun i hi => hi ▸ hknown) hsame hn ho ?_ hr (fun k _ _ _ h => hd k h) ?_
  · intro k t ht
    rw [hses] at ht
    by_cases hid : t.id = id
    · exact .inl (hgood k t ht hid (hI.hosted k t ht))
    · exact .inr ⟨ht, hid⟩
  · intro i len hfin
    rw [hses]
    exact hI.finishing i len (hf i len hfin)

/-- A journal the writer is on, or has chunks left to process, is past its registration. -/
theorem Inv.known (h : s.writer.isOn id = true ∨ unprocessed s id ≠ []) : id < s.nextJournalId ∧ id ∉ s.opened := by
  have hused : ¬ Unused s id := by
    intro hu
    rcases h with h | h
    · rw [hu.writer] at h
      cases h
    · exact h hu.unprocessed
  constructor
  · by_contra hge
    exact hused (hI.unborn id (by omega)).2
  · exact fun ho => hused (hI.opened id ho).2.2.2

end

end Same

/-! ## The steps -/

section Steps

variable {s : State} {id slot len : Nat} {s' : State} {t : Hosted}

/-- Everything the invariant reads of the journals stays, for a step of the reactor that publishes nothing. -/
theorem same_of_eq (hc : s'.closing = s.closing) (hp : s'.pressure id = s.pressure id) (hj : s'.journal = s.journal)
    (hst : s'.streams = s.streams) (hw : s'.writer = s.writer) (hr : s'.reactor.sending id = s.reactor.sending id) :
    Same s s' id where
  closing := by rw [hc]; exact fun h => h
  pressure := hp
  served := by rw [hj, hst]; exact fun h => h
  unprocessed := by rw [unprocessed, unprocessed, hw, hj, hr]
  writer := .inl hw

/-- A message that is neither a chunk nor a close of the journal. -/
theorem same_tell (hq : queuedOf id [m] = []) (hm : m ≠ .close id) : Same s (s.tell m) id where
  closing := fun h => h
  pressure := rfl
  served := fun h => h.append hm
  unprocessed := by simp [unprocessed, State.tell, queuedOf_append, hq]
  writer := .inl rfl

theorem inv_openJournal (hI : Inv s) : Inv (step s .openJournal) := by
  have hother : ∀ id, id ≠ s.nextJournalId → Same s (step s .openJournal) id := by
    intro id hne
    have h : Same s (s.tell (.opened s.nextJournalId)) id := same_tell rfl (by simp)
    exact { h with pressure := update_of_ne hne _ _ }
  obtain ⟨-, hun⟩ := hI.unborn s.nextJournalId le_rfl
  constructor
  · intro k t ht
    have hg := hI.hosted k t ht
    have hne : t.id ≠ s.nextJournalId := hg.known.ne
    exact hg.of_same' (hother t.id hne) (Nat.le_succ _)
      (by simpa [step] using ⟨hne, hg.registered⟩) (fun h => h) (fun h => h)
  · intro id hid
    rcases mem_cons.mp hid with rfl | hid
    · have hqueued : queuedOf s.nextJournalId s.journal = [] := by
        have := hun.unprocessed
        simp only [unprocessed, append_eq_nil_iff] at this
        exact this.1.2
      refine ⟨Nat.lt_succ_self _, served_opened hqueued, by simp [step], hun.unclosed, hun.writer, ?_⟩
      have := hun.unprocessed
      simpa [unprocessed, step, State.tell, queuedOf_append, queuedOf] using this
    · obtain ⟨hlt, hserved, hback, hunused⟩ := hI.opened id hid
      have hs := hother id hlt.ne
      exact ⟨Nat.lt_succ_of_lt hlt, hs.served hserved, by rw [hs.pressure]; exact hback, hs.unused hunused⟩
  · intro id hid
    have hge : s.nextJournalId + 1 ≤ id := hid
    obtain ⟨hno, hunused⟩ := hI.unborn id (by omega)
    refine ⟨?_, (hother id (by omega)).unused hunused⟩
    rintro hmem
    rcases mem_cons.mp hmem with heq | hmem
    · omega
    · exact hno hmem
  · intro id len hfin
    obtain ⟨hlt, hno, hhosted⟩ := hI.finishing id len hfin
    refine ⟨Nat.lt_succ_of_lt hlt, ?_, hhosted⟩
    rintro hmem
    rcases mem_cons.mp hmem with heq | hmem
    · omega
    · exact hno hmem

theorem inv_register (hI : Inv s) : Inv (step s (.register id slot)) := by
  simp only [step]
  split
  swap
  · exact hI
  rename_i hguard
  obtain ⟨hidle, hopened, hvacant⟩ := hguard
  obtain ⟨hlt, hserved, hback, hunused⟩ := hI.opened id hopened
  set s' : State := { (s.setPressure id fun p => { p with slot := slot }).setSlot slot (some ⟨id, true, false⟩) with
    opened := s.opened.filter (· ≠ id) } with hs'
  have hother : ∀ i, i ≠ id → Same s s' i := fun i hne =>
    same_of_eq rfl (update_of_ne hne _ _) rfl rfl rfl rfl
  have hon : s'.writer.isOn id = false := hunused.writer
  constructor
  · intro k t ht
    by_cases hk : k = slot
    · subst hk
      have : t = ⟨id, true, false⟩ := by simpa [hs'] using ht.symm
      subst this
      refine ⟨hlt, by simp [hs'], hunused.unclosed, by simp [hs'], hserved, ?_, ?_, ?_, ?_⟩
      · have : (unprocessed s' id) = [] := hunused.unprocessed
        rw [this]
        simpa [hs'] using hback
      · intro h
        rw [hon] at h
        cases h
      · intro k' r heq
        rw [heq] at hon
        simp at hon
      · rintro (⟨h, -⟩ | h)
        · cases h
        · rw [show s'.reactor = s.reactor from rfl, hidle] at h
          cases h
    · have ht₀ : s.sessions k = some t := by
        simpa [hs', update_of_ne hk] using ht
      have hg := hI.hosted k t ht₀
      have hne : t.id ≠ id := fun heq => hg.registered (heq ▸ hopened)
      exact hg.of_same' (hother t.id hne) le_rfl (fun h => hg.registered (mem_filter.mp h).1) (fun h => h) (fun h => h)
  · intro i hi
    obtain ⟨hi, hne⟩ := mem_filter.mp hi
    have hne : i ≠ id := by simpa using hne
    obtain ⟨hlt, hserved, hback, hunused⟩ := hI.opened i hi
    have hs := hother i hne
    exact ⟨hlt, hs.served hserved, by rw [hs.pressure]; exact hback, hs.unused hunused⟩
  · intro i hi
    have hne : i ≠ id := by
      have : s.nextJournalId ≤ i := hi
      omega
    exact ⟨fun h => (hI.unborn i hi).1 (mem_filter.mp h).1, (hother i hne).unused (hI.unborn i hi).2⟩
  · intro i len hfin
    rw [show s'.reactor = s.reactor from rfl, hidle] at hfin
    cases hfin

/-- A step of the reactor that only changes the flags of one Session, and its own place in the loop. -/
theorem inv_flags (hI : Inv s) (t' : Hosted) (ht : s.sessions slot = some t)
    (hid : t'.id = t.id) (hc : s'.closing = s.closing) (hp : s'.pressure = s.pressure)
    (hj : s'.journal = s.journal) (hst : s'.streams = s.streams) (hw : s'.writer = s.writer)
    (hn : s'.nextJournalId = s.nextJournalId) (ho : s'.opened = s.opened)
    (hsend : ∀ id, s'.reactor.sending id = [] ∧ s.reactor.sending id = [])
    (hses : s'.sessions = update s.sessions slot (some t'))
    (hr : ∀ k, k ≠ slot → s'.reactor ≠ .flagged k)
    (hd : ∀ k, k ≠ slot → k ∈ s.drained → k ∈ s'.drained)
    (hsig : (t'.ptyReadInterest = false ∧ t'.handingOff = false) ∨ s'.reactor = .flagged slot →
      slot ∈ s'.drained ∨ WillSignal s slot t.id) : Inv s' := by
  have hg := hI.hosted slot t ht
  have hsame : ∀ id, Same s s' id := fun id =>
    same_of_eq hc (by rw [hp]) hj hst hw (by rw [(hsend id).1, (hsend id).2])
  have hother {k : Nat} {u : Hosted} (hu : s.sessions k = some u) (hne : u.id ≠ t.id) : k ≠ slot := by
    rintro rfl
    exact hne (congrArg Hosted.id (Option.mem_unique hu ht))
  refine hI.rebuild (· = t.id) (fun _ h => h ▸ ⟨hg.known, hg.registered⟩) (fun id _ => hsame id) hn ho ?_
    (fun k u hu hne h => absurd h (hr k (hother hu hne))) (fun k u hu hne => hd k (hother hu hne)) ?_
  · intro k u hu
    rcases update_some (hses ▸ hu) with ⟨rfl, ⟨⟩⟩ | ⟨hk, hu⟩
    · exact .inl (hg.of_same (hsame t.id) hid hn.ge (by rw [ho]; exact hg.registered) hsig)
    · exact .inr ⟨hu, hI.id_ne ht hu hk⟩
  · intro id len hfin
    have := (hsend id).1
    rw [hfin] at this
    simp at this

theorem sending_idle (h : s.reactor = .idle) (id : Nat) : s.reactor.sending id = [] := by rw [h]; rfl

theorem not_flagged (h : s.reactor = .idle) (k : Nat) : s.reactor ≠ .flagged k := by simp [h]

theorem not_finishing (h : s.reactor = .idle) : s.reactor ≠ .finishing id len := by simp [h]

/-- The chunk of a read is counted before it is sent. -/
theorem inv_read (hI : Inv s) : Inv (step s (.read slot len)) := by
  simp only [step]
  split
  swap
  · exact hI
  rename_i t hidle ht
  split
  swap
  · exact hI
  have hg := hI.hosted slot t ht
  set s' : State := { s.setPressure t.id (fun p => { p with backlog := p.backlog + len }) with
    reactor := .counted slot t.id len } with hs'
  have hgrown : unprocessed s' t.id = unprocessed s t.id ++ [len] := by
    simp [unprocessed, hs', hidle]
  refine hI.step_on ⟨hg.known, hg.registered⟩ ?_ rfl rfl rfl nofun (fun _ h => h) nofun ?_
  · intro id hne
    exact same_of_eq rfl (update_of_ne hne _ _) rfl rfl rfl (by simp [hs', hidle, hne.symm])
  · rintro k u - hid hg
    rw [← hid] at hgrown
    refine { hg with addressed := by simp [hs', ← hid, hg.addressed], backlog := ?_, remaining := ?_, signalled := ?_ }
    · rw [hgrown]
      simp [hs', ← hid, hg.backlog]
    · intro k' r heq
      exact .inr (by simp [hgrown])
    · intro hc
      have hpaused : (s'.pressure u.id).paused = (s.pressure u.id).paused := by
        simp [hs', ← hid]
      refine (hg.signalled (hc.imp_right nofun)).imp_right ?_
      unfold WillSignal
      rw [hpaused]
      exact Or.imp_right (Or.imp_right (And.imp_right fun _ => .inl (by simp [hgrown])))

/-- The reactor goes from one place to another and does nothing. -/
theorem inv_goto (hI : Inv s) (hsend : ∀ id, s.reactor.sending id = [])
    (hpc : pc = .idle ∨ ∃ slot, pc = .sent slot ∨ pc = .high slot) : Inv { s with reactor := pc } := by
  have hsend' : ∀ id, pc.sending id = [] := by
    rcases hpc with rfl | ⟨slot, rfl | rfl⟩ <;> exact fun _ => rfl
  refine hI.of_same (fun id => same_of_eq rfl rfl rfl rfl rfl ?_) rfl rfl rfl ?_ (fun _ _ _ h => h) ?_
  · rw [hsend id]
    exact hsend' id
  · rintro k ⟨⟩
    rcases hpc with h | ⟨slot, h | h⟩ <;> cases h
  · rintro id len ⟨⟩
    rcases hpc with h | ⟨slot, h | h⟩ <;> cases h

theorem inv_readNothing (hI : Inv s) : Inv (step s (.readNothing slot)) := by
  simp only [step]
  split
  · rename_i t hidle ht
    exact inv_goto hI (sending_idle hidle) (.inr ⟨slot, .inl rfl⟩)
  · exact hI

/-- What the reactor counted is sent: the chunk is unprocessed before and after. -/
theorem same_send (hsend : s.reactor.sending id = if i = id then [len] else [])
    (hc : id ∈ s'.closing → id ∈ s.closing) (hp : s'.pressure = s.pressure) (hw : s'.writer = s.writer)
    (hj : s'.journal = s.journal ++ [.chunk i len]) (hst : s'.streams = s.streams) (hr : s'.reactor.sending id = []) :
    Same s s' id where
  closing := hc
  pressure := by rw [hp]
  served := by
    rw [hj, hst]
    exact fun h => h.append (by simp)
  unprocessed := by
    rw [unprocessed, unprocessed, hw, hj, hr, hsend, queuedOf_append, append_nil, append_assoc]
    rfl
  writer := .inl hw

section

variable (hI : Inv s)

include hI

/-- **The store of `paused`**, while some chunk of the journal is still to be tested. -/
theorem inv_pause (hpc : s.reactor = .high slot) (ht : s.sessions slot = some t)
    (hc : unprocessed s t.id ≠ [] ∨ s.writer.hasSubtracted t.id = true) :
    Inv { s.setPressure t.id (fun p => { p with paused := true }) with reactor := .flagged slot } := by
  have hg := hI.hosted slot t ht
  set s' : State := { s.setPressure t.id (fun p => { p with paused := true }) with reactor := .flagged slot } with hs'
  have hu : unprocessed s' t.id = unprocessed s t.id := by
    simp [unprocessed, hs', hpc]
  have hpaused : (s'.pressure t.id).paused = true := by simp [hs']
  refine hI.step_on ⟨hg.known, hg.registered⟩ ?_ rfl rfl rfl ?_ (fun _ h => h) nofun ?_
  · intro id hne
    exact same_of_eq rfl (update_of_ne hne _ _) rfl rfl rfl (by simp [hs', hpc])
  · rintro k u hk hne ⟨⟩
    exact absurd (congrArg Hosted.id (Option.mem_unique hk ht)) hne
  · intro k u hk hid hg
    obtain rfl := hI.slot_eq ht hk hid
    cases hk.symm.trans ht
    refine { hg with addressed := by simp [hs', hg.addressed], backlog := ?_, remaining := ?_, signalled := ?_ }
    · rw [hu]
      simp [hs', hg.backlog]
    · rw [hu]
      exact hg.remaining
    · intro _
      refine .inr (.inr (.inr ⟨hpaused, ?_⟩))
      rw [hu]
      rcases hc with hc | hc
      · exact .inl hc
      · -- the writer is between its subtraction and its test
        cases hw : s.writer with
        | subtracted i k' r =>
          rw [hw] at hc
          have hi : i = t.id := by simpa [WriterPc.hasSubtracted] using hc
          subst hi
          have hk' : k' = k := hg.loaded (by simp [hw]) k' (by simp [hw])
          subst hk'
          rcases hg.remaining k' r hw with hr | hr
          · exact .inr ⟨r, hr, hw⟩
          · exact .inl hr
        | _ => simp [hw, WriterPc.hasSubtracted] at hc

theorem inv_reactor (hc : PausesInTime s .reactor) : Inv (step s .reactor) := by
  show Inv (reactorStep s)
  unfold reactorStep
  split
  · exact hI
  · -- the chunk is sent
    rename_i slot id len hpc
    exact hI.of_same (fun i => same_send (by simp [hpc]) (fun h => h) rfl rfl rfl rfl rfl) rfl rfl rfl
      nofun (fun _ _ _ h => h) nofun
  · -- the backlog is loaded
    rename_i slot hpc
    have hsend : ∀ id, s.reactor.sending id = [] := fun id => by rw [hpc]; rfl
    split
    · exact inv_goto hI hsend (.inl rfl)
    · split
      · exact inv_goto hI hsend (.inr ⟨slot, .inr rfl⟩)
      · exact inv_goto hI hsend (.inl rfl)
  · -- `paused` is stored: some chunk is still to be tested
    rename_i slot hpc
    have hsend : ∀ id, s.reactor.sending id = [] := fun id => by rw [hpc]; rfl
    cases ht : s.sessions slot with
    | none => exact inv_goto hI hsend (.inl rfl)
    | some => exact inv_pause hI hpc ht (by simpa [PausesInTime, hpc, ht] using hc)
  · -- the read interest goes
    rename_i slot hpc
    have hsend : ∀ id, s.reactor.sending id = [] := fun id => by rw [hpc]; rfl
    cases ht : s.sessions slot with
    | none => exact inv_goto hI hsend (.inl rfl)
    | some t =>
      have hg := hI.hosted slot t ht
      exact inv_flags hI { t with ptyReadInterest := false } ht rfl rfl rfl rfl rfl rfl rfl rfl
        (fun id => ⟨rfl, hsend id⟩) rfl nofun (fun _ _ h => h) fun _ => hg.signalled (.inr hpc)
  · -- the bytes of an ended Session are sent, and its journal may be closed
    rename_i id len hpc
    obtain ⟨hlt, hno, hhosted⟩ := hI.finishing id len hpc
    set s' : State := { s.tell (.chunk id len) with reactor := .idle, closing := id :: s.closing } with hs'
    have hsame : ∀ i, i ≠ id → Same s s' i := fun i hne =>
      same_send (by simp [hpc]) (fun h => (mem_cons.mp h).resolve_left hne) rfl rfl rfl rfl rfl
    exact hI.rebuild (· = id) (fun i hi => hi ▸ ⟨hlt, hno⟩) hsame rfl rfl (fun k t ht => .inr ⟨ht, hhosted k t ht⟩)
      nofun (fun _ _ _ _ h => h) nofun

theorem inv_control : Inv (step s .control) := by
  simp only [step]
  split
  swap
  · exact hI
  rename_i slot rest hidle hd
  have hrest : ∀ k, k ≠ slot → k ∈ s.drained → k ∈ rest := by
    intro k hne hk
    rw [hd] at hk
    exact (mem_cons.mp hk).resolve_left hne
  cases ht : s.sessions slot with
  | none =>
    -- nobody is addressed
    refine hI.of_same (fun _ => same_of_eq rfl rfl rfl rfl rfl rfl) rfl rfl rfl (fun _ h => h) ?_ (fun _ _ h => h)
    rintro k t hk
    refine hrest k ?_
    rintro rfl
    rw [hk] at ht
    cases ht
  | some t =>
    refine inv_flags hI { t with ptyReadInterest := true } ht rfl rfl rfl rfl rfl rfl rfl rfl
      (fun id => ⟨sending_idle (s := s) hidle id, sending_idle hidle id⟩) rfl (fun k _ => not_flagged hidle k) hrest ?_
    rintro (⟨h, -⟩ | h)
    · cases h
    · exact absurd h (not_flagged hidle slot)

theorem inv_leave (ht : s.sessions slot = some t) (hsame : ∀ id, id ≠ t.id → Same s s' id)
    (hn : s'.nextJournalId = s.nextJournalId) (ho : s'.opened = s.opened)
    (hses : s'.sessions = update s.sessions slot none) (hr : ∀ k, s'.reactor ≠ .flagged k)
    (hd : s'.drained = s.drained) (hf : ∀ id len, s'.reactor = .finishing id len → id = t.id) : Inv s' := by
  have hg := hI.hosted slot t ht
  have hold : ∀ k u, s'.sessions k = some u → s.sessions k = some u ∧ u.id ≠ t.id := by
    intro k u hu
    rcases update_some (hses ▸ hu) with ⟨-, ⟨⟩⟩ | ⟨hk, hu⟩
    exact ⟨hu, hI.id_ne ht hu hk⟩
  refine hI.rebuild (· = t.id) (fun _ h => h ▸ ⟨hg.known, hg.registered⟩) hsame hn ho (fun k u hu => .inr (hold k u hu))
    (fun k _ _ _ h => absurd h (hr k)) (fun k _ _ _ h => by rw [hd]; exact h) ?_
  intro id len hfin
  rw [hf id len hfin]
  exact ⟨hg.known, hg.registered, fun k u hu => (hold k u hu).2⟩

theorem inv_endSession : Inv (step s (.endSession slot held)) := by
  simp only [step]
  split
  swap
  · exact hI
  rename_i t hidle ht
  split
  · refine inv_leave hI ht ?_ rfl rfl rfl nofun rfl (fun id len h => by cases h; rfl)
    intro id hne
    exact same_of_eq rfl (update_of_ne hne _ _) rfl rfl rfl (by simp [hidle, hne.symm])
  · refine inv_leave hI ht ?_ rfl rfl rfl (not_flagged hidle) rfl fun id len h => absurd h (not_finishing hidle)
    intro id hne
    have h : Same s s id := same_of_eq rfl rfl rfl rfl rfl rfl
    exact { h with closing := fun hc => (mem_cons.mp hc).resolve_left hne, pressure := rfl }

theorem inv_close : Inv (step s (.close id)) := by
  simp only [step]
  split
  swap
  · exact hI
  rename_i hclosing
  set s' : State := { s.tell (.close id) with closing := s.closing.filter (· ≠ id) } with hs'
  -- the journal is nobody's any more
  have hsame : ∀ i, i ≠ id → Same s s' i := by
    intro i hne
    have h : Same s (s.tell (.close id)) i := same_tell rfl (by simpa using hne.symm)
    exact { h with closing := fun hc => (mem_filter.mp hc).1 }
  have hhosted : ∀ k t, s.sessions k = some t → t.id ≠ id := by
    rintro k t ht rfl
    exact (hI.hosted k t ht).unclosed hclosing
  have hopened : id ∉ s.opened := fun ho => (hI.opened id ho).2.2.2.unclosed hclosing
  have hlt : id < s.nextJournalId := by
    by_contra hge
    exact (hI.unborn id (by omega)).2.unclosed hclosing
  exact hI.step_on ⟨hlt, hopened⟩ hsame rfl rfl rfl (fun _ _ _ _ h => h) (fun _ h => h) (fun _ _ h => h)
    fun k t ht hid _ => absurd hid (hhosted k t ht)

theorem inv_flush : Inv (step s (.flush slot)) := by
  simp only [step]
  split
  · exact hI.of_same (fun id => same_tell rfl (by simp)) rfl rfl rfl (fun _ h => h) (fun _ _ _ h => h)
      (fun _ _ h => h)
  · exact hI

/-- Between callbacks, flags may change if the reads end up on, or are off for a handoff. -/
theorem inv_setFlags (hidle : s.reactor = .idle) (ht : s.sessions slot = some t)
    (h : interest = true ∨ handingOff = true) : Inv (s.setSlot slot (some ⟨t.id, interest, handingOff⟩)) := by
  refine inv_flags hI ⟨t.id, interest, handingOff⟩ ht rfl rfl rfl rfl rfl rfl rfl rfl
    (fun id => ⟨sending_idle (s := s) hidle id, sending_idle hidle id⟩) rfl (fun k _ => not_flagged hidle k)
    (fun _ _ h => h) ?_
  rintro (⟨hi, hh⟩ | hf)
  · rcases h with h | h
    · rw [h] at hi
      cases hi
    · rw [h] at hh
      cases hh
  · exact absurd hf (not_flagged hidle slot)

theorem inv_exportHandoff : Inv (step s (.exportHandoff slot)) := by
  simp only [step]
  split
  · rename_i t hidle ht
    exact inv_setFlags hI hidle ht (.inr rfl)
  · exact hI

theorem inv_resumeAfterHandoff : Inv (step s (.resumeAfterHandoff slot)) := by
  simp only [step]
  split
  · rename_i t hidle ht
    exact inv_setFlags hI hidle ht (.inl rfl)
  · exact hI

theorem inv_forgetAfterHandoff : Inv (step s (.forgetAfterHandoff slot)) := by
  simp only [step]
  split
  · rename_i t hidle ht
    exact inv_leave hI ht (fun id _ => same_of_eq rfl rfl rfl rfl rfl rfl) rfl rfl rfl (not_flagged hidle) rfl
      fun id len h => absurd h (not_finishing hidle)
  · exact hI

/-- A step of the writer on a chunk of the journal `id`. -/
theorem inv_writer_on (id : Nat) (hon : s.writer.isOn id = true ∨ unprocessed s id ≠ [])
    (hsame : ∀ i, i ≠ id → Same s s' i) (hn : s'.nextJournalId = s.nextJournalId) (ho : s'.opened = s.opened)
    (hses : s'.sessions = s.sessions) (hr : s'.reactor = s.reactor) (hd : ∀ k ∈ s.drained, k ∈ s'.drained)
    (hgood : ∀ k t, t.id = id → Good s k t → Good s' k t) : Inv s' :=
  hI.step_on (hI.known hon) hsame hn ho hses (fun _ _ _ _ h => hr ▸ h) hd (fun _ _ h => hr ▸ h)
    fun k t _ => hgood k t

/-- The writer goes on with its chunk and subtracts nothing: the address and the backlog stay, and what the
    invariant says of its new place is left to show. -/
theorem inv_advance (hon : ∀ i, s.writer.isOn i = true ↔ i = id) (hpc : ∀ i, pc.isOn i = true → i = id)
    (hhand : ∀ i, pc.inHand i = s.writer.inHand i) (hsub : ∀ k r, pc ≠ .subtracted id k r)
    (hother : ∀ i, i ≠ id → pressure i = s.pressure i) (hslot : (pressure id).slot = (s.pressure id).slot)
    (hback : (pressure id).backlog = (s.pressure id).backlog) (hd : ∀ k ∈ s.drained, k ∈ drained)
    (hloaded : ∀ k t, t.id = id → Good s k t → ∀ k' ∈ pc.slot?, k' = k)
    (hsig : ∀ k t, t.id = id → Good s k t → k ∈ s.drained ∨ WillSignal s k id → k ∈ drained ∨
      WillSignal { s with pressure := pressure, writer := pc, drained := drained } k id) :
    Inv { s with pressure := pressure, writer := pc, drained := drained } := by
  set s' : State := { s with pressure := pressure, writer := pc, drained := drained } with hs'
  have hu (i : Nat) : unprocessed s' i = unprocessed s i := by
    rw [unprocessed, unprocessed, ← hhand]
  refine inv_writer_on hI id (.inl ((hon id).mpr rfl)) (fun i hne => ?_) rfl rfl rfl rfl hd ?_
  · refine ⟨fun h => h, hother i hne, fun h => h, hu i, .inr ⟨?_, ?_⟩⟩
    · exact Bool.eq_false_iff.mpr fun h => hne (hpc i h)
    · exact Bool.eq_false_iff.mpr fun h => hne ((hon i).mp h)
  · rintro k t rfl hg
    refine ⟨hg.known, hg.registered, hg.unclosed, hslot.trans hg.addressed, hg.served, ?_, fun _ => hloaded k t rfl hg,
      fun k' r heq => absurd heq (hsub k' r), fun hc => hsig k t rfl hg (hg.signalled hc)⟩
    rw [hu, ← hg.backlog, ← hback]

/-- A message that is no chunk concerns no Session. -/
theorem inv_takeOther (hj : s.journal = m :: rest)
    (hq : ∀ id, queuedOf id [m] = []) (hserved : ∀ id, Served id s.streams (m :: rest) → Served id streams rest) :
    Inv { s with journal := rest, streams := streams } := by
  refine hI.of_same (fun id => ⟨fun h => h, rfl, ?_, ?_, .inl rfl⟩) rfl rfl rfl (fun _ h => h) (fun _ _ _ h => h)
    (fun _ _ h => h)
  · rw [hj]
    exact hserved id
  · have hcons : queuedOf id (m :: rest) = queuedOf id [m] ++ queuedOf id rest := queuedOf_append [m]
    simp [unprocessed, hj, hcons, hq]

/-- A chunk that is taken stays unprocessed; one of a closed journal is nobody's. -/
theorem inv_takeChunk (hpc : s.writer = .idle) (hj : s.journal = .chunk id len :: rest) :
    Inv (if id ∈ s.streams then { s with journal := rest, writer := .took id len } else { s with journal := rest }) := by
  have hsplit : unprocessed s id = len :: (queuedOf id rest ++ s.reactor.sending id) := by
    simp [unprocessed, hpc, hj, queuedOf]
  have hserved : ∀ i, Served i s.streams s.journal → (id = i → i ∈ s.streams) ∧ Served i s.streams rest := by
    rw [hj]
    exact fun _ h => h
  split
  · refine inv_writer_on hI id (.inr (by simp [hsplit])) ?_ rfl rfl rfl rfl (fun _ h => h) ?_
    · intro i hne
      refine ⟨fun h => h, rfl, fun h => (hserved i h).2, ?_, .inr ⟨?_, by rw [hpc]; rfl⟩⟩
      · simp [unprocessed, hpc, hj, queuedOf, hne.symm]
      · simpa using hne.symm
    · rintro k t rfl hg
      have hu : unprocessed { s with journal := rest, writer := .took t.id len } t.id = unprocessed s t.id := by
        rw [hsplit]
        simp [unprocessed]
      refine ⟨hg.known, hg.registered, hg.unclosed, hg.addressed, (hserved t.id hg.served).2, ?_, ?_, ?_, ?_⟩
      · rw [hu]
        exact hg.backlog
      · rintro - k' ⟨⟩
      · rintro k' r ⟨⟩
      · refine fun hc => (hg.signalled hc).imp_right ?_
        unfold WillSignal
        rw [hu, hpc]
        rintro (h | h | ⟨hp, -⟩)
        · cases h
        · cases h
        · exact .inr (.inr ⟨hp, .inl (by simp [hsplit])⟩)
  · rename_i hclosed
    refine inv_writer_on hI id (.inr (by simp [hsplit])) ?_ rfl rfl rfl rfl (fun _ h => h) ?_
    · intro i hne
      refine ⟨fun h => h, rfl, fun h => (hserved i h).2, ?_, .inl rfl⟩
      simp [unprocessed, hj, queuedOf, hne.symm]
    · rintro k t rfl hg
      exact absurd ((hserved t.id hg.served).1 rfl) hclosed

theorem inv_takeMessage (hpc : s.writer = .idle) : Inv (takeMessage s) := by
  unfold takeMessage
  split
  · exact hI
  · rename_i hj
    exact inv_takeOther hI hj (fun _ => rfl) fun _ h => h
  · rename_i hj
    exact inv_takeOther hI hj (fun _ => rfl) fun _ h => h
  · rename_i hj
    exact inv_takeOther hI hj (fun _ => rfl) fun _ h => h
  · rename_i hj
    exact inv_takeChunk hI hpc hj

/-- The slot is loaded: it is where the Session was registered. -/
theorem inv_address (hpc : s.writer = .took id len) :
    Inv { s with writer := .addressed id (s.pressure id).slot len } := by
  have hon : ∀ i, s.writer.isOn i = true ↔ i = id := by simp [hpc, eq_comm]
  refine inv_advance hI hon (by simp [eq_comm]) (by simp [hpc]) (by simp) (fun _ _ => rfl) rfl rfl (fun _ h => h) ?_ ?_
  · rintro k t rfl hg k' ⟨⟩
    exact hg.addressed
  · rintro k t rfl hg hsig
    refine hsig.imp_right ?_
    simp only [WillSignal, hpc, unprocessed, WriterPc.inHand]
    rintro (h | h | ⟨hp, h | ⟨r, -, h⟩⟩)
    · cases h
    · cases h
    · exact .inr (.inr ⟨hp, .inl h⟩)
    · cases h

/-- The chunk leaves the backlog. What remains is what the test will see. -/
theorem inv_subtract (hpc : s.writer = .addressed id slot len) :
    Inv { s.setPressure id (fun p => { p with backlog := p.backlog - len }) with
      writer := .subtracted id slot ((s.pressure id).backlog - len) } := by
  refine inv_writer_on hI id (.inl (by simp [hpc])) ?_ rfl rfl rfl rfl (fun _ h => h) ?_
  · intro i hne
    refine ⟨fun h => h, update_of_ne hne _ _, fun h => h, ?_, .inr ⟨?_, ?_⟩⟩
    · simp [unprocessed, hpc, hne.symm]
    · simpa using hne.symm
    · simpa [hpc] using hne.symm
  · rintro k t rfl hg
    set s' : State := { s.setPressure t.id (fun p => { p with backlog := p.backlog - len }) with
      writer := .subtracted t.id slot ((s.pressure t.id).backlog - len) } with hs'
    have hu : unprocessed s t.id = len :: unprocessed s' t.id := by
      simp [unprocessed, hs', hpc]
    have hleft : (s.pressure t.id).backlog - len = (unprocessed s' t.id).sum := by
      rw [hg.backlog, hu]
      simp
    have hslot : slot = k := hg.loaded (by simp [hpc]) slot (by simp [hpc])
    -- nothing left is less than the low mark
    have hempty : (s.pressure t.id).backlog - len < journalBacklogLowBytes ∨ unprocessed s' t.id ≠ [] := by
      rw [hleft]
      rcases eq_nil_or_concat (unprocessed s' t.id) with h | ⟨xs, x, h⟩
      · left
        rw [h]
        decide
      · right
        simp [h]
    refine ⟨hg.known, hg.registered, hg.unclosed, ?_, hg.served, ?_, ?_, ?_, ?_⟩
    · simpa [hs'] using hg.addressed
    · rw [← hleft]
      simp [hs']
    · rintro - k' ⟨⟩
      exact hslot
    · rintro k' r ⟨⟩
      exact hempty
    · refine fun hc => (hg.signalled hc).imp_right ?_
      unfold WillSignal
      rw [hpc, show (s'.pressure t.id).paused = (s.pressure t.id).paused by simp [hs']]
      rintro (h | h | ⟨hp, -⟩)
      · cases h
      · cases h
      · refine .inr (.inr ⟨hp, ?_⟩)
        rcases hempty with h | h
        · exact .inr ⟨_, h, by simp [hs', hslot]⟩
        · exact .inl h

theorem inv_test (hpc : s.writer = .subtracted id slot remaining) :
    Inv (if (s.pressure id).paused ∧ remaining < journalBacklogLowBytes then { s with writer := .tested id slot }
      else { s with writer := .idle }) := by
  have hon : ∀ i, s.writer.isOn i = true ↔ i = id := by simp [hpc, eq_comm]
  split
  · have hslot : ∀ k t, t.id = id → Good s k t → slot = k := fun k t hid hg =>
      hg.loaded ((hon t.id).mpr hid) slot (by simp [hpc])
    refine inv_advance hI hon (by simp [eq_comm]) (by simp [hpc]) (by simp)
      (fun _ _ => rfl) rfl rfl (fun _ h => h) ?_ ?_
    · rintro k t hid hg k' ⟨⟩
      exact hslot k t hid hg
    · exact fun k t hid hg _ => .inr (.inl (by rw [hslot k t hid hg]))
  · rename_i hcond
    refine inv_advance hI hon (by simp) (by simp [hpc]) (by simp) (fun _ _ => rfl) rfl rfl (fun _ h => h) (by simp) ?_
    rintro k t rfl hg hsig
    refine hsig.imp_right ?_
    simp only [WillSignal, hpc, unprocessed, WriterPc.inHand]
    rintro (h | h | ⟨hp, h | ⟨r, hr, h⟩⟩)
    · cases h
    · cases h
    · exact .inr (.inr ⟨hp, .inl h⟩)
    · cases h
      exact absurd ⟨hp, hr⟩ hcond

/-- `paused` is cleared, and the message is next. -/
theorem inv_clear (hpc : s.writer = .tested id slot) :
    Inv { s.setPressure id (fun p => { p with paused := false }) with writer := .cleared id slot } := by
  have hon : ∀ i, s.writer.isOn i = true ↔ i = id := by simp [hpc, eq_comm]
  have hslot : ∀ k t, t.id = id → Good s k t → slot = k := fun k t hid hg =>
    hg.loaded ((hon t.id).mpr hid) slot (by simp [hpc])
  refine inv_advance hI hon (by simp [eq_comm]) (by simp [hpc]) (by simp)
    (fun i hne => update_of_ne hne _ _) (by simp) (by simp)
    (fun _ h => h) ?_ ?_
  · rintro k t hid hg k' ⟨⟩
    exact hslot k t hid hg
  · exact fun k t hid hg _ => .inr (.inr (.inl (by rw [hslot k t hid hg])))

theorem inv_signal (hpc : s.writer = .cleared id slot) :
    Inv { s with drained := s.drained ++ [slot], writer := .idle } := by
  have hon : ∀ i, s.writer.isOn i = true ↔ i = id := by simp [hpc, eq_comm]
  refine inv_advance hI hon (by simp) (by simp [hpc]) (by simp) (fun _ _ => rfl) rfl rfl
    (fun _ h => mem_append_left _ h) (by simp) ?_
  intro k t hid hg _
  have hslot : slot = k := hg.loaded ((hon t.id).mpr hid) slot (by simp [hpc])
  exact .inl (by simp [hslot])

theorem inv_writer : Inv (step s .writer) := by
  show Inv (writerStep s)
  unfold writerStep
  split
  · rename_i hpc
    exact inv_takeMessage hI hpc
  · rename_i hpc
    exact inv_address hI hpc
  · rename_i hpc
    exact inv_subtract hI hpc
  · rename_i hpc
    exact inv_test hI hpc
  · rename_i hpc
    exact inv_clear hI hpc
  · rename_i hpc
    exact inv_signal hI hpc

/-- **Step lemma.** -/
theorem inv_step (hl : PausesInTime s l) : Inv (step s l) := by
  cases l with
  | openJournal => exact inv_openJournal hI
  | register => exact inv_register hI
  | read => exact inv_read hI
  | readNothing => exact inv_readNothing hI
  | reactor => exact inv_reactor hI hl
  | control => exact inv_control hI
  | endSession => exact inv_endSession hI
  | close => exact inv_close hI
  | flush => exact inv_flush hI
  | exportHandoff => exact inv_exportHandoff hI
  | resumeAfterHandoff => exact inv_resumeAfterHandoff hI
  | forgetAfterHandoff => exact inv_forgetAfterHandoff hI
  | writer => exact inv_writer hI

end

end Steps

theorem inv_boot : Inv boot where
  hosted := nofun
  opened := nofun
  unborn := fun _ _ => ⟨not_mem_nil, not_mem_nil, rfl, rfl⟩
  finishing := nofun

/-! ## The writer, left alone -/

/-- Operations the writer has left on the chunk it holds. -/
@[simp] def WriterPc.left : WriterPc → Nat
  | .idle => 0
  | .cleared _ _ => 1
  | .tested _ _ => 2
  | .subtracted _ _ _ => 3
  | .addressed _ _ _ => 4
  | .took _ _ => 5

/-- A bound on the operations the writer has left. -/
def work (s : State) : Nat := 6 * s.journal.length + s.writer.left

/-- The writer touches neither the Sessions nor the reactor, and every operation is one less to do. -/
theorem writerStep_work (s : State) : (writerStep s).sessions = s.sessions ∧ (writerStep s).reactor = s.reactor ∧
    work (writerStep s) ≤ work s - 1 := by
  unfold writerStep
  split <;> rename_i hpc
  · unfold takeMessage
    split <;> rename_i hj
    · exact ⟨rfl, rfl, by simp [work, hpc, hj]⟩
    · exact ⟨rfl, rfl, by simp [work, hpc, hj]; omega⟩
    · exact ⟨rfl, rfl, by simp [work, hpc, hj]; omega⟩
    · exact ⟨rfl, rfl, by simp [work, hpc, hj]; omega⟩
    · split
      · exact ⟨rfl, rfl, by simp [work, hpc, hj]; omega⟩
      · exact ⟨rfl, rfl, by simp [work, hpc, hj]; omega⟩
  · exact ⟨rfl, rfl, by simp [work, hpc]⟩
  · exact ⟨rfl, rfl, by simp [work, hpc]⟩
  · split
    · exact ⟨rfl, rfl, by simp [work, hpc]⟩
    · exact ⟨rfl, rfl, by simp [work, hpc]⟩
  · exact ⟨rfl, rfl, by simp [work, hpc]⟩
  · exact ⟨rfl, rfl, by simp [work, hpc]⟩

/-- **Reads that are off come on again**: between callbacks, the writer's own operations bring the
    `JournalDrained` of every Session whose reads are off. -/
theorem drained_by_writer (hI : Inv s) (hidle : s.reactor = .idle)
    (ht : s.sessions slot = some t) (hoff : t.ptyReadInterest = false) (hstays : t.handingOff = false) :
    slot ∈ (Machine.run step s (replicate (work s) .writer)).drained := by
  -- by induction on a bound for the work left
  suffices h : ∀ n s, work s ≤ n → Inv s → s.reactor = .idle → s.sessions slot = some t →
      slot ∈ (Machine.run step s (replicate n .writer)).drained from h _ s le_rfl hI hidle ht
  intro n
  induction n with
  | zero =>
    intro s hw hI hidle ht
    show slot ∈ s.drained
    have hdone : s.writer = .idle ∧ s.journal = [] := by
      simp only [work] at hw
      refine ⟨?_, length_eq_zero_iff.mp (by omega)⟩
      cases hpc : s.writer with
      | idle => rfl
      | _ => simp [hpc] at hw
    have hnone : unprocessed s t.id = [] := by
      simp [unprocessed, hdone.1, hdone.2, queuedOf, hidle]
    rcases (hI.hosted slot t ht).signalled (.inl ⟨hoff, hstays⟩) with h | h | h | ⟨-, h | ⟨r, -, h⟩⟩
    · exact h
    · rw [hdone.1] at h
      cases h
    · rw [hdone.1] at h
      cases h
    · exact absurd hnone h
    · rw [hdone.1] at h
      cases h
  | succ n ih =>
    intro s hw hI hidle ht
    obtain ⟨hses, hreactor, hwork⟩ := writerStep_work s
    exact ih (step s .writer) (by show work (writerStep s) ≤ n; omega) (inv_writer hI)
      (hreactor.trans hidle) (by rw [show (step s .writer).sessions = s.sessions from hses]; exact ht)

/-- **Journal backpressure does not wedge a terminal**, in any interleaving of the reactor and the writer and
    for any number of Sessions, as long as `paused` is never stored after the writer's last test of it. -/
theorem never_wedged (labels : List Label) (h : Machine.Along step PausesInTime boot labels) (slot : Nat) :
    Flows (Machine.run step boot labels) slot := by
  have hI : Inv (Machine.run step boot labels) := Machine.invariant (fun s l hI hl => inv_step hI hl) inv_boot h
  intro session hs hoff hstays
  right
  exact (hI.hosted slot session hs).signalled (.inl ⟨hoff, hstays⟩)

/-- A Session is registered and reads `n` full buffers. -/
def reading (n : Nat) : List Label :=
  [.openJournal, .register 1 0, .writer] ++
    (List.replicate n [Label.read 0 readBufferBytes, .reactor, .reactor]).flatten

instance (s : State) (l : Label) : Decidable (PausesInTime s l) := by
  unfold PausesInTime
  split
  · split <;> infer_instance
  · infer_instance

/-- The writer is slow: reads are off with 65 chunks to process. -/
theorem never_wedged_slow_writer : let labels := reading 65 ++ [.reactor, .reactor]
    ((Machine.run step boot labels).sessions 0 = some ⟨1, false, false⟩) ∧
      Flows (Machine.run step boot labels) 0 := by
  intro labels
  exact ⟨by decide +kernel, never_wedged labels (by decide +kernel) 0⟩

theorem drained_by_writer_slow : let s := Machine.run step boot (reading 65 ++ [.reactor, .reactor])
    0 ∈ (Machine.run step s (replicate (work s) .writer)).drained :=
  drained_by_writer _ (t := ⟨1, false, false⟩)
    (Machine.invariant (fun _ _ hI hl => inv_step hI hl) inv_boot (by decide +kernel)) (by decide +kernel)
    (by decide +kernel) rfl rfl

/-- The writer processes all 65 chunks after the reactor has found too many and before it says so: the flag is
    set and the reads are off with nothing left to process, and no `JournalDrained` will ever be sent. -/
theorem writer_overtakes_pause :
    let wedged := Machine.run step boot (reading 65 ++ List.replicate 260 .writer ++ [.reactor, .reactor])
    wedged.sessions 0 = some ⟨1, false, false⟩ ∧ wedged.journal = [] ∧ ¬ Flows wedged 0 := by
  intro wedged
  have hs : wedged.sessions 0 = some ⟨1, false, false⟩ ∧ wedged.journal = [] ∧ wedged.drained = [] ∧
      wedged.writer = .idle ∧ unprocessed wedged 1 = [] := by
    decide +kernel
  refine ⟨hs.1, hs.2.1, fun h => ?_⟩
  rcases h _ hs.1 rfl rfl with h | h | h | h | ⟨-, h | ⟨r, -, h⟩⟩
  · rw [hs.2.2.2.2] at h
    exact absurd h (by decide)
  · rw [hs.2.2.1] at h
    cases h
  · rw [hs.2.2.2.1] at h
    cases h
  · rw [hs.2.2.2.1] at h
    cases h
  · exact h hs.2.2.2.2
  · rw [hs.2.2.2.1] at h
    cases h

end Supercli.Reactor.Backpressure
