import Supercli.Lib.Machine
import Supercli.Reactor.Callbacks

/-!
# `Reactor.Isolation` — a Session ends for its own reasons

The reactor should end a Session only because of that Session: its PTY ended or failed, it was stopped, its
journal failed, or its callback panicked. Three things stand in the way. `pty_readable` takes the shared
read buffer out of the registry and, on one early return and on a panic, does not put it back: from then on
every read is into an empty buffer, reads nothing, and looks like the end of that PTY. And a `JournalFailed`
message names a slot, which may have a new tenant when it arrives.

`sessions_end_for_own_causes` excludes these three and nothing else; the invariant then survives every move
of every thread, for any number of Sessions.
-/

namespace Supercli.Reactor

/-! ## The condition -/

/-- The slot whose PTY the reactor may read in its next move. -/
def State.reading (s : State) : Option Nat :=
  match s.phase with
  | .control =>
    match s.control with
    | .wake slot :: _ => some slot
    | _ => none
  | .events (event :: _) _ =>
    match s.owners event.token with
    | some (slot, .pty) => some slot
    | _ => none
  | .ticking (slot :: _) => some slot
  | _ => none

/-- The read buffer comes back: no read of a stopped Session finds nothing, and none panics. -/
def readsSafe (s : State) (io : ReactorIo) : Bool :=
  match s.reading.bind s.sessionAt with
  | none => true
  | some session =>
    io.reads.all fun r => r.panics.isNone && ((s.shared session.id).running || r.result ≠ .wouldBlock)

/-- A `JournalFailed` message finds the Session whose journal failed, or nobody. -/
def addressed (s : State) : Bool :=
  match s.phase, s.control with
  | .control, .journalFailed slot stream :: _ => (s.sessionAt slot).all fun session => session.id = stream
  | _, _ => true

/-- The condition on a move. -/
def undisturbed (s : State) : Input → Bool
  | .reactor io => readsSafe s io && addressed s
  | _ => true

/-! ## The reactor thread -/

open State

section Reactor

variable {s : State} {io : ReactorIo} {session : SessionIo}

theorem ReadOk.of_running (h : ReadOk s session r) (hid : session'.id = session.id)
    (hrun : (t.shared session.id).running = (s.shared session.id).running) : ReadOk t session' r := by
  refine ⟨h.1, ?_⟩
  rw [hid, hrun]
  exact h.2

/-- What the condition says about the reads of the slot that is up. -/
theorem readOk_of_safe (hcond : readsSafe s io = true) (hslot : s.reading = some slot)
    (hat : s.sessionAt slot = some session) : ∀ r ∈ io.reads, ReadOk s session r := by
  intro r hr
  have hbind : s.reading.bind s.sessionAt = some session := by
    rw [hslot]
    exact hat
  unfold readsSafe at hcond
  rw [hbind] at hcond
  have hone := List.all_eq_true.mp hcond r hr
  simp only [Bool.and_eq_true, Bool.or_eq_true, Option.isNone_iff_eq_none, decide_eq_true_eq] at hone
  exact hone

section

variable (hs : Isolated s)

include hs

/-- Draining a Session that may have been stopped. -/
theorem drainIfStopped_ok (hlive : session.ended = false) (hreads : ∀ r ∈ io.reads, ReadOk s session r) :
    CallbackOk session s (drainIfStopped io.reads session s) := by
  unfold drainIfStopped
  split
  · exact drainLoop_ok hs hlive hreads
  · exact ⟨Still.refl s, rfl, rfl, by simp⟩

/-- A message, once it is out of the channel. -/
theorem Isolated.handleControl {control : Control} (hphase : s.phase = .control)
    (hcontrol : s.control = control :: rest) (hsafe : readsSafe s io = true) (haddressed : addressed s = true) :
    Isolated (handleControl io { s with control := rest } control) := by
  have hmem : control ∈ s.control := by
    rw [hcontrol]
    exact List.mem_cons_self
  have hpopped : Isolated { s with control := rest } := by
    have hold : ∀ c ∈ rest, c ∈ s.control := fun c hc => hcontrol ▸ List.mem_cons_of_mem _ hc
    refine ⟨⟨hs.sound.stopped, hs.sound.failed, hs.sound.live, ?_, ?_, hs.sound.streams, hs.sound.caused⟩, hs.buffer⟩
    · exact fun slot id hc => hs.sound.reported slot id (hold _ hc)
    · rintro session (hc | ⟨pid, hc⟩)
      · exact hs.sound.arriving session (.inl (hold _ hc))
      · exact hs.sound.arriving session (.inr ⟨pid, hold _ hc⟩)
  cases control with
  | register session =>
    have hreg := hpopped.register io.register (hs.sound.arriving session (.inl hmem))
    simp only [Reactor.handleControl]
    split
    · rename_i t heq
      rw [heq] at hreg
      exact hreg
    · rename_i t heq
      rw [heq] at hreg
      exact hreg.of_core rfl rfl
  | wake slot =>
    have hslot : s.reading = some slot := by simp [reading, hphase, hcontrol]
    obtain ⟨hkept, hcause⟩ := hpopped.withSession io.finish
      fun session hat hlive => drainIfStopped_ok hpopped hlive fun r hr =>
        (readOk_of_safe hsafe hslot hat r hr).of_running rfl rfl
    simp only [Reactor.handleControl]
    split
    · rename_i t heq
      rw [heq] at hkept hcause
      exact hkept.endSession (hcause rfl)
    · rename_i t heq
      rw [heq] at hkept
      exact hkept.serve io.finish fun session _ _ => serveClients_ok
  | journalDrained slot =>
    refine hpopped.serve io.finish fun session _ _ => ⟨Still.refl _, ?_, ?_, by simp⟩
    · simp only [Reactor.journalDrained]
      split <;> rfl
    · simp only [Reactor.journalDrained]
      split <;> rfl
  | journalFailed slot stream =>
    -- the message speaks for the Session in the slot, and its failure is on record
    refine hpopped.endSession ?_
    intro session hat
    have hat' : s.sessionAt slot = some session := hat
    have hid : session.id = stream := by
      simpa [addressed, hphase, hcontrol, hat'] using haddressed
    exact ⟨_, hs.sound.reported slot stream hmem, by simp [Event.causes, hid]⟩
  | sessionEnded => exact hpopped.of_core rfl rfl
  | handoff => exact hpopped.handoff
  | adopt session pid => exact hpopped.adopt (hs.sound.arriving session (.inr ⟨pid, hmem⟩))

/-- An event: only that of a PTY reads, and after the queued input was written. -/
theorem Isolated.handleEvent (hphase : s.phase = .events (event :: rest) touched) (hsafe : readsSafe s io = true) :
    Isolated (handleEvent io event s).1 := by
  unfold Reactor.handleEvent
  split
  · exact hs
  · split
    · exact hs
    · rename_i slot kind howner
      have hclients : ∀ session, s.sessionAt slot = some session →
          CallbackOk session s (serveClients io.work slot session s) := by
        intro session _
        exact serveClients_ok
      have hwork := hs.serve io.finish fun session hat _ => hclients session hat
      cases kind with
      | process => exact hs.of_core rfl rfl
      | listener | client => exact hwork
      | pty =>
        have hslot : s.reading = some slot := by simp [reading, hphase, howner]
        have hhead : ∀ session, s.sessionAt slot = some session → ReadOk s session (io.reads.headD .interrupted) := by
          intro session hat
          have hreads := readOk_of_safe hsafe hslot hat
          cases hr : io.reads with
          | nil => exact ⟨rfl, .inr (by simp [PtyRead.interrupted])⟩
          | cons r rest => exact hreads r (hr ▸ List.mem_cons_self)
        have hread : ∀ t : State, Isolated t →
            ((∀ x, t.sessionAt slot = some x → ∃ y, s.sessionAt slot = some y ∧ x.id = y.id) ∧
              ∀ id, (t.shared id).running = (s.shared id).running) →
            Isolated (Reactor.serve io.finish slot (ptyReadable (io.reads.headD .interrupted)) t) := by
          intro t ht hsame
          refine ht.serve io.finish fun x hx hlive => ptyReadable_ok ht hlive ?_
          obtain ⟨y, hy, hid⟩ := hsame.1 x hx
          exact (hhead y hy).of_running hid (hsame.2 _)
        simp only [Reactor.dispatch]
        cases event.writable with
        | true =>
          simp only [if_true]
          split
          · exact hread _ hwork (serve_spec io.finish hclients)
          · exact hwork
        | false =>
          simp only [Bool.false_eq_true, if_false]
          split
          · exact hread s hs ⟨fun x hx => ⟨x, hx, rfl⟩, fun _ => rfl⟩
          · exact hs

theorem Isolated.tickSession (hphase : s.phase = .ticking (slot :: rest)) (hsafe : readsSafe s io = true) :
    Isolated (tickSession io slot s) := by
  have hslot : s.reading = some slot := by simp [reading, hphase]
  refine hs.serve io.finish ?_
  intro session hat hlive
  have hwork : CallbackOk session s (serveClients io.work slot session s) := serveClients_ok
  split
  · rename_i session' t heq
    rw [heq] at hwork
    have hreads : ∀ r ∈ io.reads, ReadOk t session' r := by
      intro r hr
      exact (readOk_of_safe hsafe hslot hat r hr).of_running hwork.id (hwork.still.running _)
    have hdrain := drainIfStopped_ok (hwork.still.isolated hs) (hwork.ended.trans hlive) hreads
    have hid : session'.id = session.id := hwork.id
    refine ⟨hwork.still.trans hdrain.still, hdrain.id.trans hid, hdrain.ended.trans hwork.ended, ?_⟩
    intro he
    rw [← hid]
    exact hdrain.cause he
  · exact hwork

/-- **Step lemma of the reactor thread.** -/
theorem Isolated.reactorStep (hsafe : readsSafe s io = true) (haddressed : addressed s = true) :
    Isolated (reactorStep io s) := by
  -- moving on in the loop changes nothing else
  have hmove : ∀ (t : State) (phase : Phase), Isolated t → Isolated { t with phase := phase } := by
    intro t phase ht
    exact ht.of_core rfl rfl
  unfold Reactor.reactorStep
  split
  · rename_i hphase
    split
    · rename_i control rest hcontrol
      exact hs.handleControl hphase hcontrol hsafe haddressed
    · split
      · exact hmove s _ hs
      · exact hs
  · rename_i event rest touched hphase
    exact hmove _ _ (hs.handleEvent hphase hsafe)
  · exact hmove s _ hs
  · rename_i slot rest hphase
    exact hmove _ _ (hs.serve io.finish fun session _ _ => serveClients_ok)
  · split
    · exact hs.of_core rfl rfl
    · exact hmove s _ hs
  · rename_i slot rest hphase
    exact hmove _ _ (hs.tickSession hphase hsafe)
  · exact hmove s _ hs

end

end Reactor

/-! ## The other threads -/

section Writer

variable {s : State} {io : WriterIo}

/-- A message to the reactor: a failure is on record when it is sent. -/
theorem Isolated.send (hs : Isolated s) {control : Control}
    (hfailed : ∀ slot id, control = .journalFailed slot id → .journalFailed id ∈ s.trace)
    (hnew : ∀ session, (control = .register session ∨ ∃ pid, control = .adopt session pid) → session.ended = false) :
    Isolated (s.send control) := by
  have hcases : ∀ c, c ∈ (s.send control).control → c ∈ s.control ∨ c = control := by
    intro c hc
    simpa [State.send] using hc
  refine ⟨⟨hs.sound.stopped, hs.sound.failed, hs.sound.live, ?_, ?_, hs.sound.streams, hs.sound.caused⟩, hs.buffer⟩
  · intro slot id hc
    rcases hcases _ hc with hold | rfl
    · exact hs.sound.reported slot id hold
    · exact hfailed slot id rfl
  · rintro session (hc | ⟨pid, hc⟩)
    · rcases hcases _ hc with hold | rfl
      · exact hs.sound.arriving session (.inl hold)
      · exact hnew session (.inl rfl)
    · rcases hcases _ hc with hold | rfl
      · exact hs.sound.arriving session (.inr ⟨pid, hold⟩)
      · exact hnew session (.inr ⟨pid, rfl⟩)

/-- Other streams, each with its failure on record. -/
theorem Isolated.withStreams (hs : Isolated s) {streams : List (Nat × JournalSession)}
    (h : ∀ id j, (id, j) ∈ streams → j.error.isSome = true → .journalFailed id ∈ s.trace) :
    Isolated { s with streams := streams } :=
  ⟨⟨hs.sound.stopped, hs.sound.failed, hs.sound.live, hs.sound.reported, hs.sound.arriving, h, hs.sound.caused⟩,
    hs.buffer⟩

variable {j : JournalSession}

/-- A stream changes: when it has an error, its failure is on record. -/
theorem Isolated.setStream (hs : Isolated s) {id : Nat} (j' : JournalSession)
    (hj : j.error.isSome = true → .journalFailed id ∈ s.trace) :
    Isolated (s.setStream id j j') ∧ (∀ ev ∈ s.trace, ev ∈ (s.setStream id j j').trace) ∧
      (j'.error.isSome = true → .journalFailed id ∈ (s.setStream id j j').trace) := by
  -- each stream is an old one or the new one
  have hchange : ∀ t : State, Isolated t → (∀ ev ∈ s.trace, ev ∈ t.trace) →
      (j'.error.isSome = true → .journalFailed id ∈ t.trace) →
      Isolated { t with streams := s.streams.map fun p => if p.1 = id then (id, j') else p } := by
    intro t ht hold hnoted
    refine ht.withStreams ?_
    intro k x hx he
    obtain ⟨p, hp, heq⟩ := List.mem_map.mp hx
    split at heq
    · cases heq
      exact hnoted he
    · cases heq
      exact hold _ (hs.sound.streams k x hp he)
  unfold State.setStream
  dsimp only
  split
  · -- the stream fails now, and this is noted
    have hlogged : Isolated (s.log (.journalFailed id)) := (⟨Frame.log s (by simp), rfl⟩ : Still s _).isolated hs
    have hold : ∀ ev ∈ s.trace, ev ∈ (s.log (.journalFailed id)).trace := by
      intro ev hev
      exact List.mem_cons_of_mem _ hev
    exact ⟨hchange _ hlogged hold fun _ => List.mem_cons_self, hold, fun _ => List.mem_cons_self⟩
  · -- a stream with an error had it before
    rename_i hfail
    have hnoted : j'.error.isSome = true → .journalFailed id ∈ s.trace := by
      intro he
      apply hj
      rw [he, Bool.and_true] at hfail
      cases herr : j.error with
      | none => simp [herr] at hfail
      | some => rfl
    exact ⟨hchange s hs (fun _ h => h) hnoted, fun _ h => h, hnoted⟩

theorem lookup_mem {id : Nat} (h : s.streams.lookup id = some j) : (id, j) ∈ s.streams := by
  obtain ⟨l₁, l₂, heq, -⟩ := List.lookup_eq_some_iff.mp h
  rw [heq]
  simp

section

variable (hs : Isolated s)

include hs

theorem Isolated.shrinkBacklog (id len : Nat) :
    Isolated (shrinkBacklog id len s) ∧ (shrinkBacklog id len s).trace = s.trace := by
  have hless : Isolated (s.setShared id fun f => { f with backlog := (f.backlog + 2 ^ 64 - len % 2 ^ 64) % 2 ^ 64 }) :=
    (still_setShared id (fun f => { f with backlog := (f.backlog + 2 ^ 64 - len % 2 ^ 64) % 2 ^ 64 })
      (fun _ => rfl) fun _ => rfl).isolated hs
  unfold Reactor.shrinkBacklog
  dsimp only
  split
  · have hresumed := (still_setShared id (fun f => { f with paused := false }) (fun _ => rfl)
      fun _ => rfl).isolated hless
    exact ⟨hresumed.send (by simp) (by simp), rfl⟩
  · exact ⟨hless, rfl⟩

theorem Isolated.writeChunk {id : Nat}
    (hj : j.error.isSome = true → .journalFailed id ∈ s.trace) : Isolated (writeChunk io id len j s) := by
  obtain ⟨hshrunk, htrace⟩ := hs.shrinkBacklog id len
  unfold Reactor.writeChunk
  dsimp only
  split
  · exact hshrunk
  · have hj' : j.error.isSome = true → .journalFailed id ∈ (Reactor.shrinkBacklog id len s).trace := by
      rw [htrace]
      exact hj
    obtain ⟨hset, -, hnoted⟩ := hshrunk.setStream (j.append io id len) hj'
    split
    · rename_i herr
      refine hset.send ?_ (by simp)
      intro slot k heq
      cases heq
      exact hnoted herr
    · exact hset

theorem Isolated.handleJournal : Isolated (handleJournal io s message) := by
  -- a stream that is looked up has its failure on record
  have hknown : ∀ id j, s.streams.lookup id = some j → j.error.isSome = true → .journalFailed id ∈ s.trace := by
    intro id j hl he
    exact hs.sound.streams id j (lookup_mem hl) he
  cases message with
  | opened =>
    refine hs.withStreams ?_
    intro k j hj he
    rcases List.mem_append.mp hj with hj | hj
    · exact hs.sound.streams k j (List.mem_of_mem_filter hj) he
    · cases List.mem_singleton.mp hj
      cases he
  | chunk id len =>
    simp only [Reactor.handleJournal]
    split
    · exact hs
    · rename_i j hl
      exact hs.writeChunk (hknown id j hl)
  | flush id =>
    simp only [Reactor.handleJournal]
    split
    · exact hs
    · rename_i j hl
      exact (hs.setStream _ (hknown id j hl)).1
  | close id =>
    simp only [Reactor.handleJournal]
    split
    · exact hs
    · rename_i j hl
      have hset := (hs.setStream (j.flush (io.writeError id)) (hknown id j hl)).1
      refine hset.withStreams ?_
      intro k x hx he
      exact hset.sound.streams k x (List.mem_of_mem_filter hx) he

/-- The sweep, over the streams as they were when it began. -/
theorem Isolated.sweep {streams : List (Nat × JournalSession)}
    (hj : ∀ p ∈ streams, p.2.error.isSome = true → .journalFailed p.1 ∈ s.trace) :
    Isolated (streams.foldl (sweepStream io) s) := by
  induction streams generalizing s with
  | nil => exact hs
  | cons p rest ih =>
    have hone : Isolated (sweepStream io s p) ∧ ∀ ev ∈ s.trace, ev ∈ (sweepStream io s p).trace := by
      unfold sweepStream
      dsimp only
      split
      · obtain ⟨hset, hold, hnoted⟩ := hs.setStream (p.2.flush (io.writeError p.1)) (hj p List.mem_cons_self)
        split
        · rename_i herr
          refine ⟨hset.send ?_ (by simp), hold⟩
          intro slot k heq
          cases heq
          exact hnoted herr
        · exact ⟨hset, hold⟩
      · exact ⟨hs, fun _ h => h⟩
    exact ih hone.1 fun q hq he => hone.2 _ (hj q (List.mem_cons_of_mem _ hq) he)

/-- **Step lemma of the journal writer.** -/
theorem Isolated.writerStep : Isolated (writerStep io s) := by
  have hsweep : ∀ t : State, Isolated t → Isolated (t.streams.foldl (sweepStream io) t) := by
    intro t ht
    exact ht.sweep fun p hp he => ht.sound.streams p.1 p.2 hp he
  unfold Reactor.writerStep
  dsimp only
  split
  · rename_i message rest _ _
    have htaken : Isolated { s with journal := rest } := hs.of_core rfl rfl
    split
    · split
      · exact htaken
      · exact hsweep _ htaken.handleJournal
    · exact hsweep _ htaken.handleJournal
  · exact hsweep s hs

end

end Writer

theorem Isolated.stop (hs : Isolated s) (id : Nat) :
    Isolated ((s.setShared id fun f => { f with running := false }).log (.stopped id)) := by
  have hnoted : Sound (s.log (.stopped id)) := (Frame.log s (by simp)).sound hs.sound
  refine ⟨{ hnoted with stopped := ?_, failed := ?_ }, hs.buffer⟩
  · intro k hk
    by_cases hid : k = id
    · subst hid
      exact List.mem_cons_self
    · rw [log_shared, setShared_shared, if_neg hid] at hk
      exact hnoted.stopped k hk
  · intro k hk
    rw [log_shared, setShared_shared] at hk
    split at hk
    · rename_i hid
      exact hnoted.failed k (hid ▸ hk)
    · exact hnoted.failed k hk

/-- **Step lemma.** Every move of every thread that meets the condition. -/
theorem Isolated.step {s : State} (hs : Isolated s) (input : Input) (hcond : undisturbed s input = true) :
    Isolated (step s input) := by
  have harrive : ∀ control : SessionIo → Control, (∀ session slot id, control session ≠ .journalFailed slot id) →
      (∀ session x, (control session = .register x ∨ ∃ pid, control session = .adopt x pid) → x = session) →
      ∀ hasListener, Isolated (s.arrive control hasListener) := by
    intro control hnot hsame hasListener
    have hnext : Isolated { s with
        nextJournalId := s.nextJournalId + 1, journal := s.journal ++ [JournalMsg.opened s.nextJournalId] } :=
      hs.of_core rfl rfl
    refine hnext.send (fun slot id heq => absurd heq (hnot _ slot id)) ?_
    intro x hx
    rw [hsame _ x hx]
    rfl
  cases input with
  | reactor =>
    simp only [undisturbed, Bool.and_eq_true] at hcond
    exact hs.reactorStep hcond.1 hcond.2
  | writer io => exact hs.writerStep
  | host => exact harrive .register (by simp) (by rintro session x (h | ⟨pid, h⟩) <;> cases h; rfl) _
  | adopt hasListener childPid =>
    exact harrive (fun session => .adopt session childPid) (by simp)
      (by rintro session x (h | ⟨pid, h⟩) <;> cases h; rfl) _
  | stop id => exact hs.stop id
  | wake _ | handoff => exact hs.send (by simp) (by simp)
  | teardown =>
    simp only [Reactor.step]
    split
    · exact hs
    · rename_i t rest _
      have htaken : Isolated { s with exiting := rest } := hs.of_core rfl rfl
      have hclosed : Isolated { ((s.setShared t.journalId fun f => { f with running := false }).log
          (.stopped t.journalId)) with
          exiting := rest
          journal := s.journal ++ [JournalMsg.close t.journalId]
          timer := s.timer ++ [TimerMsg.remove t.slot] } :=
        (htaken.stop t.journalId).of_core rfl rfl
      exact hclosed.send (by simp) (by simp)

theorem isolated_boot : Isolated boot := by
  refine ⟨⟨?_, ?_, ?_, ?_, ?_, ?_, rfl⟩, rfl⟩ <;> simp [boot, SessionShared.new]

/-- **A Session ends for its own reasons.** For any number of Sessions and any sequence of moves of the
    reactor, the journal writer and the threads around them, as long as no read of a stopped Session finds
    nothing, no PTY read panics, and every `JournalFailed` message finds the Session it speaks for or an empty
    slot: whenever a Session has ended, its own PTY ended or failed in a read with room, it was stopped, its
    journal failed, or its callback panicked. -/
theorem sessions_end_for_own_causes (inputs : List Input)
    (h : Machine.Along step (fun s input => undisturbed s input = true) boot inputs) :
    ownCauses (Machine.run step boot inputs).trace = true :=
  (Machine.invariant (fun _ input hs hcond => hs.step input hcond) isolated_boot h).sound.caused

/-- A move in which the environment does nothing of note; system calls succeed. -/
def ReactorIo.quiet : ReactorIo where
  polled := none
  tickDue := false
  work := ⟨[], [], none⟩
  flush := ⟨[], [], none⟩
  reads := []
  finish := ⟨0, false, false, true⟩
  register := ⟨true, true, []⟩
  watches := true
  handoffCommits := false

/-- Two Sessions are hosted, the first is killed, and the wake finds this on its PTY. Then the second one's
    PTY has five bytes. -/
def killBesideNeighbour (found : ReadResult) : List Input :=
  [.host false, .host false, .reactor .quiet, .reactor .quiet, .stop 1, .wake 1,
    .reactor { ReactorIo.quiet with reads := [⟨found, 0, false, none⟩] },
    .reactor { ReactorIo.quiet with polled := some [⟨2, true, false, false⟩] },
    .reactor { ReactorIo.quiet with reads := [⟨.ok 5, 5, false, none⟩] }]

/-- A killed Session whose PTY is at its end leaves its neighbour alone. -/
theorem sessions_end_for_own_causes_kill :
    Machine.Along step (fun s input => undisturbed s input = true) boot (killBesideNeighbour (.ok 0)) ∧
      ownCauses (Machine.run step boot (killBesideNeighbour (.ok 0))).trace = true ∧
      (Machine.run step boot (killBesideNeighbour (.ok 0))).trace =
        [.read 2 65536 (.ok 5), .ended 1, .read 1 65536 (.ok 0), .stopped 1] :=
  ⟨by decide +kernel, sessions_end_for_own_causes _ (by decide +kernel), by decide +kernel⟩

/-- **A neighbour ends for nothing.** The killed Session's PTY has nothing to read, and `pty_readable` keeps
    the read buffer. The next Session with output reads into no room, reads zero bytes, and is ended. -/
theorem killed_session_ends_neighbour : (Machine.run step boot (killBesideNeighbour .wouldBlock)).trace =
        [.ended 2, .read 2 0 (.ok 0), .ended 1, .read 1 65536 .wouldBlock, .stopped 1] ∧
      ownCauses (Machine.run step boot (killBesideNeighbour .wouldBlock)).trace = false := by
  decide +kernel

end Supercli.Reactor
