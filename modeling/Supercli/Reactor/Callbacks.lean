import Supercli.Reactor.Core

/-!
# `Reactor.Callbacks` — what a callback on one Session leaves alone

The invariant of the core (`Isolated`): every Session that ended had a cause of its own, what the flags and
messages say has happened, and the shared read buffer is in place. A callback on a Session is well behaved
(`CallbackOk`) if it ends nobody, keeps the read buffer, and asks for the end of its Session only with a
cause; the slot table then keeps the invariant whatever it is told to run.

All callbacks are well behaved, except that `pty_readable` loses the read buffer on two of its paths.
-/

namespace Supercli.Reactor

/-! ## The property -/

/-- The read says that the PTY has ended or failed. -/
def ReadResult.isEnd : ReadResult → Bool
  | .ok 0 => true
  | .error _ => true
  | _ => false

/-- The event is a cause to end this Session: a read of its PTY into a buffer with room ended or failed, its
    `running` was cleared, its journal failed, or its callback panicked. -/
def Event.causes (id : Nat) : Event → Bool
  | .read id' len result => id' = id && 0 < len && result.isEnd
  | .stopped id' => id' = id
  | .journalFailed id' => id' = id
  | .panicked id' => id' = id
  | .ended _ => false

/-- Some event of the trace is a cause to end this Session. -/
def Caused (id : Nat) (trace : List Event) : Prop := ∃ ev ∈ trace, ev.causes id = true

/-- Every Session that ended had a cause of its own before; the trace is newest first. -/
def ownCauses : List Event → Bool
  | [] => true
  | .ended id :: older => older.any (Event.causes id) && ownCauses older
  | _ :: older => ownCauses older

/-! ## The invariant -/

/-- What holds apart from the read buffer. -/
structure Sound (s : State) : Prop where
  stopped : ∀ id, (s.shared id).running = false → .stopped id ∈ s.trace
  failed : ∀ id, (s.shared id).journalFailed = true → .journalFailed id ∈ s.trace
  live : ∀ session, some session ∈ s.sessions → session.ended = false
  reported : ∀ slot id, .journalFailed slot id ∈ s.control → .journalFailed id ∈ s.trace
  arriving : ∀ session, (.register session ∈ s.control ∨ ∃ pid, .adopt session pid ∈ s.control) →
    session.ended = false
  streams : ∀ id j, (id, j) ∈ s.streams → j.error.isSome = true → .journalFailed id ∈ s.trace
  caused : ownCauses s.trace = true

/-- And the read buffer is in place. -/
structure Isolated (s : State) : Prop where
  sound : Sound s
  buffer : s.scratch = readBufferBytes

theorem ownCauses_append (hnew : ∀ ev ∈ new, ∀ id, ev ≠ .ended id)
    (h : ownCauses older = true) : ownCauses (new ++ older) = true := by
  induction new with
  | nil => exact h
  | cons ev new ih =>
    have hrest := ih fun e he => hnew e (List.mem_cons_of_mem _ he)
    cases ev with
    | ended id => exact absurd rfl (hnew _ List.mem_cons_self id)
    | _ => exact hrest

theorem setShared_shared {s : State} {id : Nat} :
    (s.setShared id f).shared id' = if id' = id then f (s.shared id) else s.shared id' :=
  Function.update_apply ..

theorem log_shared {s : State} : (s.log ev).shared = s.shared := rfl

/-! ## What a callback may change -/

/-- What a callback hands back as it found it, unless it says otherwise. -/
def State.core (s : State) :
    List Event × List Control × List (Option SessionIo) × List (Nat × JournalSession) × (Nat → SessionShared) :=
  (s.trace, s.control, s.sessions, s.streams, s.shared)

/-- A callback ends nobody, sends nothing to the reactor, leaves the table alone, and fails a journal only
    with a note of it. -/
structure Frame (s s' : State) : Prop where
  trace : ∃ new, s'.trace = new ++ s.trace ∧ ∀ ev ∈ new, ∀ id, ev ≠ .ended id
  control : s'.control = s.control
  sessions : s'.sessions = s.sessions
  streams : s'.streams = s.streams
  running : ∀ id, (s'.shared id).running = (s.shared id).running
  failed : ∀ id, (s'.shared id).journalFailed = true →
    (s.shared id).journalFailed = true ∨ .journalFailed id ∈ s'.trace

namespace Frame

variable {s s' s'' : State}

theorem refl (s : State) : Frame s s := ⟨⟨[], rfl, by simp⟩, rfl, rfl, rfl, fun _ => rfl, fun _ h => .inl h⟩

theorem trans (h : Frame s s') (h' : Frame s' s'') : Frame s s'' := by
  obtain ⟨new, hnew, hends⟩ := h.trace
  obtain ⟨new', hnew', hends'⟩ := h'.trace
  refine ⟨⟨new' ++ new, ?_, ?_⟩, h'.control.trans h.control, h'.sessions.trans h.sessions,
    h'.streams.trans h.streams, ?_, ?_⟩
  · rw [hnew', hnew, List.append_assoc]
  · exact List.forall_mem_append.mpr ⟨hends', hends⟩
  · exact fun id => (h'.running id).trans (h.running id)
  · intro id hf
    rcases h'.failed id hf with hf' | hf'
    · rcases h.failed id hf' with hf'' | hf''
      · exact .inl hf''
      · exact .inr (hnew' ▸ List.mem_append_right _ hf'')
    · exact .inr hf'

/-- Nothing but the registry, the buffer and the outgoing messages changes. -/
theorem of_core (h : s'.core = s.core) : Frame s s' := by
  simp only [State.core, Prod.mk.injEq] at h
  obtain ⟨htrace, hcontrol, hsessions, hstreams, hshared⟩ := h
  refine ⟨⟨[], htrace, by simp⟩, hcontrol, hsessions, hstreams, ?_, ?_⟩
  · intro id
    rw [hshared]
  · intro id hf
    rw [hshared] at hf
    exact .inl hf

/-- A flag other than `running` and `failed` changes. -/
theorem setShared {id : Nat} (hrun : ∀ x, (f x).running = x.running)
    (hfail : ∀ x, (f x).journalFailed = x.journalFailed) : Frame s (s.setShared id f) := by
  refine ⟨⟨[], rfl, by simp⟩, rfl, rfl, rfl, ?_, fun id' h => .inl ?_⟩
  · intro id'
    rw [setShared_shared]
    split
    · rename_i hid
      rw [hrun, hid]
    · rfl
  · rw [setShared_shared] at h
    split at h
    · rename_i hid
      rwa [hfail, ← hid] at h
    · exact h

/-- A journal fails and this is noted. -/
theorem fail {id : Nat} :
    Frame s ((s.setShared id fun f => { f with journalFailed := true }).log (.journalFailed id)) := by
  refine ⟨⟨[.journalFailed id], rfl, by simp⟩, rfl, rfl, rfl, ?_, ?_⟩
  · intro id'
    rw [log_shared, setShared_shared]
    split
    · rename_i hid
      rw [hid]
    · rfl
  · intro id' h
    by_cases hid : id' = id
    · subst hid
      exact .inr List.mem_cons_self
    · rw [log_shared, setShared_shared, if_neg hid] at h
      exact .inl h

theorem log (s : State) (hev : ∀ id, ev ≠ .ended id) : Frame s (s.log ev) :=
  ⟨⟨[ev], rfl, by simpa using hev⟩, rfl, rfl, rfl, fun _ => rfl, fun _ h => .inl h⟩

/-- What holds before a callback holds after it. -/
theorem sound (h : Frame s s') (hs : Sound s) : Sound s' := by
  obtain ⟨new, hnew, hends⟩ := h.trace
  have hold : ∀ ev ∈ s.trace, ev ∈ s'.trace := fun ev hev => hnew ▸ List.mem_append_right _ hev
  refine ⟨?_, ?_, ?_, ?_, ?_, ?_, ?_⟩
  · intro id hid
    exact hold _ (hs.stopped id (h.running id ▸ hid))
  · intro id hid
    rcases h.failed id hid with hf | hf
    · exact hold _ (hs.failed id hf)
    · exact hf
  · rw [h.sessions]
    exact hs.live
  · intro slot id hc
    rw [h.control] at hc
    exact hold _ (hs.reported slot id hc)
  · rw [h.control]
    exact hs.arriving
  · intro id j hj he
    rw [h.streams] at hj
    exact hold _ (hs.streams id j hj he)
  · rw [hnew]
    exact ownCauses_append hends hs.caused

end Frame

/-- And the read buffer is as it was. -/
structure Still (s s' : State) : Prop extends Frame s s' where
  scratch : s'.scratch = s.scratch

namespace Still

variable {s s' s'' : State}

theorem refl (s : State) : Still s s := ⟨Frame.refl s, rfl⟩

theorem trans (h : Still s s') (h' : Still s' s'') : Still s s'' :=
  ⟨h.toFrame.trans h'.toFrame, h'.scratch.trans h.scratch⟩

/-- Only what the registry and the other threads hear changes. -/
theorem of_core (h : s'.core = s.core) (hscratch : s'.scratch = s.scratch) : Still s s' := ⟨Frame.of_core h, hscratch⟩

theorem isolated (h : Still s s') (hs : Isolated s) : Isolated s' :=
  ⟨h.toFrame.sound hs.sound, h.scratch.trans hs.buffer⟩

end Still

theorem Isolated.of_core (hs : Isolated s) (h : s'.core = s.core) (hscratch : s'.scratch = s.scratch) : Isolated s' :=
  (Still.of_core h hscratch).isolated hs

section Callbacks

variable {s : State} {session : SessionIo} {slot : Nat}

theorem still_add (s : State) (accepted : Bool) (slot : Nat) (kind : TokenKind) :
    Still s (s.add accepted slot kind).2 := by
  cases accepted <;> exact Still.of_core rfl rfl

theorem still_remove (token : Nat) : Still s (s.remove token) := Still.of_core rfl rfl

theorem still_setShared (id : Nat) (f : SessionShared → SessionShared) (hrun : ∀ x, (f x).running = x.running)
    (hfail : ∀ x, (f x).journalFailed = x.journalFailed) : Still s (s.setShared id f) :=
  ⟨Frame.setShared hrun hfail, rfl⟩

theorem still_publishChunk (id len : Nat) (journalGone : Bool) : Still s (publishChunk id len journalGone s) := by
  unfold publishChunk
  split
  · exact Still.refl s
  · refine (still_setShared id (fun f => { f with backlog := (f.backlog + len) % 2 ^ 64 }) (fun _ => rfl)
      fun _ => rfl).trans ?_
    cases journalGone with
    | false => exact Still.of_core rfl rfl
    | true => exact ⟨Frame.fail, rfl⟩

/-- What is asked of a callback on a Session: it keeps still, the Session stays the same one, and it asks for
    the end only with a cause. -/
structure CallbackOk (session : SessionIo) (s : State) (r : Callback × SessionIo × State) : Prop where
  still : Still s r.2.2
  id : r.2.1.id = session.id
  ended : r.2.1.ended = session.ended
  cause : r.1 = .ends → Caused session.id r.2.2.trace

theorem applyJournalBackpressure_ok (session : SessionIo) (s : State) :
    Still s (applyJournalBackpressure session s).2 ∧ (applyJournalBackpressure session s).1.id = session.id ∧
      (applyJournalBackpressure session s).1.ended = session.ended := by
  unfold applyJournalBackpressure
  split
  · exact ⟨still_setShared session.id (fun f => { f with paused := true }) (fun _ => rfl) fun _ => rfl, rfl, rfl⟩
  · exact ⟨Still.refl s, rfl, rfl⟩

theorem acceptClients_ok (slot : Nat) (accepted : List Bool) (session : SessionIo) (s : State) :
    Still s (acceptClients slot accepted session s).2 ∧ (acceptClients slot accepted session s).1.id = session.id ∧
      (acceptClients slot accepted session s).1.ended = session.ended := by
  induction accepted generalizing session s with
  | nil => exact ⟨Still.refl s, rfl, rfl⟩
  | cons b rest ih =>
    have hadd := still_add s b slot .client
    unfold acceptClients
    split
    · rename_i token s' heq
      rw [heq] at hadd
      obtain ⟨hstill, hid, hended⟩ := ih { session with clients := token :: session.clients } s'
      exact ⟨hadd.trans hstill, hid, hended⟩
    · rename_i s' heq
      rw [heq] at hadd
      obtain ⟨hstill, hid, hended⟩ := ih session s'
      exact ⟨hadd.trans hstill, hid, hended⟩

theorem closeClients_ok (closed : List Nat) (session : SessionIo) (s : State) :
    Still s (closeClients closed session s).2 ∧ (closeClients closed session s).1.id = session.id ∧
      (closeClients closed session s).1.ended = session.ended := by
  induction closed generalizing session s with
  | nil => exact ⟨Still.refl s, rfl, rfl⟩
  | cons token rest ih =>
    unfold closeClients
    split
    · obtain ⟨hstill, hid, hended⟩ :=
        ih { session with clients := session.clients.erase token } (s.remove token)
      exact ⟨(still_remove token).trans hstill, hid, hended⟩
    · exact ih session s

/-- Work on clients never ends the Session, short of a panic. -/
theorem serveClients_ok : CallbackOk session s (serveClients work slot session s) := by
  obtain ⟨haccept, haid, haended⟩ := acceptClients_ok slot work.accepted session s
  obtain ⟨hclose, hcid, hcended⟩ := closeClients_ok work.closed (acceptClients slot work.accepted session s).1
    (acceptClients slot work.accepted session s).2
  unfold serveClients
  split
  · exact ⟨haccept.trans hclose, hcid.trans haid, hcended.trans haended, by simp⟩
  · exact ⟨haccept.trans hclose, hcid.trans haid, hcended.trans haended, by simp⟩

/-- The read buffer comes back from this read. -/
def ReadOk (s : State) (session : SessionIo) (r : PtyRead) : Prop :=
  r.panics = none ∧ ((s.shared session.id).running = true ∨ r.result ≠ .wouldBlock)

/-- A read of the PTY into the shared buffer. -/
theorem afterRead_ok (hread : .read session.id len (r.result.into len) ∈ s.trace) (hlen : 0 < len)
    (hbuf : (s.shared session.id).running = true ∨ r.result ≠ .wouldBlock) :
    Frame s (afterRead r len session s).2.2 ∧ (afterRead r len session s).2.2.scratch = len ∧
      (afterRead r len session s).2.1.id = session.id ∧ (afterRead r len session s).2.1.ended = session.ended ∧
      ((afterRead r len session s).1 = .ends → Caused session.id (afterRead r len session s).2.2.trace) := by
  have hend : (r.result.into len).isEnd = true → Caused session.id s.trace := by
    intro he
    exact ⟨_, hread, by simp [Event.causes, hlen, he]⟩
  have hback : Frame s { s with scratch := len } := Frame.of_core rfl
  unfold afterRead
  split
  · rename_i heq
    exact ⟨hback, rfl, rfl, rfl, fun _ => hend (by rw [heq]; rfl)⟩
  · obtain ⟨hpress, hid, hended⟩ := applyJournalBackpressure_ok session
      (publishChunk session.id r.chunk r.journalGone s)
    have hall := (still_publishChunk session.id r.chunk r.journalGone (s := s)).trans hpress
    exact ⟨hall.toFrame.trans (Frame.of_core rfl), rfl, hid, hended, by simp⟩
  · rename_i heq
    -- the early return is taken only by a stopped Session that finds nothing
    have hblock : r.result = .wouldBlock := by
      cases hres : r.result <;> rw [hres] at heq <;> simp [ReadResult.into] at heq ⊢
    have hrun := hbuf.resolve_right fun hne => hne hblock
    rw [if_neg (by simp [hrun])]
    exact ⟨hback, rfl, rfl, rfl, by simp⟩
  · exact ⟨hback, rfl, rfl, rfl, by simp⟩
  · rename_i heq
    exact ⟨hback, rfl, rfl, rfl, fun _ => hend (by rw [heq]; rfl)⟩

theorem ptyReadable_ok (hs : Isolated s) (hlive : session.ended = false) (hr : ReadOk s session r) :
    CallbackOk session s (ptyReadable r session s) := by
  unfold ptyReadable
  simp only [hlive, Bool.false_eq_true, if_false]
  split
  · rename_i hfailed
    exact ⟨Still.refl s, rfl, rfl, fun _ => ⟨_, hs.sound.failed _ hfailed, by simp [Event.causes]⟩⟩
  · rw [hr.1]
    let taken : State := { s with scratch := 0 }
    have hout : Frame s (taken.log (.read session.id s.scratch (r.result.into s.scratch))) :=
      (Frame.of_core rfl : Frame s taken).trans (Frame.log taken (by simp))
    have hlen : 0 < s.scratch := by
      rw [hs.buffer]
      decide
    have hread : .read session.id s.scratch (r.result.into s.scratch) ∈
        (taken.log (.read session.id s.scratch (r.result.into s.scratch))).trace := List.mem_cons_self
    obtain ⟨hframe, hscratch, hid, hended, hcause⟩ := afterRead_ok hread hlen hr.2
    exact ⟨⟨hout.trans hframe, hscratch⟩, hid, hended, hcause⟩

/-- The loop after a stop, by induction on the reads it has left; each keeps what the next one needs. -/
theorem drainLoop_ok (hs : Isolated s) (hlive : session.ended = false)
    (hreads : ∀ r ∈ reads, ReadOk s session r) : CallbackOk session s (drainLoop left reads session s) := by
  induction left generalizing reads session s with
  | zero => exact ⟨Still.refl s, rfl, rfl, by simp [drainLoop]⟩
  | succ left ih =>
    have hhead : ReadOk s session (reads.headD .interrupted) := by
      cases reads with
      | nil => exact ⟨rfl, .inr (by simp [PtyRead.interrupted])⟩
      | cons r rest => exact hreads r List.mem_cons_self
    have hfirst := ptyReadable_ok hs hlive hhead
    unfold drainLoop
    split
    · rename_i session' s' heq
      rw [heq] at hfirst
      have hid : session'.id = session.id := hfirst.id
      split
      · have hrest : ∀ r ∈ reads.tail, ReadOk s' session' r := by
          intro r hr
          obtain ⟨hpanic, hblock⟩ := hreads r (List.mem_of_mem_tail hr)
          refine ⟨hpanic, ?_⟩
          rw [hid, hfirst.still.running]
          exact hblock
        have hloop := ih (hfirst.still.isolated hs) (hfirst.ended.trans hlive) hrest
        refine ⟨hfirst.still.trans hloop.still, hloop.id.trans hid, hloop.ended.trans hfirst.ended, ?_⟩
        intro he
        rw [← hid]
        exact hloop.cause he
      · exact ⟨hfirst.still, hid, hfirst.ended, by simp⟩
    · exact hfirst

end Callbacks

/-! ## The slot table -/

section Table

variable {s : State} {slot : Nat}

theorem Sound.store (hs : Sound s) (hx : ∀ session, x = some session → session.ended = false) :
    Sound (s.store slot x) := by
  refine { hs with live := ?_ }
  intro session hmem
  rcases List.mem_or_eq_of_mem_set hmem with hold | hnew
  · exact hs.live session hold
  · exact hx session hnew.symm

variable {f : SessionIo → State → Callback × SessionIo × State} {session : SessionIo}

theorem mem_of_sessionAt (h : s.sessionAt slot = some session) : some session ∈ s.sessions := by
  unfold State.sessionAt at h
  rw [Option.join_eq_some_iff] at h
  exact List.mem_of_getElem? h

theorem sessionAt_store (h : (s.store slot x).sessionAt slot = some session) : x = some session := by
  unfold State.sessionAt State.store at h
  rw [Option.join_eq_some_iff, List.getElem?_set_self'] at h
  cases hold : s.sessions[slot]? with
  | none => simp [hold] at h
  | some => simpa [hold] using h

theorem still_deregister (session : SessionIo) (s : State) : Still s (session.deregister s) := by
  have hfold : ∀ (tokens : List Nat) (t : State), Still t (tokens.foldl State.remove t) := by
    intro tokens
    induction tokens with
    | nil => exact fun t => Still.refl t
    | cons token rest ih => exact fun t => (still_remove token).trans (ih _)
  unfold SessionIo.deregister
  refine (still_remove session.ptyToken).trans ?_
  split
  · exact (still_remove _).trans (hfold _ _)
  · exact hfold _ _

variable (io : FinishIo)

theorem still_finish (session : SessionIo) (s : State) : Still s (session.finish io s).2 := by
  unfold SessionIo.finish
  refine (still_publishChunk session.id io.pending io.journalGone).trans ?_
  cases io.panics with
  | true => exact Still.refl _
  | false => exact still_deregister session _

theorem still_leave (session : SessionIo) (outcome : Except String Unit) (s : State) :
    Still s (leave io session outcome s) := by
  have hfin := still_finish io session s
  unfold leave
  split
  · rename_i t heq
    rw [heq] at hfin
    exact hfin
  · rename_i k t heq
    rw [heq] at hfin
    split
    · exact hfin.trans (Still.of_core rfl rfl)
    · exact hfin

/-- The end of a Session that has a cause is noted. -/
theorem Sound.logEnded {id : Nat} (hs : Sound s) (hc : Caused id s.trace) : Sound (s.log (.ended id)) := by
  have hold : ∀ ev ∈ s.trace, ev ∈ (s.log (.ended id)).trace := fun ev hev => List.mem_cons_of_mem _ hev
  refine ⟨?_, ?_, hs.live, ?_, hs.arriving, ?_, ?_⟩
  · intro k hk
    exact hold _ (hs.stopped k hk)
  · intro k hk
    exact hold _ (hs.failed k hk)
  · intro slot k hk
    exact hold _ (hs.reported slot k hk)
  · intro k j hj he
    exact hold _ (hs.streams k j hj he)
  · obtain ⟨ev, hmem, hev⟩ := hc
    show ((s.trace.any (Event.causes id)) && ownCauses s.trace) = true
    rw [hs.caused, List.any_eq_true.mpr ⟨ev, hmem, hev⟩]
    rfl

/-- Ending the Session of a slot that has a cause. -/
theorem Isolated.endSession (hs : Isolated s) {io : FinishIo}
    (hc : ∀ session, s.sessionAt slot = some session → Caused session.id s.trace) :
    Isolated (endSession io slot outcome s) := by
  unfold Reactor.endSession
  split
  · exact hs
  · rename_i session hat
    have hempty : Sound (s.store slot none) := hs.sound.store (by simp)
    have hgone : Isolated ((s.store slot none).log (.ended session.id)) :=
      ⟨hempty.logEnded (hc session hat), hs.buffer⟩
    -- freeing the slot and finishing the Session leave the invariant alone
    exact (still_leave io session outcome _).isolated (hgone.of_core rfl rfl)

/-- A callback that is well behaved, run on the Session of a slot. -/
theorem Isolated.withSession (hs : Isolated s) (io : FinishIo) {slot : Nat}
    (hf : ∀ session, s.sessionAt slot = some session → session.ended = false → CallbackOk session s (f session s)) :
    Isolated (withSession io slot f s).2 ∧ ((withSession io slot f s).1 = true → ∀ session,
        (withSession io slot f s).2.sessionAt slot = some session →
          Caused session.id (withSession io slot f s).2.trace) := by
  unfold Reactor.withSession
  split
  · exact ⟨hs, by simp⟩
  · rename_i session hat
    have hlive := hs.sound.live session (mem_of_sessionAt hat)
    have hok := hf session hat hlive
    have hstored : ∀ c session' t, f session s = (c, session', t) → Isolated (t.store slot (some session')) := by
      intro c session' t heq
      rw [heq] at hok
      have ht := hok.still.isolated hs
      refine ⟨ht.sound.store ?_, ht.buffer⟩
      intro x hx
      cases hx
      exact hok.ended.trans hlive
    split
    · rename_i session' t heq
      exact ⟨hstored _ _ _ heq, by simp⟩
    · rename_i session' t heq
      refine ⟨hstored _ _ _ heq, ?_⟩
      intro _ x hx
      rw [heq] at hok
      have hsame : some session' = some x := sessionAt_store hx
      cases hsame
      have hid : session'.id = session.id := hok.id
      rw [hid]
      exact hok.cause rfl
    · rename_i message session' t heq
      refine ⟨?_, by simp⟩
      -- the panic is the cause
      have hlogged : Isolated ((t.store slot (some session')).log (.panicked session'.id)) :=
        (⟨Frame.log _ (by simp), rfl⟩ : Still _ _).isolated (hstored _ _ _ heq)
      refine hlogged.endSession ?_
      intro x hx
      have hsame : some session' = some x := sessionAt_store hx
      cases hsame
      exact ⟨_, List.mem_cons_self, by simp [Event.causes]⟩

theorem Isolated.serve (hs : Isolated s) (io : FinishIo) {slot : Nat}
    (hf : ∀ session, s.sessionAt slot = some session → session.ended = false → CallbackOk session s (f session s)) :
    Isolated (serve io slot f s) := by
  obtain ⟨hkept, hcause⟩ := hs.withSession io hf
  unfold Reactor.serve
  split
  · rename_i t heq
    rw [heq] at hkept hcause
    exact hkept.endSession (hcause rfl)
  · rename_i t heq
    rw [heq] at hkept
    exact hkept

/-- An ended Session is out of its slot, and nobody else is stopped. -/
theorem endSession_spec (slot : Nat) (outcome : Except String Unit) (s : State) :
    (endSession io slot outcome s).sessionAt slot = none ∧
      ∀ id, ((endSession io slot outcome s).shared id).running = (s.shared id).running := by
  unfold endSession
  split
  · rename_i hat
    exact ⟨hat, fun _ => rfl⟩
  · rename_i session hat
    let freed : State := { (s.store slot none).log (.ended session.id) with freeSlots := slot :: s.freeSlots }
    have hempty : freed.sessionAt slot = none := by
      cases hfree : freed.sessionAt slot with
      | none => rfl
      | some => cases sessionAt_store (s := s) hfree
    have hleave := still_leave io session outcome freed
    refine ⟨?_, hleave.running⟩
    show State.sessionAt (leave io session outcome freed) slot = none
    unfold State.sessionAt
    rw [hleave.sessions]
    exact hempty

/-- After a well-behaved callback the slot holds the same Session or none, and nobody else is stopped. -/
theorem serve_spec
    (hf : ∀ session, s.sessionAt slot = some session → CallbackOk session s (f session s)) :
    (∀ x, (serve io slot f s).sessionAt slot = some x → ∃ y, s.sessionAt slot = some y ∧ x.id = y.id) ∧
      ∀ id, ((serve io slot f s).shared id).running = (s.shared id).running := by
  unfold serve withSession
  cases hat : s.sessionAt slot with
  | none => exact ⟨fun x hx => absurd (hat.symm.trans hx) (by simp), fun _ => rfl⟩
  | some session =>
    have hok := hf session hat
    dsimp only
    generalize f session s = r at hok
    obtain ⟨callback, session', t⟩ := r
    have hrun : ∀ id, (t.shared id).running = (s.shared id).running := hok.still.running
    cases callback with
    | done =>
      refine ⟨fun x hx => ⟨session, rfl, ?_⟩, hrun⟩
      cases sessionAt_store hx
      exact hok.id
    | ends =>
      obtain ⟨hgone, hsame⟩ := endSession_spec io slot (.ok ()) (t.store slot (some session'))
      exact ⟨fun x hx => absurd (hgone.symm.trans hx) (by simp), fun id => (hsame id).trans (hrun id)⟩
    | panicked message =>
      obtain ⟨hgone, hsame⟩ := endSession_spec io slot (.error ("session I/O panicked: " ++ message))
        ((t.store slot (some session')).log (.panicked session'.id))
      exact ⟨fun x hx => absurd (hgone.symm.trans hx) (by simp), fun id => (hsame id).trans (hrun id)⟩

/-! ### Registration and handoff -/

theorem Isolated.takeSlot (hs : Isolated s) : Isolated (takeSlot s).2 := by
  unfold Reactor.takeSlot
  split
  · exact hs.of_core rfl rfl
  · -- the new slot is empty
    refine ⟨⟨hs.sound.stopped, hs.sound.failed, ?_, hs.sound.reported, hs.sound.arriving, hs.sound.streams,
      hs.sound.caused⟩, hs.buffer⟩
    intro session hmem
    exact hs.sound.live session (by simpa using hmem)

theorem sessionRegister_ok (io : RegisterIo) (slot : Nat) (session : SessionIo) (s : State) :
    Still s (session.register io slot s).2 ∧
      ∀ session', (session.register io slot s).1 = some session' → session'.ended = session.ended := by
  have hslot : Still s (s.setShared session.id fun f => { f with slot := slot, journalSlot := slot }) :=
    still_setShared session.id (fun f => { f with slot := slot, journalSlot := slot }) (fun _ => rfl) fun _ => rfl
  have hpty := still_add (s.setShared session.id fun f => { f with slot := slot, journalSlot := slot }) io.pty slot .pty
  unfold SessionIo.register
  dsimp only
  split
  · rename_i t heq
    rw [heq] at hpty
    exact ⟨hslot.trans hpty, by simp⟩
  · rename_i ptyToken t heq
    rw [heq] at hpty
    have hbase := hslot.trans hpty
    split
    · obtain ⟨hstill, -, hended⟩ := acceptClients_ok slot io.clients
        { session with ptyToken := ptyToken, ptyReadInterest := true } t
      refine ⟨hbase.trans hstill, ?_⟩
      intro session' h
      cases h
      exact hended
    · have hlistener := still_add t io.listener slot .listener
      split
      · rename_i t' heq'
        rw [heq'] at hlistener
        exact ⟨hbase.trans hlistener, by simp⟩
      · rename_i listenerToken t' heq'
        rw [heq'] at hlistener
        obtain ⟨hstill, -, hended⟩ := acceptClients_ok slot io.clients
          { session with ptyToken := ptyToken, ptyReadInterest := true, listenerToken := listenerToken } t'
        refine ⟨(hbase.trans hlistener).trans hstill, ?_⟩
        intro session' h
        cases h
        exact hended

theorem Isolated.register (hs : Isolated s) (io : RegisterIo) (hlive : session.ended = false) :
    Isolated (register io session s).2 := by
  obtain ⟨hstill, hended⟩ := sessionRegister_ok io (Reactor.takeSlot s).1 session (Reactor.takeSlot s).2
  have hreg := hstill.isolated hs.takeSlot
  unfold Reactor.register
  dsimp only
  split
  · rename_i t heq
    rw [heq] at hreg
    exact hreg.of_core rfl rfl
  · rename_i session' t heq
    rw [heq] at hreg hended
    have hkept : Isolated { t with timer := t.timer ++ [TimerMsg.add (Reactor.takeSlot s).1] } := hreg.of_core rfl rfl
    refine ⟨hkept.sound.store ?_, hkept.buffer⟩
    intro x hx
    cases hx
    exact (hended session' rfl).trans hlive

theorem Isolated.adopt (hs : Isolated s) {io : ReactorIo} (hlive : session.ended = false) :
    Isolated (adopt io session childPid s) := by
  have hreg := hs.register io.register hlive
  unfold Reactor.adopt
  generalize Reactor.register io.register session s = r at hreg
  obtain ⟨ok, t⟩ := r
  have hwatch := (still_add t io.watches (s.freeSlots.headD s.sessions.length) .process).isolated hreg
  cases ok with
  | false => exact hreg
  | true =>
    cases childPid with
    | none => exact hreg
    | some =>
      dsimp only
      split
      · rename_i token t' heq
        rw [heq] at hwatch
        exact hwatch.of_core rfl rfl
      · rename_i t' heq
        rw [heq] at hwatch
        exact hwatch

/-- A Session that moves to another core leaves the table, and is not ended. -/
theorem Isolated.forget (hs : Isolated s) : Isolated (forget s slot) := by
  unfold Reactor.forget
  split
  · exact hs
  · rename_i session hat
    have hempty : Isolated (s.store slot none) := ⟨hs.sound.store (by simp), hs.buffer⟩
    exact (still_deregister session _).isolated (hempty.of_core rfl rfl)

theorem Isolated.handoff (hs : Isolated s) : Isolated (handoff commits s) := by
  have hfold : ∀ (slots : List Nat) (t : State), Isolated t → Isolated (slots.foldl Reactor.forget t) := by
    intro slots
    induction slots with
    | nil => exact fun t ht => ht
    | cons slot rest ih => exact fun t ht => ih _ ht.forget
  unfold Reactor.handoff
  dsimp only
  split
  · exact hfold _ _ (hs.of_core rfl rfl)
  · exact hs.of_core rfl rfl

end Table

end Supercli.Reactor
