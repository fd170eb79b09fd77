import Supercli.Lib.Machine
import Supercli.Lib.Threads

/-!
# `PtyCore.Admission` — launches, handoffs and shutdowns of one core

Every request to a core has a thread of its own. What they share are three flags, the counter `launching` and
the set `live` of session ids; each load, store, `fetch_add` and `fetch_sub` is one step, and so is what
happens under the lock of `live`. The reactor takes its messages one by one, so a Session is registered in one
step, and a handoff moves all Sessions that are registered at that moment.

A launch is accepted when its id goes into `live`. It checks `handing_off` before that and is counted in
`launching` after that, so there is a stretch in which a handoff that has just begun can see neither: the
handoff reads `launching = 0`, commits, and the Session is registered in a core that is about to exit.
`none_stranded` says that this is the only way to lose one. A shutdown is decided under the lock under which
launches are accepted, and strands nothing.
-/

namespace Supercli.PtyCore.Admission

abbrev SessionId := String

/-! ## The threads -/

/-- Where the thread of a request is. A launch goes on in its setup thread. -/
inductive Thread
  /-- `serve_connection`: a launch request was read. -/
  | launch (id : SessionId)
  /-- `launch_session` is entered. -/
  | gated (id : SessionId)
  /-- It found that the core is not shutting down. -/
  | willing (id : SessionId)
  /-- It found that the core is not handing off. -/
  | admitted (id : SessionId)
  /-- The launch file was read. -/
  | parsed (id : SessionId)
  /-- The id is in `live`; the launch is not counted yet. -/
  | inserted (id : SessionId)
  | counted (id : SessionId)
  /-- The setup thread could not be started: still counted, then still in `live`. -/
  | unspawned (id : SessionId)
  | unwinding (id : SessionId)
  | settingUp (id : SessionId)
  /-- The runner failed: still in `live`. -/
  | gaveUp (id : SessionId)
  /-- The guard of the setup thread has yet to be dropped. -/
  | leaving
  /-- `handle_handoff` is entered. -/
  | handoff
  /-- It owns `handing_off`. -/
  | claimed
  | waiting
  /-- The wait is over, for whatever reason. -/
  | rechecking
  /-- It read `launching = 0`. -/
  | ready
  /-- The successor committed; the moved ids are still in `live`. -/
  | committed (ids : List SessionId)
  | cleared
  /-- `handing_off` is about to be taken back. -/
  | refusing
  /-- `serve_connection`: a shutdown request was read. -/
  | shutdown
  /-- It found that the core is not handing off. -/
  | deciding
  | done
deriving DecidableEq, Repr

/-- `CoreState`, and the reactor's table. -/
structure Core where
  shuttingDown : Bool
  handingOff : Bool
  handedOff : Bool
  launching : Nat
  live : List SessionId
  /-- Sessions in the table of the reactor. -/
  hosted : List SessionId
  /-- Sessions that ended and whose `on_exit` has yet to run. -/
  ending : List SessionId
  /-- Sessions that the successor hosts. -/
  moved : List SessionId
  /-- Launches that were accepted, did not fail, and whose Sessions have not ended. For statements only. -/
  unfinished : List SessionId
deriving DecidableEq, Repr

/-- A launch failed, or a Session ended. -/
def Core.finish (c : Core) (id : SessionId) : Core := { c with unfinished := c.unfinished.filter (· ≠ id) }

/-- One step of a request's thread. `ok` is the environment's word where it has one: the launch file is good,
    a thread can be started, the runner succeeds, the deadline of the wait has not passed, the handoff commits. -/
def move (c : Core) (ok : Bool) : Thread → Core × Thread
  | .launch id => if c.handingOff then (c, .done) else (c, .gated id)
  | .gated id => if c.shuttingDown then (c, .done) else (c, .willing id)
  | .willing id => if c.handingOff then (c, .done) else (c, .admitted id)
  | .admitted id => if ok then (c, .parsed id) else (c, .done)
  | .parsed id =>
    -- under the lock
    if c.shuttingDown then (c, .done)
    else if id ∈ c.live then (c, .done)
    else ({ c with live := id :: c.live, unfinished := id :: c.unfinished }, .inserted id)
  | .inserted id => ({ c with launching := c.launching + 1 }, .counted id)
  | .counted id => if ok then (c, .settingUp id) else (c.finish id, .unspawned id)
  | .unspawned id => ({ c with launching := c.launching - 1 }, .unwinding id)
  | .unwinding id => ({ c with live := c.live.erase id }, .done)
  | .settingUp id => if ok then ({ c with hosted := id :: c.hosted }, .leaving) else (c.finish id, .gaveUp id)
  | .gaveUp id => ({ c with live := c.live.erase id }, .leaving)
  | .leaving => ({ c with launching := c.launching - 1 }, .done)
  | .handoff => if c.handingOff then (c, .done) else ({ c with handingOff := true }, .claimed)
  | .claimed => if c.shuttingDown then (c, .refusing) else (c, .waiting)
  | .waiting => if c.launching > 0 ∧ ok = true then (c, .waiting) else (c, .rechecking)
  | .rechecking => if c.launching > 0 then (c, .refusing) else (c, .ready)
  | .ready =>
    if ok then ({ c with hosted := [], moved := c.hosted ++ c.moved }, .committed c.hosted) else (c, .refusing)
  | .committed ids => ({ c with live := ids.foldl List.erase c.live }, .cleared)
  | .cleared => ({ c with handedOff := true }, .done)
  | .refusing => ({ c with handingOff := false }, .done)
  | .shutdown => if c.handingOff then (c, .done) else (c, .deciding)
  | .deciding =>
    -- under the lock
    if c.live = [] then ({ c with shuttingDown := true }, .done) else (c, .done)
  | .done => (c, .done)

/-! ## The machine -/

inductive Request
  | launch (id : SessionId)
  | handoff
  | shutdown
deriving DecidableEq, Repr

/-- Where the thread of a request begins. -/
def Request.thread : Request → Thread
  | .launch id => .launch id
  | .handoff => .handoff
  | .shutdown => .shutdown

structure State where
  core : Core
  threads : List Thread
  /-- The accept loop is over. -/
  exited : Bool
deriving DecidableEq, Repr

inductive Label
  /-- The accept loop takes a connection. -/
  | request (r : Request)
  /-- A request's thread makes a step. One that panics, or hangs, makes no further one. -/
  | thread (i : Nat) (ok : Bool)
  /-- The reactor finds that a Session ended, and takes it out of its table. -/
  | ends (id : SessionId)
  /-- The teardown of an ended Session runs its `on_exit`. -/
  | onExit (id : SessionId)
  /-- The accept loop looks at the flags. -/
  | acceptLoop
deriving DecidableEq, Repr

def step (s : State) : Label → State
  | .request r => if s.exited then s else { s with threads := s.threads ++ [r.thread] }
  | .thread i ok =>
    match s.threads[i]? with
    | none => s
    | some t => { s with core := (move s.core ok t).1, threads := s.threads.set i (move s.core ok t).2 }
  | .ends id =>
    if id ∈ s.core.hosted then
      { s with core := { s.core.finish id with
          hosted := s.core.hosted.erase id, ending := id :: s.core.ending } }
    else s
  | .onExit id =>
    if id ∈ s.core.ending then
      { s with core := { s.core with ending := s.core.ending.erase id, live := s.core.live.erase id } }
    else s
  | .acceptLoop => { s with exited := s.exited || s.core.shuttingDown || s.core.handedOff }

/-- A core that has just started to serve. -/
def boot : State := ⟨⟨false, false, false, 0, [], [], [], [], []⟩, [], false⟩

/-! ## What is promised, and when it holds -/

/-- Once the accept loop is over, every accepted launch that has not ended is with the successor, which is the
    core that keeps serving. -/
def NoneStranded (s : State) : Prop := s.exited = true → ∀ id ∈ s.core.unfinished, id ∈ s.core.moved

instance (s : State) : Decidable (NoneStranded s) := inferInstanceAs (Decidable (_ → _))

/-- Between its check of `handing_off` and its `fetch_add`. -/
def Thread.entering : Thread → Bool
  | .admitted _ | .parsed _ | .inserted _ => true
  | _ => false

/-- When a handoff reads `launching` for the last time and finds 0, no launch is between its check of
    `handing_off` and its `fetch_add`. -/
def NoneEntering (s : State) : Label → Prop
  | .thread i _ => s.threads[i]? = some .rechecking → s.core.launching = 0 → ∀ t ∈ s.threads, t.entering = false
  | _ => True

instance (s : State) (l : Label) : Decidable (NoneEntering s l) := by
  unfold NoneEntering
  split <;> infer_instance

/-! ## The invariant -/

/-- Counted in `launching`. -/
def Thread.counts : Thread → Bool
  | .counted _ | .unspawned _ | .settingUp _ | .gaveUp _ | .leaving => true
  | _ => false

/-- The ids that the thread will take out of `live`, or pass on to the reactor. -/
def Thread.claims : Thread → List SessionId
  | .inserted id | .counted id | .unspawned id | .unwinding id | .settingUp id | .gaveUp id => [id]
  | .committed ids => ids
  | _ => []

/-- The launch that the thread is carrying out. -/
def Thread.carries : Thread → Option SessionId
  | .inserted id | .counted id | .settingUp id => some id
  | _ => none

/-- Owner of `handing_off`. -/
def Thread.owns : Thread → Bool
  | .claimed | .waiting | .rechecking | .ready | .committed _ | .cleared | .refusing => true
  | _ => false

/-- The successor has committed. -/
def Thread.hasCommitted : Thread → Bool
  | .committed _ | .cleared => true
  | _ => false

/-- A handoff is past its last look at `launching`. -/
def Thread.pastWait (t : Thread) : Bool := t = .ready || t.hasCommitted

/-- No launch can be under way any more. -/
def Sealed (c : Core) (ts : List Thread) : Prop := c.handedOff = true ∨ ∃ t ∈ ts, t.pastWait = true

/-- The core is going to exit, and nothing it hosts will be moved any more. -/
def Leaving (c : Core) (ts : List Thread) : Prop :=
  c.shuttingDown = true ∨ c.handedOff = true ∨ ∃ t ∈ ts, t.hasCommitted = true

open Thread

/-- Who has an id that is in `live`: a thread, the reactor, or a teardown. -/
def owners (c : Core) (ts : List Thread) : List SessionId := ts.flatMap claims ++ c.hosted ++ c.ending

structure Inv (c : Core) (ts : List Thread) : Prop where
  owned : (owners c ts).Perm c.live
  nodup : c.live.Nodup
  counted : c.launching = ts.countP counts
  gate : ts.countP owns + c.handedOff.toNat = c.handingOff.toNat
  placed : ∀ id ∈ c.unfinished, id ∈ c.moved ∨ id ∈ c.hosted ∨ ∃ t ∈ ts, t.carries = some id
  clear : Sealed c ts → ∀ t ∈ ts, t.entering = false ∧ t.counts = false
  left : Leaving c ts → ∀ id ∈ c.unfinished, id ∈ c.moved

section Invariant

variable {c : Core} {t : Thread} {ts ts' rest : List Thread}

theorem Sealed.perm (hp : ts'.Perm ts) (h : Sealed c ts') : Sealed c ts :=
  h.imp_right fun ⟨t, ht, hw⟩ => ⟨t, hp.mem_iff.mp ht, hw⟩

theorem Leaving.perm (hp : ts'.Perm ts) (h : Leaving c ts') : Leaving c ts :=
  h.imp_right fun h => h.imp_right fun ⟨t, ht, hw⟩ => ⟨t, hp.mem_iff.mp ht, hw⟩

theorem Inv.perm (hp : ts.Perm ts') (hI : Inv c ts) : Inv c ts' where
  owned := (((hp.flatMap_right _).append_right _).append_right _).symm.trans hI.owned
  nodup := hI.nodup
  counted := hI.counted.trans (hp.countP_eq _)
  gate := by rw [← hp.countP_eq]; exact hI.gate
  placed := by
    intro id hid
    refine (hI.placed id hid).imp_right fun h => h.imp_right ?_
    rintro ⟨t, ht, hc⟩
    exact ⟨t, hp.mem_iff.mp ht, hc⟩
  clear := fun hs t ht => hI.clear (hs.perm hp.symm) t (hp.mem_iff.mpr ht)
  left := fun hl => hI.left (hl.perm hp.symm)

theorem Thread.owns_of_pastWait (h : t.pastWait = true) : t.owns = true := by
  cases t <;> first | rfl | simp [pastWait, hasCommitted] at h

theorem Inv.handingOff_of_owns (hI : Inv c ts) (ht : t ∈ ts) (h : t.owns = true) : c.handingOff = true := by
  have hgate := hI.gate
  have hpos : 0 < ts.countP owns := List.countP_pos_iff.mpr ⟨t, ht, h⟩
  exact Bool.toNat_eq_one.mp (by have := c.handingOff.toNat_le; omega)

/-- Once no launch can be under way, launches are refused at the gate. -/
theorem Inv.handingOff_of_sealed (hI : Inv c ts) (hs : Sealed c ts) : c.handingOff = true := by
  rcases hs with h | ⟨t, ht, hw⟩
  · have hgate := hI.gate
    rw [h, Bool.toNat_true] at hgate
    exact Bool.toNat_eq_one.mp (by have := c.handingOff.toNat_le; omega)
  · exact hI.handingOff_of_owns ht (owns_of_pastWait hw)

theorem Leaving.sealed (hl : Leaving c ts) (hc : c.shuttingDown = false) : Sealed c ts := by
  rcases hl with h | h | ⟨t, ht, hw⟩
  · rw [hc] at h
    cases h
  · exact .inl h
  · exact .inr ⟨t, ht, by simp [pastWait, hw]⟩

/-! ### A step of a thread -/

variable {id : SessionId}

theorem erase_owned (h : (id :: l).Perm live) : l.Perm (live.erase id) := by
  have := h.erase id
  rwa [List.erase_cons_head] at this

/-- The ids that were moved are taken out one by one. -/
theorem foldl_erase_owned {ids : List SessionId} :
    ∀ {live : List SessionId}, (ids ++ l).Perm live → l.Perm (ids.foldl List.erase live) := by
  induction ids with
  | nil => exact fun h => h
  | cons id ids ih => exact fun h => ih (erase_owned h)

variable (ok : Bool)

theorem owned_move (h : (owners c (t :: rest)).Perm c.live) :
    (owners (move c ok t).1 ((move c ok t).2 :: rest)).Perm (move c ok t).1.live := by
  cases t with
  | parsed id =>
    simp only [move]
    split
    · exact h
    · split
      · exact h
      · exact h.cons id
  | settingUp =>
    simp only [move]
    split
    · -- from the setup thread to the reactor
      refine List.Perm.trans ?_ h
      exact List.perm_middle.append_right _
    · exact h
  | unwinding id | gaveUp id => exact erase_owned h
  | ready =>
    simp only [move]
    split
    · -- from the reactor to the handoff's thread
      refine List.Perm.trans ?_ h
      simp only [owners, List.flatMap_cons, claims, List.append_nil, List.nil_append]
      exact List.perm_append_comm.append_right _
    · exact h
  | committed =>
    simp only [move]
    apply foldl_erase_owned
    simpa [owners, claims] using h
  | _ =>
    simp only [move]
    repeat' split
    all_goals exact h

theorem nodup_foldl_erase {ids : List SessionId} :
    ∀ {live : List SessionId}, live.Nodup → (ids.foldl List.erase live).Nodup := by
  induction ids with
  | nil => exact fun h => h
  | cons id ids ih => exact fun h => ih (h.erase id)

theorem nodup_move (h : c.live.Nodup) : (move c ok t).1.live.Nodup := by
  cases t with
  | parsed =>
    simp only [move]
    split
    · exact h
    · split
      · exact h
      · rename_i hid
        exact List.nodup_cons.mpr ⟨hid, h⟩
  | unwinding id | gaveUp id => exact h.erase id
  | committed => exact nodup_foldl_erase h
  | _ =>
    simp only [move]
    repeat' split
    all_goals exact h

theorem counted_move (h : c.launching = (t :: rest).countP counts) :
    (move c ok t).1.launching = ((move c ok t).2 :: rest).countP counts := by
  rw [List.countP_cons] at h ⊢
  cases t with
  | parsed =>
    simp only [move]
    split
    · exact h
    · split <;> exact h
  | inserted id | unspawned id | leaving =>
    simp only [counts, if_true, Bool.false_eq_true, if_false, move] at h ⊢
    omega
  | _ =>
    simp only [move]
    try split
    all_goals exact h

theorem gate_move (h : (t :: rest).countP owns + c.handedOff.toNat = c.handingOff.toNat) :
    ((move c ok t).2 :: rest).countP owns + (move c ok t).1.handedOff.toNat = (move c ok t).1.handingOff.toNat := by
  rw [List.countP_cons] at h ⊢
  have hle := c.handingOff.toNat_le
  cases t with
  | parsed =>
    simp only [move]
    split
    · exact h
    · split <;> exact h
  | handoff =>
    simp only [move]
    split
    · exact h
    · -- the flag was free
      rename_i hfree
      rw [Bool.not_eq_true] at hfree
      simp only [hfree, owns, Bool.false_eq_true, if_false, if_true, Bool.toNat_false, Bool.toNat_true] at h ⊢
      omega
  | cleared =>
    simp only [owns, if_true, Bool.false_eq_true, if_false, move, Bool.toNat_true] at h ⊢
    omega
  | refusing =>
    simp only [owns, if_true, Bool.false_eq_true, if_false, move, Bool.toNat_false] at h ⊢
    omega
  | _ =>
    simp only [move]
    try split
    all_goals exact h

theorem mem_finish : id' ∈ (c.finish id).unfinished ↔ id' ∈ c.unfinished ∧ id' ≠ id := by
  simp [Core.finish]

/-- What becomes of the accepted launches: a thread may accept one more, or bring the one it carries to the
    reactor, or give it up; a handoff passes on what the reactor has. -/
theorem placed_move (h : ∀ id ∈ c.unfinished, id ∈ c.moved ∨ id ∈ c.hosted ∨ ∃ u ∈ t :: rest, u.carries = some id) :
    ∀ id ∈ (move c ok t).1.unfinished, id ∈ (move c ok t).1.moved ∨ id ∈ (move c ok t).1.hosted ∨
      ∃ u ∈ (move c ok t).2 :: rest, u.carries = some id := by
  simp only [List.exists_mem_cons_iff] at h ⊢
  cases t with
  | parsed =>
    simp only [move]
    split
    · exact h
    · split
      · exact h
      · intro id' hid'
        rcases List.mem_cons.mp hid' with rfl | hid'
        · exact .inr (.inr (.inl rfl))
        · refine (h id' hid').imp_right fun h => h.imp_right fun h => .inr ?_
          exact h.resolve_left (by simp [carries])
  | counted =>
    simp only [move]
    split
    · exact h
    · intro id' hid'
      obtain ⟨hmem, hne⟩ := mem_finish.mp hid'
      refine (h id' hmem).imp_right fun h => h.imp_right fun h => .inr ?_
      exact h.resolve_left (by simpa [carries] using hne.symm)
  | settingUp =>
    simp only [move]
    split
    · intro id' hid'
      rcases h id' hid' with h | h | h | h
      · exact .inl h
      · exact .inr (.inl (List.mem_cons_of_mem _ h))
      · simp only [carries, Option.some.injEq] at h
        exact .inr (.inl (h ▸ List.mem_cons_self))
      · exact .inr (.inr (.inr h))
    · intro id' hid'
      obtain ⟨hmem, hne⟩ := mem_finish.mp hid'
      refine (h id' hmem).imp_right fun h => h.imp_right fun h => .inr ?_
      exact h.resolve_left (by simpa [carries] using hne.symm)
  | ready =>
    simp only [move]
    split
    · intro id hid
      rcases h id hid with h | h | h
      · exact .inl (List.mem_append_right _ h)
      · exact .inl (List.mem_append_left _ h)
      · exact .inr (.inr (.inr (h.resolve_left (by simp [carries]))))
    · exact h
  | _ =>
    simp only [move]
    repeat' split
    all_goals exact h

/-- The handoff's last look at `launching` is what seals the core; no other step does. -/
theorem sealed_move (h : Sealed (move c ok t).1 ((move c ok t).2 :: rest)) :
    Sealed c (t :: rest) ∨ (t = .rechecking ∧ c.launching = 0) := by
  simp only [Sealed, List.exists_mem_cons_iff] at h ⊢
  cases t with
  | rechecking =>
    simp only [move] at h
    split at h
    · exact .inl h
    · exact .inr ⟨rfl, by omega⟩
  | cleared | ready => exact .inl (.inr (.inl rfl))
  | _ =>
    left
    simp only [move] at h
    repeat' split at h
    all_goals exact h

/-- Behind a closed gate no thread enters, and none is counted. -/
theorem quiet_move (hgate : c.handingOff = true) (h : t.entering = false ∧ t.counts = false) :
    (move c ok t).2.entering = false ∧ (move c ok t).2.counts = false := by
  cases t with
  | admitted id | parsed id | inserted id => cases h.1
  | counted id | unspawned id | settingUp id | gaveUp id | leaving => cases h.2
  | willing =>
    simp only [move, hgate, if_true]
    exact ⟨rfl, rfl⟩
  | _ =>
    simp only [move]
    repeat' split
    all_goals exact ⟨rfl, rfl⟩

theorem clear_move (hI : Inv c (t :: rest))
    (hentering : t = .rechecking → c.launching = 0 → ∀ u ∈ t :: rest, u.entering = false)
    (hs : Sealed (move c ok t).1 ((move c ok t).2 :: rest)) :
    ∀ u ∈ (move c ok t).2 :: rest, u.entering = false ∧ u.counts = false := by
  have hgate : c.handingOff = true := by
    rcases sealed_move ok hs with h | ⟨rfl, -⟩
    · exact hI.handingOff_of_sealed h
    · exact hI.handingOff_of_owns List.mem_cons_self rfl
  have hbefore : ∀ u ∈ t :: rest, u.entering = false ∧ u.counts = false := by
    rcases sealed_move ok hs with h | ⟨ht, h0⟩
    · exact hI.clear h
    · intro u hu
      refine ⟨hentering ht h0 u hu, ?_⟩
      have hnone : (t :: rest).countP counts = 0 := hI.counted.symm.trans h0
      simpa using List.countP_eq_zero.mp hnone u hu
  rw [List.forall_mem_cons] at hbefore ⊢
  exact ⟨quiet_move ok hgate hbefore.1, hbefore.2⟩

/-- A core leaves when a shutdown finds `live` empty, or a handoff commits. -/
theorem leaving_move (h : Leaving (move c ok t).1 ((move c ok t).2 :: rest)) :
    Leaving c (t :: rest) ∨ (t = .deciding ∧ c.live = []) ∨ (t = .ready ∧ ok = true) := by
  simp only [Leaving, List.exists_mem_cons_iff] at h ⊢
  cases t with
  | cleared => exact .inl (.inr (.inr (.inl rfl)))
  | ready =>
    simp only [move] at h
    split at h
    · rename_i hok
      exact .inr (.inr ⟨rfl, hok⟩)
    · exact .inl h
  | deciding =>
    simp only [move] at h
    split at h
    · rename_i hlive
      exact .inr (.inl ⟨rfl, hlive⟩)
    · exact .inl h
  | _ =>
    left
    simp only [move] at h
    repeat' split at h
    all_goals exact h

/-- A step accepts a launch only while the core is not shutting down. -/
theorem unfinished_move :
    (∀ id ∈ (move c ok t).1.unfinished, id ∈ c.unfinished) ∨ (t.entering = true ∧ c.shuttingDown = false) := by
  cases t with
  | parsed =>
    simp only [move]
    split
    · exact .inl fun _ h => h
    · rename_i hc
      exact .inr ⟨rfl, by simpa using hc⟩
  | counted id | settingUp id =>
    left
    simp only [move]
    split
    · exact fun _ h => h
    · exact fun _ h => (mem_finish.mp h).1
  | _ =>
    left
    simp only [move]
    repeat' split
    all_goals exact fun _ h => h

theorem moved_move : ∀ id ∈ c.moved, id ∈ (move c ok t).1.moved := by
  cases t with
  | ready =>
    simp only [move]
    split
    · exact fun _ h => List.mem_append_right _ h
    · exact fun _ h => h
  | _ =>
    simp only [move]
    repeat' split
    all_goals exact fun _ h => h

theorem Inv.live_of_carries (hI : Inv c ts) (ht : t ∈ ts) (h : t.carries = some id) : id ∈ c.live := by
  apply hI.owned.subset
  refine List.mem_append_left _ (List.mem_append_left _ (List.mem_flatMap.mpr ⟨t, ht, ?_⟩))
  cases t <;> first | cases h; exact List.mem_singleton_self _ | cases h

theorem Thread.entering_or_counts (h : t.carries = some id) : t.entering = true ∨ t.counts = true := by
  cases t <;> first | exact .inl rfl | exact .inr rfl | cases h

theorem left_move (hI : Inv c (t :: rest)) (hl : Leaving (move c ok t).1 ((move c ok t).2 :: rest)) :
    ∀ id ∈ (move c ok t).1.unfinished, id ∈ (move c ok t).1.moved := by
  intro id hid
  rcases leaving_move ok hl with hl | ⟨rfl, hlive⟩ | ⟨rfl, rfl⟩
  · rcases unfinished_move ok with h | ⟨hentering, hc⟩
    · exact moved_move ok id (hI.left hl id (h id hid))
    · -- no launch is accepted behind a closed gate
      have h := (hI.clear (hl.sealed hc) t List.mem_cons_self).1
      rw [hentering] at h
      cases h
  · -- nothing is in `live`, so nothing is under way or with the reactor
    have hnone : ∀ id, id ∉ c.live := by simp [hlive]
    refine moved_move ok id ?_
    have hbefore := (unfinished_move ok).resolve_right (by simp [entering]) id hid
    rcases hI.placed id hbefore with h | h | ⟨u, hu, h⟩
    · exact h
    · refine absurd (hI.owned.subset ?_) (hnone id)
      exact List.mem_append_left _ (List.mem_append_right _ h)
    · exact absurd (hI.live_of_carries hu h) (hnone id)
  · -- nothing is under way, so the reactor has everything
    rcases hI.placed id hid with h | h | ⟨u, hu, h⟩
    · exact List.mem_append_right _ h
    · exact List.mem_append_left _ h
    · have hquiet := hI.clear (.inr ⟨.ready, List.mem_cons_self, rfl⟩) u hu
      rcases entering_or_counts h with h | h
      · rw [hquiet.1] at h
        cases h
      · rw [hquiet.2] at h
        cases h

/-- **A step of any thread keeps the invariant**, if no launch is entering at a handoff's last look. -/
theorem inv_move (hI : Inv c (t :: rest))
    (hentering : t = .rechecking → c.launching = 0 → ∀ u ∈ t :: rest, u.entering = false) :
    Inv (move c ok t).1 ((move c ok t).2 :: rest) where
  owned := owned_move ok hI.owned
  nodup := nodup_move ok hI.nodup
  counted := counted_move ok hI.counted
  gate := gate_move ok hI.gate
  placed := placed_move ok hI.placed
  clear := clear_move ok hI hentering
  left := left_move ok hI

/-! ### The other steps -/

/-- A thread that has just begun is in no section. -/
theorem inv_request (hI : Inv c ts) {r : Request} : Inv c (r.thread :: ts) := by
  have hother : ∀ {p : Thread → Bool}, p r.thread = false →
      (∃ t ∈ r.thread :: ts, p t = true) → ∃ t ∈ ts, p t = true := by
    intro p hp h
    rw [List.exists_mem_cons_iff, hp] at h
    exact h.resolve_left (by simp)
  have hsealed : Sealed c (r.thread :: ts) → Sealed c ts := Or.imp_right (hother (by cases r <;> rfl))
  have hleaving : Leaving c (r.thread :: ts) → Leaving c ts :=
    Or.imp_right (Or.imp_right (hother (by cases r <;> rfl)))
  constructor
  · cases r <;> exact hI.owned
  · exact hI.nodup
  · cases r <;> exact hI.counted
  · cases r <;> exact hI.gate
  · intro id hid
    refine (hI.placed id hid).imp_right fun h => h.imp_right ?_
    rintro ⟨t, ht, h⟩
    exact ⟨t, List.mem_cons_of_mem _ ht, h⟩
  · intro hs
    refine List.forall_mem_cons.mpr ⟨?_, hI.clear (hsealed hs)⟩
    cases r <;> exact ⟨rfl, rfl⟩
  · exact fun hl => hI.left (hleaving hl)

/-- A Session that ended waits for its `on_exit`. -/
theorem inv_ends (hI : Inv c ts) (hid : id ∈ c.hosted) :
    Inv { c.finish id with hosted := c.hosted.erase id, ending := id :: c.ending } ts := by
  refine { hI with owned := ?_, placed := ?_, left := ?_ }
  · refine List.Perm.trans ?_ hI.owned
    have hhosted : (c.hosted.erase id ++ id :: c.ending).Perm (c.hosted ++ c.ending) :=
      List.perm_middle.trans ((List.perm_cons_erase hid).symm.append_right _)
    simpa only [owners, List.append_assoc] using hhosted.append_left _
  · intro id' hid'
    obtain ⟨hmem, hne⟩ := mem_finish.mp hid'
    refine (hI.placed id' hmem).imp_right fun h => h.imp_left fun h => ?_
    exact (List.mem_erase_of_ne hne).mpr h
  · exact fun hl id' hid' => hI.left hl id' (mem_finish.mp hid').1

theorem inv_onExit (hI : Inv c ts) (hid : id ∈ c.ending) :
    Inv { c with ending := c.ending.erase id, live := c.live.erase id } ts := by
  refine { hI with owned := ?_, nodup := hI.nodup.erase id }
  apply erase_owned
  refine List.Perm.trans ?_ hI.owned
  refine List.perm_middle.symm.trans ?_
  exact (List.perm_cons_erase hid).symm.append_left _

end Invariant

/-- The invariant of the machine: the accept loop is over only if the core is leaving. -/
def Sound (s : State) : Prop :=
  Inv s.core s.threads ∧ (s.exited = true → s.core.shuttingDown = true ∨ s.core.handedOff = true)

/-- The flags that end the accept loop are never taken back. -/
theorem flags_move (h : c.shuttingDown = true ∨ c.handedOff = true) :
    (move c ok t).1.shuttingDown = true ∨ (move c ok t).1.handedOff = true := by
  cases t with
  | cleared => exact .inr rfl
  | deciding =>
    simp only [move]
    split
    · exact .inl rfl
    · exact h
  | _ =>
    simp only [move]
    repeat' split
    all_goals exact h

theorem sound_step (hs : Sound s) (hl : NoneEntering s l) : Sound (step s l) := by
  obtain ⟨hI, hexit⟩ := hs
  cases l with
  | request r =>
    simp only [step]
    split
    · exact ⟨hI, hexit⟩
    · exact ⟨Inv.perm (List.perm_append_singleton _ _).symm (inv_request hI), hexit⟩
  | thread i ok =>
    simp only [step]
    split
    · exact ⟨hI, hexit⟩
    · rename_i t ht
      refine ⟨?_, fun h => flags_move (hexit h)⟩
      refine Threads.moved_of_head (I := Inv) Inv.perm ht hI fun rest hmem hhead => ?_
      refine inv_move ok hhead ?_
      rintro rfl h0 u hu
      exact hl ht h0 u ((hmem u).mpr hu)
  | ends =>
    simp only [step]
    split
    · rename_i hid
      exact ⟨inv_ends hI hid, hexit⟩
    · exact ⟨hI, hexit⟩
  | onExit =>
    simp only [step]
    split
    · rename_i hid
      exact ⟨inv_onExit hI hid, hexit⟩
    · exact ⟨hI, hexit⟩
  | acceptLoop =>
    refine ⟨hI, fun h => ?_⟩
    simp only [step, Bool.or_eq_true] at h
    rcases h with (h | h) | h
    · exact hexit h
    · exact .inl h
    · exact .inr h

theorem sound_boot : Sound boot := by
  refine ⟨⟨List.Perm.refl _, List.nodup_nil, rfl, rfl, ?_, ?_, ?_⟩, ?_⟩ <;> simp [boot]

/-- `n` steps of a thread, all with a good environment. -/
def steps (i n : Nat) : List Label := List.replicate n (.thread i true)

end Supercli.PtyCore.Admission
