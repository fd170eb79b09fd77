import Supercli.Lib.Machine

/-!
# `Reactor.Timers` — the timer thread, and who tells it what

The periodic jobs of all Sessions run on one thread, which keeps them by slot. The reactor installs a
Session's jobs when it registers it (`Add`), and again when a handoff that had retired them is abandoned;
teardown threads and the handoff retire all jobs of a slot (`Remove`). All of them write to one channel, and a
slot is free for the next Session as soon as `end_session` has taken the old one out of it.

What counts as installed is judged at the end of the channel: `settled` is the job table after every message
that is under way. `jobs_stay` says that the jobs of a hosted Session are then in it unless they asked to
stop, in every run in which no slot is given out while a teardown thread has yet to send its `Remove` for it,
and no handoff gives up waiting for the timer.
-/

namespace Supercli.Reactor.Timers

open Function

/-! ## Jobs -/

/-- The jobs of `build_session_timer_jobs`; `menuScan` is the scan of the screen. -/
inductive JobKind
  | heartbeat
  | menuScan
  | appTitle
  | cancellation
  | runtimeObserver
deriving DecidableEq, Repr

/-- A Session, with what decides on its jobs: whether Escape cancels a turn of its integration, and whether
    the pid of its leader is known. -/
structure Hosted where
  id : Nat
  escapeCancelsTurn : Bool
  pidKnown : Bool
deriving DecidableEq, Repr

/-- A job of a Session. -/
structure Job where
  session : Nat
  kind : JobKind
deriving DecidableEq, Repr

def buildSessionTimerJobs (t : Hosted) : List Job :=
  let kinds : List JobKind := [.heartbeat, .menuScan, .appTitle] ++
    (if t.escapeCancelsTurn then [.cancellation] else []) ++ (if t.pidKnown then [.runtimeObserver] else [])
  kinds.map (Job.mk t.id)

/-- A message to the timer thread. The ticket of a `Remove` stands for its acknowledgement channel. -/
inductive TimerMsg
  | add (slot : Nat) (jobs : List Job)
  | remove (slot ticket : Nat)
deriving DecidableEq, Repr

/-- The job table after a message. -/
def TimerMsg.handle (jobs : Nat → List Job) : TimerMsg → Nat → List Job
  | .add slot new => Function.update jobs slot (jobs slot ++ new)
  | .remove slot _ => Function.update jobs slot []

/-! ## Threads -/

/-- Where the reactor is in `handoff`: flushing the journals of the Sessions in turn, waiting for the timer to
    retire the jobs of one, or putting them back. `paused` are the slots quiesced so far. -/
inductive Handoff
  | idle
  | quiescing (todo paused : List Nat)
  | retiring (slot ticket : Nat) (todo paused : List Nat)
  | abandoning (left : List Nat)
deriving DecidableEq, Repr

/-- The slot table, the timer thread with its channel, the slots whose teardown threads have not sent their
    `Remove`, and the jobs that asked to stop. -/
structure State where
  sessions : Nat → Option Hosted
  size : Nat
  freeSlots : List Nat
  handoff : Handoff
  timer : List TimerMsg
  nextTicket : Nat
  acked : List Nat
  exiting : List Nat
  jobs : Nat → List Job
  stopped : List Job

/-- A core that has just started. -/
def boot : State := ⟨fun _ => none, 0, [], .idle, [], 0, [], [], fun _ => [], []⟩

/-- What happens next. -/
inductive Label
  /-- the reactor registers a Session, unless the poller refuses its fds -/
  | register (session : Hosted) (accepted : Bool)
  /-- the reactor ends a Session; `torn` says that its teardown thread is started -/
  | endSession (slot : Nat) (torn : Bool)
  /-- the `n`-th teardown thread sends its `Remove` -/
  | teardown (n : Nat)
  /-- a handoff begins -/
  | handoff
  /-- the journal of the next Session is flushed, or is not -/
  | flushed (ok : Bool)
  /-- the timer's acknowledgement is awaited; it comes, or the wait is given up -/
  | retired (timedOut : Bool)
  /-- every Session is quiesced: the new core commits, or the handoff is abandoned -/
  | decided (committed : Bool)
  /-- the jobs of the next Session are put back -/
  | resumed
  /-- the timer thread runs what is due in a slot; `stops` are the jobs that ask to stop, or panic -/
  | timerRuns (slot : Nat) (stops : List Job)
  /-- the timer thread takes a message -/
  | timerReceives
deriving DecidableEq, Repr

namespace State

/-- Send to the timer thread. -/
def tell (s : State) (message : TimerMsg) : State := { s with timer := s.timer ++ [message] }

/-- The slot the next Session gets: the one freed last, or a new one. -/
def nextSlot (s : State) : Nat := s.freeSlots.headD s.size

/-- The occupied slots, in order. -/
def occupied (s : State) : List Nat := (List.range s.size).filter fun slot => (s.sessions slot).isSome

end State

/-- `Reactor::register`. The slot table grows even for a Session that is then refused. -/
def register (session : Hosted) (accepted : Bool) (s : State) : State :=
  let slot := s.nextSlot
  let s := { s with freeSlots := s.freeSlots.tail, size := max s.size (slot + 1) }
  if accepted then
    { s.tell (.add slot (buildSessionTimerJobs session)) with sessions := Function.update s.sessions slot (some session) }
  else { s with freeSlots := slot :: s.freeSlots }

/-- `Reactor::end_session`. -/
def endSession (slot : Nat) (torn : Bool) (s : State) : State :=
  match s.sessions slot with
  | none => s
  | some _ =>
    { s with
      sessions := Function.update s.sessions slot none
      freeSlots := slot :: s.freeSlots
      exiting := if torn then s.exiting ++ [slot] else s.exiting }

/-- One turn of the quiesce loop of `Reactor::handoff`, past its flush. -/
def quiesce (ok : Bool) (s : State) : State :=
  match s.handoff with
  | .quiescing (slot :: todo) paused =>
    if ok then
      { s.tell (.remove slot s.nextTicket) with
        nextTicket := s.nextTicket + 1, handoff := .retiring slot s.nextTicket todo paused }
    else { s with handoff := .abandoning paused }
  | _ => s

/-- The wait for the timer's acknowledgement. Only a Session whose jobs were retired in time is among those
    that a failed handoff resumes. -/
def awaitTimer (timedOut : Bool) (s : State) : State :=
  match s.handoff with
  | .retiring slot ticket todo paused =>
    if timedOut then { s with handoff := .abandoning paused }
    else if ticket ∈ s.acked then { s with handoff := .quiescing todo (paused ++ [slot]) }
    else s
  | _ => s

/-- The end of a handoff. -/
def conclude (committed : Bool) (s : State) : State :=
  match s.handoff with
  | .quiescing [] paused =>
    if committed then
      { s with
        sessions := fun slot => if slot ∈ paused then none else s.sessions slot
        freeSlots := paused.reverse ++ s.freeSlots
        handoff := .idle }
    else { s with handoff := .abandoning paused }
  | _ => s

/-- `resume_after_handoff`: the jobs are built anew. -/
def resume (s : State) : State :=
  match s.handoff with
  | .abandoning (slot :: left) =>
    match s.sessions slot with
    | none => { s with handoff := .abandoning left }
    | some session => { s.tell (.add slot (buildSessionTimerJobs session)) with handoff := .abandoning left }
  | .abandoning [] => { s with handoff := .idle }
  | _ => s

/-- One label. The reactor registers, ends and hands over between callbacks only. -/
def step (s : State) : Label → State
  | .register session accepted => if s.handoff = .idle then register session accepted s else s
  | .endSession slot torn => if s.handoff = .idle then endSession slot torn s else s
  | .teardown n =>
    match s.exiting[n]? with
    | none => s
    | some slot => { s.tell (.remove slot s.nextTicket) with
        nextTicket := s.nextTicket + 1, exiting := s.exiting.eraseIdx n }
  | .handoff => if s.handoff = .idle then { s with handoff := .quiescing s.occupied [] } else s
  | .flushed ok => quiesce ok s
  | .retired timedOut => awaitTimer timedOut s
  | .decided committed => conclude committed s
  | .resumed => resume s
  | .timerRuns slot stops =>
    { s with
      jobs := Function.update s.jobs slot ((s.jobs slot).filter (· ∉ stops))
      stopped := (s.jobs slot).filter (· ∈ stops) ++ s.stopped }
  | .timerReceives =>
    match s.timer with
    | [] => s
    | message :: rest =>
      { s with
        timer := rest
        jobs := message.handle s.jobs
        acked := match message with
          | .remove _ ticket => ticket :: s.acked
          | .add _ _ => s.acked }

/-! ## What is installed -/

/-- The job table once every message under way is handled. -/
def settled (s : State) : Nat → List Job := s.timer.foldl TimerMsg.handle s.jobs

/-- The Session in the slot is being handed over: its jobs are retired for the time being. -/
def Handoff.holds (slot : Nat) : Handoff → Bool
  | .idle => false
  | .quiescing _ paused => slot ∈ paused
  | .retiring k _ _ paused => slot = k ∨ slot ∈ paused
  | .abandoning left => slot ∈ left

/-- The jobs of every hosted Session that is not being handed over are installed, unless they asked to stop. -/
def JobsInstalled (s : State) : Prop :=
  ∀ slot session, s.sessions slot = some session → s.handoff.holds slot = false →
    ∀ job ∈ buildSessionTimerJobs session, job ∈ settled s slot ∨ job ∈ s.stopped

/-- The condition on runs: no slot is given out while a teardown thread has yet to send its `Remove` for it,
    and no handoff gives up waiting for the timer. -/
def Undisturbed (s : State) : Label → Prop
  | .register _ _ => s.nextSlot ∉ s.exiting
  | .retired timedOut => timedOut = false
  | _ => True

instance (s : State) (l : Label) : Decidable (Undisturbed s l) := by
  unfold Undisturbed
  split <;> infer_instance

/-! ### Messages under way -/

section Settled

variable {s : State} {slot k : Nat}

/-- What is sent last is handled last. -/
theorem settled_tell (ht : s'.timer = s.timer ++ [m]) (hj : s'.jobs = s.jobs) : settled s' = m.handle (settled s) := by
  simp [settled, ht, hj]

theorem handle_add_self :
    TimerMsg.handle jobs (.add slot new) slot = jobs slot ++ new := update_self _ _ _

theorem handle_of_ne {m : TimerMsg} (h : ∀ new ticket, m ≠ .add slot new ∧ m ≠ .remove slot ticket) :
    m.handle jobs slot = jobs slot := by
  cases m with
  | add k new =>
    refine update_of_ne ?_ _ _
    rintro rfl
    exact (h new 0).1 rfl
  | remove k ticket =>
    refine update_of_ne ?_ _ _
    rintro rfl
    exact (h [] ticket).2 rfl

/-- Handling messages keeps what two tables have in common, but for some jobs. -/
theorem foldl_handle_mono {P : Job → Prop} (h : ∀ k, ∀ j ∈ jobs k, j ∈ jobs' k ∨ P j) {ms : List TimerMsg} :
    ∀ k, ∀ j ∈ ms.foldl TimerMsg.handle jobs k, j ∈ ms.foldl TimerMsg.handle jobs' k ∨ P j := by
  induction ms generalizing jobs jobs' with
  | nil => exact h
  | cons m ms ih =>
    refine ih ?_
    intro k j hj
    cases m with
    | add slot new =>
      by_cases hk : k = slot
      · subst hk
        simp only [TimerMsg.handle, update_self, List.mem_append] at hj ⊢
        rcases hj with hj | hj
        · exact (h k j hj).imp_left .inl
        · exact .inl (.inr hj)
      · simp only [TimerMsg.handle, update_of_ne hk] at hj ⊢
        exact h k j hj
    | remove slot ticket =>
      by_cases hk : k = slot
      · subst hk
        simp [TimerMsg.handle] at hj
      · simp only [TimerMsg.handle, update_of_ne hk] at hj ⊢
        exact h k j hj

end Settled

/-! ## The invariant -/

/-- No teardown thread has yet to send its `Remove` for an occupied slot, and the jobs are installed. -/
structure Inv (s : State) : Prop where
  clear : ∀ slot session, s.sessions slot = some session → slot ∉ s.exiting
  installed : JobsInstalled s

section Steps

variable {s : State}

section

variable (hI : Inv s)

include hI

/-- A step that sends nothing, and takes no Session out of a handoff. -/
theorem Inv.of_same (hses : ∀ k t, s'.sessions k = some t → s.sessions k = some t)
    (hex : ∀ k t, s'.sessions k = some t → k ∈ s'.exiting → k ∈ s.exiting)
    (hh : ∀ k t, s'.sessions k = some t → s'.handoff.holds k = false → s.handoff.holds k = false)
    (hset : settled s' = settled s) (hst : s'.stopped = s.stopped) : Inv s' where
  clear := fun k t ht hk => hI.clear k t (hses k t ht) (hex k t ht hk)
  installed := by
    intro k t ht hno j hj
    rw [hset, hst]
    exact hI.installed k t (hses k t ht) (hh k t ht hno) j hj

/-- A `Remove` for a slot that is vacant or being handed over. -/
theorem Inv.of_remove (ht : s'.timer = s.timer ++ [.remove slot ticket]) (hj : s'.jobs = s.jobs)
    (hst : s'.stopped = s.stopped) (hses : s'.sessions = s.sessions) (hex : ∀ k ∈ s'.exiting, k ∈ s.exiting)
    (hh : ∀ k, s'.handoff.holds k = false → s.handoff.holds k = false)
    (hslot : s.sessions slot = none ∨ s'.handoff.holds slot = true) : Inv s' where
  clear := by
    rw [hses]
    exact fun k t ht hk => hI.clear k t ht (hex k hk)
  installed := by
    intro k t hk hno j hjob
    rw [hses] at hk
    have hne : k ≠ slot := by
      rintro rfl
      rcases hslot with h | h
      · rw [hk] at h
        cases h
      · rw [hno] at h
        cases h
    rw [settled_tell ht hj, handle_of_ne (by rintro new ticket; simp [Ne.symm hne]), hst]
    exact hI.installed k t hk (hh k hno) j hjob

/-- An `Add` of the jobs of the Session in a slot. -/
theorem Inv.of_add (ht : s'.timer = s.timer ++ [.add slot (buildSessionTimerJobs session)]) (hj : s'.jobs = s.jobs)
    (hst : s'.stopped = s.stopped) (hslot : ∀ t, s'.sessions slot = some t → t = session ∧ slot ∉ s'.exiting)
    (hses : ∀ k t, k ≠ slot → s'.sessions k = some t → s.sessions k = some t)
    (hex : ∀ k, k ∈ s'.exiting → k ∈ s.exiting)
    (hh : ∀ k, k ≠ slot → s'.handoff.holds k = false → s.handoff.holds k = false) : Inv s' where
  clear := by
    intro k t hk hmem
    by_cases hks : k = slot
    · subst hks
      exact (hslot t hk).2 hmem
    · exact hI.clear k t (hses k t hks hk) (hex k hmem)
  installed := by
    intro k t hk hno j hjob
    rw [settled_tell ht hj, hst]
    by_cases hks : k = slot
    · subst hks
      obtain ⟨rfl, -⟩ := hslot t hk
      left
      rw [handle_add_self]
      exact List.mem_append_right _ hjob
    · rw [handle_of_ne (by rintro new ticket; simp [Ne.symm hks])]
      exact hI.installed k t (hses k t hks hk) (hh k hks hno) j hjob

theorem inv_register (hc : s.nextSlot ∉ s.exiting) : Inv (step s (.register session accepted)) := by
  simp only [step]
  split
  swap
  · exact hI
  unfold register
  simp only
  split
  · refine hI.of_add rfl rfl rfl ?_ ?_ (fun _ h => h)
      (fun _ _ h => h)
    · intro t ht
      simp only [update_self, Option.some.injEq] at ht
      exact ⟨ht.symm, hc⟩
    · intro k t hk ht
      simpa only [update_of_ne hk] using ht
  · exact hI.of_same (fun _ _ h => h) (fun _ _ _ h => h) (fun _ _ _ h => h) rfl rfl

theorem inv_endSession : Inv (step s (.endSession slot torn)) := by
  simp only [step]
  split
  swap
  · exact hI
  unfold endSession
  split
  · exact hI
  · -- the teardown concerns the slot that was vacated
    have hold : ∀ k t, update s.sessions slot none k = some t → k ≠ slot ∧ s.sessions k = some t := by
      intro k t ht
      by_cases hk : k = slot
      · subst hk
        simp at ht
      · exact ⟨hk, by simpa only [update_of_ne hk] using ht⟩
    refine hI.of_same (fun k t ht => (hold k t ht).2) ?_ (fun _ _ _ h => h) rfl rfl
    intro k t ht hk
    cases torn with
    | false => exact hk
    | true =>
      have hk : k ∈ s.exiting ++ [slot] := hk
      rcases List.mem_append.mp hk with hk | hk
      · exact hk
      · exact absurd (List.mem_singleton.mp hk) (hold k t ht).1

theorem inv_teardown : Inv (step s (.teardown n)) := by
  simp only [step]
  split
  · exact hI
  · rename_i slot hn
    have hvacant : s.sessions slot = none := by
      by_contra hne
      obtain ⟨t, ht⟩ := Option.ne_none_iff_exists'.mp hne
      exact hI.clear slot t ht (List.mem_of_getElem? hn)
    exact hI.of_remove rfl rfl rfl rfl (fun k hk => List.mem_of_mem_eraseIdx hk) (fun _ h => h) (.inl hvacant)

theorem inv_quiesce : Inv (quiesce ok s) := by
  unfold quiesce
  split
  swap
  · exact hI
  rename_i slot todo paused hh
  have hstays : ∀ k, decide (k ∈ paused) = false → s.handoff.holds k = false := by
    rw [hh]
    exact fun _ h => h
  split
  · refine hI.of_remove rfl rfl rfl rfl (fun _ h => h) ?_ (.inr (by simp [Handoff.holds]))
    intro k hk
    simp only [Handoff.holds, decide_eq_false_iff_not, not_or] at hk
    exact hstays k (decide_eq_false hk.2)
  · exact hI.of_same (fun _ _ h => h) (fun _ _ _ h => h) (fun k _ _ h => hstays k h) rfl rfl

/-- Jobs that were retired in time are put back if the handoff fails. -/
theorem inv_awaitTimer : Inv (awaitTimer false s) := by
  unfold awaitTimer
  split
  swap
  · exact hI
  rename_i slot ticket todo paused hh
  simp only [Bool.false_eq_true, if_false]
  split
  · refine hI.of_same (fun _ _ h => h) (fun _ _ _ h => h) ?_ rfl rfl
    intro k t _ hk
    rw [hh]
    simp only [Handoff.holds, List.mem_append, List.mem_singleton, decide_eq_false_iff_not, not_or] at hk ⊢
    exact ⟨hk.2, hk.1⟩
  · exact hI

theorem inv_conclude : Inv (conclude committed s) := by
  unfold conclude
  split
  swap
  · exact hI
  rename_i paused hh
  split
  · -- whoever is still there was not handed over
    have hold : ∀ k t, (if k ∈ paused then none else s.sessions k) = some t → k ∉ paused ∧ s.sessions k = some t := by
      intro k t ht
      split at ht
      · cases ht
      · rename_i hk
        exact ⟨hk, ht⟩
    refine hI.of_same (fun k t ht => (hold k t ht).2) (fun _ _ _ h => h) ?_ rfl rfl
    intro k t ht _
    rw [hh]
    exact decide_eq_false (hold k t ht).1
  · refine hI.of_same (fun _ _ h => h) (fun _ _ _ h => h) ?_ rfl rfl
    intro k t _ hk
    rw [hh]
    exact hk

theorem inv_resume : Inv (resume s) := by
  unfold resume
  split
  · rename_i slot left hh
    have hother : ∀ k, k ≠ slot → decide (k ∈ left) = false → s.handoff.holds k = false := by
      intro k hk hl
      rw [hh]
      simpa [Handoff.holds, hk] using hl
    split
    · rename_i hnone
      refine hI.of_same (fun _ _ h => h) (fun _ _ _ h => h) ?_ rfl rfl
      intro k t ht hk
      refine hother k ?_ hk
      rintro rfl
      rw [show s.sessions k = some t from ht] at hnone
      cases hnone
    · rename_i session hs
      refine hI.of_add rfl rfl rfl ?_ (fun _ _ _ h => h) (fun _ h => h) hother
      intro t ht
      have ht : s.sessions slot = some t := ht
      rw [hs] at ht
      cases ht
      exact ⟨rfl, hI.clear slot session hs⟩
  · rename_i hh
    refine hI.of_same (fun _ _ h => h) (fun _ _ _ h => h) ?_ rfl rfl
    intro k t _ _
    rw [hh]
    simp [Handoff.holds]
  · exact hI

/-- A job leaves the table by asking to. -/
theorem inv_timerRuns : Inv (step s (.timerRuns slot stops)) where
  clear := hI.clear
  installed := by
    intro k t ht hno j hj
    have hsplit : ∀ k, ∀ j ∈ s.jobs k,
        j ∈ (step s (.timerRuns slot stops)).jobs k ∨ j ∈ (step s (.timerRuns slot stops)).stopped := by
      intro k j hj
      by_cases hk : k = slot
      · subst hk
        by_cases hstop : j ∈ stops
        · right
          exact List.mem_append_left _ (List.mem_filter.mpr ⟨hj, by simpa using hstop⟩)
        · left
          simpa [step] using ⟨hj, hstop⟩
      · left
        simpa [step, update_of_ne hk] using hj
    rcases hI.installed k t ht hno j hj with h | h
    · exact foldl_handle_mono hsplit k j h
    · exact .inr (List.mem_append_right _ h)

theorem inv_timerReceives : Inv (step s .timerReceives) := by
  simp only [step]
  split
  · exact hI
  · rename_i m rest hm
    refine hI.of_same (fun _ _ h => h) (fun _ _ _ h => h) (fun _ _ _ h => h) ?_ rfl
    simp [settled, hm]

/-- **Step lemma.** -/
theorem inv_step (hl : Undisturbed s l) : Inv (step s l) := by
  cases l with
  | register => exact inv_register hI hl
  | endSession => exact inv_endSession hI
  | teardown => exact inv_teardown hI
  | handoff =>
    simp only [step]
    split
    · rename_i hidle
      refine hI.of_same (fun _ _ h => h) (fun _ _ _ h => h) ?_ rfl rfl
      intro k t _ _
      rw [hidle]
      rfl
    · exact hI
  | flushed => exact inv_quiesce hI
  | retired timedOut =>
    have hl : timedOut = false := hl
    subst hl
    exact inv_awaitTimer hI
  | decided => exact inv_conclude hI
  | resumed => exact inv_resume hI
  | timerRuns => exact inv_timerRuns hI
  | timerReceives => exact inv_timerReceives hI

end

end Steps

end Supercli.Reactor.Timers
