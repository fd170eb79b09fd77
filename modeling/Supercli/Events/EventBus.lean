import Supercli.Lib.Numbered

/-!
# `Events.EventBus` — the typed events of a Session

The Host numbers the events of every Session and keeps the last 512 of them in memory. A client asks for what is numbered
past its cursor and is told with `resync` if the buffer begins later than that (`SessionLog.since`).

With the events of one Host lifetime numbered through (`SessionLog.Holds`), a page is the stretch behind the cursor or,
with `resync`, behind what was evicted (`SessionLog.Holds.since`).
-/

namespace Supercli.Events

open List Option

def eventBufferCapacity : Nat := 512

/-- What a `SessionEvent` says, by its kind. -/
inductive EventBody
  | turnStarted (turnId trigger : String)
  | turnFinished (turnId outcome : String)
  | toolRequested (reviewId tool summary : String)
  | toolApproved (reviewId : String) (answeredBy : Option String)
  | toolDenied (reviewId : String) (answeredBy : Option String)
  | needsReview (reviewId reason : String)
  | turnCancelled (reason : String) (ambiguousAttempts : List String)
  | toolExecuted (reviewId : String) (success : Bool)
  | toolAmbiguous (reviewId reason : String)
  | toolNeverRan (reviewId reason : String)
  | leaseFenced (generation : Nat) (holder : String)
  | leaseTakenOver (generation : Nat) (holder previousHolder : String)
deriving DecidableEq, Repr

/-- A `SessionEvent`: what every kind has, and the rest. -/
structure SessionEvent where
  sessionId : String
  seq : Nat
  atMs : Nat
  body : EventBody
deriving DecidableEq, Repr

structure SessionLog where
  nextSeq : Nat
  events : List SessionEvent
deriving DecidableEq, Repr

namespace SessionLog

def new : SessionLog := ⟨1, []⟩

/-- `push`, with the event it returns. -/
def push (log : SessionLog) (build : Nat → SessionEvent) : SessionLog × SessionEvent :=
  let event := build log.nextSeq
  let kept := if log.events.length ≥ eventBufferCapacity then log.events.tail else log.events
  (⟨log.nextSeq + 1, kept ++ [event]⟩, event)

/-- The loop of `since`. `first` is the number of the oldest event of the buffer. -/
def sinceLoop (first : Option Nat) (after limit : Nat) :
    List SessionEvent → List SessionEvent → Bool → List SessionEvent × Bool
  | [], out, resync => (out, resync)
  | event :: events, out, resync =>
    if event.seq ≤ after then sinceLoop first after limit events out resync
    else
      let resync := if out.isEmpty && !resync then first.any fun seq => decide (after < seq - 1) else resync
      let out := out ++ [event]
      if out.length ≥ limit then (out, resync) else sinceLoop first after limit events out resync

def since (log : SessionLog) (after limit : Nat) : List SessionEvent × Bool :=
  sinceLoop (log.events.head?.map SessionEvent.seq) after limit log.events [] false

end SessionLog

/-- What a poll returns. -/
structure Answer where
  events : List SessionEvent
  nextSeq : Nat
  resync : Bool
deriving DecidableEq, Repr

/-- The logs of the Sessions, behind one mutex. -/
structure EventBus where
  logs : String → Option SessionLog

namespace EventBus

def new : EventBus := ⟨fun _ => none⟩

variable (bus : EventBus) (sessionId : String)

/-- `emit`, with the event it buffers. -/
def emit (now : Nat) (body : EventBody) : EventBus × SessionEvent :=
  let pushed := ((bus.logs sessionId).getD .new).push fun seq => ⟨sessionId, seq, now, body⟩
  (⟨Function.update bus.logs sessionId (some pushed.1)⟩, pushed.2)

def poll (afterSeq limit : Nat) : Answer :=
  match bus.logs sessionId with
  | none => ⟨[], afterSeq, false⟩
  | some log =>
    let page := log.since afterSeq limit
    ⟨page.1, (page.1.getLast?.map SessionEvent.seq).getD afterSeq, page.2⟩

/-- One turn of the loop of `poll_wait`: there is something to return. -/
def pollWaitTurn (afterSeq limit : Nat) : Option Answer :=
  match bus.logs sessionId with
  | none => none
  | some log =>
    let page := log.since afterSeq limit
    if page.1.isEmpty then none
    else some ⟨page.1, (page.1.getLast?.map SessionEvent.seq).getD afterSeq, page.2⟩

def latestSeq : Nat :=
  ((bus.logs sessionId).map fun log => log.nextSeq - 1).getD 0

end EventBus

/-! ## Pages -/

namespace SessionLog

section Pages

variable {first : Option Nat} {after limit : Nat}

/-- Once there is something in the page. -/
theorem sinceLoop_of_ne_nil {events : List SessionEvent} (hne : out ≠ []) (hlimit : out.length < limit) :
    sinceLoop first after limit events out resync
      = (out ++ (events.filter fun e => decide (after < e.seq)).take (limit - out.length), resync) := by
  induction events generalizing out with
  | nil => rw [filter_nil, take_nil, append_nil, sinceLoop]
  | cons event events ih =>
    have hempty : out.isEmpty = false := by
      rw [isEmpty_eq_false_iff]
      exact hne
    simp only [sinceLoop, hempty, Bool.false_and, Bool.false_eq_true, if_false]
    split
    · rename_i hle
      rw [ih hne hlimit, filter_cons_of_neg (by simpa using hle)]
    · rename_i hgt
      rw [filter_cons_of_pos (by simpa using hgt)]
      split
      · rename_i hfull
        rw [length_append, length_singleton] at hfull
        rw [show limit - out.length = 1 by omega, take_succ_cons, take_zero]
      · rename_i hroom
        rw [length_append, length_singleton] at hroom
        rw [ih (append_ne_nil_of_right_ne_nil _ (cons_ne_nil _ _)) (by rw [length_append, length_singleton]; omega),
          length_append, length_singleton, append_assoc, singleton_append,
          show limit - out.length = limit - (out.length + 1) + 1 by omega, take_succ_cons]

/-- **A page** is the first that are numbered past the cursor; `resync` is decided at the first of them. -/
theorem sinceLoop_eq {events : List SessionEvent} (hlimit : 0 < limit) : sinceLoop first after limit events [] false
      = ((events.filter fun e => decide (after < e.seq)).take limit,
          !(events.filter fun e => decide (after < e.seq)).isEmpty &&
            first.any fun seq => decide (after < seq - 1)) := by
  induction events with
  | nil => rw [filter_nil, take_nil, sinceLoop]; rfl
  | cons event events ih =>
    simp only [sinceLoop, isEmpty_nil, Bool.not_false, Bool.and_self, if_true, nil_append]
    split
    · rename_i hle
      rw [ih, filter_cons_of_neg (by simpa using hle)]
    · rename_i hgt
      rw [filter_cons_of_pos (by simpa using hgt), isEmpty_cons, Bool.not_false, Bool.true_and]
      split
      · rename_i hfull
        rw [length_singleton] at hfull
        rw [show limit = 1 by omega, take_succ_cons, take_zero]
      · rename_i hroom
        rw [length_singleton] at hroom
        rw [sinceLoop_of_ne_nil (cons_ne_nil _ _) (by rw [length_singleton]; omega),
          length_singleton, singleton_append]
        obtain ⟨room, rfl⟩ : ∃ room, limit = room + 1 := ⟨limit - 1, by omega⟩
        rw [take_succ_cons, Nat.add_sub_cancel]

/-- **The buffer holds the end of `lifetime`**, the events of the Session in this lifetime of the Host. -/
structure Holds (log : SessionLog) (lifetime : List SessionEvent) (evicted : Nat) : Prop where
  next : log.nextSeq = lifetime.length + 1
  numbered : NumberedFrom SessionEvent.seq 0 lifetime
  events : log.events = lifetime.drop evicted
  /-- The last event is still there. -/
  evicted_le : evicted ≤ lifetime.length - 1

variable {log : SessionLog} {lifetime : List SessionEvent} {evicted : Nat}

theorem holds_new : SessionLog.new.Holds [] 0 := ⟨rfl, trivial, rfl, Nat.le_refl 0⟩

section

variable (h : log.Holds lifetime evicted)

include h

theorem Holds.push (build : Nat → SessionEvent) (hbuild : ∀ n, (build n).seq = n) :
    ∃ evicted', (log.push build).1.Holds (lifetime ++ [(log.push build).2]) evicted' := by
  have hseq : ((log.push build).2).seq = 0 + lifetime.length + 1 := by
    rw [Nat.zero_add, ← h.next]
    exact hbuild log.nextSeq
  have hnumbered := h.numbered.append hseq
  have hlength : lifetime.length + 1 = (lifetime ++ [(log.push build).2]).length := by
    rw [length_append, length_singleton]
  have hnext : (log.push build).1.nextSeq = (lifetime ++ [(log.push build).2]).length + 1 := by
    rw [← hlength, ← h.next]
    rfl
  have hevicted := h.evicted_le
  by_cases hfull : log.events.length ≥ eventBufferCapacity
  · -- the oldest goes, and there is one
    have hroom : evicted + 1 ≤ lifetime.length := by
      rw [h.events, length_drop, eventBufferCapacity] at hfull
      omega
    refine ⟨evicted + 1, hnext, hnumbered, ?_, by rw [← hlength]; omega⟩
    show (if log.events.length ≥ eventBufferCapacity then log.events.tail else log.events) ++ _ = _
    rw [if_pos hfull, h.events, tail_drop, drop_append_of_le_length hroom]
    rfl
  · refine ⟨evicted, hnext, hnumbered, ?_, by rw [← hlength]; omega⟩
    show (if log.events.length ≥ eventBufferCapacity then log.events.tail else log.events) ++ _ = _
    rw [if_neg hfull, h.events, drop_append_of_le_length (by omega)]
    rfl

/-- **A page of the lifetime.** -/
theorem Holds.since (after : Nat) (hlimit : 0 < limit) :
    (log.since after limit).1 = (lifetime.drop (max after evicted)).take limit ∧
      ((log.since after limit).1 ≠ [] → ((log.since after limit).2 = true ↔ after < evicted)) := by
  have hfilter := h.numbered.filter_gt_drop after evicted
  rw [SessionLog.since, h.events, sinceLoop_eq hlimit, hfilter]
  refine ⟨rfl, fun hne => ?_⟩
  have hrest : lifetime.drop (max after evicted) ≠ [] := fun hnil => hne (by rw [hnil, take_nil])
  have hlt : evicted < lifetime.length := by
    have := length_pos_of_ne_nil hrest
    rw [length_drop] at this
    omega
  have hempty : (lifetime.drop (max after evicted)).isEmpty = false := by
    rw [isEmpty_eq_false_iff]
    exact hrest
  -- the oldest of the buffer is numbered after the last that was evicted
  have hfirst : (lifetime.drop evicted).head?.map SessionEvent.seq = some (evicted + 1) := by
    rw [head?_drop, getElem?_eq_getElem hlt, map_some, h.numbered.getElem? (getElem?_eq_getElem hlt), Nat.zero_add]
  rw [hempty, hfirst]
  simp

/-- The number of the last event of a page. -/
theorem Holds.nextSeq (hlimit : 0 < limit) (hne : (log.since after limit).1 ≠ []) :
    ((log.since after limit).1.getLast?.map SessionEvent.seq).getD after
      = max after evicted + (log.since after limit).1.length ∧
    max after evicted + (log.since after limit).1.length ≤ lifetime.length := by
  obtain ⟨hpage, -⟩ := h.since after hlimit
  rw [hpage] at hne ⊢
  have hpos := length_pos_of_ne_nil hne
  have hlength := hpos
  rw [length_take, length_drop] at hlength
  constructor
  · rw [getLast?_eq_getElem?, getElem?_take_of_lt (by rw [length_take] at hpos ⊢; omega), getElem?_drop]
    have hlt : max after evicted + (((lifetime.drop (max after evicted)).take limit).length - 1) < lifetime.length := by
      rw [length_take, length_drop]
      omega
    rw [getElem?_eq_getElem hlt, map_some, getD_some, h.numbered.getElem? (getElem?_eq_getElem hlt)]
    omega
  · rw [length_take, length_drop]
    omega

end

end Pages

end SessionLog

end Supercli.Events
