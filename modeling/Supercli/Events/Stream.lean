import Supercli.Events.EventBus
import Supercli.Lib.Machine

/-!
# `Events.Stream` — one client of the event stream

A client polls the events of a Session with the cursor it was last given, at once or as a long poll that the Host serves
in slices (`handle_events`), while events are emitted, the buffer evicts, answers get lost and the Host restarts. A
restarted Host numbers from one again, and the cursor of the client is older than it.

What the client receives is the history of the Session in order, every event once, with gaps only where it is told
(`Follows`), as long as it has everything when the Host restarts and its cursor is no later than the running Host's
numbers when an event is emitted (`no_silent_loss`). Without a restart that is always so (`clean_of_keepsRunning`).
-/

namespace Supercli.Events

open List Option Machine

/-! ## The machine -/

/-- Where `handle_events` is: at its first poll, at the condition of its loop, in `poll_wait`, at the poll after it. -/
inductive Phase
  | begins
  | decides
  | waits
  | looks
deriving DecidableEq, Repr

/-- An answer, and how many events of the Session there had been when the Host looked. -/
structure Delivery extends Answer where
  emitted : Nat
deriving DecidableEq, Repr

/-- A request that the Host is serving. `out` is what it has found so far. -/
structure Request where
  limit : Nat
  longPoll : Bool
  phase : Phase
  out : Delivery
deriving DecidableEq, Repr

structure State where
  bus : EventBus
  /-- All events of the Session, also of earlier lifetimes of the Host. -/
  history : List SessionEvent
  /-- How many of them are older than the running Host. -/
  base : Nat
  /-- The client's cursor, once it has polled. -/
  cursor : Option Nat
  request : Option Request
  /-- How many events there had been when the client polled for the first time. -/
  firstPoll : Option Nat
  /-- The answers the client has received. -/
  received : List Delivery

def boot : State := ⟨.new, [], 0, none, none, none, []⟩

inductive Label
  | emit (sessionId : String) (now : Nat) (body : EventBody)
  | restart
  /-- The client polls: with its cursor, or for the first time. The parameters are those of the query, as far as they
      are there and parse. -/
  | ask (afterSeq limit waitMs : Option Nat)
  /-- The Host goes on with the request; the time it waits for may be over. -/
  | serve (expired : Bool)
  /-- The connection of the request breaks. -/
  | lost
deriving DecidableEq, Repr

section Machine

variable (sessionId : String)

variable (s : State)

/-- The Host looks for a page. -/
def State.look (r : Request) : Delivery :=
  ⟨s.bus.poll sessionId r.out.nextSeq r.limit, s.history.length⟩

/-- The client receives the answer. -/
def State.deliver (d : Delivery) : State :=
  { s with cursor := some d.nextSeq, request := none, received := s.received ++ [d] }

def State.setRequest (r : Request) : State := { s with request := some r }

/-- `handle_events`, from one access to the bus to the next. -/
def State.serve (expired : Bool) (r : Request) : State :=
  match r.phase with
  | .begins =>
    if r.longPoll then s.setRequest { r with phase := .decides, out := s.look sessionId r }
    else s.deliver (s.look sessionId r)
  | .decides =>
    if r.out.events = [] ∧ expired = false then s.setRequest { r with phase := .waits } else s.deliver r.out
  | .waits =>
    match s.bus.pollWaitTurn sessionId r.out.nextSeq r.limit with
    | some answer => s.setRequest { r with phase := .decides, out := ⟨answer, s.history.length⟩ }
    | none =>
      if expired then
        s.setRequest { r with phase := .looks, out := ⟨⟨[], r.out.nextSeq, false⟩, s.history.length⟩ }
      else s
  | .looks => s.setRequest { r with phase := .decides, out := s.look sessionId r }

def step : Label → State
  | .emit other now body =>
    let emitted := s.bus.emit other now body
    { s with
      bus := emitted.1
      history := if other = sessionId then s.history ++ [emitted.2] else s.history }
  | .restart => { s with bus := .new, base := s.history.length, request := none }
  | .ask afterSeq limit waitMs =>
    if s.request.isSome then s
    else
      let after := s.cursor.getD (afterSeq.getD 0)
      let out : Delivery := ⟨⟨[], after, false⟩, 0⟩
      { s with
        cursor := some after
        request := some ⟨min (max (limit.getD 128) 1) 1024, decide (0 < min (waitMs.getD 0) 25000), .begins, out⟩
        firstPoll := some (s.firstPoll.getD s.history.length) }
  | .serve expired => (s.request.map (s.serve sessionId expired)).getD s
  | .lost => { s with request := none }

/-! ## What is promised -/

/-- A delivery goes on where the client is: with the next events, with later ones if it says so, or with none if there
    are none. -/
def Continues (history : List SessionEvent) (pos : Nat) (d : Delivery) (pos' : Nat) : Prop :=
  d.events = [] ∧ d.emitted ≤ pos ∧ pos' = pos ∨
    d.events ≠ [] ∧ ∃ start, (start = pos ∨ d.resync = true ∧ pos ≤ start) ∧
      (history.drop start).take d.events.length = d.events ∧ pos' = start + d.events.length

/-- **No silent gap.** -/
inductive Follows (history : List SessionEvent) : Nat → List Delivery → Nat → Prop
  | nil (pos : Nat) : Follows history pos [] pos
  | cons {start pos pos' : Nat} {d : Delivery} {ds : List Delivery} :
      Continues history start d pos → Follows history pos ds pos' → Follows history start (d :: ds) pos'

/-- The client has everything when the Host restarts; and when an event of the Session is emitted, the client's cursor is
    none that the running Host has not given out. -/
def Clean : Label → Prop
  | .emit other _ _ => other = sessionId → ∀ cursor ∈ s.cursor, cursor ≤ s.bus.latestSeq sessionId
  | .restart => ∀ cursor ∈ s.cursor, s.bus.latestSeq sessionId ≤ cursor
  | _ => True

instance (l : Label) : Decidable (Clean sessionId s l) := by
  cases l <;> unfold Clean <;> infer_instance

end Machine

section Invariant

variable {sessionId : String} {s : State} {history : List SessionEvent} {start pos pos' : Nat} {ds : List Delivery}
  {d : Delivery}

theorem Continues.append (h : Continues history pos d pos') :
    Continues (history ++ [e]) pos d pos' := by
  rcases h with hnone | ⟨hne, start, hstart, hpage, hpos⟩
  · exact .inl hnone
  · refine .inr ⟨hne, start, hstart, ?_, hpos⟩
    have hlength := congrArg length hpage
    have hpositive := length_pos_of_ne_nil hne
    rw [length_take, length_drop] at hlength
    rw [drop_append_of_le_length (by omega), take_append_of_le_length (by rw [length_drop]; omega)]
    exact hpage

section

variable (h : Follows history start ds pos)

include h

theorem Follows.append : Follows (history ++ [e]) start ds pos := by
  induction h with
  | nil => exact .nil _
  | cons hd _ ih => exact .cons hd.append ih

theorem Follows.snoc (hd : Continues history pos d pos') : Follows history start (ds ++ [d]) pos' := by
  induction h with
  | nil => exact .cons hd (.nil _)
  | cons hfirst _ ih => exact .cons hfirst (ih hd)

/-- **Without a `resync`** the pages are one stretch of the history. -/
theorem Follows.contiguous (hquiet : ∀ d ∈ ds, d.resync = false) :
    (history.drop start).take (ds.flatMap (·.events)).length = ds.flatMap (·.events) := by
  induction h with
  | nil => rfl
  | @cons start pos pos' d ds hd _ ih =>
    have hrest := ih fun d' hd' => hquiet d' (mem_cons_of_mem _ hd')
    rw [flatMap_cons, length_append]
    rcases hd with ⟨hnil, -, rfl⟩ | ⟨-, first, hfirst, hpage, rfl⟩
    · rw [hnil, length_nil, Nat.zero_add, nil_append]
      exact hrest
    · -- the page begins where the client is
      have hstart : first = start := by
        rcases hfirst with rfl | ⟨hresync, -⟩
        · rfl
        · rw [hquiet d mem_cons_self] at hresync
          exact absurd hresync Bool.false_ne_true
      subst hstart
      rw [take_add, drop_drop, hpage, hrest]

end

/-- The events of this lifetime of the Host. -/
def State.lifetime (s : State) : List SessionEvent := s.history.drop s.base

/-- How much of the history is behind a cursor. -/
def State.place (s : State) (cursor : Nat) : Nat := s.base + min cursor s.lifetime.length

/-- What the bus keeps of the Session. -/
def State.LogOk (sessionId : String) (s : State) : Prop :=
  s.bus.logs sessionId = none ∧ s.lifetime = [] ∨
    ∃ log evicted, s.bus.logs sessionId = some log ∧ log.Holds s.lifetime evicted

theorem State.LogOk.latestSeq (h : s.LogOk sessionId) : s.bus.latestSeq sessionId = s.lifetime.length := by
  rcases h with ⟨hnone, hnil⟩ | ⟨log, evicted, hlog, hholds⟩
  · rw [EventBus.latestSeq, hnone, hnil]
    rfl
  · rw [EventBus.latestSeq, hlog, map_some, getD_some, hholds.next, Nat.add_sub_cancel]

/-- The Host has looked with a cursor. -/
structure Looked (s : State) (cursor : Nat) (d : Delivery) : Prop where
  continues : Continues s.history (s.place cursor) d (s.place d.nextSeq)
  same : d.events = [] → d.nextSeq = cursor
  bound : d.nextSeq ≤ max cursor s.lifetime.length

/-- **A look at the bus.** -/
theorem State.LogOk.looked (h : s.LogOk sessionId) (hbase : s.base ≤ s.history.length) {cursor : Nat}
    (hlimit : 0 < limit) : Looked s cursor ⟨s.bus.poll sessionId cursor limit, s.history.length⟩ := by
  have hlength : s.lifetime.length = s.history.length - s.base := length_drop
  rcases h with ⟨hnone, hnil⟩ | ⟨log, evicted, hlog, hholds⟩
  · rw [EventBus.poll, hnone]
    rw [hnil, length_nil] at hlength
    exact ⟨.inl ⟨rfl, by show s.history.length ≤ s.base + _; omega, rfl⟩, fun _ => rfl, Nat.le_max_left _ _⟩
  · rw [EventBus.poll, hlog]
    obtain ⟨hpage, hresync⟩ := hholds.since cursor hlimit
    have hevicted := hholds.evicted_le
    by_cases hempty : (log.since cursor limit).1 = []
    · -- nothing is numbered past the cursor
      have hnext : ((log.since cursor limit).1.getLast?.map SessionEvent.seq).getD cursor = cursor := by
        rw [hempty]
        rfl
      have hend : s.lifetime.length ≤ max cursor evicted := by
        rw [hempty] at hpage
        have hzero := congrArg length hpage.symm
        rw [length_take, length_drop, length_nil] at hzero
        omega
      refine ⟨.inl ⟨hempty, ?_, ?_⟩, fun _ => hnext, ?_⟩
      · show s.history.length ≤ s.base + min cursor s.lifetime.length
        omega
      · exact congrArg s.place hnext
      · exact Nat.le_trans (Nat.le_of_eq hnext) (Nat.le_max_left _ _)
    · obtain ⟨hnext, hbound⟩ := hholds.nextSeq hlimit hempty
      refine ⟨.inr ⟨hempty, s.base + max cursor evicted, ?_, ?_, ?_⟩, fun hnil => absurd hnil hempty, ?_⟩
      · -- without eviction past the cursor, the page begins where the client is
        by_cases hlt : cursor < evicted
        · refine .inr ⟨(hresync hempty).mpr hlt, ?_⟩
          show s.base + min cursor s.lifetime.length ≤ _
          omega
        · have hpositive := length_pos_of_ne_nil hempty
          left
          show _ = s.base + min cursor s.lifetime.length
          omega
      · show (s.history.drop (s.base + max cursor evicted)).take (log.since cursor limit).1.length
          = (log.since cursor limit).1
        rw [← drop_drop, ← State.lifetime, hpage, length_take, take_eq_take_iff]
        omega
      · show s.base + min (((log.since cursor limit).1.getLast?.map SessionEvent.seq).getD cursor) s.lifetime.length = _
        rw [hnext]
        show _ = s.base + max cursor evicted + (log.since cursor limit).1.length
        omega
      · exact Nat.le_trans (Nat.le_of_eq hnext) (Nat.le_trans hbound (Nat.le_max_right _ _))

/-- The turn of `poll_wait` finds what a poll finds. -/
theorem pollWaitTurn_eq {bus : EventBus} :
    bus.pollWaitTurn sessionId cursor limit = if (bus.poll sessionId cursor limit).events = [] then none
      else some (bus.poll sessionId cursor limit) := by
  rw [EventBus.pollWaitTurn, EventBus.poll]
  cases bus.logs sessionId with
  | none => rfl
  | some => simp only [List.isEmpty_iff]

/-- **What holds of the client and of the Host.** -/
structure Inv (sessionId : String) (s : State) : Prop where
  base : s.base ≤ s.history.length
  log : s.LogOk sessionId
  client : ∀ cursor, s.cursor = some cursor →
    ∃ n start, s.firstPoll = some n ∧ start ≤ n ∧ Follows s.history start s.received (s.place cursor)
  fresh : s.cursor = none → s.firstPoll = none ∧ s.received = []
  request : ∀ r, s.request = some r → 0 < r.limit ∧ (r.phase ≠ .decides → r.out.events = []) ∧
    ∃ cursor, s.cursor = some cursor ∧ (r.phase = .begins → r.out.nextSeq = cursor) ∧
      (r.phase ≠ .begins → Looked s cursor r.out)

theorem inv_boot : Inv sessionId boot :=
  ⟨Nat.le_refl 0, .inl ⟨rfl, rfl⟩, nofun, fun _ => ⟨rfl, rfl⟩, nofun⟩

theorem Inv.noRequest (h : Inv sessionId s) : Inv sessionId { s with request := none } :=
  { h with request := nofun }

variable {r : Request}

section

variable (h : Inv sessionId s)

include h

theorem Inv.setRequest (hcursor : s.cursor = some cursor) (hlimit : 0 < r.limit)
    (hphase : r.phase ≠ .decides → r.out.events = []) (hbegins : r.phase ≠ .begins) (hlooked : Looked s cursor r.out) :
    Inv sessionId (s.setRequest r) := by
  refine { h with request := fun r' hr' => ?_ }
  obtain rfl := some.inj hr'
  exact ⟨hlimit, hphase, cursor, hcursor, fun hphase => absurd hphase hbegins,
    fun _ => ⟨hlooked.continues, hlooked.same, hlooked.bound⟩⟩

/-- **An answer arrives.** -/
theorem Inv.deliver (hcursor : s.cursor = some cursor)
    (hlooked : Looked s cursor d) : Inv sessionId (s.deliver d) := by
  refine ⟨h.base, h.log, fun next hnext => ?_, nofun, nofun⟩
  obtain rfl := some.inj hnext
  obtain ⟨n, start, hfirst, hle, hfollows⟩ := h.client cursor hcursor
  exact ⟨n, start, hfirst, hle, hfollows.snoc hlooked.continues⟩

/-- **The Host goes on with the request**: it answers, it keeps what it has found, or it waits on. -/
theorem Inv.serve_cases (hr : s.request = some r) (expired : Bool) :
    ∃ cursor, s.cursor = some cursor ∧ ((∃ d, Looked s cursor d ∧ s.serve sessionId expired r = s.deliver d) ∨
        (∃ r', s.serve sessionId expired r = s.setRequest r' ∧ r'.limit = r.limit ∧
          (r'.phase ≠ .decides → r'.out.events = []) ∧ r'.phase ≠ .begins ∧ Looked s cursor r'.out) ∨
        s.serve sessionId expired r = s) := by
  obtain ⟨hlimit, hphase, cursor, hcursor, hbegins, hout⟩ := h.request r hr
  refine ⟨cursor, hcursor, ?_⟩
  -- every look is made with the client's cursor
  have hsame : r.phase ≠ .decides → r.out.nextSeq = cursor := by
    intro hne
    by_cases hphase' : r.phase = .begins
    · exact hbegins hphase'
    · exact (hout hphase').same (hphase hne)
  have hlook : r.phase ≠ .decides → Looked s cursor (s.look sessionId r) := by
    intro hne
    rw [State.look, hsame hne]
    exact h.log.looked h.base hlimit
  rw [State.serve]
  cases hcase : r.phase with
  | begins =>
    have hlooked := hlook (by rw [hcase]; exact Phase.noConfusion)
    dsimp only
    split
    · exact .inr (.inl ⟨_, rfl, rfl, fun hne => absurd rfl hne, Phase.noConfusion, hlooked⟩)
    · exact .inl ⟨_, hlooked, rfl⟩
  | decides =>
    have hlooked := hout (by rw [hcase]; exact Phase.noConfusion)
    dsimp only
    split
    · rename_i hempty
      exact .inr (.inl ⟨_, rfl, rfl, fun _ => hempty.1, Phase.noConfusion, hlooked⟩)
    · exact .inl ⟨_, hlooked, rfl⟩
  | waits =>
    have hne : r.phase ≠ .decides := by
      rw [hcase]
      exact Phase.noConfusion
    have hlooked := hlook hne
    dsimp only
    rw [pollWaitTurn_eq]
    by_cases hempty : (s.bus.poll sessionId r.out.nextSeq r.limit).events = []
    · rw [if_pos hempty]
      dsimp only
      split
      · -- nothing was there, and the slice is over
        refine .inr (.inl ⟨_, rfl, rfl, fun _ => rfl, Phase.noConfusion, ?_⟩)
        rcases hlooked.continues with ⟨-, hemitted, -⟩ | ⟨hfound, -⟩
        · exact ⟨.inl ⟨rfl, hemitted, congrArg s.place (hsame hne)⟩, fun _ => hsame hne,
            Nat.le_trans (Nat.le_of_eq (hsame hne)) (Nat.le_max_left _ _)⟩
        · exact absurd hempty hfound
      · exact .inr (.inr rfl)
    · rw [if_neg hempty]
      exact .inr (.inl ⟨_, rfl, rfl, fun hne => absurd rfl hne, Phase.noConfusion, hlooked⟩)
  | looks =>
    exact .inr (.inl ⟨_, rfl, rfl, fun hne => absurd rfl hne, Phase.noConfusion,
      hlook (by rw [hcase]; exact Phase.noConfusion)⟩)

theorem Inv.serve (hr : s.request = some r) : Inv sessionId (s.serve sessionId expired r) := by
  obtain ⟨cursor, hcursor, ⟨d, hlooked, heq⟩ | ⟨r', heq, hlimit, hphase, hbegins, hlooked⟩ | heq⟩ :=
    h.serve_cases hr expired
  · rw [heq]
    exact h.deliver hcursor hlooked
  · rw [heq]
    exact h.setRequest hcursor (hlimit ▸ (h.request r hr).1) hphase hbegins hlooked
  · rw [heq]
    exact h

/-- **An event** of the Session, when the client's cursor is one of the running Host's. -/
theorem Inv.emitted {log : SessionLog} (hlog : bus.logs sessionId = some log)
    (hholds : log.Holds (s.lifetime ++ [e]) evicted) (hcursor : ∀ cursor ∈ s.cursor, cursor ≤ s.lifetime.length) :
    Inv sessionId { s with bus := bus, history := s.history ++ [e] } := by
  have hlifetime : ({ s with bus := bus, history := s.history ++ [e] } : State).lifetime = s.lifetime ++ [e] := by
    show (s.history ++ [e]).drop s.base = _
    rw [drop_append_of_le_length h.base, State.lifetime]
  have hplace : ∀ cursor ≤ s.lifetime.length,
      ({ s with bus := bus, history := s.history ++ [e] } : State).place cursor = s.place cursor := by
    intro cursor hle
    rw [State.place, State.place, hlifetime, length_append, Nat.min_eq_left hle, Nat.min_eq_left (by omega)]
  refine ⟨?_, .inr ⟨log, evicted, hlog, hlifetime ▸ hholds⟩, ?_, h.fresh, ?_⟩
  · rw [length_append]
    exact Nat.le_trans h.base (Nat.le_add_right _ _)
  · intro cursor hc
    obtain ⟨n, start, hfirst, hle, hfollows⟩ := h.client cursor hc
    refine ⟨n, start, hfirst, hle, ?_⟩
    rw [hplace cursor (hcursor cursor hc)]
    exact hfollows.append
  · intro r hr
    obtain ⟨hlimit, hphase, cursor, hc, hbegins, hlooked⟩ := h.request r hr
    refine ⟨hlimit, hphase, cursor, hc, hbegins, fun hne => ?_⟩
    have hlooked := hlooked hne
    have hbound := hlooked.bound
    rw [Nat.max_eq_right (hcursor cursor hc)] at hbound
    refine ⟨?_, hlooked.same, ?_⟩
    · rw [hplace cursor (hcursor cursor hc), hplace _ hbound]
      exact hlooked.continues.append
    · rw [hlifetime, length_append]
      exact Nat.le_trans hbound (Nat.le_trans (Nat.le_add_right _ _) (Nat.le_max_right _ _))

/-- Another Session's event. -/
theorem Inv.congr (hlog : bus.logs sessionId = s.bus.logs sessionId) : Inv sessionId { s with bus := bus } := by
  refine ⟨h.base, ?_, h.client, h.fresh, fun r hr => ?_⟩
  · have hok := h.log
    rw [State.LogOk, ← hlog] at hok
    exact hok
  · obtain ⟨hlimit, hphase, cursor, hc, hbegins, hlooked⟩ := h.request r hr
    exact ⟨hlimit, hphase, cursor, hc, hbegins,
      fun hne => ⟨(hlooked hne).continues, (hlooked hne).same, (hlooked hne).bound⟩⟩

end

theorem State.LogOk.emit (h : s.LogOk sessionId) (now : Nat) (body : EventBody) :
    ∃ log evicted, (s.bus.emit sessionId now body).1.logs sessionId = some log ∧
      log.Holds (s.lifetime ++ [(s.bus.emit sessionId now body).2]) evicted := by
  obtain ⟨evicted, hholds⟩ : ∃ evicted, ((s.bus.logs sessionId).getD .new).Holds s.lifetime evicted := by
    rcases h with ⟨hnone, hnil⟩ | ⟨log, evicted, hlog, hholds⟩
    · rw [hnone, hnil]
      exact ⟨0, SessionLog.holds_new⟩
    · rw [hlog]
      exact ⟨evicted, hholds⟩
  obtain ⟨evicted', hpush⟩ := hholds.push (fun seq => ⟨sessionId, seq, now, body⟩) fun _ => rfl
  exact ⟨_, evicted', Function.update_self _ _ _, hpush⟩

/-- **A restart**, when the client has everything. -/
theorem Inv.restart (h : Inv sessionId s) (hcursor : ∀ cursor ∈ s.cursor, s.lifetime.length ≤ cursor) :
    Inv sessionId { s with bus := .new, base := s.history.length, request := none } := by
  refine ⟨Nat.le_refl _, .inl ⟨rfl, drop_length⟩, fun cursor hc => ?_, h.fresh, nofun⟩
  obtain ⟨n, start, hfirst, hle, hfollows⟩ := h.client cursor hc
  refine ⟨n, start, hfirst, hle, ?_⟩
  have hplace : s.place cursor = s.history.length := by
    have hbase := h.base
    have hlength : s.lifetime.length = s.history.length - s.base := length_drop
    rw [State.place, Nat.min_eq_right (hcursor cursor hc)]
    omega
  have hplace' : ({ s with bus := .new, base := s.history.length, request := none } : State).place cursor
      = s.history.length := by
    show s.history.length + min cursor (s.history.drop s.history.length).length = _
    rw [drop_length, length_nil, Nat.min_zero, Nat.add_zero]
  rw [hplace', ← hplace]
  exact hfollows

/-- **The client asks.** -/
theorem Inv.ask (h : Inv sessionId s) (afterSeq limit waitMs : Option Nat) :
    Inv sessionId (step sessionId s (.ask afterSeq limit waitMs)) := by
  rw [step]
  split
  · exact h
  · refine ⟨h.base, h.log, fun cursor hc => ?_, nofun, fun r hr => ?_⟩
    · obtain rfl := some.inj hc
      cases hcursor : s.cursor with
      | none =>
        -- the first poll
        obtain ⟨hfirst, hnil⟩ := h.fresh hcursor
        refine ⟨_, _, rfl, ?_, show Follows s.history _ s.received _ from hnil ▸ Follows.nil _⟩
        have hbase := h.base
        have hlength : s.lifetime.length = s.history.length - s.base := length_drop
        rw [hfirst]
        show s.base + min _ s.lifetime.length ≤ s.history.length
        omega
      | some cursor =>
        obtain ⟨n, start, hfirst, hle, hfollows⟩ := h.client cursor hcursor
        exact ⟨n, start, by rw [hfirst]; rfl, hle, hfollows⟩
    · obtain rfl := some.inj hr
      refine ⟨?_, fun _ => rfl, _, rfl, fun _ => rfl, fun hne => absurd rfl hne⟩
      dsimp only
      omega

/-- **One step.** -/
theorem inv_step (h : Inv sessionId s) (l : Label) (hl : Clean sessionId s l) : Inv sessionId (step sessionId s l) := by
  cases l with
  | emit other now body =>
    by_cases hother : other = sessionId
    · subst hother
      obtain ⟨log, evicted, hlog, hholds⟩ := h.log.emit now body
      have hnext := h.emitted hlog hholds fun cursor hc => h.log.latestSeq ▸ hl rfl cursor hc
      simp only [step, if_true]
      exact hnext
    · simp only [step, if_neg hother]
      exact h.congr (Function.update_of_ne (fun heq => hother heq.symm) _ _)
  | restart => exact h.restart fun cursor hc => h.log.latestSeq ▸ hl cursor hc
  | ask afterSeq limit waitMs => exact h.ask afterSeq limit waitMs
  | serve expired =>
    rw [step]
    cases hr : s.request with
    | none => exact h
    | some => exact h.serve hr
  | lost => exact h.noRequest

/-! ## A Host that keeps running -/

/-- The Host is not restarted, and the client begins with a cursor the Host has given out. -/
def KeepsRunning (sessionId : String) (s : State) : Label → Prop
  | .restart => False
  | .ask afterSeq _ _ => s.cursor = none → afterSeq.getD 0 ≤ s.bus.latestSeq sessionId
  | _ => True

/-- The client's cursor is one of the running Host's. -/
def Current (sessionId : String) (s : State) : Prop :=
  Inv sessionId s ∧ ∀ cursor ∈ s.cursor, cursor ≤ s.bus.latestSeq sessionId

theorem clean_of_current (h : Current sessionId s) (hl : KeepsRunning sessionId s l) : Clean sessionId s l := by
  cases l with
  | emit => exact fun _ => h.2
  | restart => exact hl.elim
  | ask _ _ _ | serve _ | lost => trivial

theorem current_step (h : Current sessionId s) (hl : KeepsRunning sessionId s l) :
    Current sessionId (step sessionId s l) := by
  have hnext := inv_step h.1 l (clean_of_current h hl)
  refine ⟨hnext, fun cursor hc => ?_⟩
  rw [hnext.log.latestSeq]
  have hold := h.2
  rw [h.1.log.latestSeq] at hold
  cases l with
  | emit =>
    refine Nat.le_trans (hold cursor hc) ?_
    simp only [step, State.lifetime, length_drop]
    split
    · rw [length_append]
      omega
    · exact Nat.le_refl _
  | restart => exact hl.elim
  | ask =>
    simp only [step] at hc ⊢
    split at hc
    · rename_i hserving
      rw [if_pos hserving]
      exact hold cursor hc
    · rename_i hidle
      rw [if_neg hidle]
      obtain rfl := some.inj hc
      cases hcursor : s.cursor with
      | none =>
        have hfirst := hl hcursor
        rw [h.1.log.latestSeq] at hfirst
        exact hfirst
      | some cursor => exact hold cursor hcursor
  | serve expired =>
    rw [step] at hc ⊢
    cases hr : s.request with
    | none =>
      rw [hr] at hc
      exact hold cursor hc
    | some =>
      rw [hr] at hc
      obtain ⟨before, hbefore, ⟨d, hlooked, heq⟩ | ⟨r', heq, -⟩ | heq⟩ := h.1.serve_cases hr expired
      · rw [map_some, getD_some, heq] at hc ⊢
        obtain rfl := some.inj hc
        have hbound := hlooked.bound
        rw [Nat.max_eq_right (hold before hbefore)] at hbound
        exact hbound
      · rw [map_some, getD_some, heq] at hc ⊢
        exact hold cursor hc
      · rw [map_some, getD_some, heq] at hc ⊢
        exact hold cursor hc
  | lost => exact hold cursor hc

/-- **Without a restart** every run is clean. -/
theorem clean_of_keepsRunning (h : Machine.Along (step sessionId) (KeepsRunning sessionId) boot labels) :
    Machine.Along (step sessionId) (Clean sessionId) boot labels :=
  Machine.Along.imp_of_invariant (fun _ _ hs hl => clean_of_current hs hl) (fun _ _ hs hl => current_step hs hl)
    ⟨inv_boot, nofun⟩ h

end Invariant

/-! ## Every run -/

/-- **The event stream never loses events silently.** Whatever is emitted and evicted, however the client polls and
    whichever answers get lost, what it has received since its first poll is the history of the Session in order, every
    event once; an event is missing only before a page that says `resync`, and an empty answer means that there was
    nothing more. -/
theorem no_silent_loss (sessionId : String) (labels : List Label)
    (hclean : Machine.Along (step sessionId) (Clean sessionId) boot labels) :
    ∀ n, (run (step sessionId) boot labels).firstPoll = some n → ∃ start ≤ n, ∃ pos,
      Follows (run (step sessionId) boot labels).history start (run (step sessionId) boot labels).received pos := by
  intro n hn
  have h : Inv sessionId (run (step sessionId) boot labels) :=
    invariant (fun _ l h hl => inv_step h l hl) inv_boot hclean
  cases hcursor : (run (step sessionId) boot labels).cursor with
  | none => exact absurd ((h.fresh hcursor).1.symm.trans hn) nofun
  | some cursor =>
    obtain ⟨n', start, hn', hle, hfollows⟩ := h.client cursor hcursor
    obtain rfl := mem_unique hn' hn
    exact ⟨start, hle, _, hfollows⟩

/-- A client that is served at once, then waits for the next event. -/
def waitingRun : List Label :=
  [.emit "s" 1 (.turnStarted "a" "user"), .ask none none none, .serve false, .ask none (some 1) (some 1000), .serve false,
   .serve false, .serve false, .emit "other" 2 (.turnStarted "b" "user"), .emit "s" 3 (.turnFinished "a" "completed"),
   .serve false, .serve false]

theorem no_silent_loss_waiting :
    Machine.Along (step "s") (Clean "s") boot waitingRun ∧ (run (step "s") boot waitingRun).received.length = 2 ∧
    ∃ start ≤ 1, ∃ pos, Follows (run (step "s") boot waitingRun).history start
      (run (step "s") boot waitingRun).received pos :=
  ⟨by decide, by decide, no_silent_loss "s" waitingRun (by decide) 1 (by decide)⟩

theorem clean_of_keepsRunning_waiting : Machine.Along (step "s") (Clean "s") boot waitingRun :=
  clean_of_keepsRunning (by simp [waitingRun, Machine.Along, KeepsRunning])

/-- The Host restarts, and three events come before the client polls again. -/
def restartedRun : List Label :=
  [.emit "s" 1 (.turnStarted "a" "user"), .emit "s" 2 (.turnFinished "a" "completed"), .ask none none none, .serve false,
   .restart, .emit "s" 3 (.turnStarted "b" "user"), .emit "s" 4 (.turnFinished "b" "completed"),
   .emit "s" 5 (.turnStarted "c" "user"), .ask none none none, .serve false]

/-- **A restart loses events silently**: the client has the first two events and the last one, and no `resync`. -/
theorem restart_loses_events : (run (step "s") boot restartedRun).firstPoll = some 2 ∧
    ¬ ∃ start ≤ 2, ∃ pos, Follows (run (step "s") boot restartedRun).history start
      (run (step "s") boot restartedRun).received pos := by
  refine ⟨by decide, ?_⟩
  rintro ⟨start, hle, pos, hfollows⟩
  have hpages := hfollows.contiguous (by decide)
  have hgap : ∀ start ≤ 2, ((run (step "s") boot restartedRun).history.drop start).take
      ((run (step "s") boot restartedRun).received.flatMap (·.events)).length
        ≠ (run (step "s") boot restartedRun).received.flatMap (·.events) := by decide
  exact hgap start hle hpages

end Supercli.Events
