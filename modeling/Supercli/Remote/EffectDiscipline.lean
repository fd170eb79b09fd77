import Supercli.Remote.Refresh

/-!
# `Remote.EffectDiscipline` — how the methods of the backend send effects

A thread takes one ticket, waits for its turn, and sends at most one request in it: behind the gate, with a bootstrap that
it has seen there. What it then says of the effect follows from what it saw (`Tells`). Every method keeps to it
(`obeys_effect_run`).
-/

namespace Supercli.Remote

open Option

/-! ## Marks -/

/-- Where a thread is with its ticket. -/
inductive Turn
  | none
  | waiting (ticket : Nat)
  | granted (ticket : Nat)
  | finished (ticket : Nat)
deriving DecidableEq, Repr

/-- The ticket that is still to be served. -/
def Turn.held : Turn → Option Nat
  | .waiting ticket | .granted ticket => some ticket
  | _ => Option.none

def Turn.ticket : Turn → Option Nat
  | .waiting ticket | .granted ticket | .finished ticket => some ticket
  | .none => Option.none

/-- What a thread saw of its request. -/
abbrev Seen := Option (Except HostConnectionError HostReply)

/-- What a thread has, and what it has done. -/
structure EffectMark where
  gate : Bool
  /-- The bootstrap that the thread has found behind the gate. -/
  verified : Option AcceptedBootstrap
  turn : Turn
  sent : Option (PreparedHostCall × Seen)
  /-- The generation of the request was invalidated afterwards. -/
  invalidated : Bool

def EffectMark.new : EffectMark := ⟨false, none, .none, none, false⟩

/-- A request may be sent in this turn and generation. -/
def EffectMark.mayDispatch (m : EffectMark) (call : PreparedHostCall) (ticket : Nat) (capability : String) : Bool :=
  m.gate && m.turn == .granted ticket && m.sent.isNone &&
    m.verified.any fun accepted =>
      call.requiredGeneration == some accepted.generation && accepted.snapshot.supports capability

def EffectMark.invalidate (m : EffectMark) (generation : ConnectionGeneration) : EffectMark :=
  if m.sent.any fun sent => sent.1.requiredGeneration == some generation then { m with invalidated := true } else m

/-- How the programs handle the gate, the tickets and the requests. -/
def effectNext (m : EffectMark) (o : Op) (r : o.Ans) : Option EffectMark :=
  match o, r with
  | .lockGate, _ => if m.gate = false then some { m with gate := true } else none
  | .unlockGate, _ => if m.gate = true then some { m with gate := false, verified := none } else none
  | .accepted, r => if m.gate = true then some { m with verified := r } else some m
  | .publish _ _ _, _ => if m.gate = true then some { m with verified := none } else none
  | .invalidateGeneration generation, _ => some (m.invalidate generation)
  | .request call, r =>
    match call.purpose with
    | .effect ticket capability =>
      if m.mayDispatch call ticket capability = true then some { m with sent := some (call, r), invalidated := false }
      else none
    | _ => some m
  | .takeTicket, ticket =>
    if m.gate = false ∧ m.turn = .none ∧ m.sent.isNone then some { m with turn := .waiting ticket } else none
  | .awaitTurn ticket, _ =>
    if m.gate = false ∧ m.turn = .waiting ticket then some { m with turn := .granted ticket } else none
  | .finishTurn ticket, _ =>
    if m.gate = false ∧ m.turn = .granted ticket then some { m with turn := .finished ticket } else none
  | _, _ => some m

abbrev effectDiscipline : Discipline Ops EffectMark := ⟨effectNext⟩

/-- A refusal, as the thread saw it: nothing was sent, or a correlated answer says no. -/
def SeenRefused (call : PreparedHostCall) : Seen → Prop
  | some (.error error) => error.effectOutcomeIsUnknown = false
  | some (.ok reply) => reply.requestId = call.requestId ∧ call.requiredGeneration = some reply.generation ∧
      (400 ≤ reply.status ∧ reply.status ≤ 499 ∨ reply.status = 503)
  | none => False

/-- **The result tells no more than the thread knows.** -/
def Tells (sent : Option (PreparedHostCall × Seen)) (invalidated : Bool) : EffectResult → Prop
  | none => True
  | some (.ok requestId) => ∃ call reply, sent = some (call, some (.ok reply)) ∧ call.requestId = requestId ∧
      reply.requestId = requestId ∧ call.requiredGeneration = some reply.generation ∧ reply.status = 200
  | some (.error failure) =>
    match failure.kind with
    | .notApplied => ∀ call seen, sent = some (call, seen) → SeenRefused call seen
    | .outcomeUnknown => sent.isSome ∧ invalidated = true

/-- What a call leaves. -/
def EffectDone (result : Result) (m : EffectMark) : Prop :=
  m.gate = false ∧
    match result with
    | .effect ticket result => m.turn = .finished ticket ∧ Tells m.sent m.invalidated result
    | _ => m.turn = .none

/-! ## The programs keep to it -/

open EffectMark

section Programs

open Prog (Makes Obeys)

variable {m : EffectMark}

/-- The operations that have nothing to do with effects, for a thread that has sent none. -/
def IsEffectIdle : Op → Prop
  | .lockGate | .unlockGate | .publish _ _ _ | .takeTicket | .awaitTurn _ | .finishTurn _ => False
  | .request call =>
    ∀ ticket capability, call.purpose ≠ .effect ticket capability
  | _ => True

variable {call : PreparedHostCall}

theorem effectNext_request (h : ∀ ticket capability, call.purpose ≠ .effect ticket capability) (r : Seen) :
    effectNext m (.request call) r = some m := by
  simp only [effectNext]

theorem invalidate_of_sent_none (hsent : m.sent = none) :
    m.invalidate generation = m := by
  rw [invalidate, hsent]
  rfl

theorem effectNext_of_idle (hgate : m.gate = false) (hsent : m.sent = none) (h : IsEffectIdle o) :
    effectNext m o r = some m := by
  cases o with
  | lockGate | unlockGate | publish _ _ _ | takeTicket | awaitTurn _ | finishTurn _ => exact h.elim
  | accepted => exact if_neg (by rw [hgate]; exact Bool.false_ne_true)
  | request => exact effectNext_request h r
  | invalidateGeneration generation => exact congrArg some (invalidate_of_sent_none hsent)
  | _ => rfl

theorem effectNext_of_refresh (hgate : m.gate = true) (hverified : m.verified = none) (h : IsRefreshOp o) :
    effectNext m o r = some m := by
  cases o with
  | publish =>
    simp only [effectNext]
    rw [if_pos hgate, ← hverified]
  | request =>
    refine effectNext_request (fun ticket capability heq => ?_) r
    exact nomatch heq.symm.trans h
  | revision | sharedBootstrap _ | invalidateAll | prepare _ => rfl
  | _ => exact h.elim

/-- **The scope of the gate.** -/
theorem obeys_withGate {body : Thread α} {R : α → EffectMark → Prop} (hgate : m.gate = false)
    (hbody : body.Obeys effectDiscipline (fun a m' => m'.gate = true ∧ R a { m' with gate := false, verified := none })
      { m with gate := true }) : (withGate body).Obeys effectDiscipline R m := by
  intro _
  refine ⟨{ m with gate := true }, if_pos hgate, ?_⟩
  show (body >>= fun result => op .unlockGate >>= fun _ => pure result).Obeys effectDiscipline R _
  refine Obeys.bind (hbody.mono ?_)
  rintro a m' ⟨hgate', hR⟩ _
  exact ⟨_, if_pos hgate', hR⟩

/-- The mark of a thread outside of the gate. -/
def Outside (m : EffectMark) : Prop := m.gate = false ∧ m.verified = none

theorem obeys_effect_refreshBootstrap (h : Outside m) :
    refreshBootstrap.Obeys effectDiscipline (fun _ m' => m' = m) m := by
  intro observed
  refine ⟨m, rfl, obeys_withGate h.1 (((makes_refreshBehindGate _).obeys fun o ho r =>
    effectNext_of_refresh (m := { m with gate := true }) rfl h.2 ho).mono ?_)⟩
  rintro a _ rfl
  refine ⟨rfl, ?_⟩
  rw [← h.1, ← h.2]

theorem obeys_effect_accepted {f : Option AcceptedBootstrap → Thread β} {R : β → EffectMark → Prop}
    (h : m.gate = false) (hf : ∀ r, (f r).Obeys effectDiscipline R m) :
    (op .accepted >>= f).Obeys effectDiscipline R m :=
  fun r => ⟨m, if_neg (by rw [h]; exact Bool.false_ne_true), hf r⟩

/-- `ensure_bootstrap` leaves the thread as it was. -/
theorem obeys_effect_ensureBootstrap (h : Outside m) :
    ensureBootstrap.Obeys effectDiscipline (fun _ m' => m' = m) m := by
  refine obeys_effect_accepted h.1 fun accepted => ?_
  split
  · rfl
  · refine Obeys.bind ((obeys_effect_refreshBootstrap h).mono ?_)
    rintro refreshed _ rfl
    split
    · rfl
    · rfl
    · refine obeys_effect_accepted h.1 fun again => ?_
      split
      · rfl
      · rfl

/-! ### An effect -/

variable {generation : ConnectionGeneration}

/-- What is known after the exchange. -/
def ExchangeTells (sent : Option (PreparedHostCall × Seen)) (invalidated : Bool) :
    Option (Except EffectFailure EffectExchange) → Prop
  | none => True
  | some (.ok exchange) => ∃ call reply, sent = some (call, some (.ok reply)) ∧ call.requestId = exchange.requestId ∧
      reply.requestId = exchange.requestId ∧ call.requiredGeneration = some exchange.generation ∧
      reply.generation = exchange.generation ∧ reply.status = 200
  | some (.error failure) => Tells sent invalidated (some (.error failure))

/-- The state behind the gate. -/
def Exchanged (ticket : Nat) (result : Option (Except EffectFailure EffectExchange)) (m : EffectMark) : Prop :=
  m.gate = true ∧ m.turn = .granted ticket ∧ ExchangeTells m.sent m.invalidated result

/-- The generation of a request is invalidated. -/
theorem obeys_invalidates {R : β → EffectMark → Prop} {p : Thread β} (hsent : m.sent = some (call, seen))
    (hgeneration : call.requiredGeneration = some generation)
    (hp : p.Obeys effectDiscipline R { m with invalidated := true }) :
    (op (.invalidateGeneration generation) >>= fun _ => p).Obeys effectDiscipline R m := by
  have hmark : m.invalidate generation = { m with invalidated := true } := by
    rw [invalidate, hsent]
    simp [hgeneration]
  exact fun _ => ⟨_, congrArg some hmark, hp⟩

theorem correlatedEffectFailureKind_eq_notApplied
    (h : correlatedEffectFailureKind status ≠ .outcomeUnknown) : 400 ≤ status ∧ status ≤ 499 ∨ status = 503 := by
  rw [correlatedEffectFailureKind] at h
  split at h
  · assumption
  · exact absurd rfl h

variable {ticket : Nat}

/-- **The answer to an effect.** -/
theorem obeys_effectReply (hgate : m.gate = true) (hturn : m.turn = .granted ticket)
    (hsent : m.sent = some (call, some (.ok reply))) (hgeneration : call.requiredGeneration = some generation) :
    (effectReply operation call generation reply).Obeys effectDiscipline
      (fun result m' => Exchanged ticket (some result) m') m := by
  have hsome : m.sent.isSome = true := by
    rw [hsent]
    rfl
  rw [effectReply]
  split
  · exact obeys_invalidates hsent hgeneration ⟨hgate, hturn, hsome, rfl⟩
  · rename_i hrequest
    simp only [not_not] at hrequest
    split
    · exact obeys_invalidates hsent hgeneration ⟨hgate, hturn, hsome, rfl⟩
    · rename_i hreply
      simp only [not_not] at hreply
      split
      · dsimp only
        split
        · rename_i hkind
          refine obeys_invalidates hsent hgeneration ⟨hgate, hturn, ?_⟩
          simp only [ExchangeTells, Tells, hkind]
          exact ⟨hsome, trivial⟩
        · -- a correlated answer that refuses
          rename_i hkind
          have hrefusal := correlatedEffectFailureKind_eq_notApplied hkind
          refine ⟨hgate, hturn, ?_⟩
          have hnot : correlatedEffectFailureKind reply.status = .notApplied := if_pos hrefusal
          simp only [ExchangeTells, Tells, hnot]
          intro call' seen heq
          obtain ⟨rfl, rfl⟩ := Prod.mk.inj (mem_unique hsent heq)
          exact ⟨hrequest, hgeneration.trans (congrArg some hreply.symm), hrefusal⟩
      · rename_i hstatus
        simp only [not_not] at hstatus
        exact ⟨hgate, hturn, call, reply, hsent, rfl, hrequest, hgeneration, hreply, hstatus⟩

theorem exchanged_of_sent_none {failure : EffectFailure} (hgate : m.gate = true) (hturn : m.turn = .granted ticket)
    (hsent : m.sent = none) (hkind : failure.kind = .notApplied) : Exchanged ticket (some (.error failure)) m := by
  refine ⟨hgate, hturn, ?_⟩
  simp only [ExchangeTells, Tells, hkind]
  intro call seen heq
  exact nomatch hsent.symm.trans heq

/-- The mark of a thread in its turn. -/
def inTurn (ticket : Nat) (gate : Bool) (verified : Option AcceptedBootstrap) : EffectMark :=
  ⟨gate, verified, .granted ticket, none, false⟩

theorem exchanged_of_error (hgate : m.gate = true) (hturn : m.turn = .granted ticket)
    (hsent : m.sent = some (call, some (.error error)))
    (hinvalidated : error.effectOutcomeIsUnknown = true → m.invalidated = true) :
    Exchanged ticket (some (.error ⟨operation, if error.effectOutcomeIsUnknown then .outcomeUnknown else .notApplied,
      .connection error⟩)) m := by
  refine ⟨hgate, hturn, ?_⟩
  cases hunknown : error.effectOutcomeIsUnknown with
  | true => exact ⟨by rw [hsent]; rfl, hinvalidated hunknown⟩
  | false =>
    intro call' seen heq
    obtain ⟨rfl, rfl⟩ := Prod.mk.inj (mem_unique hsent heq)
    exact hunknown

/-- **The exchange behind the gate.** -/
theorem obeys_exchangeBehindGate (ticket : Nat) (effect : EffectCall) (generation : ConnectionGeneration) :
    (exchangeBehindGate ticket effect generation).Obeys effectDiscipline
      (fun result m' => Exchanged ticket result m') (inTurn ticket true none) := by
  intro latest
  refine ⟨inTurn ticket true latest, rfl, ?_⟩
  cases (latest : Option AcceptedBootstrap) with
  | none => exact exchanged_of_sent_none rfl rfl rfl rfl
  | some latest =>
    show (if latest.generation ≠ generation then _ else _ : Thread _).Obeys effectDiscipline _ _
    split
    · exact exchanged_of_sent_none rfl rfl rfl rfl
    · rename_i hsame
      simp only [not_not] at hsame
      subst hsame
      split
      · exact exchanged_of_sent_none rfl rfl rfl rfl
      · rename_i hsupports
        simp only [Bool.not_eq_true, Bool.not_eq_false'] at hsupports
        intro prepared
        refine ⟨_, rfl, ?_⟩
        cases (prepared : Except HostConnectionError Nat) with
        | error error =>
          show (if error.invalidatesGeneration = true then _ else _ : Thread _).Obeys effectDiscipline _ _
          split
          · exact fun _ => ⟨_, rfl, exchanged_of_sent_none rfl rfl rfl rfl⟩
          · exact exchanged_of_sent_none rfl rfl rfl rfl
        | ok =>
          intro replied
          refine ⟨_, if_pos (by simp [mayDispatch, inTurn, hsupports]), ?_⟩
          cases (replied : Seen) with
          | none => exact ⟨rfl, rfl, trivial⟩
          | some replied =>
            cases replied with
            | error error =>
              show (if error.invalidatesGeneration = true then _ else _ : Thread _).Obeys effectDiscipline _ _
              split
              · exact obeys_invalidates rfl rfl (exchanged_of_error rfl rfl rfl fun _ => rfl)
              · rename_i hinvalidates
                refine exchanged_of_error rfl rfl rfl fun hunknown => ?_
                exact absurd (HostConnectionError.invalidatesGeneration_of_unknown hunknown) hinvalidates
            | ok => exact Obeys.map (obeys_effectReply rfl rfl rfl rfl)

/-- What is known of an effect in its turn. -/
def Performed (ticket : Nat) (result : EffectResult) (m : EffectMark) : Prop :=
  m.gate = false ∧ m.turn = .granted ticket ∧ Tells m.sent m.invalidated result

theorem obeys_performEffectExchange (ticket : Nat) (effect : EffectCall) :
    (performEffectExchange ticket effect).Obeys effectDiscipline
      (fun result m' => m'.gate = false ∧ m'.turn = .granted ticket ∧ ExchangeTells m'.sent m'.invalidated result)
      (inTurn ticket false none) := by
  refine Obeys.bind ((obeys_effect_ensureBootstrap ⟨rfl, rfl⟩).mono ?_)
  rintro ensured _ rfl
  split
  · exact ⟨rfl, rfl, trivial⟩
  · exact ⟨rfl, rfl, fun call seen heq => nomatch heq⟩
  · refine obeys_withGate rfl ((obeys_exchangeBehindGate ticket effect _).mono ?_)
    rintro result m' ⟨hgate, hturn, htells⟩
    exact ⟨hgate, rfl, hturn, htells⟩

/-- **The effect in its turn.** -/
theorem obeys_performEffect (ticket : Nat) (effect : EffectCall) :
    (performEffect ticket effect).Obeys effectDiscipline (fun result m' => Performed ticket result m')
      (inTurn ticket false none) := by
  rw [performEffect]
  split
  · exact ⟨rfl, rfl, fun _ _ hsent => nomatch hsent⟩
  · refine Obeys.bind ((obeys_performEffectExchange ticket effect).mono ?_)
    rintro exchanged m' ⟨hgate, hturn, htells⟩
    split
    · exact ⟨hgate, hturn, trivial⟩
    · exact ⟨hgate, hturn, htells⟩
    · rename_i exchange
      obtain ⟨call, reply, hsent, hcall, hreply, hgeneration, hsame, hstatus⟩ := htells
      split
      · exact ⟨hgate, hturn, call, reply, hsent, hcall, hreply, hgeneration.trans (congrArg some hsame.symm), hstatus⟩
      · exact obeys_invalidates hsent hgeneration ⟨hgate, hturn, by rw [hsent]; rfl, rfl⟩

theorem obeys_effectMethod (effect : EffectCall) : (effectMethod effect).Obeys effectDiscipline
      (fun result m' => m'.gate = false ∧ m'.turn = .finished result.1 ∧ Tells m'.sent m'.invalidated result.2)
      new := by
  intro ticket
  refine ⟨{ new with turn := .waiting ticket }, rfl, ?_⟩
  intro _
  refine ⟨inTurn ticket false none, if_pos ⟨rfl, rfl⟩, ?_⟩
  show (performEffect ticket effect >>= fun result => op (.finishTurn ticket) >>= fun _ => pure (ticket, result)).Obeys
    effectDiscipline _ _
  refine Obeys.bind ((obeys_performEffect ticket effect).mono ?_)
  rintro result m' ⟨hgate, hturn, htells⟩ _
  exact ⟨{ m' with turn := .finished ticket }, if_pos ⟨hgate, hturn⟩, hgate, rfl, htells⟩

/-! ### The other methods -/

theorem outside_new : Outside new := ⟨rfl, rfl⟩

theorem obeys_of_makes_idle {p : Thread α} (hp : p.Makes IsEffectIdle) :
    p.Obeys effectDiscipline (fun _ m' => m' = new) new :=
  hp.obeys fun _ ho _ => effectNext_of_idle rfl rfl ho

theorem makes_idle_pollFails (token : OutputPageToken) (error : HostConnectionError) :
    (pollFails token error).Makes IsEffectIdle := by
  refine (makes_op trivial).bind fun _ => ?_
  split
  · exact (makes_op trivial).bind fun _ => trivial
  · trivial

section

variable (sessionId : String) (options : RemoteOutputPollOptions)

theorem makes_idle_stageReply (token : OutputPageToken)
    (reply : HostReply) : (stageReply sessionId options token reply).Makes IsEffectIdle := by
  rw [stageReply]
  split
  · exact (makes_op trivial).bind fun _ => (makes_op trivial).bind fun _ => trivial
  · split
    · exact (makes_op trivial).bind fun _ => trivial
    · split
      · exact (makes_op trivial).bind fun _ => trivial
      · refine (makes_op trivial).bind fun staged => ?_
        split
        · trivial
        · trivial

theorem obeys_effect_pollOutput (start : OutputPollCursor) :
    (pollOutput sessionId options start).Obeys effectDiscipline (fun _ m' => m' = new) new := by
  rw [pollOutput]
  split
  · rfl
  · split
    · rfl
    · refine Obeys.bind ((obeys_effect_ensureBootstrap outside_new).mono ?_)
      rintro ensured _ rfl
      split
      · rfl
      · rfl
      · split
        · rfl
        · refine obeys_of_makes_idle ((makes_op trivial).bind fun reserved => ?_)
          split
          · trivial
          · refine (makes_op trivial).bind fun prepared => ?_
            split
            · exact (makes_idle_pollFails _ _).map
            · refine Makes.bind (makes_op fun _ _ => Purpose.noConfusion) fun replied => ?_
              split
              · trivial
              · exact (makes_idle_pollFails _ _).map
              · exact (makes_idle_stageReply _ _ _ _).map

end

theorem obeys_effect_performRead (operation capability : String) :
    (performRead operation capability).Obeys effectDiscipline (fun _ m' => m' = new) new := by
  refine Obeys.bind ((obeys_effect_ensureBootstrap outside_new).mono ?_)
  rintro ensured _ rfl
  split
  · rfl
  · rfl
  · split
    · rfl
    · refine obeys_of_makes_idle ((makes_op trivial).bind fun prepared => ?_)
      split
      · exact makes_invalidates trivial trivial
      · refine Makes.bind (makes_op fun _ _ => Purpose.noConfusion) fun replied => ?_
        split
        · trivial
        · exact makes_invalidates trivial trivial
        · split
          · exact (makes_op trivial).bind fun _ => trivial
          · split <;> trivial

/-- **Every call** keeps to the discipline. -/
theorem obeys_effect_run {call : Call} : call.run.Obeys effectDiscipline EffectDone new := by
  cases call with
  | bootstrap =>
    refine Obeys.bind ((obeys_effect_refreshBootstrap outside_new).mono ?_)
    rintro _ _ rfl
    exact ⟨rfl, rfl⟩
  | poll sessionId options start =>
    refine Obeys.bind ((obeys_effect_pollOutput sessionId options start).mono ?_)
    rintro result _ rfl
    match result with
    | none => exact ⟨rfl, rfl⟩
    | some (.error error) => exact ⟨rfl, rfl⟩
    | some (.ok page) => exact ⟨rfl, rfl⟩
  | commit _ | discard _ =>
    intro taken
    refine ⟨_, rfl, ?_⟩
    cases (taken : Bool) with
    | true => exact fun _ => ⟨_, rfl, rfl, rfl⟩
    | false => exact ⟨rfl, rfl⟩
  | resetOutputCursor =>
    rw [Call.run]
    split
    · exact ⟨rfl, rfl⟩
    · exact fun _ => ⟨_, rfl, rfl, rfl⟩
  | read operation capability =>
    refine Obeys.bind ((obeys_effect_performRead operation capability).mono ?_)
    rintro _ _ rfl
    exact ⟨rfl, rfl⟩
  | effect call => exact Obeys.bind ((obeys_effectMethod call).mono fun _ _ h => h)
  | disconnect => exact fun _ => ⟨_, rfl, rfl, rfl⟩

end Programs

end Supercli.Remote
