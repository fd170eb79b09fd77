import Supercli.DirectPath.Probe
import Supercli.Lib.Machine

/-!
# `DirectPath.Punch` — two punch sessions and a network that does what it likes

A session sends probes with its own direction and answers a probe of the other direction with the same nonce; what it takes
for an answer is a datagram of the other direction with a nonce of its own. The network may deliver any bytes to either
session from any address, any number of times and in any order; it cannot make a tag (`Allowed`).

`punch_sound`: a session is established only when the other one has answered one of its probes, every probe is answered at
most once and an answer never, and a session that is established or timed out stays so.
-/

namespace Supercli.DirectPath

open List Function

/-! ## One session -/

/-- The arithmetic of the token bucket, which the source does in floating point. -/
structure Bucket (τ : Type) where
  /-- `PROBE_BURST` tokens. -/
  burst : τ
  /-- Tokens for the time that passed, at most the burst. -/
  refill : τ → Nat → τ
  /-- Is there less than one token? -/
  low : τ → Bool
  spend : τ → τ

/-- `PATH_SESSION_LIFETIME`, in nanoseconds. -/
def pathSessionLifetime : Nat := 60 * 1000000000

inductive PunchState (Addr : Type)
  | probing
  | established (addr : Addr)
  | timedOut
deriving DecidableEq

structure PunchSession (Addr τ : Type) where
  key : Bytes
  pathSession : PathSession
  sendDirection : ProbeDirection
  peers : List Addr
  outgoingNonces : List Nonce
  seenNonces : List Nonce
  tokens : τ
  lastRefill : Nat
  started : Nat
  state : PunchState Addr
  rtt : Option Nat
  inFlight : List (Nonce × Nat)

/-- What `Vec::dedup` leaves of a list that stands after `a`. -/
def dedupAfter {α : Type} [DecidableEq α] (a : α) : List α → List α
  | [] => []
  | b :: rest => if a = b then dedupAfter a rest else b :: dedupAfter b rest

/-- `Vec::dedup`: of equal neighbours the first stays. -/
def dedup {α : Type} [DecidableEq α] : List α → List α
  | [] => []
  | a :: rest => a :: dedupAfter a rest

section Session

variable {Addr τ : Type} [DecidableEq Addr] (sign : Bytes → Bytes → Bytes) (bucket : Bucket τ)

def PunchSession.new (key : Bytes) (pathSession : PathSession) (sendDirection : ProbeDirection) (peers : List Addr)
    (instant : Nat) : PunchSession Addr τ :=
  ⟨key, pathSession, sendDirection, dedup peers, [], [], bucket.burst, instant, instant, .probing, none, []⟩

/-- The loop of `tick`: tokens that are left, and to whom a probe goes, with which of the nonces that are drawn. -/
def tickLoop : List Addr → List Nonce → τ → τ × List (Addr × Nonce)
  | peer :: peers, nonce :: nonces, tokens =>
    if bucket.low tokens then (tokens, [])
    else
      let rest := tickLoop peers nonces (bucket.spend tokens)
      (rest.1, (peer, nonce) :: rest.2)
  | _, _, tokens => (tokens, [])

/-- `tick`, and the probes to be sent. -/
def PunchSession.tick (s : PunchSession Addr τ) (nowMs instant : Nat) (nonces : List Nonce) :
    PunchSession Addr τ × List (Addr × Nonce × Bytes) :=
  if s.state ≠ .probing then (s, [])
  else if pathSessionLifetime ≤ instant - s.started then ({ s with state := .timedOut }, [])
  else
    let (tokens, sends) := tickLoop bucket s.peers nonces (bucket.refill s.tokens (instant - s.lastRefill))
    ({ s with tokens := tokens, lastRefill := instant,
              outgoingNonces := s.outgoingNonces ++ sends.map (·.2),
              inFlight := s.inFlight ++ sends.map fun send => (send.2, instant) },
      sends.map fun send => (send.1, send.2, encodeProbe sign s.key s.pathSession s.sendDirection nowMs send.2))

/-- `handle_datagram`, and the answer. -/
def PunchSession.handleDatagram (s : PunchSession Addr τ) (bytes : Bytes) (source : Addr) (nowMs instant : Nat) :
    PunchSession Addr τ × Option (Addr × Nonce × Bytes) :=
  let peerDirection := s.sendDirection.flipped
  if bytes.length = probeLen ∧ bytes.getD 5 0 = peerDirection.byte then
    match verifyProbe sign bytes s.key s.pathSession peerDirection nowMs [] with
    | none => (s, none)
    | some (probe, _) =>
      if probe.nonce ∈ s.outgoingNonces then
        if s.state = .probing then
          ({ s with state := .established source,
                    rtt := (s.inFlight.find? fun sent => sent.1 = probe.nonce).map fun sent => instant - sent.2 }, none)
        else (s, none)
      else if probe.nonce ∈ s.seenNonces then (s, none)
      else
        ({ s with seenNonces := probe.nonce :: s.seenNonces },
          some (source, probe.nonce, encodeProbe sign s.key s.pathSession s.sendDirection nowMs probe.nonce))
  else (s, none)

/-! ## Two sessions and the network -/

inductive Side
  | controller
  | host
deriving DecidableEq

def Side.other : Side → Side
  | .controller => .host
  | .host => .controller

def Side.direction : Side → ProbeDirection
  | .controller => .controllerToHost
  | .host => .hostToController

/-- A datagram that a session emitted: a probe, or the answer to a datagram. -/
structure Emission (Addr : Type) where
  side : Side
  target : Addr
  nonce : Nonce
  datagram : Bytes
  answers : Option Bytes

def Emission.isProbe (e : Emission Addr) : Bool := e.answers.isNone

/-- The part of a datagram that its tag is made of. -/
def Emission.body (e : Emission Addr) : Bytes := e.datagram.take probeBodyLen

/-- The two sessions, and everything they have emitted. -/
structure Net (Addr τ : Type) where
  session : Side → PunchSession Addr τ
  log : List (Emission Addr)

inductive Label (Addr : Type)
  /-- A session is ticked; its random numbers are `nonces`. -/
  | tick (side : Side) (nowMs instant : Nat) (nonces : List Nonce)
  /-- The network delivers bytes. -/
  | deliver (side : Side) (bytes : Bytes) (source : Addr) (nowMs instant : Nat)

def step (net : Net Addr τ) : Label Addr → Net Addr τ
  | .tick side nowMs instant nonces =>
    let r := (net.session side).tick sign bucket nowMs instant nonces
    ⟨Function.update net.session side r.1, net.log ++ r.2.map fun send => ⟨side, send.1, send.2.1, send.2.2, none⟩⟩
  | .deliver side bytes source nowMs instant =>
    let r := (net.session side).handleDatagram sign bytes source nowMs instant
    ⟨Function.update net.session side r.1,
      net.log ++ r.2.toList.map fun send => ⟨side, send.1, send.2.1, send.2.2, some bytes⟩⟩

/-- Two fresh sessions with one key and opposite directions. -/
def boot (key : Bytes) (pathSession : PathSession) (peers : Side → List Addr) (instant : Side → Nat) : Net Addr τ :=
  ⟨fun side => .new bucket key pathSession side.direction (peers side) (instant side), []⟩

/-- Random numbers do not repeat, and who has not the key cannot make a tag: of bytes with the right tag, what the tag is
    made of is part of a datagram that one of the sessions emitted. -/
def Allowed (key : Bytes) (net : Net Addr τ) : Label Addr → Prop
  | .tick _ _ _ nonces => nonces.Nodup ∧ ∀ n ∈ nonces, ∀ e ∈ net.log, e.isProbe = true → e.nonce ≠ n
  | .deliver _ bytes _ _ _ =>
    bytes.drop probeBodyLen = probeTag sign key (bytes.take probeBodyLen) →
      ∃ e ∈ net.log, bytes.take probeBodyLen = e.body

instance (key : Bytes) (net : Net Addr τ) : (l : Label Addr) → Decidable (Allowed sign key net l)
  | .tick _ _ _ _ => inferInstanceAs (Decidable (_ ∧ _))
  | .deliver _ _ _ _ _ => inferInstanceAs (Decidable (_ → _))

end Session

/-! ## What a call can do -/

section Calls

variable {Addr τ : Type} {sign : Bytes → Bytes → Bytes} {bucket : Bucket τ}

theorem tickLoop_prefix {peers : List Addr} (nonces : List Nonce) (tokens : τ) :
    (tickLoop bucket peers nonces tokens).2.map (·.2) <+: nonces := by
  induction peers generalizing nonces tokens with
  | nil => exact nil_prefix
  | cons peer peers ih =>
    cases nonces with
    | nil => exact nil_prefix
    | cons nonce nonces =>
      unfold tickLoop
      split
      · exact nil_prefix
      · exact (prefix_cons_inj nonce).mpr (ih nonces _)

variable [DecidableEq Addr] (sign : Bytes → Bytes → Bytes)

/-- **A tick** does nothing, ends the session, or sends probes with fresh nonces. -/
theorem tick_cases (s : PunchSession Addr τ) (nowMs instant : Nat) (nonces : List Nonce) :
    s.tick sign bucket nowMs instant nonces = (s, []) ∨
    (s.state = .probing ∧ s.tick sign bucket nowMs instant nonces = ({ s with state := .timedOut }, [])) ∨
    ∃ (tokens : τ) (sends : List (Addr × Nonce)), s.state = .probing ∧ sends.map (·.2) <+: nonces ∧
      s.tick sign bucket nowMs instant nonces =
        ({ s with tokens := tokens, lastRefill := instant,
                  outgoingNonces := s.outgoingNonces ++ sends.map (·.2),
                  inFlight := s.inFlight ++ sends.map fun send => (send.2, instant) },
          sends.map fun send => (send.1, send.2, encodeProbe sign s.key s.pathSession s.sendDirection nowMs send.2)) := by
  unfold PunchSession.tick
  by_cases hstate : s.state = .probing
  · rw [if_neg (not_not.mpr hstate)]
    split
    · exact .inr (.inl ⟨hstate, rfl⟩)
    · exact .inr (.inr ⟨_, _, hstate, tickLoop_prefix _ _, rfl⟩)
  · rw [if_pos hstate]
    exact .inl rfl

/-- **A datagram** is ignored, establishes the session, or is answered. -/
theorem handleDatagram_cases {s : PunchSession Addr τ} (source : Addr) (nowMs instant : Nat) :
    s.handleDatagram sign bytes source nowMs instant = (s, none) ∨
    ∃ probe seen, verifyProbe sign bytes s.key s.pathSession s.sendDirection.flipped nowMs [] = some (probe, seen) ∧
      ((probe.nonce ∈ s.outgoingNonces ∧ s.state = .probing ∧ ∃ rtt,
          s.handleDatagram sign bytes source nowMs instant = ({ s with state := .established source, rtt := rtt }, none)) ∨
        (probe.nonce ∉ s.outgoingNonces ∧ probe.nonce ∉ s.seenNonces ∧
          s.handleDatagram sign bytes source nowMs instant =
            ({ s with seenNonces := probe.nonce :: s.seenNonces },
              some (source, probe.nonce, encodeProbe sign s.key s.pathSession s.sendDirection nowMs probe.nonce)))) := by
  unfold PunchSession.handleDatagram
  dsimp only
  split
  · cases hverify : verifyProbe sign bytes s.key s.pathSession s.sendDirection.flipped nowMs [] with
    | none => exact .inl rfl
    | some pair =>
      obtain ⟨probe, seen⟩ := pair
      dsimp only
      by_cases hown : probe.nonce ∈ s.outgoingNonces
      · rw [if_pos hown]
        by_cases hstate : s.state = .probing
        · rw [if_pos hstate]
          exact .inr ⟨probe, seen, rfl, .inl ⟨hown, hstate, _, rfl⟩⟩
        · rw [if_neg hstate]
          exact .inl rfl
      · rw [if_neg hown]
        by_cases hseen : probe.nonce ∈ s.seenNonces
        · rw [if_pos hseen]
          exact .inl rfl
        · rw [if_neg hseen]
          exact .inr ⟨probe, seen, rfl, .inr ⟨hown, hseen, rfl⟩⟩
  · exact .inl rfl

/-- **A state other than probing is final.** -/
theorem state_step (bucket : Bucket τ) (l : Label Addr)
    (h : (net.session side).state ≠ .probing) :
    ((step sign bucket net l).session side).state = (net.session side).state := by
  have hcall : ∀ (who : Side) (s : PunchSession Addr τ), (s.state = (net.session who).state ∨
      (net.session who).state = .probing) → (update net.session who s side).state = (net.session side).state := by
    intro who s hs
    by_cases hwho : side = who
    · subst hwho
      rw [update_self]
      exact hs.resolve_right h
    · rw [update_of_ne hwho]
  cases l with
  | tick who nowMs instant nonces =>
    refine hcall who _ ?_
    rcases tick_cases sign (net.session who) nowMs instant nonces with heq | ⟨hp, -⟩ | ⟨tokens, sends, hp, -⟩
    · rw [heq]
      exact .inl rfl
    · exact .inr hp
    · exact .inr hp
  | deliver who bytes source nowMs instant =>
    refine hcall who _ ?_
    rcases handleDatagram_cases sign source nowMs instant with
      heq | ⟨probe, seen, -, ⟨-, hp, -⟩ | ⟨-, -, heq⟩⟩
    · rw [heq]
      exact .inl rfl
    · exact .inr hp
    · rw [heq]
      exact .inl rfl

end Calls

/-! ## The invariant -/

open Emission Machine

section Invariant

variable {Addr τ : Type} {sign : Bytes → Bytes → Bytes} {bucket : Bucket τ} {key : Bytes}
  {pathSession : PathSession} {net : Net Addr τ} {side : Side}

theorem Side.flipped_direction : side.direction.flipped = side.other.direction := by cases side <;> rfl

theorem Side.direction_injective (h : side.direction = side'.direction) : side = side' := by
  cases side <;> cases side' <;> first | rfl | cases h

theorem Side.other_ne : side.other ≠ side := by cases side <;> decide

theorem Side.other_other (side : Side) : side.other.other = side := by cases side <;> rfl

/-- The emission `a` answers the emission `p`. -/
structure Answers (a p : Emission Addr) : Prop where
  probe : p.isProbe = true
  side : p.side = a.side.other
  nonce : p.nonce = a.nonce
  received : ∃ bytes, a.answers = some bytes ∧ bytes.take probeBodyLen = p.body

/-- A session against the log. -/
structure SessionOk (key : Bytes) (pathSession : PathSession) (log : List (Emission Addr)) (side : Side)
    (s : PunchSession Addr τ) : Prop where
  key : s.key = key
  pathSession : s.pathSession = pathSession
  direction : s.sendDirection = side.direction
  outgoing : ∀ n, n ∈ s.outgoingNonces ↔ ∃ e ∈ log, e.side = side ∧ e.isProbe = true ∧ e.nonce = n
  seen : ∀ n, n ∈ s.seenNonces ↔ ∃ e ∈ log, e.side = side ∧ e.isProbe = false ∧ e.nonce = n
  established : ∀ addr, s.state = .established addr → ∃ p ∈ log, p.side = side ∧ ∃ a ∈ log, Answers a p

/-- The log: no nonce is used for two probes or for two answers, and every answer is one to a probe of the other side. -/
structure LogOk (pathSession : PathSession) (log : List (Emission Addr)) : Prop where
  bodies : ∀ e ∈ log, ∃ ts, e.body = probeBody pathSession e.side.direction ts e.nonce
  probes : ((log.filter isProbe).map nonce).Nodup
  answers : ((log.filter fun e => !e.isProbe).map nonce).Nodup
  answered : ∀ a ∈ log, a.isProbe = false → ∃ p ∈ log, Answers a p

structure Inv (key : Bytes) (pathSession : PathSession) (net : Net Addr τ) : Prop where
  sessions : ∀ side, SessionOk key pathSession net.log side (net.session side)
  log : LogOk pathSession net.log

theorem inv_boot [DecidableEq Addr] {peers : Side → List Addr} :
    Inv key pathSession (boot bucket key pathSession peers instant) where
  sessions := fun _ => ⟨rfl, rfl, rfl, fun n => by simp [boot, PunchSession.new], fun n => by simp [boot, PunchSession.new],
    nofun⟩
  log :=
    { bodies := nofun
      probes := .nil
      answers := .nil
      answered := fun _ h => nomatch h }

variable {log : List (Emission Addr)} {e : Emission Addr} {nowMs : Nat}

theorem LogOk.probe_unique (h : LogOk pathSession log) (he : e ∈ log) (he' : e' ∈ log)
    (hp : e.isProbe = true) (hp' : e'.isProbe = true) (hn : e.nonce = e'.nonce) : e = e' :=
  inj_on_of_nodup_map h.probes (mem_filter.mpr ⟨he, hp⟩) (mem_filter.mpr ⟨he', hp'⟩) hn

/-- What a session accepts, the other one emitted. -/
theorem LogOk.accepted (h : LogOk pathSession log)
    (hallowed : bytes.drop probeBodyLen = probeTag sign key (bytes.take probeBodyLen) →
      ∃ e ∈ log, bytes.take probeBodyLen = e.body)
    (hverify : verifyProbe sign bytes key pathSession side.direction.flipped nowMs [] = some (probe, seen)) :
    ∃ e ∈ log, e.side = side.other ∧ e.nonce = probe.nonce ∧ bytes.take probeBodyLen = e.body := by
  obtain ⟨htag, hdirection, hnonce⟩ := verifyProbe_some hverify
  obtain ⟨e, he, hbody⟩ := hallowed htag
  obtain ⟨ts, hts⟩ := h.bodies e he
  rw [hbody, hts, getD_probeBody] at hdirection
  rw [hbody, hts, drop_probeBody] at hnonce
  refine ⟨e, he, Side.direction_injective ?_, Subtype.ext hnonce, hbody⟩
  rw [ProbeDirection.byte_injective hdirection, Side.flipped_direction]

section

variable (h : Inv key pathSession net) (he : e ∈ net.log) (hside : e.side = side.other)

include h he hside

/-- **What a session takes for an answer is one**, to a probe of its own. -/
theorem Inv.own (hown : e.nonce ∈ (net.session side).outgoingNonces) :
    ∃ p ∈ net.log, p.side = side ∧ ∃ a ∈ net.log, Answers a p := by
  obtain ⟨p, hp, hpside, hprobe, hpnonce⟩ := ((h.sessions side).outgoing _).mp hown
  cases hkind : e.isProbe with
  | true =>
    -- two probes would share a nonce
    have heq := h.log.probe_unique he hp hkind hprobe hpnonce.symm
    rw [heq, hpside] at hside
    exact absurd hside.symm Side.other_ne
  | false =>
    obtain ⟨q, hq, hanswers⟩ := h.log.answered e he hkind
    refine ⟨q, hq, ?_, e, he, hanswers⟩
    rw [hanswers.side, hside, Side.other_other]

/-- **What a session takes for a probe is one**: an answer has a nonce of its own. -/
theorem Inv.foreign (hnot : e.nonce ∉ (net.session side).outgoingNonces) : e.isProbe = true := by
  cases hkind : e.isProbe with
  | true => rfl
  | false =>
    obtain ⟨p, hp, hanswers⟩ := h.log.answered e he hkind
    have hpside : p.side = side := by rw [hanswers.side, hside, Side.other_other]
    exact absurd (((h.sessions side).outgoing _).mpr ⟨p, hp, hpside, hanswers.probe, hanswers.nonce⟩) hnot

end

/-! ### Steps -/

/-- Of both sessions, one of which is new. -/
theorem forall_update {P : Side → PunchSession Addr τ → Prop} (hthis : P side s)
    (hother : ∀ who, who ≠ side → P who (net.session who)) : ∀ who, P who (update net.session side s who) := by
  intro who
  by_cases hwho : who = side
  · subst hwho
    rwa [update_self]
  · rw [update_of_ne hwho]
    exact hother who hwho

/-- What the other side emits does not concern a session. -/
theorem SessionOk.append (h : SessionOk key pathSession log side s) (hmore : ∀ e ∈ more, e.side ≠ side) :
    SessionOk key pathSession (log ++ more) side s := by
  have hold : ∀ {P : Emission Addr → Prop}, (∃ e ∈ log, e.side = side ∧ P e) ↔ ∃ e ∈ log ++ more, e.side = side ∧ P e := by
    intro P
    constructor
    · rintro ⟨e, he, hrest⟩
      exact ⟨e, mem_append_left _ he, hrest⟩
    · rintro ⟨e, he, hside, hrest⟩
      rcases mem_append.mp he with he | he
      · exact ⟨e, he, hside, hrest⟩
      · exact absurd hside (hmore e he)
  refine ⟨h.key, h.pathSession, h.direction, fun n => (h.outgoing n).trans hold, fun n => (h.seen n).trans hold, ?_⟩
  intro addr hstate
  obtain ⟨p, hp, hside, a, ha, hanswers⟩ := h.established addr hstate
  exact ⟨p, mem_append_left _ hp, hside, a, mem_append_left _ ha, hanswers⟩

/-- A log with more emissions: their nonces are new among the emissions of their kind, and answers are to old probes. -/
theorem LogOk.append (h : LogOk pathSession log)
    (hbodies : ∀ e ∈ more, ∃ ts, e.body = probeBody pathSession e.side.direction ts e.nonce)
    (hnodup : (more.map nonce).Nodup) (hfresh : ∀ e ∈ more, ∀ e' ∈ log, e'.isProbe = e.isProbe → e'.nonce ≠ e.nonce)
    (hanswered : ∀ a ∈ more, a.isProbe = false → ∃ p ∈ log, Answers a p) : LogOk pathSession (log ++ more) := by
  have hkind : ∀ keep : Emission Addr → Bool, (∀ e e', keep e → keep e' → e.isProbe = e'.isProbe) →
      ((log.filter keep).map nonce).Nodup → (((log ++ more).filter keep).map nonce).Nodup := by
    intro keep hkeep hold
    rw [filter_append, map_append, nodup_append]
    refine ⟨hold, (filter_sublist.map _).nodup hnodup, fun n hn m hm => ?_⟩
    obtain ⟨e, he, rfl⟩ := mem_map.mp hn
    obtain ⟨e', he', rfl⟩ := mem_map.mp hm
    rw [mem_filter] at he he'
    exact hfresh e' he'.1 e he.1 (hkeep e e' he.2 he'.2)
  refine ⟨forall_mem_append.mpr ⟨h.bodies, hbodies⟩, hkind _ (fun e e' he he' => he.trans he'.symm) h.probes,
    hkind _ (fun e e' he he' => ?_) h.answers, fun a ha hprobe => ?_⟩
  · rw [Bool.not_eq_true'] at he he'
    rw [he, he']
  · obtain ⟨p, hp, hanswers⟩ := (mem_append.mp ha).elim (h.answered a · hprobe) (hanswered a · hprobe)
    exact ⟨p, mem_append_left _ hp, hanswers⟩

section

variable (h : Inv key pathSession net)

include h

/-- **A session emits**, and keeps the nonces of its probes and of its answers. -/
theorem Inv.emit {s : PunchSession Addr τ}
    (hs : s.key = key ∧ s.pathSession = pathSession ∧ s.sendDirection = side.direction ∧
      s.state = (net.session side).state) (hmore : ∀ e ∈ more, e.side = side) (houtgoing : ∀ n, n ∈ s.outgoingNonces ↔
      n ∈ (net.session side).outgoingNonces ∨ ∃ e ∈ more, e.isProbe = true ∧ e.nonce = n)
    (hseen : ∀ n, n ∈ s.seenNonces ↔ n ∈ (net.session side).seenNonces ∨ ∃ e ∈ more, e.isProbe = false ∧ e.nonce = n)
    (hlog : LogOk pathSession (net.log ++ more)) :
    Inv key pathSession ⟨Function.update net.session side s, net.log ++ more⟩ := by
  have hthis := h.sessions side
  have hsplit : ∀ {kind : Bool} {n : Nonce}, (∃ e ∈ net.log ++ more, e.side = side ∧ e.isProbe = kind ∧ e.nonce = n) ↔
        (∃ e ∈ net.log, e.side = side ∧ e.isProbe = kind ∧ e.nonce = n) ∨ ∃ e ∈ more, e.isProbe = kind ∧ e.nonce = n := by
    intro kind n
    simp only [mem_append, or_and_right, exists_or]
    refine or_congr_right (exists_congr fun e => and_congr_right fun he => ?_)
    rw [hmore e he, eq_self, true_and]
  refine ⟨forall_update ⟨hs.1, hs.2.1, hs.2.2.1, fun n => ?_, fun n => ?_, fun addr hstate => ?_⟩
    fun who hwho => (h.sessions who).append fun e he => ?_, hlog⟩
  · rw [houtgoing n, hthis.outgoing n, hsplit]
  · rw [hseen n, hthis.seen n, hsplit]
  · obtain ⟨p, hp, hside, a, ha, hanswers⟩ := hthis.established addr (hs.2.2.2 ▸ hstate)
    exact ⟨p, mem_append_left _ hp, hside, a, mem_append_left _ ha, hanswers⟩
  · rw [hmore e he]
    exact hwho.symm

/-- **Probes with fresh nonces** are emitted. -/
theorem Inv.addProbes {sends : List (Addr × Nonce)} (hnodup : (sends.map (·.2)).Nodup)
    (hfresh : ∀ n ∈ sends.map (·.2), ∀ e ∈ net.log, e.isProbe = true → e.nonce ≠ n) :
    Inv key pathSession ⟨Function.update net.session side { net.session side with
            tokens := tokens, lastRefill := instant,
            outgoingNonces := (net.session side).outgoingNonces ++ sends.map (·.2), inFlight := inFlight },
        net.log ++ sends.map fun send =>
          ⟨side, send.1, send.2, encodeProbe sign (net.session side).key (net.session side).pathSession
            (net.session side).sendDirection nowMs send.2, none⟩⟩ := by
  have hthis := h.sessions side
  refine h.emit ⟨hthis.key, hthis.pathSession, hthis.direction, rfl⟩ ?_ (fun n => ?_) (fun n => ?_)
    (h.log.append ?_ ?_ ?_ ?_)
  · exact forall_mem_map.mpr fun _ _ => rfl
  · simp only [mem_append, mem_map, exists_exists_and_eq_and, isProbe, Option.isNone_none, true_and]
  · simp [isProbe]
  · refine forall_mem_map.mpr fun send _ => ?_
    rw [hthis.key, hthis.pathSession, hthis.direction]
    exact ⟨nowMs, take_encodeProbe⟩
  · rwa [map_map]
  · exact forall_mem_map.mpr fun send hsend => hfresh send.2 (mem_map_of_mem hsend)
  · exact forall_mem_map.mpr nofun

/-- **A probe of the other side is answered.** -/
theorem Inv.addAnswer (hp : p ∈ net.log) (hside : p.side = side.other) (hprobe : p.isProbe = true)
    (hnonce : p.nonce = n) (hbody : bytes.take probeBodyLen = p.body) (hseen : n ∉ (net.session side).seenNonces) :
    Inv key pathSession
      ⟨Function.update net.session side { net.session side with seenNonces := n :: (net.session side).seenNonces },
        net.log ++ [⟨side, source, n,
          encodeProbe sign (net.session side).key (net.session side).pathSession
            (net.session side).sendDirection nowMs n, some bytes⟩]⟩ := by
  have hthis := h.sessions side
  refine h.emit ⟨hthis.key, hthis.pathSession, hthis.direction, rfl⟩ (forall_mem_singleton.mpr rfl) (fun m => ?_) (fun m => ?_)
    (h.log.append (forall_mem_singleton.mpr ?_) (nodup_singleton _) (forall_mem_singleton.mpr ?_)
      (forall_mem_singleton.mpr ?_))
  · simp [isProbe]
  · simp [isProbe, eq_comm (a := n), or_comm (a := m = n)]
  · rw [hthis.key, hthis.pathSession, hthis.direction]
    exact ⟨nowMs, take_encodeProbe⟩
  · -- nobody has answered this nonce: the answer would be to the same probe, so this session's
    intro a ha hkind heq
    obtain ⟨q, hq, hqa⟩ := h.log.answered a ha hkind
    obtain rfl : q = p := h.log.probe_unique hq hp hqa.probe hprobe (by rw [hqa.nonce, heq, hnonce])
    have haside : a.side = side := by
      rw [← Side.other_other a.side, ← hqa.side, hside, Side.other_other]
    exact hseen ((hthis.seen n).mpr ⟨a, ha, haside, hkind, heq⟩)
  · exact fun _ => ⟨p, hp, hprobe, hside, hnonce, bytes, rfl, hbody⟩

theorem Inv.setState
    (hstate : ∀ addr, state = .established addr → ∃ p ∈ net.log, p.side = side ∧ ∃ a ∈ net.log, Answers a p) :
    Inv key pathSession ⟨update net.session side { net.session side with state := state, rtt := rtt }, net.log⟩ := by
  have hthis := h.sessions side
  exact ⟨forall_update { hthis with established := hstate } fun who _ => h.sessions who, h.log⟩

/-- **Step lemma.** -/
theorem inv_step [DecidableEq Addr] (hl : Allowed sign key net l) :
    Inv key pathSession (step sign bucket net l) := by
  cases l with
  | tick side nowMs instant nonces =>
    simp only [step]
    rcases tick_cases sign (net.session side) nowMs instant nonces with
      heq | ⟨-, heq⟩ | ⟨tokens, sends, -, hfront, heq⟩
    · rw [heq, update_eq_self, map_nil, append_nil]
      exact h
    · rw [heq, map_nil, append_nil]
      exact h.setState nofun
    · rw [heq, map_map]
      exact h.addProbes (hfront.sublist.nodup hl.1) fun n hn => hl.2 n (hfront.subset hn)
  | deliver side bytes source nowMs instant =>
    have hthis := h.sessions side
    simp only [step]
    rcases handleDatagram_cases sign source nowMs instant with
      heq | ⟨probe, seen, hverify, hcase⟩
    · rw [heq, update_eq_self, Option.toList_none, map_nil, append_nil]
      exact h
    · rw [hthis.key, hthis.pathSession, hthis.direction] at hverify
      obtain ⟨e, he, hside, hnonce, hbody⟩ := h.log.accepted hl hverify
      rcases hcase with ⟨hown, -, rtt, heq⟩ | ⟨hnot, hseen, heq⟩
      · rw [heq, Option.toList_none, map_nil, append_nil]
        exact h.setState fun _ _ => h.own he hside (hnonce ▸ hown)
      · rw [heq]
        exact h.addAnswer he hside (h.foreign he hside (hnonce ▸ hnot)) hnonce hbody hseen

end

end Invariant

/-! ## The result -/

section Result

variable {Addr τ : Type}

/-- What is promised of two sessions. -/
structure Punched (net : Net Addr τ) : Prop where
  /-- an established session has had one of its probes answered by the other side -/
  authentic : ∀ side addr, (net.session side).state = .established addr →
    ∃ p ∈ net.log, p.side = side ∧ ∃ a ∈ net.log, Answers a p
  /-- what is answered is a probe of the other side, never an answer -/
  answered : ∀ a ∈ net.log, ∀ bytes, a.answers = some bytes →
    (∃ p ∈ net.log, Answers a p) ∧ ∀ e ∈ net.log, bytes.take probeBodyLen = e.body → e.isProbe = true
  /-- a probe is answered once -/
  once : ∀ p ∈ net.log, (net.log.filter fun a => a.answers.map (·.take probeBodyLen) = some p.body).length ≤ 1
  /-- so there are no more answers than probes -/
  bounded : net.log.length ≤ 2 * (net.log.filter isProbe).length

section Log

variable {pathSession : PathSession} {log : List (Emission Addr)}

section

variable (h : LogOk pathSession log)

include h

/-- A body determines the side and the nonce. -/
theorem LogOk.of_body (he : e ∈ log) (he' : e' ∈ log) (hbody : e.body = e'.body) :
    e.side = e'.side ∧ e.nonce = e'.nonce := by
  obtain ⟨ts, hts⟩ := h.bodies e he
  obtain ⟨ts', hts'⟩ := h.bodies e' he'
  have hdirection := congrArg (·.getD 5 0) hbody
  have hnonce := congrArg (drop 30) hbody
  simp only [hts, hts', getD_probeBody] at hdirection
  rw [hts, hts', drop_probeBody, drop_probeBody] at hnonce
  exact ⟨Side.direction_injective (ProbeDirection.byte_injective hdirection), Subtype.ext hnonce⟩

/-- An answer does not look like a probe. -/
theorem LogOk.isProbe_of_body (he : e ∈ log) (hp : p ∈ log) (hprobe : p.isProbe = true) (hbody : p.body = e.body) :
    e.isProbe = true := by
  obtain ⟨hside, hnonce⟩ := h.of_body hp he hbody
  cases hkind : e.isProbe with
  | true => rfl
  | false =>
    obtain ⟨q, hq, hanswers⟩ := h.answered e he hkind
    obtain rfl : q = p := h.probe_unique hq hp hanswers.probe hprobe (hanswers.nonce.trans hnonce.symm)
    exact absurd (hanswers.side.symm.trans hside) Side.other_ne

theorem LogOk.once (hp : p ∈ log) :
    (log.filter fun a => a.answers.map (·.take probeBodyLen) = some p.body).length ≤ 1 := by
  generalize htoo : (log.filter fun a => a.answers.map (·.take probeBodyLen) = some p.body) = too
  have hanswer : ∀ a ∈ too, a.nonce = p.nonce ∧ a.isProbe = false := by
    intro a ha
    rw [← htoo, mem_filter, decide_eq_true_eq] at ha
    obtain ⟨bytes, hbytes, hbody⟩ := Option.map_eq_some_iff.mp ha.2
    have hkind : a.isProbe = false := by simp [isProbe, hbytes]
    obtain ⟨q, hq, hanswers⟩ := h.answered a ha.1 hkind
    obtain ⟨bytes', hbytes', hbody'⟩ := hanswers.received
    obtain rfl : bytes = bytes' := Option.mem_unique hbytes hbytes'
    exact ⟨hanswers.nonce.symm.trans (h.of_body hq hp (hbody'.symm.trans hbody)).2, hkind⟩
  -- they are answers with one nonce, and answers have different ones
  have hsub : (too.map nonce).Sublist ((log.filter fun e => !e.isProbe).map nonce) := by
    refine List.Sublist.map _ ?_
    have hself : too.filter (fun e => !e.isProbe) = too := filter_eq_self.mpr fun a ha => by simp [(hanswer a ha).2]
    have htoosub : too.Sublist log := by
      rw [← htoo]
      exact filter_sublist
    exact hself ▸ htoosub.filter _
  have hnodup := hsub.nodup h.answers
  have hsame : too.map nonce = replicate too.length p.nonce := by
    refine eq_replicate_iff.mpr ⟨length_map _, fun n hn => ?_⟩
    obtain ⟨a, ha, rfl⟩ := mem_map.mp hn
    exact (hanswer a ha).1
  rw [hsame] at hnodup
  exact nodup_replicate.mp hnodup

theorem LogOk.bounded : log.length ≤ 2 * (log.filter isProbe).length := by
  have hsubset : (log.filter fun e => !e.isProbe).map nonce ⊆ (log.filter isProbe).map nonce := by
    intro n hn
    obtain ⟨a, ha, rfl⟩ := mem_map.mp hn
    obtain ⟨p, hp, hanswers⟩ := h.answered a (mem_filter.mp ha).1 (by simpa using (mem_filter.mp ha).2)
    exact mem_map.mpr ⟨p, mem_filter.mpr ⟨hp, hanswers.probe⟩, hanswers.nonce⟩
  have hle := (subperm_of_subset h.answers hsubset).length_le
  rw [length_map, length_map] at hle
  have hsplit := length_eq_length_filter_add isProbe (l := log)
  omega

end

end Log

theorem Inv.punched (h : Inv key pathSession net) : Punched net where
  authentic := fun side => (h.sessions side).established
  answered := by
    intro a ha bytes hbytes
    have hkind : a.isProbe = false := by simp [isProbe, hbytes]
    obtain ⟨p, hp, hanswers⟩ := h.log.answered a ha hkind
    obtain ⟨bytes', hbytes', hbody'⟩ := hanswers.received
    obtain rfl : bytes = bytes' := Option.mem_unique hbytes hbytes'
    exact ⟨⟨p, hp, hanswers⟩, fun e he hbody => h.log.isProbe_of_body he hp hanswers.probe (hbody'.symm.trans hbody)⟩
  once := fun p hp => h.log.once hp
  bounded := h.log.bounded

/-- **Hole punching is sound against an active network**: for every run in which random numbers do not repeat and the
    network makes no tags of its own. -/
theorem punch_sound [DecidableEq Addr] (sign : Bytes → Bytes → Bytes) (bucket : Bucket τ) (key : Bytes)
    (pathSession : PathSession) (peers : Side → List Addr) (instant : Side → Nat) (labels : List (Label Addr))
    (hallowed : Machine.Along (step sign bucket) (Allowed sign key) (boot bucket key pathSession peers instant) labels) :
    Punched (run (step sign bucket) (boot bucket key pathSession peers instant) labels) ∧
    ∀ more side, ((run (step sign bucket) (boot bucket key pathSession peers instant) labels).session side).state ≠
        .probing →
      ((run (step sign bucket) (boot bucket key pathSession peers instant) (labels ++ more)).session side).state =
        ((run (step sign bucket) (boot bucket key pathSession peers instant) labels).session side).state := by
  constructor
  · have hinv := invariant (fun (net : Net Addr τ) l (h : Inv key pathSession net) hl => inv_step h hl)
      inv_boot hallowed
    exact hinv.punched
  · intro more side hstate
    have hrun : ∀ net : Net Addr τ, (net.session side).state ≠ .probing →
        ((run (step sign bucket) net more).session side).state = (net.session side).state := by
      induction more with
      | nil => exact fun _ _ => rfl
      | cons l more ih =>
        intro net hnet
        have hone := state_step sign bucket l hnet
        exact (ih _ (hone.symm ▸ hnet)).trans hone
    have happend : run (step sign bucket) (boot bucket key pathSession peers instant) (labels ++ more) =
        run (step sign bucket) (run (step sign bucket) (boot bucket key pathSession peers instant) labels)
          more := List.foldl_append
    rw [happend]
    exact hrun _ hstate

end Result

/-- Whole tokens, of which ten come every second. -/
def wholeTokens : Bucket Nat where
  burst := 20
  refill tokens elapsed := min 20 (tokens + elapsed / 100000000)
  low tokens := tokens < 1
  spend tokens := tokens - 1

/-- A tag that shows timestamp and nonce; good enough for one run. -/
def plainTag (_key body : Bytes) : Bytes := body.drop 22

def plainSession : PathSession := ⟨List.replicate 16 7, rfl⟩

def plainNonce : Nonce := ⟨[1, 2, 3, 4, 5, 6, 7, 8], rfl⟩

/-- The controller probes, the network delivers the probe twice, and then the answer. -/
def plainLabels : List (Label Nat) :=
  let probe := encodeProbe plainTag [] plainSession .controllerToHost 1000 plainNonce
  let answer := encodeProbe plainTag [] plainSession .hostToController 1000 plainNonce
  [.tick .controller 1000 5 [plainNonce], .deliver .host probe 1 1000 6, .deliver .host probe 3 1000 6,
    .deliver .controller answer 2 1000 7]

/-- The controller is established, after two datagrams. -/
theorem punch_sound_round_trip : Machine.Along (step plainTag wholeTokens) (Allowed plainTag [])
        (boot wholeTokens [] plainSession (fun _ => [2]) fun _ => 0) plainLabels ∧
    ((run (step plainTag wholeTokens) (boot wholeTokens [] plainSession (fun _ => [2]) fun _ => 0)
      plainLabels).session .controller).state = .established 2 ∧
    Punched (run (step plainTag wholeTokens) (boot wholeTokens [] plainSession (fun _ => [2]) fun _ => 0)
      plainLabels) := by
  have hallowed : Machine.Along (step plainTag wholeTokens) (Allowed plainTag [])
      (boot wholeTokens [] plainSession (fun _ => [2]) fun _ => 0) plainLabels := by decide +kernel
  exact ⟨hallowed, by decide +kernel, (punch_sound plainTag wholeTokens [] plainSession _ _ plainLabels hallowed).1⟩

end Supercli.DirectPath
