import Supercli.Remote.EffectDiscipline
import Supercli.Remote.Slots

/-!
# `Remote.EffectStory` — what has happened to the effects

What the trace says of the effects (`EffectStory`): they were sent in the order of their tickets, in a generation whose
bootstrap allows them, and what was returned for them is so (`Justified`). Nothing here knows of threads: each lemma is
one thing that can happen next.
-/

namespace Supercli.Remote

open Option List

/-! ## Traces -/

/-- The ticket of an effect that was sent. -/
def effectTicket : Event → Option Nat
  | .dispatched call _ =>
    match call.purpose with
    | .effect ticket _ => some ticket
    | _ => none
  | _ => none

def effectTickets (trace : List Event) : List Nat := trace.filterMap effectTicket

def acceptedBy : Event → Option AcceptedBootstrap
  | .accepted generation snapshot => some ⟨generation, snapshot⟩
  | _ => none

/-- The bootstrap that was accepted last. -/
def lastAccepted (trace : List Event) : Option AcceptedBootstrap := (trace.filterMap acceptedBy).getLast?

/-- The request of the effect with this ticket. -/
def IsEffect (call : PreparedHostCall) (ticket : Nat) : Prop := ∃ capability, call.purpose = .effect ticket capability

/-- Nothing was sent, or a correlated answer refuses. -/
def Refused (call : PreparedHostCall) : TransportResult → Prop
  | .notSent _ => True
  | .answered reply => reply.requestId = call.requestId ∧ call.requiredGeneration = some reply.generation ∧
      (400 ≤ reply.status ∧ reply.status ≤ 499 ∨ reply.status = 503)
  | _ => False

/-- **What a method returned for its effect is so.** `pre` is what had happened before it did. -/
def Justified (trace pre : List Event) (ticket : Nat) : EffectResult → Prop
  | none => True
  | some (.ok requestId) => ∃ call reply, .dispatched call (.answered reply) ∈ pre ∧ IsEffect call ticket ∧
      call.requestId = requestId ∧ reply.requestId = requestId ∧ call.requiredGeneration = some reply.generation ∧
      reply.status = 200
  | some (.error failure) =>
    (failure.kind = .notApplied → ∀ call result, .dispatched call result ∈ trace → IsEffect call ticket →
      Refused call result) ∧
    (∀ before call result after, pre = before ++ .dispatched call result :: after → IsEffect call ticket →
      ¬ Refused call result → failure.kind = .outcomeUnknown ∧
        ∃ generation, call.requiredGeneration = some generation ∧ .invalidated generation ∈ after) ∧
    (failure.kind = .outcomeUnknown → ∃ call result, .dispatched call result ∈ pre ∧ IsEffect call ticket)

/-- **The story of the effects.** -/
structure EffectStory (b : BackendState) (serving next : Nat) (trace : List Event) : Prop where
  order : (effectTickets trace).Pairwise (· < ·)
  dispatched_le : ∀ {ticket}, ticket ∈ effectTickets trace → ticket ≤ serving
  dispatched_lt : ∀ {ticket}, ticket ∈ effectTickets trace → ticket < next
  bound : ∀ pre call result post ticket capability, trace = pre ++ .dispatched call result :: post →
    call.purpose = .effect ticket capability → ∃ accepted, call.requiredGeneration = some accepted.generation ∧
      lastAccepted pre = some accepted ∧ accepted.snapshot.supports capability = true
  accepted : ∀ accepted, b.accepted = some accepted → lastAccepted trace = some accepted
  returned_lt : ∀ ticket result, .returned ticket result ∈ trace → ticket < serving
  justified : ∀ pre ticket result post, trace = pre ++ .returned ticket result :: post →
    Justified trace pre ticket result
  invalidated : ∀ pre generation post, trace = pre ++ .invalidated generation :: post →
    (∀ snapshot, .accepted generation snapshot ∉ post) → b.acceptedGeneration ≠ some generation

/-! ## Acceptance -/

/-- The acceptance is as it was, or gone. -/
def BackendState.KeepsAccepted (b b' : BackendState) : Prop :=
  b'.acceptedGeneration = b.acceptedGeneration ∧ b'.lastBootstrap = b.lastBootstrap ∨ b'.acceptedGeneration = none

namespace BackendState

variable (b : BackendState)

theorem keepsAccepted_refl : b.KeepsAccepted b := .inl ⟨rfl, rfl⟩

variable (t : OutputPageToken)

theorem keepsAccepted_clearMatchingPage : b.KeepsAccepted (b.clearMatchingPage t) := by
  rcases clearMatchingPage_cases (b := b) t with ⟨-, heq⟩ | ⟨-, heq⟩
  · rw [heq]
    exact .inl ⟨rfl, rfl⟩
  · rw [heq]
    exact b.keepsAccepted_refl

theorem keepsAccepted_invalidateGeneration :
    b.KeepsAccepted (b.invalidateGeneration generation) := by
  rw [invalidateGeneration]
  split
  · exact b.keepsAccepted_refl
  · exact .inr rfl

theorem keepsAccepted_reserve :
    b.KeepsAccepted (b.reserve sessionId start generation).2 := by
  rw [reserve]
  split
  · exact b.keepsAccepted_refl
  · dsimp only
    split
    · exact .inl ⟨rfl, rfl⟩
    · exact .inl ⟨rfl, rfl⟩

theorem keepsAccepted_stage : b.KeepsAccepted (b.stage t).2 := by
  rw [stage]
  split
  · exact b.keepsAccepted_clearMatchingPage t
  · split
    · exact b.keepsAccepted_refl
    · split
      · exact b.keepsAccepted_refl
      · exact .inl ⟨rfl, rfl⟩

theorem keepsAccepted_commitPage : b.KeepsAccepted (b.commitPage t).2 := by
  rw [commitPage]
  split
  · exact b.keepsAccepted_refl
  · split
    · exact b.keepsAccepted_refl
    · exact .inl ⟨rfl, rfl⟩

/-- **`publish`** accepts the bootstrap or accepts nothing. -/
theorem publish_cases (revision : Nat) (generation : ConnectionGeneration) (snapshot : RemoteBootstrapSnapshot) :
    (∃ error b', b.publish revision generation snapshot = (.error error, b') ∧ b.KeepsAccepted b') ∨
      ∃ b', b.publish revision generation snapshot = (.ok (), b') ∧ b'.acceptedGeneration = some generation ∧
        b'.lastBootstrap = some snapshot := by
  rw [publish]
  split
  · exact .inl ⟨_, _, rfl, b.keepsAccepted_refl⟩
  · split
    · split
      · exact .inl ⟨_, _, rfl, .inr rfl⟩
      · exact .inr ⟨_, rfl, rfl, rfl⟩
    · exact .inr ⟨_, rfl, rfl, rfl⟩

theorem acceptedGeneration_invalidateGeneration :
    (b.invalidateGeneration generation).acceptedGeneration ≠ some generation := by
  rw [invalidateGeneration]
  split
  · assumption
  · rintro ⟨⟩

variable {b} {b' : BackendState}

theorem accepted_of_keepsAccepted (h : b.KeepsAccepted b') {accepted : AcceptedBootstrap}
    (haccepted : b'.accepted = some accepted) : b.accepted = some accepted := by
  rcases h with ⟨hgeneration, hbootstrap⟩ | hnone
  · rw [BackendState.accepted, hgeneration, hbootstrap] at haccepted
    exact haccepted
  · rw [BackendState.accepted, hnone] at haccepted
    exact nomatch haccepted

theorem acceptedGeneration_of_keepsAccepted (h : b.KeepsAccepted b') (hne : b.acceptedGeneration ≠ some generation) :
    b'.acceptedGeneration ≠ some generation := by
  rcases h with ⟨hgeneration, -⟩ | hnone
  · rw [hgeneration]
    exact hne
  · rw [hnone]
    exact nofun

end BackendState

/-! ## What can happen next -/

section Steps

variable {b b' : BackendState} {serving next : Nat} {trace : List Event} {e : Event}

theorem filterMap_singleton_eq {f : α → Option β} {a : α} : [a].filterMap f = (f a).toList := by
  cases h : f a with
  | none => rw [filterMap_cons_none h]; rfl
  | some => rw [filterMap_cons_some h]; rfl

theorem effectTickets_concat : effectTickets (trace ++ [e]) = effectTickets trace ++ (effectTicket e).toList := by
  rw [effectTickets, filterMap_append, filterMap_singleton_eq]
  rfl

theorem lastAccepted_concat : lastAccepted (trace ++ [e]) = (acceptedBy e).or (lastAccepted trace) := by
  rw [lastAccepted, filterMap_append, filterMap_singleton_eq]
  cases acceptedBy e with
  | none =>
    rw [toList_none, append_nil]
    rfl
  | some =>
    rw [toList_some, getLast?_concat]
    rfl

variable {result : TransportResult} {call : PreparedHostCall}

theorem isEffect_iff_effectTicket : IsEffect call ticket ↔ effectTicket (.dispatched call result) = some ticket := by
  rw [IsEffect, effectTicket]
  cases call.purpose with
  | effect t c =>
    constructor
    · rintro ⟨capability, heq⟩
      exact congrArg some (Purpose.effect.inj heq).1
    · intro heq
      exact ⟨c, by rw [some.inj heq]⟩
  | _ =>
    constructor
    · rintro ⟨capability, heq⟩
      exact nomatch heq
    · exact nofun

theorem mem_effectTickets (h : .dispatched call result ∈ trace) (heffect : IsEffect call ticket) :
    ticket ∈ effectTickets trace :=
  mem_filterMap.mpr ⟨_, h, isEffect_iff_effectTicket.mp heffect⟩

/-- Another event does not make what was returned wrong, if it is not the effect's own request. -/
theorem Justified.concat {result : EffectResult} (h : Justified trace pre ticket result)
    (hticket : effectTicket e ≠ some ticket) : Justified (trace ++ [e]) pre ticket result := by
  match result with
  | none => trivial
  | some (.ok requestId) => exact h
  | some (.error failure) =>
    refine ⟨fun hkind call result hin heffect => ?_, h.2⟩
    rcases mem_append.mp hin with hin | hin
    · exact h.1 hkind call result hin heffect
    · rw [← mem_singleton.mp hin] at hticket
      exact absurd (isEffect_iff_effectTicket.mp heffect) hticket

section

variable (h : EffectStory b serving next trace)

include h

/-- **One more event.** A request of an effect has its turn, and what accepts a generation is its bootstrap. -/
theorem EffectStory.concat
    (hturn : ∀ ticket, effectTicket e = some ticket → ticket = serving ∧ ticket < next ∧ ticket ∉ effectTickets trace)
    (hbound : ∀ call result ticket capability, e = .dispatched call result → call.purpose = .effect ticket capability →
      ∃ accepted, call.requiredGeneration = some accepted.generation ∧ lastAccepted trace = some accepted ∧
        accepted.snapshot.supports capability = true)
    (haccepted : ∀ accepted, b'.accepted = some accepted → lastAccepted (trace ++ [e]) = some accepted)
    (hreturned : ∀ ticket result, e = .returned ticket result →
      ticket < serving ∧ Justified (trace ++ [e]) trace ticket result)
    (hgeneration : ∀ generation, b'.acceptedGeneration = some generation → (∃ snapshot, e = .accepted generation snapshot) ∨
      e ≠ .invalidated generation ∧ b.acceptedGeneration = some generation) :
    EffectStory b' serving next (trace ++ [e]) := by
  have hin : ∀ {ticket}, ticket ∈ effectTickets (trace ++ [e]) →
      ticket ∈ effectTickets trace ∨ ticket = serving ∧ ticket < next := by
    intro ticket hticket
    rw [effectTickets_concat, mem_append, mem_toList] at hticket
    exact hticket.imp_right fun heq => ⟨(hturn ticket heq).1, (hturn ticket heq).2.1⟩
  refine ⟨?_, fun hticket => ?_, fun hticket => ?_, ?_, haccepted, ?_, ?_, ?_⟩
  · rw [effectTickets_concat, pairwise_append]
    refine ⟨h.order, by cases effectTicket e <;> simp, fun i hi j hj => ?_⟩
    obtain ⟨rfl, -, hnew⟩ := hturn j (mem_toList.mp hj)
    refine Nat.lt_of_le_of_ne (h.dispatched_le hi) ?_
    rintro rfl
    exact hnew hi
  · exact (hin hticket).elim h.dispatched_le fun hnow => Nat.le_of_eq hnow.1
  · exact (hin hticket).elim h.dispatched_lt And.right
  · intro pre call result post ticket capability hsplit hpurpose
    rcases split_concat hsplit with ⟨rfl, heq⟩ | ⟨post', -, hsplit'⟩
    · exact hbound call result ticket capability heq.symm hpurpose
    · exact h.bound pre call result post' ticket capability hsplit' hpurpose
  · intro ticket result hmem
    rcases mem_append.mp hmem with hmem | hmem
    · exact h.returned_lt ticket result hmem
    · exact (hreturned ticket result (mem_singleton.mp hmem).symm).1
  · intro pre ticket result post hsplit
    rcases split_concat hsplit with ⟨rfl, heq⟩ | ⟨post', -, hsplit'⟩
    · exact (hreturned ticket result heq.symm).2
    · -- a call that has returned has had its turn
      refine (h.justified pre ticket result post' hsplit').concat fun heffect => ?_
      have hlt : ticket < serving := by
        refine h.returned_lt ticket result ?_
        rw [hsplit']
        exact mem_append_right _ mem_cons_self
      have heq := (hturn ticket heffect).1
      omega
  · intro pre generation post hsplit hpost hnow
    rcases split_concat hsplit with ⟨-, heq⟩ | ⟨post', rfl, hsplit'⟩
    · rcases hgeneration generation hnow with ⟨snapshot, heq'⟩ | ⟨hne, -⟩
      · exact nomatch heq.trans heq'
      · exact hne heq.symm
    · rcases hgeneration generation hnow with ⟨snapshot, rfl⟩ | ⟨-, hwas⟩
      · exact hpost snapshot (mem_append_right _ mem_cons_self)
      · exact h.invalidated pre generation post' hsplit' (fun snapshot hmem =>
          hpost snapshot (mem_append_left _ hmem)) hwas

/-- The backend changes, and accepts nothing. -/
theorem EffectStory.backend (hb : b.KeepsAccepted b') : EffectStory b' serving next trace :=
  { h with
    accepted := fun accepted haccepted => h.accepted accepted (BackendState.accepted_of_keepsAccepted hb haccepted)
    invalidated := fun pre generation post hsplit hpost =>
      BackendState.acceptedGeneration_of_keepsAccepted hb (h.invalidated pre generation post hsplit hpost) }

theorem EffectStory.serve : EffectStory b (serving + 1) next trace :=
  { h with
    dispatched_le := fun hin => Nat.le_succ_of_le (h.dispatched_le hin)
    returned_lt := fun ticket result hin => Nat.lt_succ_of_lt (h.returned_lt ticket result hin) }

theorem EffectStory.ticket : EffectStory b serving (next + 1) trace :=
  { h with dispatched_lt := fun hin => Nat.lt_succ_of_lt (h.dispatched_lt hin) }

/-- An event that is no request of an effect and no bootstrap. -/
theorem EffectStory.event (hticket : effectTicket e = none) (haccepted : acceptedBy e = none)
    (hinvalidated : ∀ generation, e = .invalidated generation → b.acceptedGeneration ≠ some generation)
    (hreturned : ∀ ticket result, e = .returned ticket result →
      ticket < serving ∧ Justified (trace ++ [e]) trace ticket result) : EffectStory b serving next (trace ++ [e]) := by
  refine h.concat (fun _ heq => nomatch hticket.symm.trans heq) ?_ ?_ hreturned ?_
  · rintro call result ticket capability rfl hpurpose
    exact nomatch hticket.symm.trans (isEffect_iff_effectTicket.mp ⟨capability, hpurpose⟩)
  · rw [lastAccepted_concat, haccepted]
    exact h.accepted
  · exact fun generation hnow => .inr ⟨fun heq => hinvalidated generation heq hnow, hnow⟩

/-- **A bootstrap is accepted.** -/
theorem EffectStory.accept
    (hgeneration : b'.acceptedGeneration = some generation) (hsnapshot : b'.lastBootstrap = some snapshot) :
    EffectStory b' serving next (trace ++ [.accepted generation snapshot]) := by
  refine h.concat (fun _ heq => nomatch heq) (fun _ _ _ _ heq => nomatch heq) (fun accepted haccepted => ?_)
    nofun (fun other heq => ?_)
  · rw [BackendState.accepted, hgeneration, hsnapshot] at haccepted
    rw [lastAccepted_concat, ← haccepted]
    rfl
  · obtain rfl := mem_unique hgeneration heq
    exact .inl ⟨snapshot, rfl⟩

/-- **An effect is sent**, in its turn. -/
theorem EffectStory.dispatch {accepted : AcceptedBootstrap} (hpurpose : call.purpose = .effect serving capability)
    (hlt : serving < next) (hnew : serving ∉ effectTickets trace)
    (hgeneration : call.requiredGeneration = some accepted.generation) (hlast : lastAccepted trace = some accepted)
    (hsupports : accepted.snapshot.supports capability = true) :
    EffectStory b serving next (trace ++ [.dispatched call result]) := by
  have hticket : effectTicket (.dispatched call result) = some serving :=
    isEffect_iff_effectTicket.mp ⟨capability, hpurpose⟩
  refine h.concat (fun ticket heq => ?_) ?_ ?_ nofun ?_
  · obtain rfl := mem_unique hticket heq
    exact ⟨rfl, hlt, hnew⟩
  · rintro call' result' ticket' capability' ⟨⟩ hpurpose'
    obtain ⟨-, rfl⟩ := Purpose.effect.inj (hpurpose.symm.trans hpurpose')
    exact ⟨accepted, hgeneration, hlast, hsupports⟩
  · rw [lastAccepted_concat]
    exact h.accepted
  · exact fun generation hnow => .inr ⟨nofun, hnow⟩

end

end Steps

/-! ## What a thread knows -/

/-- What the thread saw is what became of the request. -/
theorem refused_of_seenRefused
    (heffect : IsEffect call ticket) (h : SeenRefused call (result.seen call)) : Refused call result := by
  obtain ⟨capability, hpurpose⟩ := heffect
  cases result with
  | answered => exact h
  | lost timedOut message =>
    cases timedOut with
    | true | false =>
      simp only [TransportResult.seen, hpurpose] at h
      exact nomatch h
  | notSent => trivial
  | panics => exact h.elim

theorem answered_of_seen {result : TransportResult} (h : result.seen call = some (.ok reply)) :
    result = .answered reply := by
  cases result with
  | answered => exact congrArg _ (Except.ok.inj (some.inj h))
  | lost timedOut message => cases timedOut <;> exact nomatch h
  | notSent _ | panics => exact nomatch h

end Supercli.Remote
