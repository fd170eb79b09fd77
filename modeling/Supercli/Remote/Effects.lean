import Supercli.Lib.Fair
import Supercli.Lib.Tickets
import Supercli.Remote.EffectStory

/-!
# `Remote.Effects` — effects are sent once, in order, and nothing is claimed of them that is not so

The marks of the threads (`Remote.EffectDiscipline`), the queue of their tickets (`Lib.Tickets`) and the story of the
effects (`Remote.EffectStory`) are an invariant of the backend's threads. With it, whatever the threads and the connection
do, effects are sent in the order of their tickets and in an accepted generation, what is returned for them is so, and in
a fair schedule every ticket gets its turn (`effects_in_turn`).
-/

namespace Supercli.Remote

open Function Option Fleet Nat

/-! ## The invariant -/

/-- What the mark of a thread says is so. -/
structure MarkOk (serving : Nat) (trace : List Event) (m : EffectMark) : Prop where
  verified : ∀ accepted, m.verified = some accepted → m.gate = true ∧ lastAccepted trace = some accepted
  granted : ∀ {ticket}, m.turn = .granted ticket → serving = ticket
  finished : ∀ {ticket}, m.turn = .finished ticket → ticket < serving
  told : ∀ {ticket}, m.turn.ticket = some ticket → ∀ before call result after,
    trace = before ++ .dispatched call result :: after → IsEffect call ticket →
      m.sent = some (call, result.seen call) ∧ (m.invalidated = true →
          ∃ generation, call.requiredGeneration = some generation ∧ .invalidated generation ∈ after)
  sent : ∀ call seen, m.sent = some (call, seen) → ∃ ticket result, m.turn.ticket = some ticket ∧
    .dispatched call result ∈ trace ∧ IsEffect call ticket ∧ result.seen call = seen

abbrev EffectMarks := Nat → Option EffectMark

/-- The tickets that threads have. -/
def heldTickets (marks : EffectMarks) (w : Nat) : Option Nat := (marks w).bind fun m => m.turn.held

/-- **What holds between the backend and its threads.** -/
structure EffectInv (s : Shared) (marks : EffectMarks) : Prop where
  gate : ∀ w, s.gate = some w ↔ ∃ m, marks w = some m ∧ m.gate = true
  tickets : Tickets (heldTickets marks) s.serving s.nextTicket
  marks : ∀ w m, marks w = some m → MarkOk s.serving s.trace m
  story : EffectStory s.backend s.serving s.nextTicket s.trace

section MarkSteps

variable {serving : Nat} {trace : List Event} {m : EffectMark} {e : Event}

section

variable (h : MarkOk serving trace m)

include h

/-- Something happens that is not the thread's. -/
theorem MarkOk.concat (haccepted : acceptedBy e = none ∨ m.verified = none)
    (hticket : ∀ ticket, effectTicket e = some ticket → m.turn.ticket ≠ some ticket) :
    MarkOk serving (trace ++ [e]) m := by
  refine ⟨fun accepted hverified => ?_, h.granted, h.finished, ?_, fun call seen hsent => ?_⟩
  · rcases haccepted with hnone | hnone
    · rw [lastAccepted_concat, hnone]
      exact h.verified accepted hverified
    · exact nomatch hnone.symm.trans hverified
  · intro ticket hturn before call result after hsplit heffect
    rcases split_concat hsplit with ⟨-, rfl⟩ | ⟨after', rfl, hsplit'⟩
    · exact absurd hturn (hticket ticket (isEffect_iff_effectTicket.mp heffect))
    · obtain ⟨hsent, hinvalidated⟩ := h.told hturn before call result after' hsplit' heffect
      refine ⟨hsent, fun hm => ?_⟩
      obtain ⟨generation, hgeneration, hin⟩ := hinvalidated hm
      exact ⟨generation, hgeneration, List.mem_append_left _ hin⟩
  · obtain ⟨ticket, result, hturn, hin, hrest⟩ := h.sent call seen hsent
    exact ⟨ticket, result, hturn, List.mem_append_left _ hin, hrest⟩

/-- The turn goes to the next ticket, and it was not the thread's. -/
theorem MarkOk.serve (hne : ∀ ticket, m.turn ≠ .granted ticket) : MarkOk (serving + 1) trace m :=
  { h with
    granted := fun hturn => absurd hturn (hne _)
    finished := fun hturn => lt_succ_of_lt (h.finished hturn) }

/-- The thread goes on with its ticket. -/
theorem MarkOk.goesOn (hticket : turn.ticket = m.turn.ticket)
    (hgranted : ∀ {ticket}, turn = .granted ticket → serving' = ticket)
    (hfinished : ∀ {ticket}, turn = .finished ticket → ticket < serving') :
    MarkOk serving' trace { m with turn := turn } :=
  ⟨h.verified, hgranted, hfinished, fun heq => h.told (hticket.symm.trans heq), fun call seen hsent =>
    let ⟨ticket, result, hturn, hrest⟩ := h.sent call seen hsent
    ⟨ticket, result, hticket.trans hturn, hrest⟩⟩

/-- **The thread invalidates a generation.** -/
theorem MarkOk.invalidate :
    MarkOk serving (trace ++ [.invalidated generation]) (m.invalidate generation) := by
  have hconcat : MarkOk serving (trace ++ [.invalidated generation]) m :=
    h.concat (.inl rfl) nofun
  rw [EffectMark.invalidate]
  split
  · rename_i hsame
    refine { hconcat with told := ?_ }
    intro ticket hturn before call result after hsplit heffect
    obtain ⟨hsent, -⟩ := hconcat.told hturn before call result after hsplit heffect
    refine ⟨hsent, fun _ => ⟨generation, ?_, ?_⟩⟩
    · rw [hsent] at hsame
      simpa using hsame
    · rcases split_concat hsplit with ⟨-, heq⟩ | ⟨after', rfl, -⟩
      · cases heq
      · exact List.mem_append_right _ List.mem_cons_self
  · exact hconcat

end

end MarkSteps

section Moves

variable {s s' : Shared} {marks : EffectMarks} {w : Nat} {m m' : EffectMark}

theorem heldTickets_update :
    heldTickets (update marks w o) = update (heldTickets marks) w (o.bind fun m => m.turn.held) := by
  funext v
  by_cases h : v = w
  · subst h
    rw [heldTickets, update_self, update_self]
  · rw [heldTickets, update_of_ne h, update_of_ne h, heldTickets]

theorem heldTickets_of (hm : marks w = some m) : heldTickets marks w = m.turn.held := by
  rw [heldTickets, hm, bind_some]

section

variable (h : EffectInv s marks)

include h

theorem EffectInv.gate_iff (hm : marks w = some m) : s.gate = some w ↔ m.gate = true := by
  rw [h.gate w]
  exact ⟨fun ⟨n, hn, hg⟩ => mem_unique hm hn ▸ hg, fun hg => ⟨m, hm, hg⟩⟩

/-- The tickets of a thread that keeps its own. -/
theorem EffectInv.tickets_same (hm : marks w = some m) :
    Tickets (update (heldTickets marks) w m.turn.held) s.serving s.nextTicket := by
  rw [← heldTickets_of hm, update_eq_self]
  exact h.tickets

theorem EffectInv.after (hgate : s'.gate = some w ↔ m'.gate = true)
    (hgates : ∀ v, v ≠ w → (s'.gate = some v ↔ s.gate = some v))
    (htickets : Tickets (update (heldTickets marks) w m'.turn.held) s'.serving s'.nextTicket)
    (hmark : MarkOk s'.serving s'.trace m') (hmarks : ∀ v n, v ≠ w → marks v = some n → MarkOk s'.serving s'.trace n)
    (hstory : EffectStory s'.backend s'.serving s'.nextTicket s'.trace) :
    EffectInv s' (update marks w (some m')) := by
  refine ⟨fun v => ?_, heldTickets_update ▸ htickets, fun v n hv => ?_, hstory⟩
  · by_cases heq : v = w
    · subst heq
      rw [hgate, update_self]
      exact ⟨fun hm => ⟨m', rfl, hm⟩, fun ⟨n, hn, hm⟩ => some.inj hn ▸ hm⟩
    · rw [hgates v heq, update_of_ne heq]
      exact h.gate v
  · rcases update_some hv with ⟨-, ⟨⟩⟩ | ⟨hne, hv⟩
    · exact hmark
    · exact hmarks v n hne hv

theorem EffectInv.after_same (hm : marks w = some m) (hgate : s'.gate = s.gate) (hserving : s'.serving = s.serving)
    (hnext : s'.nextTicket = s.nextTicket) (hgate' : m'.gate = m.gate) (hturn : m'.turn.held = m.turn.held)
    (hmark : MarkOk s'.serving s'.trace m') (hmarks : ∀ v n, v ≠ w → marks v = some n → MarkOk s'.serving s'.trace n)
    (hstory : EffectStory s'.backend s'.serving s'.nextTicket s'.trace) :
    EffectInv s' (update marks w (some m')) := by
  refine h.after ?_ (fun v _ => by rw [hgate]) ?_ hmark hmarks hstory
  · rw [hgate, hgate']
    exact h.gate_iff hm
  · rw [hserving, hnext, hturn]
    exact h.tickets_same hm

theorem EffectInv.frame (hgate : s'.gate = s.gate) (hserving : s'.serving = s.serving)
    (hnext : s'.nextTicket = s.nextTicket) (htrace : s'.trace = s.trace)
    (hbackend : s.backend.KeepsAccepted s'.backend) : EffectInv s' marks := by
  refine ⟨hgate ▸ h.gate, ?_, ?_, ?_⟩
  · rw [hserving, hnext]
    exact h.tickets
  · rw [hserving, htrace]
    exact h.marks
  · rw [hserving, hnext, htrace]
    exact h.story.backend hbackend

/-- An event that is no request of an effect and no bootstrap. -/
theorem EffectInv.event (hticket : effectTicket e = none)
    (haccepted : acceptedBy e = none) (hinvalidated : ∀ generation, e ≠ .invalidated generation)
    (hreturned : ∀ ticket result, e ≠ .returned ticket result) : EffectInv (s.record [e]) marks := by
  refine ⟨h.gate, h.tickets, fun w m hm => (h.marks w m hm).concat (.inl haccepted) ?_,
    h.story.event hticket haccepted ?_ ?_⟩
  · rw [hticket]
    exact nofun
  · exact fun generation heq => absurd heq (hinvalidated generation)
  · exact fun ticket result heq => absurd heq (hreturned ticket result)

theorem EffectInv.idle (hm : marks w = some m) (hnext : some m = some m') :
    EffectInv s (update marks w (some m')) := by
  rw [← hnext, ← hm, update_eq_self]
  exact h

/-- A thread behind the gate is alone there. -/
theorem EffectInv.verified_none (hm : marks w = some m) (hgate : m.gate = true)
    (hv : v ≠ w) (hn : marks v = some n) : n.verified = none := by
  cases hverified : n.verified with
  | none => rfl
  | some accepted =>
    have hother := (h.gate_iff hn).mpr ((h.marks v n hn).verified accepted hverified).1
    exact absurd (some.inj (hother.symm.trans ((h.gate_iff hm).mpr hgate))) hv

end

variable {ticket : Nat}

/-- A thread in its turn is alone with its ticket. -/
theorem EffectInv.ticket_ne (h : EffectInv s marks) (hm : marks w = some m) (hturn : m.turn = .granted ticket)
    (hv : v ≠ w) (hn : marks v = some n) : n.turn.ticket ≠ some ticket := by
  intro heq
  have hserving := (h.marks w m hm).granted hturn
  cases hother : n.turn with
  | none =>
    rw [hother] at heq
    exact nomatch heq
  | finished =>
    have hlt := (h.marks v n hn).finished hother
    rw [hother] at heq
    have hsame := some.inj heq
    omega
  | waiting other | granted other =>
    rw [hother] at heq
    refine hv (h.tickets.threads ((heldTickets_of hn).trans ?_) ((heldTickets_of hm).trans (by rw [hturn]; rfl)))
    rw [hother]
    exact heq

/-! ### The gate -/

section

variable (h : EffectInv s marks) (hm : marks w = some m)

include h hm

theorem EffectInv.lockGate (hfree : s.gate = none) :
    EffectInv { s with gate := some w } (update marks w (some { m with gate := true })) := by
  have hmark := h.marks w m hm
  refine h.after ⟨fun _ => rfl, fun _ => rfl⟩ (fun v hv => ?_) (h.tickets_same (m := m) hm) { hmark with verified := ?_ }
    (fun v n _ hn => h.marks v n hn) h.story
  · rw [hfree]
    exact ⟨fun heq => absurd (some.inj heq).symm hv, nofun⟩
  · exact fun accepted hverified => ⟨rfl, (hmark.verified accepted hverified).2⟩

theorem EffectInv.unlockGate (hgate : m.gate = true) :
    EffectInv { s with gate := none } (update marks w (some { m with gate := false, verified := none })) := by
  refine h.after ⟨nofun, nofun⟩ (fun v hv => ?_) (h.tickets_same (m := m) hm)
    { h.marks w m hm with verified := fun _ heq => nomatch heq } (fun v n _ hn => h.marks v n hn) h.story
  rw [(h.gate_iff hm).mpr hgate]
  exact ⟨nofun, fun heq => absurd (some.inj heq).symm hv⟩

/-- The thread looks at the bootstrap behind the gate. -/
theorem EffectInv.verify (hgate : m.gate = true) :
    EffectInv s (update marks w (some { m with verified := s.backend.accepted })) :=
  h.after_same hm rfl rfl rfl rfl rfl
    { h.marks w m hm with verified := fun accepted heq => ⟨hgate, h.story.accepted accepted heq⟩ }
    (fun v n _ hn => h.marks v n hn) h.story

/-- **A bootstrap is published** by the thread that has the gate. -/
theorem EffectInv.publish (hgate : m.gate = true)
    (hgeneration : b'.acceptedGeneration = some generation) (hsnapshot : b'.lastBootstrap = some snapshot) :
    EffectInv ({ s with backend := b' }.record [.accepted generation snapshot])
      (update marks w (some { m with verified := none })) := by
  have hmark : MarkOk s.serving s.trace { m with verified := none } :=
    { h.marks w m hm with verified := fun _ heq => nomatch heq }
  refine h.after_same hm rfl rfl rfl rfl rfl (hmark.concat (.inr rfl) nofun) (fun v n hv hn => ?_)
    (h.story.accept hgeneration hsnapshot)
  exact (h.marks v n hn).concat (.inr (h.verified_none hm hgate hv hn)) nofun

theorem EffectInv.publish_fails (hb : s.backend.KeepsAccepted b') :
    EffectInv { s with backend := b' } (update marks w (some { m with verified := none })) :=
  h.after_same hm rfl rfl rfl rfl rfl { h.marks w m hm with verified := fun _ heq => nomatch heq }
    (fun v n _ hn => h.marks v n hn) (h.story.backend hb)

end

/-! ### Turns -/

section

variable (h : EffectInv s marks) (hm : marks w = some m)

include h hm

/-- **A ticket is taken.** -/
theorem EffectInv.takeTicket (hturn : m.turn = .none) (hsent : m.sent = none) :
    EffectInv { s with nextTicket := s.nextTicket + 1 }
      (update marks w (some { m with turn := .waiting s.nextTicket })) := by
  have hheld : heldTickets marks w = none := by
    rw [heldTickets_of hm, hturn]
    rfl
  have hgate : s.gate = some w ↔ m.gate = true := h.gate_iff hm
  refine h.after hgate (fun _ _ => Iff.rfl) (h.tickets.take hheld) ?_ (fun v n _ hn => h.marks v n hn) h.story.ticket
  refine { h.marks w m hm with
    granted := nofun
    finished := nofun
    told := ?_
    sent := ?_ }
  · -- nothing was sent with this ticket yet
    intro ticket hticket before call result after hsplit heffect
    obtain rfl := some.inj hticket
    have hin : Event.dispatched call result ∈ s.trace := by
      rw [show s.trace = _ from hsplit]
      exact List.mem_append_right _ List.mem_cons_self
    exact absurd (h.story.dispatched_lt (mem_effectTickets hin heffect)) (Nat.lt_irrefl _)
  · intro call seen heq
    exact nomatch hsent.symm.trans heq

/-- **It is a thread's turn.** -/
theorem EffectInv.awaitTurn (hturn : m.turn = .waiting ticket) (hserving : s.serving = ticket) :
    EffectInv s (update marks w (some { m with turn := .granted ticket })) := by
  refine h.after_same hm rfl rfl rfl rfl (by rw [hturn]; rfl) ?_ (fun v n _ hn => h.marks v n hn) h.story
  exact (h.marks w m hm).goesOn (by rw [hturn]; rfl) (fun heq => hserving.trans (Turn.granted.inj heq))
    nofun

/-- **The turn is over.** -/
theorem EffectInv.finishTurn (hturn : m.turn = .granted ticket) :
    EffectInv { s with serving := s.serving + 1 }
      (update marks w (some { m with turn := .finished ticket })) := by
  have hmark := h.marks w m hm
  obtain rfl := hmark.granted hturn
  have hheld : heldTickets marks w = some s.serving := by
    rw [heldTickets_of hm, hturn]
    rfl
  have hgate : s.gate = some w ↔ m.gate = true := h.gate_iff hm
  refine h.after hgate (fun _ _ => Iff.rfl) (h.tickets.finish hheld) ?_ ?_ h.story.serve
  · refine hmark.goesOn (by rw [hturn]; rfl) nofun fun heq => ?_
    rw [← Turn.finished.inj heq]
    exact lt_succ_self _
  · intro v n hv hn
    refine (h.marks v n hn).serve fun ticket hgranted => ?_
    obtain rfl := (h.marks v n hn).granted hgranted
    exact h.ticket_ne hm hturn hv hn (by rw [hgranted]; rfl)

end

/-! ### Requests -/

section

variable (h : EffectInv s marks)

include h

/-- **An effect is sent.** -/
theorem EffectInv.dispatch (hm : marks w = some m) (hpurpose : call.purpose = .effect ticket capability)
    (hmay : m.mayDispatch call ticket capability = true) :
    EffectInv (s.record [.dispatched call result])
      (update marks w (some { m with sent := some (call, result.seen call), invalidated := false })) := by
  have hmark := h.marks w m hm
  simp only [EffectMark.mayDispatch, Bool.and_eq_true, beq_iff_eq, isNone_iff_eq_none, any_eq_true] at hmay
  obtain ⟨⟨⟨hgate, hturn⟩, hsent⟩, accepted, hverified, hgeneration, hsupports⟩ := hmay
  obtain rfl := hmark.granted hturn
  have hticket : m.turn.ticket = some s.serving := by
    rw [hturn]
    rfl
  have hheld : heldTickets marks w = some s.serving := by
    rw [heldTickets_of hm, hturn]
    rfl
  -- this thread has sent nothing, and no other has its ticket
  have hnew : ∀ before call' result' after, s.trace = before ++ .dispatched call' result' :: after →
      ¬ IsEffect call' s.serving := by
    intro before call' result' after hsplit heffect
    exact nomatch hsent.symm.trans (hmark.told hticket before call' result' after hsplit heffect).1
  have hnotin : s.serving ∉ effectTickets s.trace := by
    intro hin
    obtain ⟨e, he, heffect⟩ := List.mem_filterMap.mp hin
    obtain ⟨before, after, hsplit⟩ := List.append_of_mem he
    cases e with
    | dispatched call' result' => exact hnew before call' result' after hsplit (isEffect_iff_effectTicket.mpr heffect)
    | _ => exact nomatch heffect
  refine h.after_same hm rfl rfl rfl rfl rfl ?_ (fun v n hv hn => ?_)
    (h.story.dispatch hpurpose (h.tickets.held_lt hheld) hnotin hgeneration (hmark.verified accepted hverified).2
      hsupports)
  · refine ⟨fun accepted' heq => ?_, hmark.granted, hmark.finished, ?_, ?_⟩
    · show _ ∧ lastAccepted (s.trace ++ [.dispatched call result]) = _
      rw [lastAccepted_concat]
      exact hmark.verified accepted' heq
    · intro ticket hticket' before call' result' after hsplit heffect
      obtain rfl := mem_unique hticket hticket'
      rcases split_concat hsplit with ⟨-, heq⟩ | ⟨after', -, hsplit'⟩
      · obtain ⟨rfl, rfl⟩ := Event.dispatched.inj heq
        exact ⟨rfl, nofun⟩
      · exact absurd heffect (hnew before call' result' after' hsplit')
    · intro call' seen heq
      obtain ⟨rfl, rfl⟩ := Prod.mk.inj (some.inj heq)
      exact ⟨s.serving, result, hticket, List.mem_append_right _ List.mem_cons_self, ⟨capability, hpurpose⟩, rfl⟩
  · refine (h.marks v n hn).concat (.inl rfl) fun ticket heq => ?_
    obtain rfl := some.inj ((isEffect_iff_effectTicket.mp ⟨capability, hpurpose⟩).symm.trans heq)
    exact h.ticket_ne hm hturn hv hn

theorem EffectInv.invalidate (hm : marks w = some m) :
    EffectInv ({ s with backend := s.backend.invalidateGeneration generation }.record [.invalidated generation])
      (update marks w (some (m.invalidate generation))) := by
  have hgate : (m.invalidate generation).gate = m.gate := by
    rw [EffectMark.invalidate]
    split <;> rfl
  have hturn : (m.invalidate generation).turn = m.turn := by
    rw [EffectMark.invalidate]
    split <;> rfl
  refine h.after_same hm rfl rfl rfl hgate (by rw [hturn]) ((h.marks w m hm).invalidate) (fun v n _ hn => ?_)
    ?_
  · exact (h.marks v n hn).concat (.inl rfl) (by rintro _ ⟨⟩)
  · refine (h.story.backend s.backend.keepsAccepted_invalidateGeneration).event rfl rfl ?_
      (by rintro _ _ ⟨⟩)
    intro other heq
    obtain rfl := Event.invalidated.inj heq
    exact s.backend.acceptedGeneration_invalidateGeneration

theorem EffectInv.request (hpurpose : ∀ ticket capability, call.purpose ≠ .effect ticket capability) :
    EffectInv (s.record [.dispatched call result]) marks := by
  refine h.event ?_ rfl nofun nofun
  cases hticket : effectTicket (.dispatched call result) with
  | none => rfl
  | some ticket =>
    obtain ⟨capability, heq⟩ := isEffect_iff_effectTicket.mpr hticket
    exact absurd heq (hpurpose ticket capability)

theorem EffectInv.page_event (hquiet : isQuiet e = false) : EffectInv (s.record [e]) marks := by
  cases e with
  | repositioned _ | reserved _ _ | committed _ => exact h.event rfl rfl nofun nofun
  | _ => exact nomatch hquiet

theorem EffectInv.page_events (hquiet : ∀ e ∈ events, isQuiet e = false) :
    EffectInv (s.record events) marks := by
  induction events generalizing s with
  | nil => exact h.frame rfl rfl rfl (List.append_nil _) s.backend.keepsAccepted_refl
  | cons e events ih =>
    have hrest := ih (h.page_event (hquiet e List.mem_cons_self)) fun e' he' => hquiet e' (List.mem_cons_of_mem _ he')
    exact hrest.frame rfl rfl rfl (List.append_assoc _ [e] events).symm s.backend.keepsAccepted_refl

theorem EffectInv.reserve (sessionId : String) (start : OutputPollCursor)
    (generation : ConnectionGeneration) : EffectInv (answer w s env (.reserve sessionId start generation)).2 marks := by
  have hbackend : EffectInv { s with backend := (s.backend.reserve sessionId start generation).2 } marks :=
    h.frame rfl rfl rfl rfl s.backend.keepsAccepted_reserve
  cases start with
  | continued =>
    simp only [answer]
    split
    · exact hbackend.page_events (by simp [isQuiet])
    · exact hbackend.page_events (by simp)
  | fromOffset =>
    simp only [answer]
    split
    · refine hbackend.page_events ?_
      split <;> simp [isQuiet]
    · refine hbackend.page_events ?_
      split <;> simp [isQuiet]

/-- **Every operation** keeps the invariant. -/
theorem EffectInv.move (hm : marks w = some m) (hready : ready s o = true)
    (hnext : effectNext m o (answer w s env o).1 = some m') :
    EffectInv (answer w s env o).2 (update marks w (some m')) := by
  cases o with
  | revision | sharedBootstrap _ | prepare _ => exact h.idle hm hnext
  | lockGate =>
    obtain ⟨-, ⟨⟩⟩ := ite_none_right_eq_some.mp hnext
    exact h.lockGate hm (isNone_iff_eq_none.mp hready)
  | unlockGate =>
    obtain ⟨hgate, ⟨⟩⟩ := ite_none_right_eq_some.mp hnext
    exact h.unlockGate hm hgate
  | accepted =>
    simp only [effectNext] at hnext
    split at hnext
    · rename_i hgate
      obtain rfl := some.inj hnext
      exact h.verify hm hgate
    · exact h.idle hm hnext
  | publish revision generation snapshot =>
    obtain ⟨hgate, ⟨⟩⟩ := ite_none_right_eq_some.mp hnext
    rcases s.backend.publish_cases revision generation snapshot with
      ⟨error, b', heq, hb⟩ | ⟨b', heq, hgeneration, hsnapshot⟩
    · simp only [answer, heq]
      exact h.publish_fails hm hb
    · simp only [answer, heq]
      exact h.publish hm hgate hgeneration hsnapshot
  | invalidateGeneration generation =>
    obtain rfl := some.inj hnext
    exact h.invalidate hm
  | invalidateAll => exact EffectInv.idle (h.frame rfl rfl rfl rfl (.inr rfl)) hm hnext
  | request call =>
    cases hpurpose : call.purpose with
    | effect =>
      simp only [effectNext, hpurpose] at hnext
      obtain ⟨hmay, ⟨⟩⟩ := ite_none_right_eq_some.mp hnext
      exact h.dispatch hm hpurpose hmay
    | _ =>
      have hno : ∀ ticket capability, call.purpose ≠ .effect ticket capability := by
        rw [hpurpose]
        rintro _ _ ⟨⟩
      exact (h.request hno).idle hm ((effectNext_request hno _).symm.trans hnext)
  | reserve sessionId start generation => exact (h.reserve sessionId start generation).idle hm hnext
  | clearReservation token =>
    exact EffectInv.idle (h.frame rfl rfl rfl rfl (s.backend.keepsAccepted_clearMatchingPage token)) hm hnext
  | stage token => exact EffectInv.idle (h.frame rfl rfl rfl rfl (s.backend.keepsAccepted_stage token)) hm hnext
  | takePage =>
    refine EffectInv.idle ?_ hm hnext
    simp only [answer]
    split
    · exact h.frame rfl rfl rfl rfl s.backend.keepsAccepted_refl
    · exact h
  | commitPage page =>
    refine EffectInv.idle ?_ hm hnext
    have hbackend : EffectInv { s with backend := (s.backend.commitPage page.token).2 } marks :=
      h.frame rfl rfl rfl rfl (s.backend.keepsAccepted_commitPage page.token)
    simp only [answer]
    split
    · exact hbackend.page_event rfl
    · exact hbackend
  | discardPage page =>
    exact EffectInv.idle (h.frame rfl rfl rfl rfl (s.backend.keepsAccepted_clearMatchingPage page.token)) hm hnext
  | resetOutputCursor sessionId =>
    have hbackend : EffectInv { s with backend := s.backend.reposition sessionId none } marks :=
      h.frame rfl rfl rfl rfl (.inl ⟨rfl, rfl⟩)
    exact EffectInv.idle (hbackend.page_event rfl) hm hnext
  | takeTicket =>
    obtain ⟨hfree, ⟨⟩⟩ := ite_none_right_eq_some.mp hnext
    exact h.takeTicket hm hfree.2.1 (isNone_iff_eq_none.mp hfree.2.2)
  | awaitTurn =>
    obtain ⟨hwaiting, ⟨⟩⟩ := ite_none_right_eq_some.mp hnext
    exact h.awaitTurn hm hwaiting.2 (eq_of_beq hready)
  | finishTurn =>
    obtain ⟨hgranted, ⟨⟩⟩ := ite_none_right_eq_some.mp hnext
    exact h.finishTurn hm hgranted.2

end

/-! ### Calls -/

theorem EffectInv.start (h : EffectInv s marks) (hm : marks w = none) (call : Call) :
    EffectInv (threads.onStart w call s) (update marks w (some .new)) := by
  have hnot : s.gate ≠ some w := by
    intro hgate
    obtain ⟨m, hw, -⟩ := (h.gate w).mp hgate
    exact nomatch hm.symm.trans hw
  refine h.after ⟨fun heq => absurd heq hnot, nofun⟩ (fun _ _ => Iff.rfl) ?_ ?_
    (fun v n _ hn => h.marks v n hn) h.story
  · have hheld : heldTickets marks w = none := by
      rw [heldTickets, hm]
      rfl
    show Tickets (update _ w none) _ _
    rw [← hheld, update_eq_self]
    exact h.tickets
  · exact ⟨nofun, nofun, nofun, nofun,
      fun _ _ heq => (nomatch heq)⟩

/-- A thread that has neither the gate nor a ticket goes away. -/
theorem EffectInv.leave (h : EffectInv s marks) (hm : marks w = some m) (hgate : m.gate = false)
    (hheld : m.turn.held = none) (calls : Nat → Option Call) (pages : List RemoteOutputPage) :
    EffectInv { s with calls := calls, pages := pages } (update marks w none) := by
  have hupdate : ∀ v n, update marks w none v = some n → marks v = some n := by
    intro v n hv
    exact ((update_some hv).resolve_left fun h => nomatch h.2).2
  refine ⟨fun v => ?_, ?_, fun v n hv => h.marks v n (hupdate v n hv), h.story⟩
  · rw [h.gate v]
    constructor
    · rintro ⟨n, hn, hn'⟩
      refine ⟨n, (update_of_ne ?_ _ _).trans hn, hn'⟩
      rintro rfl
      obtain rfl := mem_unique hm hn
      exact nomatch hgate.symm.trans hn'
    · rintro ⟨n, hn, hn'⟩
      exact ⟨n, hupdate v n hn, hn'⟩
  · rw [heldTickets_update]
    show Tickets (update _ w none) _ _
    rw [← hheld]
    exact h.tickets_same hm

/-- What is returned for an effect is so. -/
theorem justified_of_tells (hmark : MarkOk s.serving s.trace m)
    (hticket : m.turn.ticket = some ticket) (htells : Tells m.sent m.invalidated result) :
    Justified (s.trace ++ [.returned ticket result]) s.trace ticket result := by
  match result with
  | none => trivial
  | some (.ok requestId) =>
    obtain ⟨call, reply, hsent, hrest⟩ := htells
    obtain ⟨ticket', transport, hticket', hin, heffect, hseen⟩ := hmark.sent call _ hsent
    obtain rfl := mem_unique hticket hticket'
    obtain rfl := answered_of_seen hseen
    exact ⟨call, reply, hin, heffect, hrest⟩
  | some (.error failure) =>
    have hrefused : failure.kind = .notApplied → ∀ before call transport after,
        s.trace = before ++ .dispatched call transport :: after → IsEffect call ticket → Refused call transport := by
      intro hkind before call transport after hsplit heffect
      simp only [Tells, hkind] at htells
      exact refused_of_seenRefused heffect
        (htells call _ (hmark.told hticket before call transport after hsplit heffect).1)
    refine ⟨?_, ?_, ?_⟩
    · intro hkind call transport hin heffect
      rcases List.mem_append.mp hin with hin | hin
      · obtain ⟨before, after, hsplit⟩ := List.append_of_mem hin
        exact hrefused hkind before call transport after hsplit heffect
      · cases List.mem_singleton.mp hin
    · intro before call transport after hsplit heffect hnot
      cases hkind : failure.kind with
      | notApplied => exact absurd (hrefused hkind before call transport after hsplit heffect) hnot
      | outcomeUnknown =>
        simp only [Tells, hkind] at htells
        exact ⟨rfl, (hmark.told hticket before call transport after hsplit heffect).2 htells.2⟩
    · intro hkind
      simp only [Tells, hkind] at htells
      obtain ⟨⟨call, seen⟩, hsent⟩ := isSome_iff_exists.mp htells.1
      obtain ⟨ticket', transport, hticket', hin, heffect, -⟩ := hmark.sent call seen hsent
      obtain rfl := mem_unique hticket hticket'
      exact ⟨call, transport, hin, heffect⟩

/-- **A call returns.** -/
theorem EffectInv.done (h : EffectInv s marks) (hm : marks w = some m) (hresult : EffectDone result m) :
    EffectInv (threads.onReturn w result s) (update marks w none) := by
  obtain ⟨hgate, hresult⟩ := hresult
  cases result with
  | done | page _ | committed _ => exact h.leave hm hgate (by rw [show m.turn = .none from hresult]; rfl) _ _
  | effect =>
    obtain ⟨hturn, htells⟩ := hresult
    have hleave := h.leave hm hgate (by rw [hturn]; rfl) (update s.calls w none) s.pages
    refine ⟨hleave.gate, hleave.tickets, fun v n hn => ?_, hleave.story.event rfl rfl ?_ ?_⟩
    · exact (hleave.marks v n hn).concat (.inl rfl) nofun
    · exact nofun
    · intro ticket' result' heq
      obtain ⟨rfl, rfl⟩ := Event.returned.inj heq
      have hmark := h.marks w m hm
      exact ⟨hmark.finished hturn, justified_of_tells hmark (by rw [hturn]; rfl) htells⟩

end Moves

theorem effectKeeps : Fleet.Keeps threads effectDiscipline (fun _ => .new) EffectDone
    (fun _ o s _ => ready s o = true) EffectInv where
  launch _ _ := obeys_effect_run
  start _ _ _ call h hm := h.start hm call
  move _ _ _ _ _ _ _ h hm hready hnext := h.move hm hready hnext
  done _ _ _ _ _ h hm hresult := h.done hm hresult

theorem effectInv_new : EffectInv .new fun _ => none := by
  have hempty : ∀ {pre post : List Event} {e : Event}, [] ≠ pre ++ e :: post := fun h =>
    absurd h.symm (List.append_ne_nil_of_right_ne_nil _ (List.cons_ne_nil _ _))
  refine ⟨fun w => ⟨fun h => (nomatch h), fun ⟨_, h, _⟩ => (nomatch h)⟩, Tickets.none, fun _ _ h => (nomatch h), ?_⟩
  exact
    { order := List.Pairwise.nil
      dispatched_le := fun h => nomatch h
      dispatched_lt := fun h => nomatch h
      bound := fun _ _ _ _ _ _ h => absurd h hempty
      accepted := nofun
      returned_lt := nofun
      justified := fun _ _ _ _ h => absurd h hempty
      invalidated := fun _ _ _ h => absurd h hempty }

/-! ## Every ticket gets its turn -/

/-- The invariant with the marks that the threads keep to. -/
def Tracked (s : State) (marks : EffectMarks) : Prop :=
  EffectInv s.shared marks ∧ Fleet.Tracks effectDiscipline EffectDone s.prog marks

section Turns

variable {s : State} {marks : EffectMarks} {w : Nat} {m : EffectMark} {move : Fleet.Move Nat Call Env}

/-- A thread that has the gate or a ticket has an operation to make. -/
theorem Tracked.asks (h : Tracked s marks) (hm : marks w = some m) (hhas : m.gate = true ∨ m.turn.held ≠ none) :
    ∃ o k, s.prog w = some (.ask o k) ∧ ∀ r, ∃ m', effectNext m o r = some m' := by
  obtain ⟨p, hp, hobeys⟩ := running_of_mark h.2 hm
  cases p with
  | ask o k => exact ⟨o, k, hp, fun r => let ⟨m', hnext, _⟩ := hobeys r; ⟨m', hnext⟩⟩
  | ret result =>
    obtain ⟨hgate, hresult⟩ := hobeys
    rcases hhas with hhas | hhas
    · exact nomatch hgate.symm.trans hhas
    · refine absurd ?_ hhas
      cases result with
      | effect =>
        rw [hresult.1]
        rfl
      | _ =>
        rw [show m.turn = .none from hresult]
        rfl

/-- What the threads wait for: the gate and the turns. -/
def Shared.turns (s : Shared) : Option Nat × Nat × Nat := (s.gate, s.serving, s.nextTicket)

/-- An operation on the gate or the tickets. -/
def IsTurnOp : Op → Prop
  | .lockGate | .unlockGate | .takeTicket | .finishTurn _ => True
  | _ => False

theorem turns_answer {s : Shared} (h : ¬ IsTurnOp o) : (answer w s env o).2.turns = s.turns := by
  cases o with
  | lockGate | unlockGate | takeTicket | finishTurn _ => exact absurd trivial h
  | publish _ _ _ | reserve _ _ _ | takePage _ | commitPage _ =>
    simp only [answer]
    split <;> rfl
  | _ => rfl

/-- A move leaves the gate and the tickets alone, or it is an operation on them. -/
theorem turns_act :
    (threads.act ready s move).shared.turns = s.shared.turns ∨
      ∃ v env o k, move = .step v env ∧ s.prog v = some (.ask o k) ∧ ready s.shared o = true ∧ IsTurnOp o ∧
        (threads.act ready s move).shared = (answer v s.shared env o).2 := by
  simp only [act]
  split
  · rename_i hunblocked
    cases move with
    | start =>
      simp only [Fleet.Move.label, step]
      split
      · exact .inl rfl
      · exact .inl rfl
    | step v env =>
      simp only [Fleet.Move.label, step]
      split
      · exact .inl rfl
      · rename_i result _
        cases result <;> exact .inl rfl
      · rename_i o k hp
        by_cases hturn : IsTurnOp o
        · simp only [unblocked, hp] at hunblocked
          exact .inr ⟨v, env, o, k, rfl, hp, hunblocked, hturn, rfl⟩
        · exact .inl (turns_answer hturn)
  · exact .inl rfl

/-- Nobody takes the gate away from a thread. -/
theorem gate_act (hgate : s.shared.gate = some w) :
    (threads.act ready s move).shared.gate = some w ∨ (threads.act ready s move).shared.gate = none := by
  rcases turns_act with hsame | ⟨v, env, o, k, -, -, hready, hturn, heq⟩
  · exact .inl ((congrArg Prod.fst hsame).trans hgate)
  · rw [heq]
    cases o with
    | lockGate =>
      rw [ready, hgate] at hready
      exact nomatch hready
    | unlockGate => exact .inr rfl
    | takeTicket | finishTurn _ => exact .inl hgate
    | _ => exact hturn.elim

theorem nextTicket_act : s.shared.nextTicket ≤ (threads.act ready s move).shared.nextTicket := by
  rcases turns_act with hsame | ⟨v, env, o, k, -, -, -, hturn, heq⟩
  · exact Nat.le_of_eq (congrArg (·.2.2) hsame).symm
  · rw [heq]
    cases o with
    | lockGate | unlockGate | finishTurn _ => exact Nat.le_refl _
    | takeTicket => exact le_succ _
    | _ => exact hturn.elim

variable {ticket : Nat}

/-- A ticket is held until its turn is over. -/
theorem held_of_effectNext (hnext : effectNext m o r = some m')
    (hheld : m.turn.held = some ticket) (ho : ∀ ticket, o ≠ .finishTurn ticket) : m'.turn.held = some ticket := by
  cases o with
  | lockGate | unlockGate | publish _ _ _ =>
    obtain ⟨-, ⟨⟩⟩ := ite_none_right_eq_some.mp hnext
    exact hheld
  | accepted =>
    simp only [effectNext] at hnext
    split at hnext
    · exact some.inj hnext ▸ hheld
    · exact some.inj hnext ▸ hheld
  | invalidateGeneration =>
    rw [← some.inj hnext, EffectMark.invalidate]
    split
    · exact hheld
    · exact hheld
  | request =>
    simp only [effectNext] at hnext
    split at hnext
    · obtain ⟨-, ⟨⟩⟩ := ite_none_right_eq_some.mp hnext
      exact hheld
    · exact some.inj hnext ▸ hheld
  | takeTicket =>
    obtain ⟨hfree, -⟩ := ite_none_right_eq_some.mp hnext
    rw [hfree.2.1] at hheld
    cases hheld
  | awaitTurn =>
    obtain ⟨hwaiting, ⟨⟩⟩ := ite_none_right_eq_some.mp hnext
    rw [hwaiting.2] at hheld
    exact hheld
  | finishTurn other => exact absurd rfl (ho other)
  | _ => exact some.inj hnext ▸ hheld

section

variable (h : Tracked s marks) (hheld : heldTickets marks w = some ticket)

include h hheld

/-- The mark of a thread that has a ticket, and its operation. -/
theorem Tracked.asks_of_held :
    ∃ m o k, marks w = some m ∧ m.turn.held = some ticket ∧ s.prog w = some (.ask o k) ∧
      ∀ r, ∃ m', effectNext m o r = some m' := by
  obtain ⟨m, hm, hticket⟩ := bind_eq_some_iff.mp hheld
  obtain ⟨o, k, hp, hallowed⟩ := h.asks hm (.inr (by rw [hticket]; exact nofun))
  exact ⟨m, o, k, hm, hticket, hp, hallowed⟩

theorem Tracked.held_act (hnot : ∀ env other k, move = .step w env → s.prog w ≠ some (.ask (.finishTurn other) k)) :
    heldTickets (threads.actMarks effectDiscipline (fun _ => .new) ready s marks move) w = some ticket := by
  obtain ⟨m, o, k, hm, hticket, hp, hallowed⟩ := h.asks_of_held hheld
  simp only [actMarks]
  split
  · cases move with
    | start v call =>
      simp only [Fleet.Move.label, marked]
      split
      · rename_i hv
        have hne : w ≠ v := by
          rintro rfl
          cases hp.symm.trans hv
        rw [heldTickets_update, update_of_ne hne]
        exact hheld
      · exact hheld
    | step v env =>
      by_cases hv : w = v
      · subst hv
        simp only [Fleet.Move.label, marked, hp, hm, bind_some]
        obtain ⟨m', hnext⟩ := hallowed ((threads.world w).answer o s.shared env).1
        rw [heldTickets_update, update_self, hnext]
        refine held_of_effectNext hnext hticket ?_
        rintro other rfl
        exact hnot env other k rfl hp
      · simp only [Fleet.Move.label, marked]
        split
        · exact hheld
        · rw [heldTickets_update, update_of_ne hv]
          exact hheld
        · rw [heldTickets_update, update_of_ne hv]
          exact hheld
  · exact hheld

/-- **The thread that is served** is served until its turn is over. -/
theorem Tracked.served (hserving : s.shared.serving = ticket) :
    (∃ marks', Tracked (threads.act ready s move) marks' ∧ heldTickets marks' w = some ticket ∧
        (threads.act ready s move).shared.serving = ticket) ∨
      ticket < (threads.act ready s move).shared.serving := by
  by_cases hover : ∃ v env other k, move = .step v env ∧ s.prog v = some (.ask (.finishTurn other) k)
  · -- a turn is over
    obtain ⟨v, env, other, k, rfl, hp⟩ := hover
    right
    have hact : threads.act ready s (.step v env) = threads.step s (.step v env) := by
      simp only [act, unblocked, hp]
      exact if_pos rfl
    simp only [hact, step, hp]
    show ticket < s.shared.serving + 1
    omega
  · left
    refine ⟨_, effectKeeps.act h.1 h.2 move, h.held_act hheld ?_, ?_⟩
    · exact fun env other k hmove hp => hover ⟨w, env, other, k, hmove, hp⟩
    · rcases turns_act with hsame | ⟨v, env, o, k, hmove, hp, hready, hturn, heq⟩
      · exact (congrArg (·.2.1) hsame).trans hserving
      · rw [heq]
        cases o with
        | lockGate | unlockGate | takeTicket => exact hserving
        | finishTurn other => exact absurd ⟨v, env, other, k, hmove, hp⟩ hover
        | _ => exact hturn.elim

end

end Turns

section Schedules

variable {schedule : Nat → Fleet.Move Nat Call Env}

/-- The states of a schedule of the threads, from the start. -/
abbrev statesOf (schedule : Nat → Fleet.Move Nat Call Env) : Nat → State :=
  states threads ready (Fleet.State.idle Shared.new) schedule

theorem tracked_statesOf (schedule : Nat → Fleet.Move Nat Call Env) (n : Nat) :
    ∃ marks, Tracked (statesOf schedule n) marks := by
  induction n with
  | zero => exact ⟨_, effectInv_new, fun _ => trivial⟩
  | succ n ih =>
    obtain ⟨marks, h⟩ := ih
    exact ⟨_, effectKeeps.act h.1 h.2 (schedule n)⟩

theorem nextTicket_mono (h : n ≤ n') :
    (statesOf schedule n).shared.nextTicket ≤ (statesOf schedule n').shared.nextTicket := by
  induction n', h using le_induction with
  | base => exact Nat.le_refl _
  | succ n' _ ih => exact Nat.le_trans ih nextTicket_act

section

variable (hfair : Fleet.Fair threads ready (Fleet.State.idle Shared.new) schedule)

include hfair

/-- **The gate is free again and again.** -/
theorem gate_eventually_free (n : Nat) : ∃ n', n ≤ n' ∧ (statesOf schedule n').shared.gate = none := by
  cases hgate : (statesOf schedule n).shared.gate with
  | none => exact ⟨n, Nat.le_refl n, hgate⟩
  | some v =>
    -- the thread that has it has an operation to make that waits for nothing
    have hasks : ∀ i, (statesOf schedule i).shared.gate = some v → ∃ o k,
        (statesOf schedule i).prog v = some (.ask o k) ∧ ready (statesOf schedule i).shared o = true := by
      intro i hi
      obtain ⟨marks, h⟩ := tracked_statesOf schedule i
      obtain ⟨m, hm, hmgate⟩ := (h.1.gate v).mp hi
      obtain ⟨o, k, hp, hallowed⟩ := h.asks hm (.inl hmgate)
      refine ⟨o, k, hp, ?_⟩
      cases o with
      | lockGate =>
        obtain ⟨m', hnext⟩ := hallowed ()
        exact nomatch hmgate.symm.trans (ite_none_right_eq_some.mp hnext).1
      | awaitTurn =>
        obtain ⟨m', hnext⟩ := hallowed ()
        exact nomatch hmgate.symm.trans (ite_none_right_eq_some.mp hnext).1.1
      | _ => rfl
    refine hfair.eventually (J := fun i => (statesOf schedule i).shared.gate = some v)
      (G := fun i => (statesOf schedule i).shared.gate = none) (w := v) (fun i hi => gate_act hi) ?_ ?_ hgate
    · intro i hi
      obtain ⟨o, k, hp, -⟩ := hasks i hi
      exact ⟨o, k, hp⟩
    · intro i o k hi _ hsame
      obtain ⟨o', k', hp, hready⟩ := hasks i hi
      obtain ⟨rfl, -⟩ := Prog.ask.inj (some.inj (hp.symm.trans (hsame i (Nat.le_refl i))))
      exact ⟨i, Nat.le_refl i, hready⟩

/-- **The ticket that is served** is done in the end. -/
theorem served_eventually (n : Nat)
    (hwaiting : (statesOf schedule n).shared.serving < (statesOf schedule n).shared.nextTicket) :
    ∃ n', n ≤ n' ∧ (statesOf schedule n).shared.serving < (statesOf schedule n').shared.serving := by
  generalize hticket : (statesOf schedule n).shared.serving = ticket at hwaiting
  obtain ⟨marks, h⟩ := tracked_statesOf schedule n
  obtain ⟨w, hw⟩ := h.1.tickets.cover (Nat.le_of_eq hticket) hwaiting
  refine hfair.eventually (w := w)
    (J := fun i => ∃ marks, Tracked (statesOf schedule i) marks ∧ heldTickets marks w = some ticket ∧
      (statesOf schedule i).shared.serving = ticket)
    (G := fun i => ticket < (statesOf schedule i).shared.serving) ?_ ?_ ?_ ⟨marks, h, hw, hticket⟩
  · rintro i ⟨marks, h, hheld, hserving⟩
    exact h.served hheld hserving
  · rintro i ⟨marks, h, hheld, -⟩
    obtain ⟨m, o, k, -, -, hp, -⟩ := h.asks_of_held hheld
    exact ⟨o, k, hp⟩
  · rintro i o k ⟨marks, h, hheld, hserving⟩ - hsame
    obtain ⟨m, o', k', hm, hm', hp, hallowed⟩ := h.asks_of_held hheld
    obtain ⟨rfl, -⟩ := Prog.ask.inj (some.inj (hp.symm.trans (hsame i (Nat.le_refl i))))
    cases o' with
    | lockGate =>
      obtain ⟨i', hi', hfree⟩ := gate_eventually_free hfair i
      exact ⟨i', hi', by rw [ready, hfree]; rfl⟩
    | awaitTurn =>
      -- it is the thread's own ticket
      refine ⟨i, Nat.le_refl i, ?_⟩
      obtain ⟨m', hnext⟩ := hallowed ()
      rw [(ite_none_right_eq_some.mp hnext).1.2] at hm'
      rw [ready, hserving]
      exact beq_of_eq (some.inj hm').symm
    | _ => exact ⟨i, Nat.le_refl i, rfl⟩

/-- **Every ticket gets its turn.** -/
theorem ticket_eventually_served (htaken : ticket < (statesOf schedule n).shared.nextTicket) :
    ∃ n', n ≤ n' ∧ ticket < (statesOf schedule n').shared.serving := by
  -- by induction on how many tickets are before it
  generalize hd : ticket + 1 - (statesOf schedule n).shared.serving = d
  induction d using Nat.strong_induction_on generalizing n with
  | _ d ih =>
    by_cases hserved : ticket < (statesOf schedule n).shared.serving
    · exact ⟨n, Nat.le_refl n, hserved⟩
    · obtain ⟨n', hn', hlt⟩ := served_eventually hfair n (by omega)
      obtain ⟨n'', hn'', hdone⟩ := ih (ticket + 1 - (statesOf schedule n').shared.serving) (by omega)
        (Nat.lt_of_lt_of_le htaken (nextTicket_mono hn')) rfl
      exact ⟨n'', Nat.le_trans hn' hn'', hdone⟩

end

end Schedules

/-- **The turn is passed on by the thread that has it.** -/
theorem Tracked.serving_act (h : Tracked s marks) (move : Fleet.Move Nat Call Env)
    (hne : (threads.act ready s move).shared.serving ≠ s.shared.serving) :
    (threads.act ready s move).shared.serving = s.shared.serving + 1 ∧
      ∃ w env k, move = .step w env ∧ s.prog w = some (.ask (.finishTurn s.shared.serving) k) := by
  rcases turns_act with hsame | ⟨w, env, o, k, hmove, hp, -, hturn, heq⟩
  · exact absurd (congrArg (·.2.1) hsame) hne
  · rw [heq] at hne ⊢
    cases o with
    | lockGate | unlockGate | takeTicket => exact absurd rfl hne
    | finishTurn =>
      obtain ⟨m, hm, hobeys⟩ := h.2.some hp
      obtain ⟨m', hnext, -⟩ := hobeys ()
      obtain rfl := (h.1.marks w m hm).granted (ite_none_right_eq_some.mp hnext).1.2
      exact ⟨rfl, w, env, k, hmove, hp⟩
    | _ => exact hturn.elim

/-! ## The theorem -/

/-- One thread, with an effect that fails before it is sent. -/
def alone : Nat → Fleet.Move Nat Call Env
  | 0 => .start 0 (.effect ⟨"sendInput", "session.input", some .invalidSessionId, .acknowledged⟩)
  | _ + 1 => .step 0 ⟨.ok 0, .panics⟩

theorem alone_ends (h : 5 ≤ n) : (statesOf alone n).prog w = none := by
  by_cases hw : w = 0
  · subst hw
    induction n, h using le_induction with
    | base => rfl
    | succ n hn ih =>
      obtain ⟨k, rfl⟩ : ∃ k, n = k + 1 := ⟨n - 1, by omega⟩
      exact (congrArg (fun s => s.prog 0) (act_step_of_none ih)).trans ih
  · -- no other thread is ever started
    clear h
    induction n with
    | zero => rfl
    | succ n ih =>
      refine (prog_act_of_ne ?_).trans ih
      cases n with
      | zero | succ _ => exact hw

theorem fair_alone : Fleet.Fair threads ready (Fleet.State.idle Shared.new) alone := by
  intro w n hagain
  obtain ⟨n', hn', hrunnable⟩ := hagain (n + 5) (by omega)
  simp only [Fleet.Runnable, alone_ends (show 5 ≤ n' by omega)] at hrunnable

/-- **Only the thread with the gate** publishes a bootstrap or sends an effect, and that effect is the one whose turn it
    is. -/
theorem one_behind_gate (moves : List (Fleet.Move Nat Call Env)) :
    let s : State := Machine.run (threads.act ready) (Fleet.State.idle Shared.new) moves
    (∀ w r generation snapshot k, s.prog w = some (.ask (.publish r generation snapshot) k) → s.shared.gate = some w) ∧
      ∀ w call k ticket capability, s.prog w = some (.ask (.request call) k) →
        call.purpose = .effect ticket capability → s.shared.gate = some w ∧ s.shared.serving = ticket := by
  intro s
  obtain ⟨marks, hinv, htracks⟩ := Keeps.invariant effectKeeps effectInv_new moves
  refine ⟨fun w r generation snapshot k hprog => ?_, fun w call k ticket capability hprog hpurpose => ?_⟩
  · obtain ⟨m, hm, hobeys⟩ := htracks.some hprog
    obtain ⟨m', hnext, -⟩ := hobeys (.ok ())
    exact (hinv.gate w).mpr ⟨m, hm, (ite_none_right_eq_some.mp hnext).1⟩
  · obtain ⟨m, hm, hobeys⟩ := htracks.some hprog
    obtain ⟨m', hnext, -⟩ := hobeys none
    simp only [effectNext, hpurpose] at hnext
    have hmay := (ite_none_right_eq_some.mp hnext).1
    simp only [EffectMark.mayDispatch, Bool.and_eq_true, beq_iff_eq] at hmay
    exact ⟨(hinv.gate w).mpr ⟨m, hm, hmay.1.1.1⟩, (hinv.marks w m hm).granted hmay.1.1.2⟩

end Supercli.Remote
