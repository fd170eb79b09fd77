import Supercli.Lib.Ownership
import Supercli.Remote.PageDiscipline
import Supercli.Remote.Slots

/-!
# `Remote.Pages` — the pages of a Session's output are one stream

The slots and the history of the pages, together with who has them (`Lib.Ownership`), are an invariant of the threads.
Whatever the threads do, committed pages follow each other, a superseded page cannot be committed, and a slot that nobody
is responsible for is empty (`output_contiguous`).
-/

namespace Supercli.Remote

open Function PagePhase List BackendState

open BackendState (Agrees Clears Matches)

/-! ## The invariant -/

abbrev PageMarks := Nat → Option PageMark

def Fetches (marks : PageMarks) (t : OutputPageToken) : Prop := ∃ w m, marks w = some m ∧ m.phase = .fetching t

section

variable (pages : List RemoteOutputPage) (marks : PageMarks) (t : OutputPageToken)

def Live : Prop :=
  (∃ w m, marks w = some m ∧ m.phase.stagedToken = some t) ∨ ∃ page ∈ pages, page.token = t

def Owned : Prop :=
  (∃ w m, marks w = some m ∧ m.phase.token = some t) ∨ ∃ page ∈ pages, page.token = t

end

/-- The numbers of the pages that threads have. -/
def heldIds (marks : PageMarks) (w : Nat) : Option Nat :=
  (marks w).bind fun m => m.phase.token.map OutputPageToken.pageId

/-- **What holds between the backend and its callers.** -/
structure PageInv (s : Shared) (marks : PageMarks) : Prop where
  calls : ∀ w m, marks w = some m → s.calls w = some m.call
  session : ∀ w m t, marks w = some m → m.phase.token = some t → m.call.session = some t.sessionId
  owners : Ownership (heldIds marks) (s.pages.map (·.token.pageId)) s.backend.nextPageId
  slots : Slots s.backend.cursor (Fetches marks) (Live s.pages marks)
  story : Story s.backend.cursor (Owned s.pages marks) s.backend.nextPageId s.trace
  ok : ∀ page, page ∈ s.pages ∨ (∃ w m, marks w = some m ∧ m.phase = .holds page) → page.Ok

section Moves

variable {s : Shared} {marks : PageMarks} {w : Nat} {m m' : PageMark} {t : OutputPageToken}
  {page : RemoteOutputPage} {P : PageMark → Prop} {b' : BackendState} {env : Env}

theorem exists_update : (∃ v n, update marks w o v = some n ∧ P n) ↔
      (∃ n, o = some n ∧ P n) ∨ ∃ v n, v ≠ w ∧ marks v = some n ∧ P n := by
  constructor
  · rintro ⟨v, n, hv, hn⟩
    rcases update_some hv with ⟨-, hv⟩ | ⟨hne, hv⟩
    · exact .inl ⟨n, hv, hn⟩
    · exact .inr ⟨v, n, hne, hv, hn⟩
  · rintro (⟨n, rfl, hn⟩ | ⟨v, n, hne, hv, hn⟩)
    · exact ⟨w, n, update_self _ _ _, hn⟩
    · exact ⟨v, n, (update_of_ne hne _ _).trans hv, hn⟩

/-- When it is not so of the thread's old mark. -/
theorem exists_update_of_not (hm : marks w = some m) (hnot : ¬ P m) :
    (∃ v n, update marks w (some m') v = some n ∧ P n) ↔ (∃ v n, marks v = some n ∧ P n) ∨ P m' := by
  rw [exists_update]
  constructor
  · rintro (⟨n, heq, hn⟩ | ⟨v, n, -, hv, hn⟩)
    · obtain rfl := Option.some.inj heq
      exact .inr hn
    · exact .inl ⟨v, n, hv, hn⟩
  · rintro (⟨v, n, hv, hn⟩ | hn)
    · refine .inr ⟨v, n, ?_, hv, hn⟩
      rintro rfl
      exact hnot (Option.mem_unique hm hv ▸ hn)
    · exact .inl ⟨m', rfl, hn⟩

theorem heldIds_update : heldIds (update marks w o)
      = update (heldIds marks) w (o.bind fun m => m.phase.token.map OutputPageToken.pageId) := by
  funext v
  by_cases h : v = w
  · subst h
    rw [heldIds, update_self, update_self]
  · rw [heldIds, update_of_ne h, update_of_ne h, heldIds]

section

variable (h : PageInv s marks)

include h

/-- Nothing of it is about the gate, the tickets, or events without pages. -/
theorem PageInv.frame (hbackend : s'.backend = s.backend) (hpages : s'.pages = s.pages) (hcalls : s'.calls = s.calls)
    (htrace : s'.trace = s.trace) : PageInv s' marks := by
  refine ⟨hcalls ▸ h.calls, h.session, ?_, ?_, ?_, hpages ▸ h.ok⟩
  · rw [hbackend, hpages]
    exact h.owners
  · rw [hbackend, hpages]
    exact h.slots
  · rw [hbackend, hpages, htrace]
    exact h.story

theorem PageInv.event (hquiet : isQuiet e = true) : PageInv (s.record [e]) marks :=
  { h with story := h.story.event hquiet }

theorem PageInv.clears (hb : s.backend.Clears b') : PageInv { s with backend := b' } marks := by
  refine ⟨h.calls, h.session, ?_, h.slots.clears hb.2, ?_, h.ok⟩
  · show Ownership _ _ b'.nextPageId
    rw [hb.1]
    exact h.owners
  · exact h.story.quiet hb.keeps (fun t ht => ⟨t, ht, rfl, rfl, rfl⟩) (Nat.le_of_eq hb.1.symm)

theorem PageInv.reposition (sessionId : String) (offset : Option Nat) :
    PageInv ({ s with backend := s.backend.reposition sessionId offset }.record [.repositioned sessionId]) marks := by
  refine { h with slots := ?_, story := ?_ }
  · show Slots (s.backend.setCursor sessionId _).cursor _ _
    rw [cursor_setCursor]
    exact h.slots.reposition rfl rfl
  · show Story (s.backend.setCursor sessionId _).cursor _ _ _
    rw [cursor_setCursor]
    exact h.story.reposition rfl

end

theorem heldIds_of (hm : marks w = some m) (ht : m.phase.token = some t) : heldIds marks w = some t.pageId := by
  rw [heldIds, hm, Option.bind_some, ht, Option.map_some]

section

variable (h : PageInv s marks) (hm : marks w = some m)

include h hm

theorem PageInv.pageId_ne (ht : m.phase.token = some t) (hv : v ≠ w)
    (hn : marks v = some n) (hu : n.phase.token = some u) : u.pageId ≠ t.pageId := by
  intro heq
  exact hv (h.owners.threads (heldIds_of hn hu) (heq ▸ heldIds_of hm ht))

theorem PageInv.pageId_ne_of_mem (ht : m.phase.token = some t)
    (hpage : page ∈ s.pages) : page.token.pageId ≠ t.pageId := by
  intro heq
  exact h.owners.apart (heldIds_of hm ht) (heq ▸ mem_map_of_mem hpage)

/-- The phase of a thread changes: what concerns the others is as it was. -/
theorem PageInv.after
    (hcalls : s'.calls = s.calls) (hsession : ∀ u, phase.token = some u → m.call.session = some u.sessionId)
    (howners : Ownership (update (heldIds marks) w (phase.token.map OutputPageToken.pageId))
      (s'.pages.map (·.token.pageId)) s'.backend.nextPageId)
    (hslots : Slots s'.backend.cursor (Fetches (update marks w (some ⟨m.call, phase⟩)))
      (Live s'.pages (update marks w (some ⟨m.call, phase⟩))))
    (hstory : Story s'.backend.cursor (Owned s'.pages (update marks w (some ⟨m.call, phase⟩)))
      s'.backend.nextPageId s'.trace)
    (hpages : ∀ page ∈ s'.pages, page ∈ s.pages) (hok : ∀ page, phase = .holds page → page.Ok) :
    PageInv s' (update marks w (some ⟨m.call, phase⟩)) := by
  refine ⟨fun v n hv => ?_, fun v n u hv hu => ?_, heldIds_update ▸ howners, hslots, hstory, ?_⟩
  · rw [hcalls]
    rcases update_some hv with ⟨rfl, ⟨⟩⟩ | ⟨-, hv⟩
    · exact h.calls v m hm
    · exact h.calls v n hv
  · rcases update_some hv with ⟨-, ⟨⟩⟩ | ⟨-, hv⟩
    · exact hsession u hu
    · exact h.session v n u hv hu
  · rintro page (hpage | hheld)
    · exact h.ok page (.inl (hpages page hpage))
    · rcases exists_update.mp hheld with ⟨n, ⟨⟩, hphase⟩ | ⟨v, n, -, hn, hphase⟩
      · exact hok page hphase
      · exact h.ok page (.inr ⟨v, n, hn, hphase⟩)

end

/-! ### A page is given up -/

section GiveUp

variable (h : PageInv s marks) (hm : marks w = some m) (ht : m.phase.token = some t)

include hm ht in
theorem fetches_giveUp (hu : Fetches marks u) (hne : u ≠ t) : Fetches (update marks w (some ⟨m.call, .free⟩)) u := by
  obtain ⟨v, n, hn, hphase⟩ := hu
  refine exists_update.mpr (.inr ⟨v, n, ?_, hn, hphase⟩)
  rintro rfl
  obtain rfl := Option.mem_unique hm hn
  rw [hphase] at ht
  exact hne (Option.some.inj ht)

include hm ht in
theorem live_giveUp (hu : Live s.pages marks u) (hne : u ≠ t) :
    Live s.pages (update marks w (some ⟨m.call, .free⟩)) u := by
  rcases hu with ⟨v, n, hn, hphase⟩ | hpage
  · refine .inl (exists_update.mpr (.inr ⟨v, n, ?_, hn, hphase⟩))
    rintro rfl
    obtain rfl := Option.mem_unique hm hn
    rw [token_of_stagedToken hphase] at ht
    exact hne (Option.some.inj ht)
  · exact .inr hpage

include h hm ht in
theorem live_of_giveUp (hu : Live s.pages (update marks w (some ⟨m.call, .free⟩)) u) :
    Live s.pages marks u ∧ u.pageId ≠ t.pageId := by
  rcases hu with hu | ⟨page, hpage, rfl⟩
  · rcases exists_update.mp hu with ⟨n, hn, hphase⟩ | ⟨v, n, hv, hn, hphase⟩
    · obtain rfl := Option.some.inj hn
      exact nomatch hphase
    · exact ⟨.inl ⟨v, n, hn, hphase⟩, h.pageId_ne hm ht hv hn (token_of_stagedToken hphase)⟩
  · exact ⟨.inr ⟨page, hpage, rfl⟩, h.pageId_ne_of_mem hm ht hpage⟩

theorem owned_of_giveUp (hu : Owned s.pages (update marks w (some ⟨call, .free⟩)) u) : Owned s.pages marks u := by
  rcases hu with hu | hpage
  · rcases exists_update.mp hu with ⟨n, hn, hphase⟩ | ⟨v, n, -, hn, hphase⟩
    · obtain rfl := Option.some.inj hn
      exact nomatch hphase
    · exact .inl ⟨v, n, hn, hphase⟩
  · exact .inr hpage

include h hm in
/-- The rest of the invariant, when a thread has given up its page. -/
theorem PageInv.giveUp (hcalls : s'.calls = s.calls) (hpages : s'.pages = s.pages)
    (hnext : s'.backend.nextPageId = s.backend.nextPageId)
    (hslots : Slots s'.backend.cursor (Fetches (update marks w (some ⟨m.call, .free⟩)))
      (Live s.pages (update marks w (some ⟨m.call, .free⟩))))
    (hstory : Story s'.backend.cursor (Owned s.pages (update marks w (some ⟨m.call, .free⟩)))
      s.backend.nextPageId s'.trace) :
    PageInv s' (update marks w (some ⟨m.call, .free⟩)) := by
  refine h.after hm hcalls nofun ?_ (hpages ▸ hslots) ?_ (fun page => hpages ▸ id) nofun
  · rw [hpages, hnext]
    exact h.owners.release w
  · rw [hpages, hnext]
    exact hstory

include h hm ht in
/-- The thread finds that its token has no slot. -/
theorem PageInv.forget
    (hfetching : Fetches marks t → ¬ Agrees (s.backend.cursor t.sessionId) t (.fetching t.pageId t.generation))
    (hstaged : Live s.pages marks t → ¬ Agrees (s.backend.cursor t.sessionId) t (.staged t.pageId t.generation)) :
    PageInv s (update marks w (some ⟨m.call, .free⟩)) :=
  h.giveUp hm rfl rfl rfl
    (h.slots.forget (fun _ => fetches_giveUp hm ht) (fun _ => live_giveUp hm ht)
      (fun _ hu => (live_of_giveUp h hm ht hu).1) hfetching hstaged)
    (h.story.quiet (fun _ => ⟨rfl, rfl⟩) (fun u hu => ⟨u, owned_of_giveUp hu, rfl, rfl, rfl⟩) (Nat.le_refl _))

include h hm ht in
/-- **`clear_matching_page`**, by the thread that has the token. -/
theorem PageInv.clearMatching :
    PageInv { s with backend := s.backend.clearMatchingPage t } (update marks w (some ⟨m.call, .free⟩)) := by
  rcases s.backend.clearMatchingPage_cases t with ⟨hmatches, heq⟩ | ⟨hmatches, heq⟩
  · rw [heq]
    refine h.giveUp hm rfl rfl rfl ?_ ?_
    · show Slots (s.backend.setCursor t.sessionId _).cursor _ _
      rw [cursor_setCursor]
      exact h.slots.release (fun _ => fetches_giveUp hm ht) (fun _ => live_giveUp hm ht)
        (fun _ => live_of_giveUp h hm ht) rfl rfl hmatches.2
    · exact h.story.quiet (s.backend.keeps_setPending t.sessionId)
        (fun u hu => ⟨u, owned_of_giveUp hu, rfl, rfl, rfl⟩) (Nat.le_refl _)
  · rw [heq]
    exact h.forget hm ht (fun _ hagrees => hmatches ⟨hagrees.1, .inl hagrees.2.2⟩)
      (fun _ hagrees => hmatches ⟨hagrees.1, .inr hagrees.2.2⟩)

end GiveUp

/-! ### The way of a page -/

section

variable (h : PageInv s marks) (hm : marks w = some m)

include h hm

/-- **A page is reserved.** -/
theorem PageInv.reserve (hfree : m.phase = .free)
    (hsession : m.call.session = some t.sessionId) (hid : t.pageId = s.backend.nextPageId)
    (hversion : (s.backend.cursor t.sessionId).version = t.cursorVersion)
    (hcommitted : (s.backend.cursor t.sessionId).committed = t.requestedOffset)
    (hpending : (s.backend.cursor t.sessionId).pending = none) (hnext : b'.nextPageId = s.backend.nextPageId + 1)
    (hcursor : b'.cursor = (s.backend.setCursor t.sessionId
      { s.backend.cursor t.sessionId with pending := some (.fetching t.pageId t.generation) }).cursor) :
    PageInv ({ s with backend := b' }.record [.reserved t.sessionId t.pageId])
      (update marks w (some ⟨m.call, .fetching t⟩)) := by
  refine h.after hm rfl ?_ ?_ ?_ ?_ (fun _ => id) nofun
  · rintro u ⟨⟩
    exact hsession
  · show Ownership (update _ w (some t.pageId)) _ b'.nextPageId
    rw [hnext, hid]
    exact h.owners.new
  · show Slots b'.cursor _ _
    rw [hcursor, cursor_setCursor]
    refine h.slots.reserve hpending hversion hcommitted (fun u => ?_) (fun u => ?_)
    · rw [Fetches, exists_update_of_not hm (by rw [hfree]; exact PagePhase.noConfusion)]
      exact or_congr_right ⟨fun heq => (fetching.inj heq).symm, fun heq => congrArg _ heq.symm⟩
    · rw [Live, exists_update_of_not hm (by rw [hfree]; exact nofun)]
      exact or_congr_left (or_iff_left nofun)
  · show Story b'.cursor _ b'.nextPageId _
    rw [hnext]
    refine h.story.reserve hid hversion.symm (hcursor ▸ s.backend.keeps_setPending t.sessionId) ?_
    rintro u (hu | ⟨page, hpage, rfl⟩)
    · rw [exists_update_of_not hm (by rw [hfree]; exact nofun)] at hu
      rcases hu with ⟨v, n, hn, hu⟩ | hu
      · exact .inl ⟨.inl ⟨v, n, hn, hu⟩, h.owners.held_lt (heldIds_of hn hu)⟩
      · exact .inr (Option.some.inj hu).symm
    · exact .inl ⟨.inr ⟨page, hpage, rfl⟩, h.owners.pool_lt (mem_map_of_mem hpage)⟩

/-- **A page is staged.** `t'` is the token with its offset. -/
theorem PageInv.stage {next : Nat} (hphase : m.phase = .fetching t)
    (hagrees : Agrees (s.backend.cursor t.sessionId) t (.fetching t.pageId t.generation)) :
    PageInv { s with backend := (s.backend.setCursor t.sessionId
        { s.backend.cursor t.sessionId with pending := some (.staged t.pageId t.generation) }) }
      (update marks w (some ⟨m.call, .staged { t with nextOffset := next }⟩)) := by
  have ht : m.phase.token = some t := congrArg token hphase
  refine h.after hm rfl ?_ ?_ ?_ ?_ (fun _ => id) nofun
  · rintro u ⟨⟩
    exact h.session w m t hm ht
  · -- it is the same page
    show Ownership (update _ w (some t.pageId)) _ s.backend.nextPageId
    rw [← heldIds_of hm ht, update_eq_self]
    exact h.owners
  · show Slots (s.backend.setCursor t.sessionId _).cursor _ _
    rw [cursor_setCursor]
    refine h.slots.stage { t with nextOffset := next } rfl rfl rfl rfl rfl hagrees (fun u hu hne => ?_) (fun u => ?_)
    · obtain ⟨v, n, hn, hu⟩ := hu
      refine exists_update.mpr (.inr ⟨v, n, ?_, hn, hu⟩)
      rintro rfl
      obtain rfl := Option.mem_unique hm hn
      exact hne (fetching.inj (hu.symm.trans hphase))
    · rw [Live, exists_update_of_not hm (by rw [hphase]; exact nofun), or_right_comm]
      exact or_congr_right ⟨fun heq => (Option.some.inj heq).symm, fun heq => congrArg _ heq.symm⟩
  · refine h.story.quiet (s.backend.keeps_setPending t.sessionId) ?_ (Nat.le_refl _)
    rintro u (hu | hpage)
    · rcases exists_update.mp hu with ⟨n, ⟨⟩, ⟨⟩⟩ | ⟨v, n, -, hn, hu⟩
      · exact ⟨t, .inl ⟨w, m, hm, ht⟩, rfl, rfl, rfl⟩
      · exact ⟨u, .inl ⟨v, n, hn, hu⟩, rfl, rfl, rfl⟩
    · exact ⟨u, .inr hpage, rfl, rfl, rfl⟩

/-- **A page is committed.** -/
theorem PageInv.commit (hphase : m.phase = .holds page)
    (hagrees : Agrees (s.backend.cursor page.token.sessionId) page.token
      (.staged page.token.pageId page.token.generation)) :
    PageInv ({ s with backend := (s.backend.setCursor page.token.sessionId
        { s.backend.cursor page.token.sessionId with committed := some page.token.nextOffset, pending := none }) }.record
      [.committed page]) (update marks w (some ⟨m.call, .free⟩)) := by
  have ht : m.phase.token = some page.token := congrArg token hphase
  have hok := h.ok page (.inr ⟨w, m, hm, hphase⟩)
  refine h.giveUp hm rfl rfl rfl ?_ ?_
  · show Slots (s.backend.setCursor page.token.sessionId _).cursor _ _
    rw [cursor_setCursor]
    exact h.slots.release (fun _ => fetches_giveUp hm ht) (fun _ => live_giveUp hm ht)
      (fun _ => live_of_giveUp h hm ht) rfl rfl (.inr hagrees.2.2)
  · show Story (s.backend.setCursor page.token.sessionId _).cursor _ _ (s.trace ++ _)
    rw [cursor_setCursor]
    refine h.story.commit rfl (congrArg some hok.1) ?_ (fun _ => owned_of_giveUp)
    rw [hagrees.2.1]
    exact hok.2

/-- **A page is taken** by the call that commits or discards it. -/
theorem PageInv.take (hfree : m.phase = .free)
    (hsession : m.call.session = some page.token.sessionId) (hpage : page ∈ s.pages) :
    PageInv { s with pages := s.pages.erase page } (update marks w (some ⟨m.call, .holds page⟩)) := by
  have hperm : s.pages.Perm (page :: s.pages.erase page) := perm_cons_erase hpage
  have hpages : ∀ u, (∃ other ∈ s.pages, other.token = u) ↔
      page.token = u ∨ ∃ other ∈ s.pages.erase page, other.token = u := by
    intro u
    simp only [hperm.mem_iff, mem_cons, or_and_right, exists_or, exists_eq_left]
  have hlive : ∀ u, Live (s.pages.erase page) (update marks w (some ⟨m.call, .holds page⟩)) u
      ↔ Live s.pages marks u := by
    intro u
    rw [Live, Live, exists_update_of_not hm (by rw [hfree]; exact nofun), hpages, or_assoc]
    exact or_congr_right (or_congr_left ⟨Option.some.inj, congrArg some⟩)
  refine h.after hm rfl ?_ ((h.owners.perm (hperm.map _)).take) ?_ ?_ (fun _ => mem_of_mem_erase) ?_
  · rintro u ⟨⟩
    exact hsession
  · refine h.slots.mono (fun u hu => ?_) hlive
    exact (exists_update_of_not hm (by rw [hfree]; exact PagePhase.noConfusion)).mpr (.inl hu)
  · refine h.story.quiet (fun _ => ⟨rfl, rfl⟩) (fun u hu => ⟨u, ?_, rfl, rfl, rfl⟩) (Nat.le_refl _)
    rw [Owned, exists_update_of_not hm (by rw [hfree]; exact nofun), or_assoc] at hu
    rw [Owned, hpages]
    exact hu.imp_right (Or.imp_left Option.some.inj)
  · rintro _ ⟨⟩
    exact h.ok page (.inl hpage)

end

theorem PageInv.skip (h : PageInv s marks) (hcursor : b'.cursor = s.backend.cursor)
    (hnext : b'.nextPageId = s.backend.nextPageId ∨ b'.nextPageId = s.backend.nextPageId + 1) :
    PageInv { s with backend := b' } marks := by
  refine ⟨h.calls, h.session, ?_, hcursor ▸ h.slots, ?_, h.ok⟩
  · show Ownership _ _ b'.nextPageId
    rcases hnext with hnext | hnext
    · exact hnext ▸ h.owners
    · exact hnext ▸ h.owners.skip
  · refine h.story.quiet (fun other => ?_) (fun u hu => ⟨u, hu, rfl, rfl, rfl⟩) ?_
    · show (b'.cursor other).version = _ ∧ _
      rw [hcursor]
      exact ⟨rfl, rfl⟩
    · show _ ≤ b'.nextPageId
      omega

/-! ### Operations -/

section

variable (h : PageInv s marks) (hm : marks w = some m)

include h hm

theorem PageInv.idle (hnext : some m = some m') : PageInv s (update marks w (some m')) := by
  rw [← hnext, ← hm, update_eq_self]
  exact h

theorem PageInv.move_reserve (hnext : pageNext m (.reserve sessionId start generation)
      (answer w s env (.reserve sessionId start generation)).1 = some m') :
    PageInv (answer w s env (.reserve sessionId start generation)).2 (update marks w (some m')) := by
  obtain ⟨hfree, hnext⟩ := Option.ite_none_right_eq_some.mp hnext
  rcases s.backend.reserve_cases sessionId start generation with
    ⟨error, b', heq, hcursor, hid, hstart⟩ | ⟨hpending, haccepted, b', heq, hid, hcursor⟩
  · simp only [answer, heq] at hnext ⊢
    refine PageInv.idle ?_ hm hnext
    have hskip := h.skip hcursor hid
    cases start with
    | continued => exact hskip.frame rfl rfl rfl (append_nil _)
    | fromOffset =>
      simp only
      rw [if_neg (fun haccepted => nomatch hstart haccepted)]
      exact hskip.frame rfl rfl rfl (append_nil _)
  · simp only [answer, heq] at hnext ⊢
    obtain rfl := Option.some.inj hnext
    cases start with
    | continued =>
      exact h.reserve (t := ⟨sessionId, s.backend.nextPageId, (s.backend.cursor sessionId).version, generation,
        (s.backend.cursor sessionId).committed, 0⟩) hm hfree.1 hfree.2 rfl rfl rfl hpending hid hcursor
    | fromOffset offset =>
      -- first the output is repositioned
      simp only
      rw [if_pos haccepted]
      have hmoved : (s.backend.reposition sessionId offset).cursor sessionId
          = s.backend.reservedCursor sessionId (.fromOffset offset) := by
        simp only [BackendState.reposition, BackendState.cursor_setCursor, if_true]
        rfl
      have hreserved := (h.reposition sessionId offset).reserve
        (t := ⟨sessionId, s.backend.nextPageId, (s.backend.reservedCursor sessionId (.fromOffset offset)).version,
          generation, (s.backend.reservedCursor sessionId (.fromOffset offset)).committed, 0⟩) hm hfree.1 hfree.2 rfl
        (congrArg OutputCursor.version hmoved) (congrArg OutputCursor.committed hmoved)
        ((congrArg OutputCursor.pending hmoved).trans hpending) hid ?_
      · exact hreserved.frame rfl rfl rfl (append_assoc _ _ _).symm
      · show b'.cursor = ((s.backend.reposition sessionId offset).setCursor sessionId
          { (s.backend.reposition sessionId offset).cursor sessionId with pending := _ }).cursor
        rw [hcursor, hmoved, BackendState.reposition]
        funext other
        simp only [cursor_setCursor]
        split
        · rfl
        · rfl

theorem PageInv.move_stage {token : OutputPageToken}
    (hnext : pageNext m (.stage token) (answer w s env (.stage token)).1 = some m') :
    PageInv (answer w s env (.stage token)).2 (update marks w (some m')) := by
  simp only [pageNext] at hnext
  split at hnext
  · rename_i t hphase
    have ht : m.phase.token = some t := congrArg PagePhase.token hphase
    obtain ⟨htoken, hnext⟩ := Option.ite_none_right_eq_some.mp hnext
    generalize token.nextOffset = next at htoken
    subst htoken
    rcases s.backend.stage_cases { t with nextOffset := next } with
      ⟨error, heq⟩ | ⟨⟨error, heq⟩, hagrees⟩ | ⟨hagrees, heq⟩
    · simp only [answer, heq] at hnext ⊢
      obtain rfl := Option.some.inj hnext
      have hsame : s.backend.clearMatchingPage { t with nextOffset := next } = s.backend.clearMatchingPage t := rfl
      rw [hsame]
      exact h.clearMatching hm ht
    · simp only [answer, heq] at hnext ⊢
      obtain rfl := Option.some.inj hnext
      refine h.forget hm ht (fun _ => hagrees) (fun hlive => ?_)
      -- nobody else has a token with its number
      rcases hlive with ⟨v, n, hn, hstaged⟩ | ⟨page, hpage, hsame⟩
      · by_cases hv : v = w
        · subst hv
          obtain rfl := Option.mem_unique hm hn
          rw [hphase] at hstaged
          cases hstaged
        · exact absurd rfl (h.pageId_ne hm ht hv hn (token_of_stagedToken hstaged))
      · exact absurd (congrArg _ hsame) (h.pageId_ne_of_mem hm ht hpage)
    · simp only [answer, heq] at hnext ⊢
      obtain rfl := Option.some.inj hnext
      exact h.stage hm hphase hagrees
  · cases hnext

theorem PageInv.move_commitPage
    (hnext : pageNext m (.commitPage page) (answer w s env (.commitPage page)).1 = some m') :
    PageInv (answer w s env (.commitPage page)).2 (update marks w (some m')) := by
  obtain ⟨hphase, ⟨⟩⟩ := Option.ite_none_right_eq_some.mp hnext
  have ht : m.phase.token = some page.token := congrArg token hphase
  rcases s.backend.commitPage_cases page.token with ⟨heq, hagrees⟩ | ⟨hagrees, heq⟩
  · simp only [answer, heq]
    refine h.forget hm ht (fun hfetches => ?_) (fun _ => hagrees)
    -- the page is not being fetched: nobody else has its number
    obtain ⟨v, n, hn, hfetching⟩ := hfetches
    by_cases hv : v = w
    · subst hv
      obtain rfl := Option.mem_unique hm hn
      exact nomatch hphase.symm.trans hfetching
    · exact absurd rfl (h.pageId_ne hm ht hv hn (congrArg token hfetching))
  · simp only [answer, heq]
    exact h.commit hm hphase hagrees

end

/-- A poll does not panic. -/
theorem seen_outcome_isSome (h : call.purpose = .output) :
    ((env.outcome call).seen call).isNone = false := by
  rw [Env.outcome, h]
  cases env.transport with
  | answered _ | notSent _ | panics => rfl
  | lost timedOut message => cases timedOut <;> rfl

/-- **Every operation** keeps the invariant. -/
theorem PageInv.move (h : PageInv s marks) (hm : marks w = some m)
    (hnext : pageNext m o (answer w s env o).1 = some m') :
    PageInv (answer w s env o).2 (update marks w (some m')) := by
  cases o with
  | revision | sharedBootstrap _ | accepted | prepare _ | awaitTurn _ => exact h.idle hm hnext
  | lockGate | unlockGate | takeTicket | finishTurn _ => exact PageInv.idle (h.frame rfl rfl rfl rfl) hm hnext
  | publish revision generation snapshot =>
    have hclears := s.backend.clears_publish revision generation snapshot
    refine PageInv.idle ?_ hm hnext
    simp only [answer]
    split
    · exact (h.clears hclears).event rfl
    · exact h.clears hclears
  | invalidateGeneration generation =>
    exact ((h.clears (s.backend.clears_invalidateGeneration generation)).event rfl).idle hm hnext
  | invalidateAll => exact (h.clears s.backend.clears_invalidateAll).idle hm hnext
  | request =>
    simp only [pageNext] at hnext
    split at hnext
    · rename_i hpanic
      simp only [answer] at hpanic
      rw [seen_outcome_isSome hpanic.1] at hpanic
      exact absurd hpanic.2 Bool.false_ne_true
    · exact (h.event rfl).idle hm hnext
  | reserve => exact h.move_reserve hm hnext
  | clearReservation _ | discardPage _ =>
    obtain ⟨hphase, ⟨⟩⟩ := Option.ite_none_right_eq_some.mp hnext
    exact h.clearMatching hm (congrArg token hphase)
  | stage => exact h.move_stage hm hnext
  | takePage page =>
    obtain ⟨hfree, hnext⟩ := Option.ite_none_right_eq_some.mp hnext
    have hsession : m.call.session = some page.token.sessionId := by
      rcases hfree.2 with heq | heq
      · rw [heq]
        rfl
      · rw [heq]
        rfl
    by_cases hpage : page ∈ s.pages
    · simp only [answer, if_pos hpage] at hnext ⊢
      obtain rfl := Option.some.inj hnext
      exact h.take hm hfree.1 hsession hpage
    · simp only [answer, if_neg hpage] at hnext ⊢
      exact h.idle hm hnext
  | commitPage => exact h.move_commitPage hm hnext
  | resetOutputCursor sessionId => exact (h.reposition sessionId none).idle hm hnext

theorem PageInv.start (h : PageInv s marks) (hm : marks w = none) (call : Call) :
    PageInv (threads.onStart w call s) (update marks w (some ⟨call, .free⟩)) := by
  have hsets : ∀ P : PageMark → Prop, ¬ P ⟨call, .free⟩ →
      ((∃ v n, update marks w (some ⟨call, .free⟩) v = some n ∧ P n) ↔ ∃ v n, marks v = some n ∧ P n) := by
    intro P hP
    rw [exists_update]
    constructor
    · rintro (⟨n, heq, hn⟩ | ⟨v, n, -, hv, hn⟩)
      · obtain rfl := Option.some.inj heq
        exact absurd hn hP
      · exact ⟨v, n, hv, hn⟩
    · rintro ⟨v, n, hv, hn⟩
      refine .inr ⟨v, n, ?_, hv, hn⟩
      rintro rfl
      exact nomatch hm.symm.trans hv
  refine ⟨?_, fun v n u hv hu => ?_, ?_, ?_, ?_, ?_⟩
  · intro v n hv
    show update s.calls w (some call) v = some n.call
    rcases update_some hv with ⟨rfl, ⟨⟩⟩ | ⟨hne, hv⟩
    · exact update_self _ _ _
    · exact (update_of_ne hne _ _).trans (h.calls v n hv)
  · rcases update_some hv with ⟨-, ⟨⟩⟩ | ⟨-, hv⟩
    · exact nomatch hu
    · exact h.session v n u hv hu
  · rw [heldIds_update]
    exact h.owners.release w
  · refine h.slots.mono (fun u hu => ?_) (fun u => ?_)
    · exact (hsets _ nofun).mpr hu
    · exact or_congr_left (hsets _ nofun)
  · refine h.story.quiet (fun _ => ⟨rfl, rfl⟩) (fun u hu => ⟨u, ?_, rfl, rfl, rfl⟩) (Nat.le_refl _)
    exact hu.imp_left (hsets _ nofun).mp
  · rintro page (hpage | hheld)
    · exact h.ok page (.inl hpage)
    · exact h.ok page (.inr ((hsets _ nofun).mp hheld))

theorem exists_remove (hm : marks w = some m) :
    (∃ v n, marks v = some n ∧ P n) ↔ P m ∨ ∃ v n, update marks w none v = some n ∧ P n := by
  rw [exists_update]
  constructor
  · rintro ⟨v, n, hv, hn⟩
    by_cases heq : v = w
    · subst heq
      exact .inl (Option.mem_unique hm hv ▸ hn)
    · exact .inr (.inr ⟨v, n, heq, hv, hn⟩)
  · rintro (hn | ⟨n, hn, -⟩ | ⟨v, n, -, hv, hn⟩)
    · exact ⟨w, m, hm, hn⟩
    · exact nomatch hn
    · exact ⟨v, n, hv, hn⟩

section

variable (h : PageInv s marks) (hm : marks w = some m)

include h hm

/-- A call returns with the pages `left` for its caller. -/
theorem PageInv.leave (left : List RemoteOutputPage)
    (howners : Ownership (update (heldIds marks) w none) ((s.pages ++ left).map (·.token.pageId)) s.backend.nextPageId)
    (hfetches : ∀ u, m.phase ≠ .fetching u)
    (hlive : ∀ u, m.phase.stagedToken = some u ↔ ∃ page ∈ left, page.token = u)
    (htoken : ∀ page ∈ left, m.phase.token = some page.token) (hok : ∀ page ∈ left, page.Ok) :
    PageInv { s with calls := update s.calls w none, pages := s.pages ++ left }
      (update marks w none) := by
  have hpages : ∀ u, (∃ page ∈ s.pages ++ left, page.token = u) ↔
      (∃ page ∈ s.pages, page.token = u) ∨ ∃ page ∈ left, page.token = u := by
    intro u
    simp only [mem_append, or_and_right, exists_or]
  have hupdate : ∀ v n, update marks w none v = some n → v ≠ w ∧ marks v = some n := by
    intro v n hv
    exact (update_some hv).resolve_left fun h => nomatch h.2
  refine ⟨fun v n hv => ?_, fun v n u hv => h.session v n u (hupdate v n hv).2, ?_, ?_, ?_, ?_⟩
  · show update s.calls w none v = some n.call
    rw [update_of_ne (hupdate v n hv).1]
    exact h.calls v n (hupdate v n hv).2
  · rw [heldIds_update]
    exact howners
  · refine h.slots.mono (fun u hu => ?_) (fun u => ?_)
    · exact ((exists_remove hm).mp hu).resolve_left (hfetches u)
    · rw [Live, Live, hpages, exists_remove hm, hlive, or_assoc]
      exact or_rotate.symm
  · refine h.story.quiet (fun _ => ⟨rfl, rfl⟩) (fun u hu => ⟨u, ?_, rfl, rfl, rfl⟩) (Nat.le_refl _)
    rw [Owned, hpages] at hu
    rcases hu with hu | hu | ⟨page, hpage, rfl⟩
    · exact .inl ((exists_remove hm).mpr (.inr hu))
    · exact .inr hu
    · exact .inl ⟨w, m, hm, htoken page hpage⟩
  · rintro page (hpage | ⟨v, n, hv, hheld⟩)
    · rcases mem_append.mp hpage with hpage | hpage
      · exact h.ok page (.inl hpage)
      · exact hok page hpage
    · exact h.ok page (.inr ⟨v, n, (hupdate v n hv).2, hheld⟩)

theorem PageInv.leave_nothing (hfree : m.phase = .free) :
    PageInv { s with calls := update s.calls w none } (update marks w none) := by
  have hleave := h.leave hm [] ?_ ?_ ?_ nofun nofun
  · exact hleave.frame rfl (append_nil _).symm rfl rfl
  · rw [append_nil]
    exact h.owners.release w
  · rw [hfree]
    exact nofun
  · rw [hfree]
    exact fun u => ⟨nofun, fun ⟨page, hpage, _⟩ => (nomatch hpage)⟩

/-- **A call returns.** -/
theorem PageInv.done (hresult : PageResult result m) :
    PageInv (threads.onReturn w result s) (update marks w none) := by
  cases result with
  | done | committed _ => exact h.leave_nothing hm hresult
  | effect => exact (h.leave_nothing hm hresult).event rfl
  | page page =>
    obtain ⟨hphase, hok⟩ := hresult
    have ht : m.phase.token = some page.token := congrArg token hphase
    refine h.leave hm [page] ?_ ?_ ?_ ?_ ?_
    · rw [map_append]
      exact (h.owners.leave (heldIds_of hm ht)).perm (perm_append_singleton _ _).symm
    · rw [hphase]
      exact nofun
    · intro u
      rw [hphase]
      simp [stagedToken]
    · simpa using ht
    · simpa using hok

end

end Moves

theorem pageKeeps : Fleet.Keeps threads pageDiscipline (fun call => ⟨call, .free⟩) PageResult
    (fun _ o s _ => ready s o = true) PageInv where
  launch _ _ := obeys_run
  start _ _ _ call h hm := h.start hm call
  move _ _ _ _ _ _ _ h hm _ hnext := h.move hm hnext
  done _ _ _ _ _ h hm hresult := h.done hm hresult

theorem pageInv_new : PageInv .new fun _ => none := by
  refine ⟨fun _ _ h => (nomatch h), fun _ _ _ h => (nomatch h), Ownership.none, ⟨?_, ?_, ?_⟩, ⟨?_, ?_, ?_, ?_, ?_⟩, ?_⟩
  · exact nofun
  · exact nofun
  · rintro t (⟨w, m, h, -⟩ | ⟨page, h, -⟩)
    · exact nomatch h
    · exact nomatch h
  · exact fun _ => rfl
  · intro t _ pre post h
    exact absurd h.symm (append_ne_nil_of_right_ne_nil _ (cons_ne_nil _ _))
  · exact nofun
  · exact nofun
  · intro pre page post h
    exact absurd h.symm (append_ne_nil_of_right_ne_nil _ (cons_ne_nil _ _))
  · rintro page (h | ⟨w, m, h, -⟩)
    · exact nomatch h
    · exact nomatch h

/-! ## What moves the committed cursor -/

/-- An operation that repositions the output of a Session. -/
inductive Repositions (sessionId : String) : Op → Prop
  | fromOffset (requestedOffset : Option Nat) (generation : ConnectionGeneration) :
    Repositions sessionId (.reserve sessionId (.fromOffset requestedOffset) generation)
  | reset : Repositions sessionId (.resetOutputCursor sessionId)

/-- The commit of the page that is staged for a Session. -/
inductive CommitsStaged (b : BackendState) (sessionId : String) : Op → Prop
  | commit (page : RemoteOutputPage) (hsession : page.token.sessionId = sessionId)
    (hstaged : (b.cursor sessionId).pending = some (.staged page.token.pageId page.token.generation)) :
    CommitsStaged b sessionId (.commitPage page)

section Committed

variable {b : BackendState} {sessionId : String}

theorem committed_reserve
    (h : ((b.reserve other start generation).2.cursor sessionId).committed ≠ (b.cursor sessionId).committed) :
    Repositions sessionId (.reserve other start generation) := by
  rcases b.reserve_cases other start generation with ⟨error, b', heq, hcursor, -⟩ | ⟨-, -, b', heq, -, hcursor⟩
  · rw [heq, hcursor] at h
    exact absurd rfl h
  · simp only [heq, hcursor, cursor_setCursor] at h
    split at h
    · rename_i hother
      subst hother
      cases start with
      | continued => exact absurd rfl h
      | fromOffset offset => exact .fromOffset offset generation
    · exact absurd rfl h

/-- **What an operation does to the committed cursor.** -/
theorem committed_answer
    (h : ((answer w s env o).2.backend.cursor sessionId).committed ≠ (s.backend.cursor sessionId).committed) :
    Repositions sessionId o ∨ CommitsStaged s.backend sessionId o := by
  cases o with
  | publish revision generation snapshot =>
    refine absurd ?_ h
    rw [← ((s.backend.clears_publish revision generation snapshot).keeps sessionId).2]
    simp only [answer]
    split
    · rfl
    · rfl
  | invalidateGeneration generation =>
    exact absurd ((s.backend.clears_invalidateGeneration generation).keeps sessionId).2 h
  | invalidateAll => exact absurd (s.backend.clears_invalidateAll.keeps sessionId).2 h
  | reserve =>
    refine .inl (committed_reserve (b := s.backend) ?_)
    refine ne_of_eq_of_ne ?_ h
    simp only [answer]
    split
    · rfl
    · rfl
  | clearReservation token => exact absurd (keeps_clearMatchingPage token sessionId).2 h
  | stage token => exact absurd (keeps_stage token sessionId).2 h
  | takePage =>
    refine absurd ?_ h
    simp only [answer]
    split
    · rfl
    · rfl
  | commitPage page =>
    right
    rcases s.backend.commitPage_cases page.token with ⟨heq, -⟩ | ⟨hagrees, heq⟩
    · simp only [answer, heq] at h
      exact absurd rfl h
    · simp only [answer, heq] at h
      by_cases hsession : sessionId = page.token.sessionId
      · subst hsession
        exact .commit page rfl hagrees.2.2
      · refine absurd ?_ h
        show ((s.backend.setCursor _ _).cursor sessionId).committed = _
        simp only [cursor_setCursor, if_neg hsession]
  | discardPage page => exact absurd (keeps_clearMatchingPage page.token sessionId).2 h
  | resetOutputCursor other =>
    left
    by_cases hsession : sessionId = other
    · subst hsession
      exact .reset
    · refine absurd ?_ h
      show ((s.backend.reposition other none).cursor sessionId).committed = _
      simp only [reposition, cursor_setCursor, if_neg hsession]
  | _ => exact absurd rfl h

theorem committed_act (h : ((threads.act ready s move).shared.backend.cursor sessionId).committed
      ≠ (s.shared.backend.cursor sessionId).committed) :
    ∃ w env o k, move = .step w env ∧ s.prog w = some (.ask o k) ∧
      (Repositions sessionId o ∨ CommitsStaged s.shared.backend sessionId o) := by
  simp only [Fleet.act] at h
  split at h
  · cases move with
    | start =>
      refine absurd ?_ h
      simp only [Fleet.Move.label, Fleet.step]
      split
      · rfl
      · rfl
    | step w env =>
      simp only [Fleet.Move.label, Fleet.step] at h
      split at h
      · exact absurd rfl h
      · rename_i result hprog
        cases result <;> exact absurd rfl h
      · rename_i o k hprog
        exact ⟨w, env, o, k, rfl, hprog, committed_answer h⟩
  · exact absurd rfl h

end Committed

/-! ## Consequences -/

section Consequences

variable {s : Shared} {marks : PageMarks}

/-- A Session that nobody has a page of. -/
theorem PageInv.pending_eq_none (h : PageInv s marks)
    (hcalls : ∀ w call, s.calls w = some call → call.session ≠ some sessionId)
    (hpages : ∀ page ∈ s.pages, page.token.sessionId ≠ sessionId) : (s.backend.cursor sessionId).pending = none := by
  have hnobody : ∀ w m t, marks w = some m → m.phase.token = some t → t.sessionId ≠ sessionId := by
    intro w m t hm ht heq
    exact hcalls w m.call (h.calls w m hm) (heq ▸ h.session w m t hm ht)
  cases hpending : (s.backend.cursor sessionId).pending with
  | none => rfl
  | some pending =>
    cases pending with
    | fetching =>
      obtain ⟨t, ⟨w, m, hm, hphase⟩, hsession, -⟩ := h.slots.fetching _ _ _ hpending
      exact absurd hsession (hnobody w m t hm (congrArg token hphase))
    | staged =>
      obtain ⟨t, ⟨w, m, hm, hphase⟩ | ⟨page, hpage, rfl⟩, hsession, -⟩ := h.slots.staged _ _ _ hpending
      · exact absurd hsession (hnobody w m t hm (token_of_stagedToken hphase))
      · exact absurd hsession (hpages page hpage)

theorem not_pending_of_reserve {b : BackendState} (h : (b.cursor sessionId).pending = none) (start : OutputPollCursor)
    {generation : ConnectionGeneration} :
    (b.reserve sessionId start generation).1 ≠ .error (.outputPagePending sessionId) := by
  have hpending : (b.reservedCursor sessionId start).pending = none := by
    cases start with
    | continued => exact h
    | fromOffset => rfl
  rw [reserve]
  split
  · rintro ⟨⟩
  · simp only [hpending, Option.isSome_none, Bool.false_eq_true, if_false]
    rintro ⟨⟩

end Consequences

/-! ## The theorem -/

/-- **The pages of a Session's output are one stream.** Whatever the threads of a Controller do, in any order and with
    any replies: a Session's committed cursor is moved by repositioning and by the commit of its staged page only; pages
    that are committed one after the other follow each other, unless the second says that the renderer is reset; a page
    that was superseded cannot be committed, and trying to changes nothing; and a Session that no call and no page is
    about has an empty slot, so that no poll is refused. -/
theorem output_contiguous (moves : List (Fleet.Move Nat Call Env)) :
    let s : State := Machine.run (threads.act ready) (Fleet.State.idle Shared.new) moves
    (∀ move sessionId, ((threads.act ready s move).shared.backend.cursor sessionId).committed
          ≠ (s.shared.backend.cursor sessionId).committed →
        ∃ w env o k, move = .step w env ∧ s.prog w = some (.ask o k) ∧
          (Repositions sessionId o ∨ CommitsStaged s.shared.backend sessionId o)) ∧
      Contiguous s.shared.trace ∧
      (∀ w page k env, s.prog w = some (.ask (.commitPage page) k) → Superseded s.shared.trace page.token →
        answer w s.shared env (.commitPage page) = (.error .staleOutputPage, s.shared)) ∧
      (∀ sessionId, (∀ w call, s.shared.calls w = some call → call.session ≠ some sessionId) →
        (∀ page ∈ s.shared.pages, page.token.sessionId ≠ sessionId) →
          (s.shared.backend.cursor sessionId).pending = none ∧
            ∀ start generation, (s.shared.backend.reserve sessionId start generation).1
              ≠ .error (.outputPagePending sessionId)) := by
  intro s
  obtain ⟨marks, hinv, htracks⟩ := Fleet.Keeps.invariant pageKeeps pageInv_new moves
  refine ⟨fun move sessionId => committed_act, hinv.story.contiguous, ?_, ?_⟩
  · intro w page k env hprog hsuperseded
    obtain ⟨m, hm, hobeys⟩ := htracks.some hprog
    obtain ⟨m', hnext, -⟩ := hobeys (.ok () : Except BackendError Unit)
    have howned : Owned s.shared.pages marks page.token :=
      .inl ⟨w, m, hm, congrArg token (Option.ite_none_right_eq_some.mp hnext).1⟩
    rcases s.shared.backend.commitPage_cases page.token with ⟨heq, -⟩ | ⟨hagrees, -⟩
    · simp only [answer, heq]
    · exact absurd hagrees.1 (hinv.story.version_ne howned hsuperseded)
  · intro sessionId hcalls hpages
    have hempty := hinv.pending_eq_none hcalls hpages
    exact ⟨hempty, not_pending_of_reserve hempty⟩

end Supercli.Remote
