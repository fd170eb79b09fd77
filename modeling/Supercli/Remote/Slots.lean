import Supercli.Remote.Calls

/-!
# `Remote.Slots` — the slots of the Sessions' output and what has happened to it

A poll reserves the slot of its Session, lets go of the lock for the request, and stages its page; the caller commits or
drops the page later. In between the output may be repositioned, the generation invalidated, a bootstrap refreshed.

What holds of the slots (`Slots`) is said with the tokens of the polls that fetch and of the pages that are staged, what
holds of the history (`Story`) with all tokens there are. Both are kept by whatever is done to a slot, and neither knows
of threads.
-/

namespace Supercli.Remote

open Option List

/-! ## Cursors -/

namespace BackendState

variable (b : BackendState) (sessionId : String)

theorem cursor_setCursor :
    (b.setCursor sessionId c).cursor = fun other => if other = sessionId then c else b.cursor other := by
  funext other
  by_cases h : other = sessionId
  · subst h
    simp only [cursor, setCursor, Function.update_self, getD_some, if_true]
  · simp only [cursor, setCursor, Function.update_of_ne h, if_neg h]

/-- Nothing is done to the slots but that fetches are cleared. -/
def Clears (b b' : BackendState) : Prop :=
  b'.nextPageId = b.nextPageId ∧ ∀ sessionId, b'.cursor sessionId = b.cursor sessionId ∨
    (∃ pageId generation, (b.cursor sessionId).pending = some (.fetching pageId generation)) ∧
      b'.cursor sessionId = { b.cursor sessionId with pending := none }

theorem clears_refl : b.Clears b := ⟨rfl, fun _ => .inl rfl⟩

theorem clears_clearFetchingPages : b.Clears (b.clearFetchingPages generation) := by
  refine ⟨rfl, fun sessionId => ?_⟩
  simp only [cursor, clearFetchingPages]
  cases b.cursors sessionId with
  | none => exact .inl rfl
  | some =>
    simp only [map_some, getD_some]
    split
    · rename_i pageId pendingGeneration hpending
      split
      · exact .inr ⟨⟨_, _, hpending⟩, rfl⟩
      · exact .inl rfl
    · exact .inl rfl

theorem clears_invalidateAll : b.Clears b.invalidateAll :=
  clears_clearFetchingPages
    { b with acceptedGeneration := none, bootstrapRevision := b.bootstrapRevision + 1 }

theorem clears_invalidateGeneration (generation : ConnectionGeneration) :
    b.Clears (b.invalidateGeneration generation) := by
  rw [invalidateGeneration]
  split
  · exact b.clears_refl
  · exact clears_clearFetchingPages
      { b with acceptedGeneration := none, bootstrapRevision := b.bootstrapRevision + 1 }

theorem clears_accept : b.Clears (publish.accept generation snapshot b) := by
  simp only [publish.accept]
  split
  · exact b.clears_clearFetchingPages
  · exact b.clears_refl

theorem clears_publish (revision : Nat) (generation : ConnectionGeneration) (snapshot : RemoteBootstrapSnapshot) :
    b.Clears (b.publish revision generation snapshot).2 := by
  rw [publish]
  split
  · exact b.clears_refl
  · split
    · split
      · exact clears_clearFetchingPages
          { b with acceptedGeneration := none, bootstrapRevision := b.bootstrapRevision + 1 }
      · exact b.clears_accept
    · exact clears_accept { b with pinnedHostId := snapshot.hostId }

/-- Versions and committed offsets are as they were. -/
def Keeps (b b' : BackendState) : Prop :=
  ∀ sessionId, (b'.cursor sessionId).version = (b.cursor sessionId).version ∧
    (b'.cursor sessionId).committed = (b.cursor sessionId).committed

theorem keeps_setPending :
    b.Keeps (b.setCursor sessionId { b.cursor sessionId with pending := pending }) := by
  intro other
  rw [cursor_setCursor]
  by_cases h : other = sessionId
  · subst h
    simp only [if_true, and_self]
  · simp only [if_neg h, and_self]

variable {b}

theorem Clears.keeps (h : b.Clears b') : b.Keeps b' := by
  intro sessionId
  rcases h.2 sessionId with heq | ⟨-, heq⟩
  · rw [heq]
    exact ⟨rfl, rfl⟩
  · rw [heq]
    exact ⟨rfl, rfl⟩

/-- The slot is the token's. -/
def Matches (b : BackendState) (t : OutputPageToken) : Prop :=
  (b.cursor t.sessionId).version = t.cursorVersion ∧
    ((b.cursor t.sessionId).pending = some (.fetching t.pageId t.generation) ∨
      (b.cursor t.sessionId).pending = some (.staged t.pageId t.generation))

variable (t : OutputPageToken)

/-- **`clear_matching_page`** empties the slot if it is the token's. -/
theorem clearMatchingPage_cases : b.Matches t ∧ b.clearMatchingPage t
        = b.setCursor t.sessionId { b.cursor t.sessionId with pending := none } ∨
      ¬ b.Matches t ∧ b.clearMatchingPage t = b := by
  rw [Matches, cursor, clearMatchingPage]
  cases b.cursors t.sessionId with
  | none =>
    refine .inr ⟨?_, rfl⟩
    rintro ⟨-, h | h⟩
    · exact nomatch h
    · exact nomatch h
  | some c =>
    simp only [getD_some]
    cases hpending : c.pending with
    | none =>
      refine .inr ⟨?_, by simp⟩
      rintro ⟨-, h | h⟩
      · exact nomatch h
      · exact nomatch h
    | some pending =>
      cases pending with
      | fetching pageId generation | staged pageId generation =>
        by_cases hmatch : c.version = t.cursorVersion ∧ pageId = t.pageId ∧ generation = t.generation
        · exact .inl ⟨by simp [hmatch], by simp [hmatch]⟩
        · exact .inr ⟨by simpa using hmatch, by simp [hmatch]⟩

theorem keeps_clearMatchingPage : b.Keeps (b.clearMatchingPage t) := by
  rcases b.clearMatchingPage_cases t with ⟨-, heq⟩ | ⟨-, heq⟩
  · rw [heq]
    exact b.keeps_setPending t.sessionId
  · rw [heq]
    exact fun _ => ⟨rfl, rfl⟩

/-- The slot is as the token left it. -/
def Agrees (c : OutputCursor) (t : OutputPageToken) (pending : PendingOutput) : Prop :=
  c.version = t.cursorVersion ∧ c.committed = t.requestedOffset ∧ c.pending = some pending

/-- **Staging.** -/
theorem stage_cases :
    (∃ error, b.stage t = (.error error, b.clearMatchingPage t)) ∨ (∃ error, b.stage t = (.error error, b)) ∧
        ¬ Agrees (b.cursor t.sessionId) t (.fetching t.pageId t.generation) ∨
      Agrees (b.cursor t.sessionId) t (.fetching t.pageId t.generation) ∧ b.stage t = (.ok (), b.setCursor t.sessionId
          { b.cursor t.sessionId with pending := some (.staged t.pageId t.generation) }) := by
  rw [stage, cursor]
  split
  · exact .inl ⟨_, rfl⟩
  · right
    cases b.cursors t.sessionId with
    | none => exact .inl ⟨⟨_, rfl⟩, fun h => nomatch h.2.2⟩
    | some =>
      simp only [getD_some, Agrees]
      split
      · rename_i hne
        refine .inl ⟨⟨_, rfl⟩, ?_⟩
        simpa only [not_and_or] using hne
      · rename_i heq
        simp only [not_or, not_not] at heq
        exact .inr ⟨heq, rfl⟩

theorem keeps_stage : b.Keeps (b.stage t).2 := by
  rcases b.stage_cases t with ⟨error, heq⟩ | ⟨⟨error, heq⟩, -⟩ | ⟨-, heq⟩
  · rw [heq]
    exact keeps_clearMatchingPage t
  · rw [heq]
    exact fun _ => ⟨rfl, rfl⟩
  · rw [heq]
    exact b.keeps_setPending t.sessionId

/-- **Committing.** -/
theorem commitPage_cases : b.commitPage t = (.error .staleOutputPage, b) ∧
        ¬ Agrees (b.cursor t.sessionId) t (.staged t.pageId t.generation) ∨
      Agrees (b.cursor t.sessionId) t (.staged t.pageId t.generation) ∧
        b.commitPage t = (.ok (), b.setCursor t.sessionId
          { b.cursor t.sessionId with committed := some t.nextOffset, pending := none }) := by
  rw [commitPage, cursor]
  cases b.cursors t.sessionId with
  | none => exact .inl ⟨rfl, fun h => nomatch h.2.2⟩
  | some =>
    simp only [getD_some, Agrees]
    split
    · rename_i hne
      refine .inl ⟨rfl, ?_⟩
      simpa only [not_and_or] using hne
    · rename_i heq
      simp only [not_or, not_not] at heq
      exact .inr ⟨heq, rfl⟩

/-- **Reserving.** -/
theorem reserve_cases (start : OutputPollCursor) (generation : ConnectionGeneration) :
    (∃ error b', b.reserve sessionId start generation = (.error error, b') ∧ b'.cursor = b.cursor ∧
        (b'.nextPageId = b.nextPageId ∨ b'.nextPageId = b.nextPageId + 1) ∧
        (b.acceptedGeneration = some generation → start = .continued)) ∨
      (b.reservedCursor sessionId start).pending = none ∧ b.acceptedGeneration = some generation ∧
        ∃ b', b.reserve sessionId start generation
            = (.ok ⟨sessionId, b.nextPageId, (b.reservedCursor sessionId start).version, generation,
                (b.reservedCursor sessionId start).committed, 0⟩, b') ∧
          b'.nextPageId = b.nextPageId + 1 ∧ b'.cursor = (b.setCursor sessionId
            { b.reservedCursor sessionId start with pending := some (.fetching b.nextPageId generation) }).cursor := by
  rw [reserve]
  split
  · rename_i hne
    exact .inl ⟨_, _, rfl, rfl, .inl rfl, fun heq => absurd heq hne⟩
  · rename_i heq
    simp only [not_not] at heq
    dsimp only
    split
    · -- the slot is taken, so it is the Session's own
      rename_i hpending
      have hstart : start = .continued := by
        cases start with
        | fromOffset => exact absurd hpending Bool.false_ne_true
        | continued => rfl
      subst hstart
      refine .inl ⟨_, _, rfl, ?_, .inr rfl, fun _ => rfl⟩
      funext other
      simp only [cursor_setCursor]
      split
      · rename_i hother
        rw [hother]
        rfl
      · rfl
    · rename_i hpending
      refine .inr ⟨by simpa using hpending, heq, _, rfl, rfl, ?_⟩
      funext other
      simp only [cursor_setCursor]
      split
      · rfl
      · rfl

end BackendState

open BackendState (Agrees Clears Matches)

/-! ## Slots -/

/-- **Every slot has someone who will empty it**: `fetches` and `live` are the tokens of the polls that fetch and of the
    pages that are staged. -/
structure Slots (cursor : String → OutputCursor) (fetches live : OutputPageToken → Prop) : Prop where
  fetching : ∀ sessionId pageId generation, (cursor sessionId).pending = some (.fetching pageId generation) →
    ∃ t, fetches t ∧ t.sessionId = sessionId ∧ t.pageId = pageId ∧ t.generation = generation ∧
      (cursor sessionId).version = t.cursorVersion ∧ (cursor sessionId).committed = t.requestedOffset
  staged : ∀ sessionId pageId generation, (cursor sessionId).pending = some (.staged pageId generation) →
    ∃ t, live t ∧ t.sessionId = sessionId ∧ t.pageId = pageId ∧ t.generation = generation ∧
      (cursor sessionId).version = t.cursorVersion ∧ (cursor sessionId).committed = t.requestedOffset
  /-- A page that is staged has its slot until the output is repositioned. -/
  current : ∀ t, live t → t.cursorVersion ≤ (cursor t.sessionId).version ∧
    (t.cursorVersion = (cursor t.sessionId).version →
      (cursor t.sessionId).pending = some (.staged t.pageId t.generation))

section SlotSteps

variable {cursor cursor' : String → OutputCursor} {fetches fetches' live live' : OutputPageToken → Prop}
  {t : OutputPageToken}

theorem Slots.mono (h : Slots cursor fetches live) (hfetches : ∀ t, fetches t → fetches' t)
    (hlive : ∀ t, live' t ↔ live t) : Slots cursor fetches' live' := by
  refine ⟨fun sessionId pageId generation hpending => ?_, fun sessionId pageId generation hpending => ?_,
    fun t ht => h.current t ((hlive t).mp ht)⟩
  · obtain ⟨t, ht, hrest⟩ := h.fetching _ _ _ hpending
    exact ⟨t, hfetches t ht, hrest⟩
  · obtain ⟨t, ht, hrest⟩ := h.staged _ _ _ hpending
    exact ⟨t, (hlive t).mpr ht, hrest⟩

theorem Slots.clears (h : Slots cursor fetches live) (hclears : ∀ sessionId, cursor' sessionId = cursor sessionId ∨
      (∃ pageId generation, (cursor sessionId).pending = some (.fetching pageId generation)) ∧
        cursor' sessionId = { cursor sessionId with pending := none }) : Slots cursor' fetches live := by
  refine ⟨fun sessionId pageId generation hpending => ?_, fun sessionId pageId generation hpending => ?_, fun t ht => ?_⟩
  · rcases hclears sessionId with heq | ⟨-, heq⟩
    · rw [heq] at hpending ⊢
      exact h.fetching _ _ _ hpending
    · rw [heq] at hpending
      exact nomatch hpending
  · rcases hclears sessionId with heq | ⟨-, heq⟩
    · rw [heq] at hpending ⊢
      exact h.staged _ _ _ hpending
    · rw [heq] at hpending
      exact nomatch hpending
  · obtain ⟨hle, hpending⟩ := h.current t ht
    rcases hclears t.sessionId with heq | ⟨⟨pageId, generation, hfetching⟩, heq⟩
    · rw [heq]
      exact ⟨hle, hpending⟩
    · -- a staged page is not cleared
      rw [heq]
      refine ⟨hle, fun hversion => ?_⟩
      rw [hpending hversion] at hfetching
      exact nomatch hfetching

variable {c : OutputCursor}

section

variable (h : Slots cursor fetches live)

include h

/-- The cursor of one Session is replaced: what concerns the others is as it was. -/
theorem Slots.update (hfetches : ∀ t, fetches t → t.sessionId ≠ sessionId → fetches' t)
    (hlive : ∀ t, t.sessionId ≠ sessionId → (live' t ↔ live t))
    (hfetching : ∀ pageId generation, c.pending = some (.fetching pageId generation) → ∃ t, fetches' t ∧
      t.sessionId = sessionId ∧ t.pageId = pageId ∧ t.generation = generation ∧ c.version = t.cursorVersion ∧
        c.committed = t.requestedOffset)
    (hstaged : ∀ pageId generation, c.pending = some (.staged pageId generation) → ∃ t, live' t ∧
      t.sessionId = sessionId ∧ t.pageId = pageId ∧ t.generation = generation ∧ c.version = t.cursorVersion ∧
        c.committed = t.requestedOffset)
    (hcurrent : ∀ t, live' t → t.sessionId = sessionId → t.cursorVersion ≤ c.version ∧
      (t.cursorVersion = c.version → c.pending = some (.staged t.pageId t.generation))) :
    Slots (fun other => if other = sessionId then c else cursor other) fetches' live' := by
  refine ⟨fun other pageId generation hother => ?_, fun other pageId generation hother => ?_, fun t ht => ?_⟩
  · by_cases heq : other = sessionId
    · subst heq
      simp only [if_true] at hother ⊢
      exact hfetching _ _ hother
    · simp only [if_neg heq] at hother ⊢
      obtain ⟨t, ht, hsession, hrest⟩ := h.fetching _ _ _ hother
      exact ⟨t, hfetches t ht (hsession ▸ heq), hsession, hrest⟩
  · by_cases heq : other = sessionId
    · subst heq
      simp only [if_true] at hother ⊢
      exact hstaged _ _ hother
    · simp only [if_neg heq] at hother ⊢
      obtain ⟨t, ht, hsession, hrest⟩ := h.staged _ _ _ hother
      exact ⟨t, (hlive t (hsession ▸ heq)).mpr ht, hsession, hrest⟩
  · by_cases heq : t.sessionId = sessionId
    · simp only [if_pos heq]
      exact hcurrent t ht heq
    · simp only [if_neg heq]
      exact h.current t ((hlive t heq).mp ht)

/-- **The output is repositioned.** -/
theorem Slots.reposition (hversion : c.version = (cursor sessionId).version + 1) (hpending : c.pending = none) :
    Slots (fun other => if other = sessionId then c else cursor other) fetches live := by
  refine h.update (fun _ ht _ => ht) (fun _ _ => Iff.rfl) (fun _ _ heq => ?_) (fun _ _ heq => ?_) (fun t ht heq => ?_)
  · exact nomatch hpending.symm.trans heq
  · exact nomatch hpending.symm.trans heq
  · have hle := heq ▸ (h.current t ht).1
    exact ⟨by omega, fun hnow => absurd hnow (by omega)⟩

/-- **A slot that is free is reserved.** -/
theorem Slots.reserve (hpending : (cursor t.sessionId).pending = none)
    (hversion : (cursor t.sessionId).version = t.cursorVersion)
    (hcommitted : (cursor t.sessionId).committed = t.requestedOffset)
    (hfetches : ∀ t', fetches' t' ↔ fetches t' ∨ t' = t) (hlive : ∀ t', live' t' ↔ live t') :
    Slots (fun other => if other = t.sessionId then
      { cursor t.sessionId with pending := some (.fetching t.pageId t.generation) } else cursor other) fetches' live' := by
  refine h.update (fun t' ht' _ => (hfetches t').mpr (.inl ht')) (fun t' _ => hlive t') (fun _ _ heq => ?_)
    nofun (fun t' ht' heq => ?_)
  · obtain ⟨hid, hgeneration⟩ := PendingOutput.fetching.inj (some.inj heq)
    exact ⟨t, (hfetches t).mpr (.inr rfl), rfl, hid, hgeneration, hversion, hcommitted⟩
  · -- a page staged there would have the slot
    obtain ⟨hle, hcurrent⟩ := heq ▸ h.current t' ((hlive t').mp ht')
    refine ⟨hle, fun hnow => ?_⟩
    rw [hcurrent hnow] at hpending
    exact nomatch hpending

section

variable (hfetches : ∀ t', fetches t' → t' ≠ t → fetches' t') (hlive : ∀ t', live t' → t' ≠ t → live' t')

include hfetches hlive

/-- **A token is given up**, and its slot with it if it has it. -/
theorem Slots.release (hlive' : ∀ t', live' t' → live t' ∧ t'.pageId ≠ t.pageId)
    (hversion : c.version = (cursor t.sessionId).version) (hnone : c.pending = none)
    (hmine : (cursor t.sessionId).pending = some (.fetching t.pageId t.generation) ∨
      (cursor t.sessionId).pending = some (.staged t.pageId t.generation)) :
    Slots (fun other => if other = t.sessionId then c else cursor other) fetches' live' := by
  have hother {t' : OutputPageToken} (hne : t'.sessionId ≠ t.sessionId) : t' ≠ t := fun heq => hne (heq ▸ rfl)
  refine h.update (fun t' ht' hne => hfetches t' ht' (hother hne))
    (fun t' hne => ⟨fun ht' => (hlive' t' ht').1, fun ht' => hlive t' ht' (hother hne)⟩) (fun _ _ heq => ?_)
    (fun _ _ heq => ?_) (fun t' ht' heq => ?_)
  · exact nomatch hnone.symm.trans heq
  · exact nomatch hnone.symm.trans heq
  · obtain ⟨hwas, hid⟩ := hlive' t' ht'
    obtain ⟨hle, hcurrent⟩ := heq ▸ h.current t' hwas
    refine ⟨hversion ▸ hle, fun hnow => ?_⟩
    -- the slot was this token's
    have hpending := hcurrent (hnow.trans hversion)
    rcases hmine with hmine | hmine
    · rw [hmine] at hpending
      exact nomatch hpending
    · rw [hmine] at hpending
      exact absurd (PendingOutput.staged.inj (some.inj hpending)).1.symm hid

theorem Slots.forget (hlive' : ∀ t', live' t' → live t')
    (hfetching : fetches t → ¬ Agrees (cursor t.sessionId) t (.fetching t.pageId t.generation))
    (hstaged : live t → ¬ Agrees (cursor t.sessionId) t (.staged t.pageId t.generation)) :
    Slots cursor fetches' live' := by
  refine ⟨fun other pageId generation hother => ?_, fun other pageId generation hother => ?_,
    fun t' ht' => h.current t' (hlive' t' ht')⟩
  · obtain ⟨t', ht', hsession, hid, hgeneration, hrest⟩ := h.fetching _ _ _ hother
    refine ⟨t', hfetches t' ht' ?_, hsession, hid, hgeneration, hrest⟩
    rintro rfl
    subst hsession hid hgeneration
    exact hfetching ht' ⟨hrest.1, hrest.2, hother⟩
  · obtain ⟨t', ht', hsession, hid, hgeneration, hrest⟩ := h.staged _ _ _ hother
    refine ⟨t', hlive t' ht' ?_, hsession, hid, hgeneration, hrest⟩
    rintro rfl
    subst hsession hid hgeneration
    exact hstaged ht' ⟨hrest.1, hrest.2, hother⟩

end

/-- **A fetched page is staged.** `t'` is the token with its offset. -/
theorem Slots.stage (t' : OutputPageToken) (hsession : t'.sessionId = t.sessionId)
    (hid : t'.pageId = t.pageId) (hgeneration : t'.generation = t.generation)
    (hversion : t'.cursorVersion = t.cursorVersion) (hoffset : t'.requestedOffset = t.requestedOffset)
    (hagrees : Agrees (cursor t.sessionId) t (.fetching t.pageId t.generation))
    (hfetches : ∀ u, fetches u → u ≠ t → fetches' u) (hlive : ∀ u, live' u ↔ live u ∨ u = t') :
    Slots (fun other => if other = t.sessionId then
      { cursor t.sessionId with pending := some (.staged t.pageId t.generation) } else cursor other) fetches' live' := by
  have hother : ∀ u, u.sessionId ≠ t.sessionId → (live' u ↔ live u) := by
    intro u hne
    rw [hlive, or_iff_left]
    exact fun heq => hne (heq ▸ hsession)
  refine h.update (fun u hu hne => hfetches u hu fun heq => hne (heq ▸ rfl)) hother nofun
    (fun _ _ heq => ?_) (fun u hu heq => ?_)
  · obtain ⟨hid', hgeneration'⟩ := PendingOutput.staged.inj (some.inj heq)
    exact ⟨t', (hlive t').mpr (.inr rfl), hsession, hid.trans hid', hgeneration.trans hgeneration',
      hagrees.1.trans hversion.symm, hagrees.2.1.trans hoffset.symm⟩
  · rcases (hlive u).mp hu with hu | rfl
    · obtain ⟨hle, hcurrent⟩ := heq ▸ h.current u hu
      refine ⟨hle, fun hnow => ?_⟩
      have hpending := hcurrent hnow
      rw [hagrees.2.2] at hpending
      exact nomatch hpending
    · exact ⟨Nat.le_of_eq (hversion.trans hagrees.1.symm), fun _ => by rw [hid, hgeneration]⟩

end

end SlotSteps

/-! ## The story of the pages -/

section

variable (sessionId : String)

def isRepositioning : Event → Bool
  | .repositioned other => other == sessionId
  | _ => false

/-- How often the output of a Session was repositioned. -/
def repositionings (trace : List Event) : Nat := trace.countP (isRepositioning sessionId)

/-- Something happens to the committed output of a Session. -/
def isMove : Event → Bool
  | .repositioned other => other == sessionId
  | .committed page => page.token.sessionId == sessionId
  | _ => false

/-- The last of these. -/
def lastMove (trace : List Event) : Option Event := (trace.filter (isMove sessionId)).getLast?

end

/-- **Committed pages follow each other**, unless one says that the renderer starts anew. -/
def Contiguous (trace : List Event) : Prop :=
  ∀ pre page post, trace = pre ++ .committed page :: post → ∀ before,
    lastMove page.token.sessionId pre = some (.committed before) →
      page.resetBeforeFeed = true ∨ page.offset = before.nextOffset

/-- The output was repositioned after the page was reserved. -/
def Superseded (trace : List Event) (t : OutputPageToken) : Prop :=
  ∃ pre post, trace = pre ++ .reserved t.sessionId t.pageId :: post ∧ .repositioned t.sessionId ∈ post

/-- An event that is about no page. -/
def isQuiet : Event → Bool
  | .repositioned _ | .reserved _ _ | .committed _ => false
  | _ => true

/-- **What the trace says** of the cursors and of the tokens that there are. -/
structure Story (cursor : String → OutputCursor) (owned : OutputPageToken → Prop) (next : Nat) (trace : List Event) :
    Prop where
  version : ∀ sessionId, (cursor sessionId).version = repositionings sessionId trace
  reserved : ∀ t, owned t → ∀ pre post, trace = pre ++ .reserved t.sessionId t.pageId :: post →
    repositionings t.sessionId pre = t.cursorVersion
  reserved_lt : ∀ sessionId pageId, .reserved sessionId pageId ∈ trace → pageId < next
  committed : ∀ sessionId page, lastMove sessionId trace = some (.committed page) →
    (cursor sessionId).committed = some page.nextOffset
  contiguous : Contiguous trace

section StorySteps

variable {cursor cursor' : String → OutputCursor} {owned owned' : OutputPageToken → Prop} {next next' : Nat}
  {trace : List Event} {e : Event} {sessionId : String}

theorem repositionings_append :
    repositionings sessionId (trace ++ trace') = repositionings sessionId trace + repositionings sessionId trace' :=
  countP_append

theorem lastMove_concat :
    lastMove sessionId (trace ++ [e]) = if isMove sessionId e then some e else lastMove sessionId trace := by
  rw [lastMove, lastMove, filter_append]
  cases h : isMove sessionId e with
  | true => rw [filter_cons_of_pos h, filter_nil, getLast?_concat, if_pos rfl]
  | false => rw [filter_cons_of_neg (by rw [h]; exact Bool.false_ne_true), filter_nil, append_nil,
      if_neg Bool.false_ne_true]

theorem Contiguous.concat (h : Contiguous trace)
    (hpage : ∀ page, e = .committed page → ∀ before, lastMove page.token.sessionId trace = some (.committed before) →
      page.resetBeforeFeed = true ∨ page.offset = before.nextOffset) : Contiguous (trace ++ [e]) := by
  intro pre page post hsplit before hbefore
  rcases split_concat hsplit with ⟨rfl, he⟩ | ⟨post', -, hsplit'⟩
  · exact hpage page he.symm before hbefore
  · exact h pre page post' hsplit' before hbefore

/-- The same token, as far as the trace is concerned. -/
def Alike (t t' : OutputPageToken) : Prop :=
  t.sessionId = t'.sessionId ∧ t.pageId = t'.pageId ∧ t.cursorVersion = t'.cursorVersion

section

variable (h : Story cursor owned next trace)

include h

/-- Nothing happens to the pages. -/
theorem Story.quiet (hcursor : ∀ sessionId, (cursor' sessionId).version = (cursor sessionId).version ∧
      (cursor' sessionId).committed = (cursor sessionId).committed)
    (howned : ∀ t, owned' t → ∃ t', owned t' ∧ Alike t t') (hnext : next ≤ next') : Story cursor' owned' next' trace := by
  refine ⟨fun sessionId => (hcursor sessionId).1.trans (h.version sessionId), fun t ht pre post hsplit => ?_,
    fun sessionId pageId hin => Nat.lt_of_lt_of_le (h.reserved_lt sessionId pageId hin) hnext,
    fun sessionId page hlast => (hcursor sessionId).2.trans (h.committed sessionId page hlast), h.contiguous⟩
  obtain ⟨t', ht', hsession, hid, hversion⟩ := howned t ht
  rw [hsession, hid] at hsplit
  rw [hsession, hversion]
  exact h.reserved t' ht' pre post hsplit

/-- One more event, which reserves no page. -/
theorem Story.concat
    (hreserves : ∀ sessionId pageId, e ≠ .reserved sessionId pageId) (howned : ∀ t, owned' t → owned t)
    (hversion : ∀ sessionId, (cursor' sessionId).version = (cursor sessionId).version + repositionings sessionId [e])
    (hcommitted : ∀ sessionId, isMove sessionId e = false →
      (cursor' sessionId).committed = (cursor sessionId).committed)
    (hpage : ∀ page, e = .committed page → (cursor' page.token.sessionId).committed = some page.nextOffset ∧
      (page.resetBeforeFeed = true ∨ (cursor page.token.sessionId).committed = some page.offset)) :
    Story cursor' owned' next (trace ++ [e]) := by
  refine ⟨fun sessionId => ?_, fun t ht pre post hsplit => ?_, fun sessionId pageId hin => ?_,
    fun sessionId page hlast => ?_, h.contiguous.concat fun page heq before hbefore => ?_⟩
  · rw [hversion, repositionings_append, h.version]
  · rcases split_concat hsplit with ⟨-, heq⟩ | ⟨post', -, hsplit'⟩
    · exact absurd heq.symm (hreserves _ _)
    · exact h.reserved t (howned t ht) pre post' hsplit'
  · rcases mem_append.mp hin with hin | hin
    · exact h.reserved_lt sessionId pageId hin
    · exact absurd (mem_singleton.mp hin).symm (hreserves _ _)
  · rw [lastMove_concat] at hlast
    split at hlast
    · rename_i hmove
      obtain rfl := some.inj hlast
      obtain rfl : page.token.sessionId = sessionId := eq_of_beq hmove
      exact (hpage page rfl).1
    · rename_i hmove
      rw [hcommitted sessionId (eq_false_of_ne_true hmove)]
      exact h.committed sessionId page hlast
  · rcases (hpage page heq).2 with hreset | hoffset
    · exact .inl hreset
    · right
      rw [h.committed _ _ hbefore] at hoffset
      exact (some.inj hoffset).symm

theorem Story.event (hquiet : isQuiet e = true) : Story cursor owned next (trace ++ [e]) := by
  refine h.concat ?_ (fun _ ht => ht) (fun sessionId => ?_) (fun _ _ => rfl) ?_
  · rintro _ _ rfl
    exact absurd hquiet Bool.false_ne_true
  · cases e <;> first | rfl | exact absurd hquiet Bool.false_ne_true
  · rintro page rfl
    exact absurd hquiet Bool.false_ne_true

theorem Story.reposition (hversion : c.version = (cursor sessionId).version + 1) :
    Story (fun other => if other = sessionId then c else cursor other) owned next
      (trace ++ [.repositioned sessionId]) := by
  refine h.concat nofun (fun _ ht => ht) (fun other => ?_) (fun other hmove => ?_) nofun
  · rw [repositionings, countP_singleton, isRepositioning]
    by_cases heq : other = sessionId
    · subst heq
      rw [if_pos rfl, hversion, beq_self_eq_true, if_pos rfl]
    · rw [if_neg heq, if_neg (fun hbeq => heq (eq_of_beq hbeq).symm), Nat.add_zero]
  · rw [if_neg (ne_of_beq_false hmove).symm]

theorem Story.reserve (hid : t.pageId = next) (hversion : t.cursorVersion = (cursor t.sessionId).version)
    (hcursor : ∀ sessionId, (cursor' sessionId).version = (cursor sessionId).version ∧
      (cursor' sessionId).committed = (cursor sessionId).committed)
    (howned : ∀ t', owned' t' → (owned t' ∧ t'.pageId < next) ∨ t' = t) :
    Story cursor' owned' (next + 1) (trace ++ [.reserved t.sessionId t.pageId]) := by
  refine ⟨fun sessionId => ?_, fun t' ht' pre post hsplit => ?_, fun sessionId pageId hin => ?_,
    fun sessionId page hlast => ?_, h.contiguous.concat nofun⟩
  · rw [(hcursor sessionId).1, repositionings_append, ← h.version sessionId]
    rfl
  · rcases split_concat hsplit with ⟨rfl, heq⟩ | ⟨post', -, hsplit'⟩
    · obtain ⟨-, hsame⟩ := Event.reserved.inj heq
      rcases howned t' ht' with ⟨-, hlt⟩ | rfl
      · omega
      · rw [hversion, h.version]
    · rcases howned t' ht' with ⟨hwas, -⟩ | rfl
      · exact h.reserved t' hwas pre post' hsplit'
      · -- its number is new
        have hin : Event.reserved t'.sessionId t'.pageId ∈ trace := by
          rw [hsplit']
          exact mem_append_right _ mem_cons_self
        have hlt := h.reserved_lt _ _ hin
        omega
  · rcases mem_append.mp hin with hin | hin
    · exact Nat.lt_succ_of_lt (h.reserved_lt sessionId pageId hin)
    · obtain ⟨-, hsame⟩ := Event.reserved.inj (mem_singleton.mp hin)
      omega
  · rw [lastMove_concat] at hlast
    rw [(hcursor sessionId).2]
    exact h.committed sessionId page hlast

/-- **A page is committed.** -/
theorem Story.commit
    (hversion : c.version = (cursor page.token.sessionId).version) (hcommitted : c.committed = some page.nextOffset)
    (hpage : page.resetBeforeFeed = true ∨ (cursor page.token.sessionId).committed = some page.offset)
    (howned : ∀ t, owned' t → owned t) :
    Story (fun other => if other = page.token.sessionId then c else cursor other) owned' next
      (trace ++ [.committed page]) := by
  refine h.concat nofun howned (fun other => ?_) (fun other hmove => ?_) ?_
  · by_cases heq : other = page.token.sessionId
    · subst heq
      rw [if_pos rfl, hversion]
      rfl
    · rw [if_neg heq]
      rfl
  · rw [if_neg (ne_of_beq_false hmove).symm]
  · rintro _ ⟨⟩
    rw [if_pos rfl]
    exact ⟨hcommitted, hpage⟩

theorem Story.version_ne (ht : owned t)
    (hsuperseded : Superseded trace t) : (cursor t.sessionId).version ≠ t.cursorVersion := by
  obtain ⟨pre, post, hsplit, hin⟩ := hsuperseded
  have hpre := h.reserved t ht pre post hsplit
  have hpost : 0 < repositionings t.sessionId post := by
    rw [repositionings, countP_pos_iff]
    exact ⟨_, hin, beq_self_eq_true _⟩
  rw [h.version, hsplit, repositionings_append, hpre]
  have hcons : repositionings t.sessionId (.reserved t.sessionId t.pageId :: post) = repositionings t.sessionId post :=
    countP_cons_of_neg Bool.false_ne_true
  omega

end

end StorySteps

end Supercli.Remote
