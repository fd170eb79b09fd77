import Supercli.Lib.Machine
import Supercli.Leases.ScheduleLeases

/-!
# `Leases.Fencing` — the fencing guarantee over whole histories

Any number of workers claim, renew and release leases on one table while the database clock moves
forward, in any order. The machine below records every fence a claim has handed out, newest first, and
the invariant `FenceOk` ties each of them to the row it was cut from:

    fence.generation ≤ row.generation, and at equality the row is still this owner's or a tombstone.

From that one relation follow all four guarantees: generations only grow, at most one fence is current,
a stale fence stays stale, and a stranger cannot touch the row.
-/

namespace Supercli.Fencing

open Machine ScheduleLeases Function List

/-- What can happen to the lease database: the clock advances, or some worker runs an operation on some
    schedule. `isCurrent` is a read and leaves no trace in the state. -/
inductive Act
  | tick (ms : Nat)
  | claim (w : Worker) (scheduleId : String)
  | renew (w : Worker) (scheduleId : String)
  | release (w : Worker) (scheduleId : String)
  | isCurrent (f : LeaseFence)
deriving DecidableEq, Repr

/-- The database, its clock, and the fences handed out so far (newest first). -/
structure State where
  table : LeaseTable
  now : Int
  fences : List LeaseFence

/-- `LeaseFence::is_current` at this instant. -/
def State.current (s : State) (f : LeaseFence) : Bool := f.isCurrent s.now s.table

/-- One act. A successful claim hands out the fence its `ClaimInfo` stands for. -/
def step (s : State) : Act → State
  | .tick ms => { s with now := s.now + ms }
  | .claim w id =>
    match claim w id s.now s.table with
    | (.ok (some info), t) => { s with table := t, fences := ⟨w, id, info.generation⟩ :: s.fences }
    | (_, t) => { s with table := t }
  | .renew w id => { s with table := (renew w id s.now s.table).2 }
  | .release w id => { s with table := release w id s.table }
  | .isCurrent _ => s

variable (legacy : String × String → Option (String × Int × Int))

/-- The database as `init` leaves it: the rows of a table from before the fencing column existed all get
    the migration's `DEFAULT 1`; a new database has none. No fence is out. -/
def opened (now : Int) : State where
  table := fun key => (legacy key).map fun (owner, expires, claimed) => ⟨owner, 1, expires, claimed⟩
  now := now
  fences := []

/-! ## The invariant -/

/-- A row's generation is a value the claim path produces. -/
def RowOk (row : LeaseRow) : Prop := 0 ≤ row.generation ∧ row.generation ≤ 2 ^ 63

/-- A fence against the row it was cut from. -/
def FenceOk (f : LeaseFence) (row : LeaseRow) : Prop :=
  (f.generation : Int) ≤ row.generation ∧
    ((f.generation : Int) = row.generation → row.owner = f.leases.owner ∨ row.owner = "")

/-- The state invariant. -/
structure Inv (s : State) : Prop where
  row : ∀ key row, s.table key = some row → RowOk row
  fence : ∀ f ∈ s.fences, ∃ row, s.table f.key = some row ∧ FenceOk f row
  grows : s.fences.Pairwise fun newer older => newer.key = older.key → older.generation < newer.generation

/-- A fence that can never validate again: its row has moved on, was released, or ran out. -/
def Dead (f : LeaseFence) (s : State) : Prop :=
  ∃ row, s.table f.key = some row ∧ (f.generation : Int) ≤ row.generation ∧
    ((f.generation : Int) = row.generation → row.owner = "" ∨ row.expiresAtMs ≤ s.now)

theorem inv_opened (now : Int) : Inv (opened legacy now) := by
  refine ⟨?_, by simp [opened], by simp [opened]⟩
  intro key row h
  simp only [opened, Option.map_eq_some_iff] at h
  obtain ⟨old, -, rfl⟩ := h
  exact ⟨(by decide : (0 : Int) ≤ 1), (by decide : (1 : Int) ≤ 2 ^ 63)⟩

/-! ## One step

The four writes replace at most one row, so each case asks what happens to the invariant when one row is
replaced (`Inv.update`) and, for a claim, when a fence one generation up joins the list. -/

variable {f : LeaseFence} {s : State} {row' : LeaseRow}

/-- Replacing one row keeps the invariant if the new row is in range and still covers its fences. -/
theorem Inv.update (h : Inv s) {row : LeaseRow} (hrow : s.table key = some row) (hok : RowOk row')
    (hf : ∀ f, FenceOk f row → FenceOk f row') : Inv { s with table := update s.table key (some row') } := by
  refine ⟨?_, ?_, h.grows⟩
  · intro k r hk
    rcases update_some hk with ⟨rfl, ⟨⟩⟩ | ⟨-, hk⟩
    · exact hok
    · exact h.row k r hk
  · intro f hmem
    obtain ⟨r, hr, hfr⟩ := h.fence f hmem
    by_cases hkey : f.key = key
    · rw [hkey, hrow] at hr
      cases hr
      exact ⟨row', by simp [hkey], hf f hfr⟩
    · exact ⟨r, by simp [update_of_ne hkey, hr], hfr⟩

/-- A claim that writes a row with a higher generation hands out a fence above all earlier ones. -/
theorem Inv.claimed (h : Inv s) {id : String} {g : Nat} (hown : row'.owner = w.owner) (hgen : row'.generation = g)
    (hle : (g : Int) ≤ 2 ^ 63) (hprev : ∀ row, s.table (w.tenant, id) = some row → row.generation < g) :
    Inv { s with table := Function.update s.table (w.tenant, id) (some row')
                 fences := ⟨w, id, g⟩ :: s.fences } := by
  refine ⟨?_, ?_, ?_⟩
  · intro k r hk
    rcases update_some hk with ⟨rfl, ⟨⟩⟩ | ⟨-, hk⟩
    · exact ⟨by omega, by omega⟩
    · exact h.row k r hk
  · intro f hmem
    rcases mem_cons.mp hmem with rfl | hmem
    · exact ⟨row', by simp [LeaseFence.key], Int.le_of_eq hgen.symm, fun _ => .inl hown⟩
    · obtain ⟨r, hr, hfr⟩ := h.fence f hmem
      by_cases hkey : f.key = (w.tenant, id)
      · have := hprev r (hkey ▸ hr)
        exact ⟨row', by simp [hkey], by have := hfr.1; omega, fun he => by have := hfr.1; omega⟩
      · exact ⟨r, by simp [Function.update_of_ne hkey, hr], hfr⟩
  · refine pairwise_cons.mpr ⟨?_, h.grows⟩
    intro f hmem hkey
    obtain ⟨r, hr, hfr⟩ := h.fence f hmem
    have := hprev r (by rw [← hr, ← hkey]; rfl)
    have := hfr.1
    show f.generation < g
    omega

/-- What a claim does to the state: insert the first row, take over a lapsed or released one, or nothing. -/
theorem step_claim_cases {id : String} : (s.table (w.tenant, id) = none ∧ step s (.claim w id) =
      { s with table := update s.table (w.tenant, id) (some ⟨w.owner, 1, s.now + asI64 w.ttlMs, s.now⟩)
               fences := ⟨w, id, 1⟩ :: s.fences }) ∨
    (∃ prev, s.table (w.tenant, id) = some prev ∧ prev.generation < 2 ^ 63 ∧ step s (.claim w id) =
      { s with table := update s.table (w.tenant, id)
                 (some ⟨w.owner, prev.generation + 1, s.now + asI64 w.ttlMs, s.now⟩)
               fences := ⟨w, id, (max prev.generation 0).toNat + 1⟩ :: s.fences }) ∨
    step s (.claim w id) = s := by
  rcases claim_cases w id s.now s.table with ⟨hn, hc⟩ | ⟨prev, took, hp, hlt, -, hc⟩ | ⟨r, hr, hc⟩
  · exact .inl ⟨hn, by simp only [step, hc]⟩
  · exact .inr (.inl ⟨prev, hp, hlt, by simp only [step, hc]⟩)
  · exact .inr (.inr (by simp only [step, hc]))

/-- **Step lemma.** Every act keeps the invariant. -/
theorem inv_step (s : State) (a : Act) (h : Inv s) : Inv (step s a) := by
  cases a with
  | tick => exact ⟨h.row, h.fence, h.grows⟩
  | claim =>
    rcases step_claim_cases with ⟨hn, hs⟩ | ⟨prev, hp, hlt, hs⟩ | hs <;> rw [hs]
    · -- the first claim of a schedule starts its sequence
      exact h.claimed rfl rfl (by decide) (by simp [hn])
    · -- a takeover goes one up; in range, the source's `max(0)` does nothing
      have hge : 0 ≤ prev.generation := (h.row _ _ hp).1
      refine h.claimed rfl ?_ ?_ ?_
      · show prev.generation + 1 = _
        omega
      · omega
      · intro row hrow
        rw [hp] at hrow
        cases hrow
        omega
    · exact h
  | renew w id =>
    rcases renew_cases w id s.now s.table with ⟨row, hrow, -, -, h2⟩ | h2 <;> simp only [step, h2]
    · -- owner and generation stay
      exact h.update hrow (h.row _ row hrow) (fun f hf => hf)
    · exact h
  | release w id =>
    rcases release_cases w id s.table with ⟨row, hrow, -, h2⟩ | h2 <;> simp only [step, h2]
    · -- the tombstone keeps the generation
      exact h.update hrow (h.row _ row hrow) (fun f hf => ⟨hf.1, fun _ => .inr rfl⟩)
    · exact h
  | isCurrent => exact h

/-- Replacing one row keeps a fence dead if the new row does. -/
theorem Dead.update (h : Dead f s) (hrow : s.table key = some row) (hd : (f.generation : Int) ≤ row.generation →
      ((f.generation : Int) = row.generation → row.owner = "" ∨ row.expiresAtMs ≤ s.now) →
      (f.generation : Int) ≤ row'.generation ∧
        ((f.generation : Int) = row'.generation → row'.owner = "" ∨ row'.expiresAtMs ≤ s.now)) :
    Dead f { s with table := update s.table key (some row') } := by
  obtain ⟨r, hr, hle, heq⟩ := h
  by_cases hkey : f.key = key
  · rw [hkey, hrow] at hr
    cases hr
    exact ⟨row', by simp [hkey], hd hle heq⟩
  · exact ⟨r, by simp [update_of_ne hkey, hr], hle, heq⟩

/-- **Step lemma.** No act revives a dead fence: the clock only moves on, a claim moves the generation
    on, `renew` needs a live owner, `release` leaves a tombstone. -/
theorem dead_step (f : LeaseFence) (s : State) (a : Act) (h : Dead f s) : Dead f (step s a) := by
  cases a with
  | tick ms =>
    obtain ⟨r, hr, hle, heq⟩ := h
    refine ⟨r, hr, hle, fun he => (heq he).imp_right ?_⟩
    intro hx
    show r.expiresAtMs ≤ s.now + ms
    omega
  | claim w id =>
    rcases step_claim_cases with ⟨hn, hs⟩ | ⟨prev, hp, -, hs⟩ | hs <;> rw [hs]
    · obtain ⟨r, hr, hle, heq⟩ := h
      -- the fence's schedule has a row, so the inserted one is another's
      have hkey : f.key ≠ (w.tenant, id) := by
        intro hk
        rw [hk, hn] at hr
        cases hr
      exact ⟨r, by simp [update_of_ne hkey, hr], hle, heq⟩
    · refine h.update hp fun hle _ => ⟨?_, ?_⟩
      · show _ ≤ prev.generation + 1
        omega
      · intro he
        have : (f.generation : Int) = prev.generation + 1 := he
        omega
    · exact h
  | renew w id =>
    rcases renew_cases w id s.now s.table with ⟨row, hrow, hown, hlive, h2⟩ | h2 <;> simp only [step, h2]
    · refine h.update hrow (fun hle heq => ⟨hle, ?_⟩)
      intro he
      -- at the fence's own generation the row is a tombstone or expired, and `renew` refuses both
      rcases heq he with ho | hx
      · exact absurd (hown ▸ ho) w.owner_ne_empty
      · omega
    · exact h
  | release w id =>
    rcases release_cases w id s.table with ⟨row, hrow, -, h2⟩ | h2 <;> simp only [step, h2]
    · exact h.update hrow (fun hle _ => ⟨hle, fun _ => .inl rfl⟩)
    · exact h
  | isCurrent => exact h

/-! ## Reading a fence -/

section

variable (h : Inv s) (hf : f ∈ s.fences)

include h hf

/-- A fence that reads current has the row's owner and generation, and the row is unexpired. -/
theorem row_of_current (hc : s.current f = true) :
    ∃ row, s.table f.key = some row ∧ row.owner = f.leases.owner ∧ row.generation = f.generation ∧
      s.now < row.expiresAtMs := by
  obtain ⟨row, hrow, hfr⟩ := h.fence f hf
  have hok := h.row _ _ hrow
  simp only [State.current, LeaseFence.isCurrent, hrow, Bool.and_eq_true, beq_iff_eq, decide_eq_true_eq] at hc
  obtain ⟨⟨hown, hgen⟩, hlive⟩ := hc
  exact ⟨row, hrow, hown, eq_of_eq_asI64 hok.1 (hfr.1.trans hok.2) hgen, hlive⟩

theorem Dead.not_current (hd : Dead f s) : s.current f = false := by
  rw [← Bool.not_eq_true]
  intro hc
  obtain ⟨row, hrow, hown, hgen, hlive⟩ := row_of_current h hf hc
  obtain ⟨r, hr, -, heq⟩ := hd
  rw [hrow] at hr; cases hr
  rcases heq hgen.symm with ho | hx
  · exact f.leases.owner_ne_empty (hown ▸ ho)
  · omega

/-- A stale fence is dead, unless its generation is the one beyond `i64`, which never reads current. -/
theorem dead_of_stale (hc : s.current f = false) : Dead f s ∨ 2 ^ 63 ≤ f.generation := by
  obtain ⟨row, hrow, hle, heq⟩ := h.fence f hf
  by_cases hbig : 2 ^ 63 ≤ f.generation
  · exact .inr hbig
  · refine .inl ⟨row, hrow, hle, fun he => (heq he).symm.imp_right ?_⟩
    intro hown
    have hcast : row.generation = asI64 f.generation := by
      rw [asI64_of_lt (by omega), he]
    simp only [State.current, LeaseFence.isCurrent, hrow, hown, hcast, BEq.rfl, Bool.true_and,
      decide_eq_false_iff_not] at hc
    omega

theorem not_current_of_big (hbig : 2 ^ 63 ≤ f.generation) : s.current f = false := by
  rw [← Bool.not_eq_true]
  intro hc
  obtain ⟨row, hrow, hfr⟩ := h.fence f hf
  have hok := h.row _ _ hrow
  -- `2 ^ 63` wraps to a negative number when the fence is compared, and no row's generation is negative
  have hexact : f.generation = 2 ^ 63 := by have := hfr.1; have := hok.2; omega
  simp only [State.current, LeaseFence.isCurrent, hrow, hexact, Bool.and_eq_true, beq_iff_eq] at hc
  have hneg : asI64 (2 ^ 63) < 0 := by decide
  have := hok.1
  omega

end

/-! ## The guarantee -/

/-- Handed-out fences are never forgotten. -/
theorem mem_fences_step (s : State) (a : Act) (hf : f ∈ s.fences) : f ∈ (step s a).fences := by
  cases a with
  | claim =>
    simp only [step]
    split
    · exact mem_cons_of_mem _ hf
    · exact hf
  | _ => exact hf

/-- **A fence that has once read stale never reads current again.** -/
theorem stale_run (h : Inv s) (hf : f ∈ s.fences) (hc : s.current f = false) :
    (run step s acts).current f = false := by
  have hinv := invariant_of_forall inv_step h acts
  have hmem : f ∈ (run step s acts).fences := invariant_of_forall mem_fences_step hf acts
  rcases dead_of_stale h hf hc with hd | hbig
  · exact (invariant_of_forall (dead_step f) hd acts).not_current hinv hmem
  · exact not_current_of_big hinv hmem hbig

/-- **At most one fence of a schedule is current.** -/
theorem current_unique (h : Inv s) (hf : f ∈ s.fences) (hg : g ∈ s.fences) (hkey : f.key = g.key)
    (hcf : s.current f = true) (hcg : s.current g = true) : f = g := by
  obtain ⟨row, hrow, -, hgf, -⟩ := row_of_current h hf hcf
  obtain ⟨row', hrow', -, hgg, -⟩ := row_of_current h hg hcg
  rw [hkey, hrow'] at hrow
  cases hrow
  by_contra hne
  -- two different entries of one schedule never share a generation
  let Distinct := fun a b : LeaseFence => a.key = b.key → a.generation ≠ b.generation
  have : Std.Symm Distinct := ⟨fun a b hab hk he => hab hk.symm he.symm⟩
  have hd : s.fences.Pairwise Distinct := h.grows.imp fun hlt hk => (hlt hk).ne'
  exact hd.forall hf hg hne hkey (by omega)

/-- **A current fence is the newest** that was handed out for its schedule. -/
theorem current_fence_newest (now : Int) (acts : List Act) :
    let s := run step (opened legacy now) acts
    ∀ f ∈ s.fences, s.current f = true → ∀ g ∈ s.fences, g.key = f.key → g.generation ≤ f.generation := by
  intro s f hf hc g hg hkey
  have h : Inv s := invariant_of_forall inv_step (inv_opened legacy now) acts
  obtain ⟨row, hrow, -, hgen, -⟩ := row_of_current h hf hc
  obtain ⟨row', hrow', hle, -⟩ := h.fence g hg
  rw [hkey, hrow] at hrow'
  cases hrow'
  omega

end Supercli.Fencing
