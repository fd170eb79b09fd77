import Mathlib

/-!
# `Leases.ScheduleLeases` — the cross-process lease table

The SQLite table behind `ScheduleLeases`: one row per `(tenant, schedule_id)`, written by `claim`
(one `BEGIN IMMEDIATE` transaction), `renew` and `release` (one conditional `UPDATE` each) and read by
`LeaseFence::is_current`. All expiry decisions compare against the *database* clock, so every operation
takes `now`, the value of `DB_NOW_MS` inside its statement.

The columns are SQLite values, kept as `Int`. A generation that left the `i64` range is the one value the
table can hold that `row.get` refuses to read back (`readI64`); a fence's `u64` generation is compared
after Rust's wrapping `as i64` cast (`asI64`).
-/

namespace Supercli

open Function

/-- Rust's `n as i64` on a `u64`. -/
def asI64 (n : Nat) : Int := Int.bmod n (2 ^ 64)

/-- Why a lease operation failed (the `Open` case belongs to `ScheduleLeases::open`, before any table
    exists). -/
inductive LeaseError
  | sql (message : String)
deriving DecidableEq, Repr

/-- One row of `schedule_leases`. `owner = ""` is the tombstone a clean release leaves. -/
structure LeaseRow where
  owner : String
  generation : Int
  expiresAtMs : Int
  claimedAtMs : Int
deriving DecidableEq, Repr

/-- The table, by its primary key `(tenant, schedule_id)`. -/
abbrev LeaseTable := String × String → Option LeaseRow

/-- What a successful claim hands to the worker: the generation for its fence and, when a lapsed lease
    was taken over, the previous `(owner, claimed_at_ms)`. -/
structure ClaimInfo where
  generation : Nat
  tookOver : Option (String × Nat)
deriving DecidableEq, Repr

/-- A `ScheduleLeases` handle: tenant, owner identity and time to live. -/
structure Worker where
  tenant : String
  pid : Nat
  seq : Nat
  ttlMs : Nat
deriving DecidableEq, Repr

/-- `owner: format!("pid{}-{seq}", std::process::id())`. -/
def Worker.owner (w : Worker) : String := "pid" ++ toString w.pid ++ "-" ++ toString w.seq

/-- An owner id is never the tombstone. -/
theorem Worker.owner_ne_empty (w : Worker) : w.owner ≠ "" := by
  intro h
  have hl : w.owner.length = 0 := by rw [h]; rfl
  have hp : "pid".length = 3 := rfl
  simp only [Worker.owner, String.length_append, hp] at hl
  omega

namespace LeaseTable

/-- `UPDATE schedule_leases SET … WHERE tenant = … AND schedule_id = … AND <cond>`: the number of changed
    rows and the table afterwards. -/
@[simp] def update (t : LeaseTable) (key : String × String) (cond : LeaseRow → Bool)
    (set : LeaseRow → LeaseRow) : Nat × LeaseTable :=
  match t key with
  | some row => if cond row then (1, Function.update t key (some (set row))) else (0, t)
  | none => (0, t)

end LeaseTable

/-- `row.get::<_, i64>`: an INTEGER column that overflowed into a REAL is an `InvalidColumnType`. -/
def readI64 (v : Int) : Except LeaseError Int :=
  if -(2 ^ 63) ≤ v ∧ v < 2 ^ 63 then .ok v else .error (.sql "Invalid column type Real")

theorem readI64_cases (v : Int) : (readI64 v = .ok v ∧ v < 2 ^ 63) ∨ ∃ e, readI64 v = .error e := by
  unfold readI64
  split
  · rename_i h; exact .inl ⟨rfl, h.2⟩
  · exact .inr ⟨_, rfl⟩

namespace ScheduleLeases

variable (w : Worker) (scheduleId : String) (now : Int) (t : LeaseTable)

/-- `claim_locked`: insert with generation 1, or take over a lapsed or released row with the generation
    bumped; `none` when the conditional `UPDATE` changed nothing. -/
def claimLocked : Except LeaseError (Option ClaimInfo × LeaseTable) :=
  let key := (w.tenant, scheduleId)
  match t key with
  | none =>
    let row : LeaseRow := ⟨w.owner, 1, now + asI64 w.ttlMs, now⟩
    .ok (some ⟨1, none⟩, update t key (some row))
  | some prev => do
    let prevGeneration ← readI64 prev.generation
    let prevClaimedAt ← readI64 prev.claimedAtMs
    let (changed, t') := t.update key
      (fun r => r.owner == "" || r.expiresAtMs ≤ now)
      (fun r => ⟨w.owner, r.generation + 1, now + asI64 w.ttlMs, now⟩)
    if changed = 0 then
      pure (none, t')
    else
      let generation := (max prevGeneration 0).toNat + 1
      let tookOver := if prev.owner = "" then none else some (prev.owner, (max prevClaimedAt 0).toNat)
      pure (some ⟨generation, tookOver⟩, t')

/-- `claim`: `claim_locked` in one transaction, rolled back on an error. -/
def claim : Except LeaseError (Option ClaimInfo) × LeaseTable :=
  match claimLocked w scheduleId now t with
  | .ok (info, t') => (.ok info, t')
  | .error e => (.error e, t)

/-- `renew`: extend a lease this worker still owns and that has not expired. -/
def renew : Bool × LeaseTable :=
  let (changed, t') := t.update (w.tenant, scheduleId)
    (fun r => r.owner == w.owner && now < r.expiresAtMs)
    (fun r => { r with expiresAtMs := now + asI64 w.ttlMs })
  (changed == 1, t')

/-- `release`: tombstone the row, so that the generation sequence goes on at the next claim. -/
def release : LeaseTable :=
  (t.update (w.tenant, scheduleId)
    (fun r => r.owner == w.owner)
    (fun r => { r with owner := "", expiresAtMs := 0 })).2

end ScheduleLeases

/-- The fencing token of one successful claim. -/
structure LeaseFence where
  leases : Worker
  scheduleId : String
  generation : Nat
deriving DecidableEq, Repr

namespace LeaseFence

/-- The row the fence is about. -/
def key (f : LeaseFence) : String × String := (f.leases.tenant, f.scheduleId)

/-- `is_current`: the row still shows this owner with this generation, unexpired on the database clock. -/
def isCurrent (f : LeaseFence) (now : Int) (t : LeaseTable) : Bool :=
  match t f.key with
  | some row =>
    row.owner == f.leases.owner && row.generation == asI64 f.generation && decide (now < row.expiresAtMs)
  | none => false

end LeaseFence

/-! ## What each operation can do to the table

One inversion lemma per operation: callers case on these and never unfold the operations. -/

namespace ScheduleLeases

variable {w : Worker} {id : String} {now : Int} {t : LeaseTable}

section

variable (w : Worker) (id : String) (now : Int) (t : LeaseTable)

/-- The three ways `claim` returns: a fresh row, a lapsed or released row taken over, or nothing changed. -/
theorem claim_cases : (t (w.tenant, id) = none ∧ claim w id now t = (.ok (some ⟨1, none⟩),
      update t (w.tenant, id) (some ⟨w.owner, 1, now + asI64 w.ttlMs, now⟩))) ∨
    (∃ prev took, t (w.tenant, id) = some prev ∧ prev.generation < 2 ^ 63 ∧
      (prev.owner = "" ∨ prev.expiresAtMs ≤ now) ∧
      claim w id now t = (.ok (some ⟨(max prev.generation 0).toNat + 1, took⟩), update t (w.tenant, id)
          (some ⟨w.owner, prev.generation + 1, now + asI64 w.ttlMs, now⟩))) ∨
    (∃ r, (∀ info, r ≠ .ok (some info)) ∧ claim w id now t = (r, t)) := by
  cases ht : t (w.tenant, id) with
  | none => left; simp [claim, claimLocked, ht]
  | some prev =>
    right
    -- a column that does not fit fails the claim before anything is written
    have unreadable : ∀ e, claimLocked w id now t = .error e →
        ∃ r, (∀ info, r ≠ .ok (some info)) ∧ claim w id now t = (r, t) := by
      intro e he
      exact ⟨.error e, by simp, by simp [claim, he]⟩
    rcases readI64_cases prev.generation with ⟨hg, hlt⟩ | ⟨e, hg⟩
    · rcases readI64_cases prev.claimedAtMs with ⟨hc, -⟩ | ⟨e, hc⟩
      · by_cases hw : prev.owner = "" ∨ prev.expiresAtMs ≤ now
        · left
          refine ⟨prev, if prev.owner = "" then none else some (prev.owner, (max prev.claimedAtMs 0).toNat),
            rfl, hlt, hw, ?_⟩
          simp [claim, claimLocked, ht, hg, hc, hw, bind, Except.bind, pure, Except.pure]
        · right
          refine ⟨.ok none, by simp, ?_⟩
          simp [claim, claimLocked, ht, hg, hc, hw, bind, Except.bind, pure, Except.pure]
      · exact .inr (unreadable e (by simp [claimLocked, ht, hg, hc, bind, Except.bind]))
    · exact .inr (unreadable e (by simp [claimLocked, ht, hg, bind, Except.bind]))

/-- `renew` either extends the expiry of the worker's own live row or changes nothing. -/
theorem renew_cases : (∃ row, t (w.tenant, id) = some row ∧ row.owner = w.owner ∧ now < row.expiresAtMs ∧
      (renew w id now t).2 = update t (w.tenant, id) (some { row with expiresAtMs := now + asI64 w.ttlMs })) ∨
    (renew w id now t).2 = t := by
  cases ht : t (w.tenant, id) with
  | none => right; simp [renew, ht]
  | some row =>
    by_cases h : row.owner = w.owner ∧ now < row.expiresAtMs
    · left; exact ⟨row, rfl, h.1, h.2, by simp [renew, ht, h]⟩
    · right; simp [renew, ht, h]

end

/-- `release` either tombstones the worker's own row or changes nothing. -/
theorem release_cases (w : Worker) (id : String) (t : LeaseTable) :
    (∃ row, t (w.tenant, id) = some row ∧ row.owner = w.owner ∧
      release w id t = update t (w.tenant, id) (some { row with owner := "", expiresAtMs := 0 })) ∨
    release w id t = t := by
  cases ht : t (w.tenant, id) with
  | none => right; simp [release, ht]
  | some row =>
    by_cases h : row.owner = w.owner
    · left; exact ⟨row, rfl, h, by simp [release, ht, h]⟩
    · right; simp [release, ht, h]

section

variable (h : ∀ row, t (w.tenant, id) = some row → row.owner ≠ w.owner)

include h

/-- **A stranger's `renew` changes nothing.** -/
theorem renew_of_owner_ne : renew w id now t = (false, t) := by
  cases ht : t (w.tenant, id) with
  | none => simp [renew, ht]
  | some row => simp [renew, ht, h row ht]

/-- **A stranger's `release` changes nothing.** -/
theorem release_of_owner_ne : release w id t = t := by
  cases ht : t (w.tenant, id) with
  | none => simp [release, ht]
  | some row => simp [release, ht, h row ht]

end

end ScheduleLeases

/-- A generation the table can hold equals a fence's wrapped one only if the fence did not wrap. -/
theorem eq_of_eq_asI64 {n : Nat} (hg : 0 ≤ g) (hn : (n : Int) ≤ 2 ^ 63) (h : g = asI64 n) : g = n := by
  unfold asI64 at h
  rw [Int.bmod_def] at h
  split at h <;> omega

theorem asI64_of_lt (h : n < 2 ^ 63) : asI64 n = n := by
  unfold asI64
  rw [Int.bmod_def]
  split <;> omega

end Supercli
