import Supercli.Lib.Machine

/-!
# `Lib.Ownership` — numbered things with one owner each

Things get the numbers 0, 1, 2, … as they are made. Each belongs to one of many threads, at most one thing to a thread, or
lies in a common pool, until it is gone. `Ownership` says that nothing has two owners, and its lemmas are what can happen
to a thing.
-/

/-- Nothing has two owners: `held` is what every thread has, `pool` what lies there, `next` the next number. -/
structure Ownership {W : Type*} (held : W → Option Nat) (pool : List Nat) (next : Nat) : Prop where
  threads : ∀ {w w' i}, held w = some i → held w' = some i → w = w'
  apart : ∀ {w i}, held w = some i → i ∉ pool
  nodup : pool.Nodup
  held_lt : ∀ {w i}, held w = some i → i < next
  pool_lt : ∀ {i}, i ∈ pool → i < next

namespace Ownership

open Function Option List

variable {W : Type*} {held : W → Option Nat} {pool pool' : List Nat} {next : Nat} {w : W} {i : Nat}

theorem none : Ownership (fun _ : W => none) [] 0 :=
  ⟨nofun, nofun, nodup_nil, nofun, nofun⟩

theorem perm (h : Ownership held pool next) (hperm : pool.Perm pool') : Ownership held pool' next :=
  ⟨h.threads, fun hw hin => h.apart hw (hperm.mem_iff.mpr hin), hperm.nodup_iff.mp h.nodup, h.held_lt,
    fun hin => h.pool_lt (hperm.mem_iff.mpr hin)⟩

/-- A number is given to nothing. -/
theorem skip (h : Ownership held pool next) : Ownership held pool (next + 1) :=
  ⟨h.threads, h.apart, h.nodup, fun hw => Nat.lt_succ_of_lt (h.held_lt hw), fun hin => Nat.lt_succ_of_lt (h.pool_lt hin)⟩

variable [DecidableEq W]

section

variable (h : Ownership held pool next)

include h

/-- A thread gets a thing that nobody has. -/
theorem give (hfree : ∀ v, v ≠ w → held v ≠ some i) (hpool : i ∉ pool) (hlt : i < next) :
    Ownership (update held w (some i)) pool next := by
  refine ⟨?_, ?_, h.nodup, ?_, h.pool_lt⟩
  · intro v v' j hv hv'
    rcases update_some hv with ⟨rfl, heq⟩ | ⟨hne, hv⟩
    · rcases update_some hv' with ⟨rfl, -⟩ | ⟨hne', hv'⟩
      · rfl
      · rw [← heq] at hv'
        exact absurd hv' (hfree v' hne')
    · rcases update_some hv' with ⟨rfl, heq⟩ | ⟨-, hv'⟩
      · exact absurd (heq ▸ ‹held v = some j›) (hfree v hne)
      · exact h.threads hv hv'
  · intro v j hv
    rcases update_some hv with ⟨-, heq⟩ | ⟨-, hv⟩
    · rw [← some.inj heq]
      exact hpool
    · exact h.apart hv
  · intro v j hv
    rcases update_some hv with ⟨-, heq⟩ | ⟨-, hv⟩
    · rw [← some.inj heq]
      exact hlt
    · exact h.held_lt hv

/-- **A new thing**, for a thread. -/
theorem new : Ownership (update held w (some next)) pool (next + 1) :=
  h.skip.give (fun _ _ hv => absurd (h.held_lt hv) (Nat.lt_irrefl _)) (fun hin => absurd (h.pool_lt hin) (Nat.lt_irrefl _))
    (Nat.lt_succ_self _)

/-- **A thread's thing is gone**, or it had none. -/
theorem release (w : W) : Ownership (update held w Option.none) pool next := by
  have hold : ∀ {v j}, update held w Option.none v = some j → held v = some j := by
    intro v j hv
    rcases update_some hv with ⟨-, heq⟩ | ⟨-, hv⟩
    · exact nomatch heq
    · exact hv
  exact ⟨fun hv hv' => h.threads (hold hv) (hold hv'), fun hv => h.apart (hold hv), h.nodup, fun hv => h.held_lt (hold hv),
    h.pool_lt⟩

end

/-- **A thread takes a thing** from the pool. -/
theorem take (h : Ownership held (i :: pool) next) : Ownership (update held w (some i)) pool next := by
  have hnodup := nodup_cons.mp h.nodup
  have hrest : Ownership held pool next :=
    ⟨h.threads, fun hv hin => h.apart hv (mem_cons_of_mem _ hin), hnodup.2, h.held_lt,
      fun hin => h.pool_lt (mem_cons_of_mem _ hin)⟩
  exact hrest.give (fun _ _ hv => h.apart hv mem_cons_self) hnodup.1 (h.pool_lt mem_cons_self)

/-- **A thread leaves its thing** in the pool. -/
theorem leave (h : Ownership held pool next) (hw : held w = some i) :
    Ownership (update held w Option.none) (i :: pool) next := by
  have hreleased := h.release w
  refine ⟨hreleased.threads, ?_, nodup_cons.mpr ⟨h.apart hw, h.nodup⟩, hreleased.held_lt, ?_⟩
  · intro v j hv hin
    rcases mem_cons.mp hin with rfl | hin
    · rcases update_some hv with ⟨-, heq⟩ | ⟨hne, hv⟩
      · exact nomatch heq
      · exact hne (h.threads hv hw)
    · exact hreleased.apart hv hin
  · intro j hin
    rcases mem_cons.mp hin with rfl | hin
    · exact h.held_lt hw
    · exact h.pool_lt hin

end Ownership
