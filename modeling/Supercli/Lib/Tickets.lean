import Supercli.Lib.Ownership

/-!
# `Lib.Tickets` — a queue of tickets

Threads take the numbers 0, 1, 2, … and are served in that order: the tickets from the one that is served to the next one
are those that threads have, each its own.
-/

/-- The tickets of the threads are those from `serving` to `next`. -/
structure Tickets {W : Type*} (held : W → Option Nat) (serving next : Nat) : Prop extends Ownership held [] next where
  serving_le : ∀ {w i}, held w = some i → serving ≤ i
  cover : ∀ {i}, serving ≤ i → i < next → ∃ w, held w = some i
  le_next : serving ≤ next

namespace Tickets

open Function Option

variable {W : Type*} {held : W → Option Nat} {serving next : Nat} {w : W}

theorem none : Tickets (fun _ : W => none) 0 0 :=
  ⟨Ownership.none, nofun, nofun, Nat.le_refl 0⟩

variable [DecidableEq W]

/-- **A thread takes the next ticket.** -/
theorem take (h : Tickets held serving next) (hw : held w = Option.none) :
    Tickets (update held w (some next)) serving (next + 1) := by
  refine ⟨h.toOwnership.new, ?_, ?_, Nat.le_succ_of_le h.le_next⟩
  · intro v i hv
    rcases update_some hv with ⟨-, heq⟩ | ⟨-, hv⟩
    · rw [← some.inj heq]
      exact h.le_next
    · exact h.serving_le hv
  · intro i hle hlt
    by_cases heq : i = next
    · exact ⟨w, heq ▸ update_self _ _ _⟩
    · obtain ⟨v, hv⟩ := h.cover hle (by omega)
      refine ⟨v, (update_of_ne ?_ _ _).trans hv⟩
      rintro rfl
      exact nomatch hw.symm.trans hv

/-- **The thread that is served is done.** -/
theorem finish (h : Tickets held serving next) (hw : held w = some serving) :
    Tickets (update held w Option.none) (serving + 1) next := by
  have hrest : ∀ {v i}, update held w Option.none v = some i → v ≠ w ∧ held v = some i := by
    intro v i hv
    rcases update_some hv with ⟨-, heq⟩ | hv
    · exact nomatch heq
    · exact hv
  refine ⟨h.toOwnership.release w, ?_, ?_, h.held_lt hw⟩
  · intro v i hv
    obtain ⟨hne, hv⟩ := hrest hv
    have hle := h.serving_le hv
    rcases Nat.lt_or_eq_of_le hle with hlt | heq
    · exact hlt
    · exact absurd (h.threads hv (heq ▸ hw)) hne
  · intro i hle hlt
    obtain ⟨v, hv⟩ := h.cover (Nat.le_of_succ_le hle) hlt
    refine ⟨v, (update_of_ne ?_ _ _).trans hv⟩
    rintro rfl
    have heq := mem_unique hw hv
    omega

end Tickets
