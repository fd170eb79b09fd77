import Mathlib

/-!
# `Lib.Numbered` — a list that is numbered through

The members of a list carry consecutive numbers. What is numbered past a cursor is then what is left when the cursor's
members are dropped (`NumberedFrom.filter_gt`), also of a list whose oldest members are gone
(`NumberedFrom.filter_gt_drop`).
-/

section Numbered

variable {α : Type*} {number : α → Nat}

/-- The numbers count on from `n`. -/
def NumberedFrom (number : α → Nat) : Nat → List α → Prop
  | _, [] => True
  | n, x :: xs => number x = n + 1 ∧ NumberedFrom number (n + 1) xs

namespace NumberedFrom

open List

variable {n : Nat} {xs : List α}

section

variable (h : NumberedFrom number n xs)

include h

theorem append (hx : number x = n + xs.length + 1) : NumberedFrom number n (xs ++ [x]) := by
  induction xs generalizing n with
  | nil => exact ⟨hx, trivial⟩
  | cons y ys ih =>
    refine ⟨h.1, ih h.2 ?_⟩
    rw [hx, length_cons]
    omega

theorem drop (d : Nat) : NumberedFrom number (n + d) (xs.drop d) := by
  induction d generalizing n xs with
  | zero => exact h
  | succ d ih =>
    cases xs with
    | nil => trivial
    | cons =>
      have hdrop := ih h.2
      rw [Nat.add_assoc, Nat.add_comm 1 d] at hdrop
      exact hdrop

/-- The number at a place. -/
theorem getElem? (hx : xs[i]? = some x) : number x = n + i + 1 := by
  have hdrop := h.drop i
  rw [drop_eq_getElem?_toList_append, hx] at hdrop
  exact hdrop.1

theorem filter_gt (c : Nat) : xs.filter (fun x => decide (c < number x)) = xs.drop (c - n) := by
  induction xs generalizing n with
  | nil => rw [drop_nil, filter_nil]
  | cons x xs ih =>
    rw [filter_cons, ih h.2, h.1]
    by_cases hc : c ≤ n
    · rw [if_pos (by simp only [decide_eq_true_eq]; omega), Nat.sub_eq_zero_of_le hc,
        Nat.sub_eq_zero_of_le (by omega), drop_zero, drop_zero]
    · rw [if_neg (by simp only [decide_eq_true_eq]; omega), show c - n = c - (n + 1) + 1 by omega, drop_succ_cons]

end

/-- **What is past a cursor**, of what is left of a list. -/
theorem filter_gt_drop (h : NumberedFrom number 0 xs) (c d : Nat) :
    (xs.drop d).filter (fun x => decide (c < number x)) = xs.drop (max c d) := by
  have hdrop := (h.drop d).filter_gt c
  rw [hdrop, drop_drop]
  congr 1
  omega

end NumberedFrom

end Numbered
