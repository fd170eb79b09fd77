import Mathlib

/-!
# `Lib.Machine` — runs of an input-driven machine

A reactive component is a state together with a total function `step : σ → ι → σ`: whatever may happen
to it next (a message, a clock reading, a crash) is an input of type `ι`. A run is a list of inputs, so
runs can be evaluated, and a statement about every reachable state is a statement about every list.

Assumptions about a run that talk about *when* an input arrives are step conditions `P : σ → ι → Prop`,
collected over the run by `Along`. `invariant` is the one induction the clients need.
-/

/-- What a table holds after one place was written. -/
theorem update_some [DecidableEq κ] {f : κ → Option α} {k v : κ} {o : Option α} {a : α}
    (h : Function.update f k o v = some a) : v = k ∧ o = some a ∨ v ≠ k ∧ f v = some a := by
  by_cases hv : v = k
  · subst hv
    rw [Function.update_self] at h
    exact .inl ⟨rfl, h⟩
  · rw [Function.update_of_ne hv] at h
    exact .inr ⟨hv, h⟩

namespace Machine

open List

variable {σ ι : Type*} {step : σ → ι → σ} {P : σ → ι → Prop} {s : σ} {is : List ι}

/-- The state after taking the inputs `is` in order. -/
def run (step : σ → ι → σ) (s : σ) (is : List ι) : σ := is.foldl step s

/-- `Along step P s is`: every input of the run satisfies the step condition `P` in the state in which it
    is taken. -/
def Along (step : σ → ι → σ) (P : σ → ι → Prop) : σ → List ι → Prop
  | _, [] => True
  | s, i :: is => P s i ∧ Along step P (step s i) is

/-- With a decidable step condition a concrete run can be checked by evaluation. -/
instance Along.decidable [∀ s i, Decidable (P s i)] : (s : σ) → (is : List ι) → Decidable (Along step P s is)
  | _, [] => .isTrue trivial
  | s, i :: is =>
    have := Along.decidable (step s i) is
    inferInstanceAs (Decidable (P s i ∧ Along step P (step s i) is))

variable {Inv : σ → Prop}

/-- **Run rule.** What every input that meets the step condition preserves, a whole run preserves. -/
theorem invariant (hstep : ∀ s i, Inv s → P s i → Inv (step s i)) (h0 : Inv s) (hP : Along step P s is) :
    Inv (run step s is) := by
  induction is generalizing s with
  | nil => exact h0
  | cons i is ih => exact ih (hstep s i h0 hP.1) hP.2

/-- A condition on the inputs alone. -/
theorem along_of_forall {Q : ι → Prop} (h : ∀ i ∈ is, Q i) (s : σ) : Along step (fun _ i => Q i) s is := by
  induction is generalizing s with
  | nil => trivial
  | cons i is ih => exact ⟨h i mem_cons_self, ih (fun j hj => h j (mem_cons_of_mem _ hj)) _⟩

/-- **Weakening a step condition**, with the help of an invariant. -/
theorem Along.imp_of_invariant (himp : ∀ s i, Inv s → P s i → Q s i)
    (hstep : ∀ s i, Inv s → P s i → Inv (step s i)) (h0 : Inv s) (hP : Along step P s is) : Along step Q s is := by
  induction is generalizing s with
  | nil => trivial
  | cons i is ih => exact ⟨himp s i h0 hP.1, ih (hstep s i h0 hP.1) hP.2⟩

/-- The run rule when every input preserves the invariant. -/
theorem invariant_of_forall (hstep : ∀ s i, Inv s → Inv (step s i)) (h0 : Inv s) (is : List ι) : Inv (run step s is) :=
  foldlRecOn is step h0 (fun s hs i _ => hstep s i hs)

end Machine
