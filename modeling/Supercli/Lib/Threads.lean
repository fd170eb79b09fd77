import Mathlib

/-!
# `Lib.Threads` — any number of threads over one shared state

The threads are a list, each at its own point of its program, and a move of one of them replaces one entry. A
statement about all of them (how many are inside a section, what they hold between them) does not depend on
their order, so it may be proved as if the thread that moves stood first: `moved_of_head`.
-/

namespace Threads

open List

variable {σ T : Type*} {I : σ → List T → Prop} {s s' : σ} {ts : List T} {i : Nat} {t : T}

/-- A list with one place replaced, against the same list with that place in front. -/
theorem perm_set (h : ts[i]? = some t) (t' : T) : ∃ rest, ts.Perm (t :: rest) ∧ (ts.set i t').Perm (t' :: rest) := by
  obtain ⟨hi, rfl⟩ := List.getElem?_eq_some_iff.mp h
  exact ⟨ts.eraseIdx i, (getElem_cons_eraseIdx_perm hi).symm, set_perm_cons_eraseIdx hi t'⟩

/-- **Any thread may be taken for the first.** -/
theorem moved_of_head (hperm : ∀ {s ts ts'}, ts.Perm ts' → I s ts → I s ts') (h : ts[i]? = some t)
    (hI : I s ts) (hhead : ∀ rest, (∀ u, u ∈ ts ↔ u ∈ t :: rest) → I s (t :: rest) → I s' (t' :: rest)) :
    I s' (ts.set i t') := by
  obtain ⟨rest, hts, hset⟩ := perm_set h t'
  exact hperm hset.symm (hhead rest (fun _ => hts.mem_iff) (hperm hts hI))

end Threads
