import Mathlib

/-!
# `Lib.Blocks` — a stream of whole blocks

A stream of items, each marked with the block it belongs to. A stream is in order if it is the concatenation of blocks
(`flat`). Cut in two anywhere, it is cut between two blocks or inside one (`flat_split`), and the marks beside the cut
tell which (`Straddles`).
-/

namespace Blocks

open List

variable {ι α : Type*}

structure Block (ι α : Type*) where
  id : ι
  data : List α
deriving DecidableEq, Repr

def Block.items (b : Block ι α) : List (ι × α) := b.data.map (b.id, ·)

def flat (blocks : List (Block ι α)) : List (ι × α) := blocks.flatMap Block.items

@[simp] theorem flat_nil : flat ([] : List (Block ι α)) = [] := rfl

@[simp] theorem flat_cons : flat (b :: blocks) = b.items ++ flat blocks :=
  flatMap_cons

@[simp] theorem flat_append :
    flat (blocks ++ blocks') = flat blocks ++ flat blocks' :=
  flatMap_append

theorem items_ne_nil {b : Block ι α} (h : b.data ≠ []) : b.items ≠ [] := by
  intro hnil
  exact h (map_eq_nil_iff.mp hnil)

/-- **A cut** is between two blocks, or inside one. -/
theorem flat_split (h : flat blocks = x ++ y) :
    (∃ before after, blocks = before ++ after ∧ x = flat before ∧ y = flat after) ∨
      ∃ before id data more after, blocks = before ++ ⟨id, data ++ more⟩ :: after ∧ data ≠ [] ∧ more ≠ [] ∧
        x = flat before ++ (⟨id, data⟩ : Block ι α).items ∧ y = (⟨id, more⟩ : Block ι α).items ++ flat after := by
  induction blocks generalizing x with
  | nil =>
    have hnil := append_eq_nil_iff.mp h.symm
    exact .inl ⟨[], [], rfl, hnil.1, hnil.2⟩
  | cons b blocks ih =>
    rw [flat_cons] at h
    rcases append_eq_append_iff.mp h with ⟨z, hx, hblocks⟩ | ⟨z, hb, hy⟩
    · -- the cut is after the first block
      rcases ih hblocks with ⟨before, after, rfl, rfl, rfl⟩ |
        ⟨before, id, data, more, after, rfl, hdata, hmore, rfl, rfl⟩
      · exact .inl ⟨b :: before, after, rfl, hx, rfl⟩
      · refine .inr ⟨b :: before, id, data, more, after, rfl, hdata, hmore, ?_, rfl⟩
        rw [hx, flat_cons, append_assoc]
    · -- the cut is in the first block, or at one of its ends
      obtain ⟨data, more, hsplit, rfl, rfl⟩ := map_eq_append_iff.mp hb
      by_cases hdata : data = []
      · subst hdata
        refine .inl ⟨[], b :: blocks, rfl, rfl, ?_⟩
        rw [hy, flat_cons, Block.items, hsplit]
        rfl
      · by_cases hmore : more = []
        · subst hmore
          refine .inl ⟨[b], blocks, rfl, ?_, hy⟩
          rw [flat_cons, flat_nil, append_nil, Block.items, hsplit, append_nil]
        · refine .inr ⟨[], b.id, data, more, blocks, ?_, hdata, hmore, rfl, hy⟩
          rw [← hsplit]
          rfl

/-- The block before the cut goes on after it. -/
def Straddles (x y : List (ι × α)) : Prop := y ≠ [] ∧ x.getLast?.map Prod.fst = y.head?.map Prod.fst

instance [DecidableEq ι] (x y : List (ι × α)) : Decidable (Straddles x y) := inferInstanceAs (Decidable (_ ∧ _))

/-- **A cut that does not straddle** is between two blocks. -/
theorem flat_boundary (h : flat blocks = x ++ y) (hcut : ¬ Straddles x y) :
    ∃ before after, blocks = before ++ after ∧ x = flat before ∧ y = flat after := by
  rcases flat_split h with hboundary | ⟨before, id, data, more, after, -, hdata, hmore, rfl, rfl⟩
  · exact hboundary
  · refine absurd ⟨?_, ?_⟩ hcut
    · intro hnil
      exact items_ne_nil (b := ⟨id, more⟩) hmore (append_eq_nil_iff.mp hnil).1
    · obtain ⟨first, rest, rfl⟩ := exists_cons_of_ne_nil hmore
      rw [getLast?_append_of_ne_nil _ (items_ne_nil (b := ⟨id, data⟩) hdata), Block.items, getLast?_map,
        getLast?_eq_some_getLast hdata]
      rfl

end Blocks
