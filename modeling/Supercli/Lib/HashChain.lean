import Mathlib

/-!
# `Lib.HashChain` — entries that carry the hash of the entry before them

Every entry names the hash it follows and its own, which is a digest of the rest of the entry. A chain grows at its end
(`linked_concat`), and if the digest does not collide its last hash determines the whole of it (`Linked.eq_of_tail`).
-/

/-- How the entries of a chain are linked: the hash an entry follows, its own, and what its own is the digest of. -/
structure HashChain (E B H : Type) where
  prev : E → H
  hash : E → H
  body : E → B
  digest : B → H

namespace HashChain

open List

variable {E B H : Type} (c : HashChain E B H)

/-- Each entry follows the one before it, the first one `start`, and hashes to what it says. -/
def Linked : H → List E → Prop
  | _, [] => True
  | start, e :: es => c.prev e = start ∧ c.digest (c.body e) = c.hash e ∧ Linked (c.hash e) es

/-- The hash the next entry has to follow. -/
def tail (start : H) (es : List E) : H := (es.getLast?.map c.hash).getD start

@[simp] theorem tail_concat : c.tail start (es ++ [e]) = c.hash e := by simp [tail]

theorem tail_cons : c.tail start (e :: es) = c.tail (c.hash e) es := by
  cases es with
  | nil => rfl
  | cons => simp [tail, getLast?_cons]

/-- **A chain grows at its end.** -/
theorem linked_concat : c.Linked start (es ++ [e]) ↔
    c.Linked start es ∧ c.prev e = c.tail start es ∧ c.digest (c.body e) = c.hash e := by
  induction es generalizing start with
  | nil => simp [Linked, tail]
  | cons e' es ih => rw [cons_append, Linked, Linked, ih, tail_cons, and_assoc, and_assoc]

variable {c}

/-- **The last hash binds the history.** -/
theorem Linked.eq_of_tail (hdigest : Function.Injective c.digest)
    (hbody : ∀ e e', c.body e = c.body e' → c.hash e = c.hash e' → e = e') (hstart : ∀ b, c.digest b ≠ start)
    (h : c.Linked start es) (h' : c.Linked start es') (htail : c.tail start es = c.tail start es') :
    es = es' := by
  -- from the last entry backwards: the hash fixes the entry, and the entry names the hash before it
  induction es using reverseRecOn generalizing es' with
  | nil =>
    cases es' using reverseRecOn with
    | nil => rfl
    | append_singleton =>
      rw [tail_concat, ← (c.linked_concat.mp h').2.2] at htail
      exact absurd htail.symm (hstart _)
  | append_singleton front e ih =>
    obtain ⟨hfront, hprev, hhash⟩ := c.linked_concat.mp h
    cases es' using reverseRecOn with
    | nil =>
      rw [tail_concat, ← hhash] at htail
      exact absurd htail (hstart _)
    | append_singleton front' e' =>
      obtain ⟨hfront', hprev', hhash'⟩ := c.linked_concat.mp h'
      rw [tail_concat, tail_concat] at htail
      have heq : e = e' := hbody e e' (hdigest (by rw [hhash, hhash', htail])) htail
      rw [ih hfront hfront' (by rw [← hprev, ← hprev', heq]), heq]

end HashChain
