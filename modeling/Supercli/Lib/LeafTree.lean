import Mathlib

/-!
# `Lib.LeafTree` — binary trees with their data at the leaves

Places in a tree are paths from its root. What an operation does to a tree is said by what it does to its leaves, from
left to right: taking a leaf out (`detach`) erases the first one that is meant, and putting a tree where a leaf was puts
its leaves there (`pathTo_spec`).
-/

inductive LeafTree (β α : Type)
  | leaf (a : α)
  | split (b : β) (left right : LeafTree β α)

/-- The way to go at a split. -/
inductive Branch
  | left
  | right
deriving DecidableEq, Repr

namespace LeafTree

open List Option

variable {β α : Type}

/-- The leaves in order. -/
def leaves : LeafTree β α → List α
  | leaf a => [a]
  | split _ l r => l.leaves ++ r.leaves

/-- The way to the first leaf with the property. -/
def pathTo (p : α → Bool) : LeafTree β α → Option (List Branch)
  | leaf a => if p a then some [] else none
  | split _ l r =>
    match l.pathTo p with
    | some path => some (.left :: path)
    | none =>
      match r.pathTo p with
      | some path => some (.right :: path)
      | none => none

def nodeAt : LeafTree β α → List Branch → Option (LeafTree β α)
  | t, [] => some t
  | split _ l _, .left :: path => l.nodeAt path
  | split _ _ r, .right :: path => r.nodeAt path
  | leaf _, _ :: _ => none

/-- The tree with another node at the end of a path. -/
def updateAt (f : LeafTree β α → Option (LeafTree β α)) : LeafTree β α → List Branch → Option (LeafTree β α)
  | t, [] => f t
  | split b l r, .left :: path => (l.updateAt f path).map fun l' => split b l' r
  | split b l r, .right :: path => (r.updateAt f path).map fun r' => split b l r'
  | leaf _, _ :: _ => none

/-- A split without one of its children. -/
def survivor (lost : Branch) : LeafTree β α → Option (LeafTree β α)
  | split _ l r =>
    match lost with
    | .left => some r
    | .right => some l
  | leaf _ => none

/-- Take out the first leaf with the property; its sibling takes the place of their parent. A tree keeps its last leaf. -/
def detach (p : α → Bool) (t : LeafTree β α) : Option (LeafTree β α) :=
  match t.pathTo p with
  | none => none
  | some path =>
    match path.getLast? with
    | none => none
    | some last => t.updateAt (survivor last) path.dropLast

/-! ## Paths -/

theorem leaves_ne_nil (t : LeafTree β α) : t.leaves ≠ [] := by
  induction t with
  | leaf => exact cons_ne_nil _ _
  | split b l r ihl _ => exact append_ne_nil_of_left_ne_nil ihl _

variable {t : LeafTree β α} {p : α → Bool} {path : List Branch}

theorem pathTo_eq_none : t.pathTo p = none ↔ ∀ a ∈ t.leaves, p a = false := by
  induction t with
  | leaf => simp [pathTo, leaves]
  | split b l r ihl ihr =>
    simp only [pathTo, leaves, mem_append]
    cases hl : l.pathTo p with
    | some =>
      have hnot : ¬ ∀ a ∈ l.leaves, p a = false := fun h => nomatch hl.symm.trans (ihl.mpr h)
      exact ⟨nofun, fun h => absurd (fun a ha => h a (.inl ha)) hnot⟩
    | none =>
      cases hr : r.pathTo p with
      | some =>
        have hnot : ¬ ∀ a ∈ r.leaves, p a = false := fun h => nomatch hr.symm.trans (ihr.mpr h)
        exact ⟨nofun, fun h => absurd (fun a ha => h a (.inr ha)) hnot⟩
      | none =>
        refine ⟨fun _ a ha => ?_, fun _ => rfl⟩
        rcases ha with ha | ha
        · exact ihl.mp hl a ha
        · exact ihr.mp hr a ha

/-- **The path to a leaf**, and what putting something else there does to the leaves. -/
theorem pathTo_spec (h : t.pathTo p = some path) :
    ∃ pre a post, t.leaves = pre ++ a :: post ∧ p a = true ∧ (∀ x ∈ pre, p x = false) ∧ t.nodeAt path = some (leaf a) ∧
      (∀ f, f (leaf a) = none → t.updateAt f path = none) ∧
      ∀ f n, f (leaf a) = some n → ∃ t', t.updateAt f path = some t' ∧ t'.leaves = pre ++ n.leaves ++ post := by
  induction t generalizing path with
  | leaf a =>
    simp only [pathTo] at h
    split at h
    · rename_i hp
      obtain rfl := some.inj h
      refine ⟨[], a, [], rfl, hp, nofun, rfl, fun f hf => hf, fun f n hf => ⟨n, hf, ?_⟩⟩
      rw [nil_append, append_nil]
    · exact nomatch h
  | split b l r ihl ihr =>
    simp only [pathTo] at h
    split at h
    · rename_i lpath hl
      obtain rfl := some.inj h
      obtain ⟨pre, a, post, hleaves, hp, hpre, hnode, hnone, hsome⟩ := ihl hl
      refine ⟨pre, a, post ++ r.leaves, ?_, hp, hpre, hnode, fun f hf => ?_, fun f n hf => ?_⟩
      · simp only [leaves, hleaves, append_assoc, cons_append]
      · simp only [updateAt, hnone f hf, map_none]
      · obtain ⟨l', hl', hleaves'⟩ := hsome f n hf
        refine ⟨split b l' r, by simp only [updateAt, hl', map_some], ?_⟩
        simp only [leaves, hleaves', append_assoc]
    · rename_i hl
      split at h
      · rename_i rpath hr
        obtain rfl := some.inj h
        obtain ⟨pre, a, post, hleaves, hp, hpre, hnode, hnone, hsome⟩ := ihr hr
        refine ⟨l.leaves ++ pre, a, post, ?_, hp, fun x hx => ?_, hnode, fun f hf => ?_, fun f n hf => ?_⟩
        · simp only [leaves, hleaves, append_assoc]
        · exact forall_mem_append.mpr ⟨pathTo_eq_none.mp hl, hpre⟩ x hx
        · simp only [updateAt, hnone f hf, map_none]
        · obtain ⟨r', hr', hleaves'⟩ := hsome f n hf
          refine ⟨split b l r', by simp only [updateAt, hr', map_some], ?_⟩
          simp only [leaves, hleaves', append_assoc]
      · exact nomatch h

/-- A change that keeps the leaves of a node keeps those of the tree. -/
theorem leaves_updateAt (hf : ∀ n n', f n = some n' → n'.leaves = n.leaves)
    (h : t.updateAt f path = some t') : t'.leaves = t.leaves := by
  induction path generalizing t t' with
  | nil =>
    cases t with
    | leaf _ | split _ _ _ => exact hf _ _ h
  | cons branch path ih =>
    cases t with
    | leaf => simp [updateAt] at h
    | split =>
      cases branch with
      | left =>
        obtain ⟨l', hl', rfl⟩ := map_eq_some_iff.mp h
        simp only [leaves, ih hl']
      | right =>
        obtain ⟨r', hr', rfl⟩ := map_eq_some_iff.mp h
        simp only [leaves, ih hr']

/-! ## Taking out a leaf -/

/-- The first leaf is the tree itself, or it is further down. -/
theorem pathTo_eq_nil (h : t.pathTo p = some []) : ∃ a, t = leaf a ∧ p a = true := by
  cases t with
  | leaf a =>
    simp only [pathTo] at h
    split at h
    · exact ⟨a, rfl, by assumption⟩
    · exact nomatch h
  | split =>
    simp only [pathTo] at h
    split at h
    · exact nomatch h
    · split at h <;> exact nomatch h

/-- **Taking a leaf out of a split**: its sibling is left, or it is taken out of the child. -/
theorem detach_split : (split b l r).detach p = match l.pathTo p, r.pathTo p with
      | some [], _ => some r
      | some (_ :: _), _ => (l.detach p).map fun l' => split b l' r
      | none, some [] => some l
      | none, some (_ :: _) => (r.detach p).map fun r' => split b l r'
      | none, none => none := by
  rw [detach, detach, detach, pathTo]
  cases hl : l.pathTo p with
  | some path =>
    cases path with
    | nil => rfl
    | cons => rfl
  | none =>
    cases hr : r.pathTo p with
    | none => rfl
    | some path =>
      cases path with
      | nil | cons _ _ => rfl

theorem detach_leaf : (leaf a : LeafTree β α).detach p = none := by
  rw [detach, pathTo]
  cases p a <;> rfl

/-- **What is left when a leaf is taken out.** -/
theorem detach_spec (p : α → Bool) (t : LeafTree β α) : (∃ t', t.detach p = some t' ∧ t'.leaves = t.leaves.eraseP p) ∨
      t.detach p = none ∧ ((∀ a ∈ t.leaves, p a = false) ∨ ∃ a, t = leaf a) := by
  induction t with
  | leaf a =>
    exact .inr ⟨detach_leaf, .inr ⟨a, rfl⟩⟩
  | split b l r ihl ihr =>
    rw [detach_split]
    cases hl : l.pathTo p with
    | some path =>
      obtain ⟨pre, a, post, hleaves, hp, hpre, -⟩ := pathTo_spec hl
      have hmem : a ∈ l.leaves := by
        rw [hleaves]
        exact mem_append_right _ mem_cons_self
      left
      cases path with
      | nil =>
        obtain ⟨a', rfl, hp'⟩ := pathTo_eq_nil hl
        exact ⟨r, rfl, (eraseP_cons_of_pos hp').symm⟩
      | cons =>
        rcases ihl with ⟨l', hl', hleaves'⟩ | ⟨-, hnone | ⟨a', rfl⟩⟩
        · refine ⟨split b l' r, by simp only [hl', map_some], ?_⟩
          rw [leaves, leaves, hleaves', eraseP_append_left hp _ hmem]
        · exact nomatch hp.symm.trans (hnone a hmem)
        · simp only [pathTo] at hl
          split at hl <;> exact nomatch hl
    | none =>
      have hno : ∀ a ∈ l.leaves, p a = false := pathTo_eq_none.mp hl
      have herase : (l.leaves ++ r.leaves).eraseP p = l.leaves ++ r.leaves.eraseP p :=
        eraseP_append_right _ fun a ha => by rw [hno a ha]; exact Bool.false_ne_true
      cases hr : r.pathTo p with
      | some path =>
        obtain ⟨pre, a, post, hleaves, hp, hpre, -⟩ := pathTo_spec hr
        have hmem : a ∈ r.leaves := by
          rw [hleaves]
          exact mem_append_right _ mem_cons_self
        left
        cases path with
        | nil =>
          obtain ⟨a', rfl, hp'⟩ := pathTo_eq_nil hr
          refine ⟨l, rfl, ?_⟩
          rw [leaves, herase, leaves, eraseP_cons_of_pos hp', append_nil]
        | cons =>
          rcases ihr with ⟨r', hr', hleaves'⟩ | ⟨-, hnone | ⟨a', rfl⟩⟩
          · refine ⟨split b l r', by simp only [hr', map_some], ?_⟩
            rw [leaves, leaves, hleaves', herase]
          · exact nomatch hp.symm.trans (hnone a hmem)
          · simp only [pathTo] at hr
            split at hr <;> exact nomatch hr
      | none =>
        exact .inr ⟨rfl, .inl (forall_mem_append.mpr ⟨hno, pathTo_eq_none.mp hr⟩)⟩

/-! ## Exchanging leaves -/

/-- The tree with another node at a place. -/
def setAt (t : LeafTree β α) (path : List Branch) (n : LeafTree β α) : Option (LeafTree β α) :=
  t.updateAt (fun _ => some n) path

/-- **Another leaf in the place of a leaf.** The other leaves stay where they are. -/
theorem setAt_leaf (h : t.nodeAt path = some (leaf a)) (x : α) :
    ∃ t', t.setAt path (leaf x) = some t' ∧ (a :: t'.leaves).Perm (x :: t.leaves) ∧ t'.nodeAt path = some (leaf x) ∧
      ∀ path' y, path' ≠ path → t.nodeAt path' = some (leaf y) → t'.nodeAt path' = some (leaf y) := by
  induction path generalizing t with
  | nil =>
    obtain rfl : t = leaf a := by
      cases t <;> exact some.inj h
    refine ⟨leaf x, rfl, List.Perm.swap x a [], rfl, fun path' y hne hy => ?_⟩
    cases path' with
    | nil => exact absurd rfl hne
    | cons => simp [nodeAt] at hy
  | cons branch path ih =>
    cases t with
    | leaf => simp [nodeAt] at h
    | split b l r =>
      cases branch with
      | left =>
        obtain ⟨l', hl', hperm, hnode, hothers⟩ := ih (t := l) h
        rw [setAt] at hl'
        refine ⟨split b l' r, by simp only [setAt, updateAt, hl', map_some], ?_, hnode, ?_⟩
        · exact hperm.append_right r.leaves
        · intro path' y hne hy
          match path' with
          | [] => exact nomatch hy
          | .left :: path' => exact hothers path' y (fun heq => hne (by rw [heq])) hy
          | .right :: path' => exact hy
      | right =>
        obtain ⟨r', hr', hperm, hnode, hothers⟩ := ih (t := r) h
        rw [setAt] at hr'
        refine ⟨split b l r', by simp only [setAt, updateAt, hr', map_some], ?_, hnode, ?_⟩
        · have hmove : ∀ (y : α) (rest : List α), (y :: (l.leaves ++ rest)).Perm (l.leaves ++ y :: rest) :=
            fun y rest => perm_middle.symm
          exact (hmove a r'.leaves).trans ((hperm.append_left l.leaves).trans (hmove x r.leaves).symm)
        · intro path' y hne hy
          match path' with
          | [] => exact nomatch hy
          | .left :: path' => exact hy
          | .right :: path' => exact hothers path' y (fun heq => hne (by rw [heq])) hy

end LeafTree
