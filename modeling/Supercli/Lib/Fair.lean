import Supercli.Lib.Fleet

/-!
# `Lib.Fair` — what threads that wait do in the end

An endless schedule of the threads of `Lib.Fleet` is fair if a thread that can go on again and again does go on
(`Fair`): neither the scheduler nor a lock starves anyone. Programs are finite, so a thread that is never stopped for good
gets to its end. `Fair.eventually` is the rule for this: what holds of a thread until some goal, and lets it go on again
and again, cannot hold forever.
-/

namespace Fleet

open Function

variable {S : Sig} {W ι σ ε α : Type} [DecidableEq W] {F : Fleet S W ι σ ε α} {ready : σ → S.Op → Bool}

/-- The states of an endless schedule. -/
def states (F : Fleet S W ι σ ε α) (ready : σ → S.Op → Bool) (s : State S W σ α) (schedule : Nat → Move W ι ε) :
    Nat → State S W σ α
  | 0 => s
  | n + 1 => F.act ready (states F ready s schedule n) (schedule n)

section

variable (ready : σ → S.Op → Bool) (s : State S W σ α) (w : W)

/-- A thread can go on. -/
def Runnable : Prop :=
  match s.prog w with
  | none => False
  | some (.ret _) => True
  | some (.ask o _) => ready s.shared o = true

/-- The thread goes on. -/
def Goes (m : Move W ι ε) : Prop :=
  Runnable ready s w ∧ ∃ e, m = .step w e

end

/-- **Nobody starves**: a thread that can go on again and again does go on. -/
def Fair (F : Fleet S W ι σ ε α) (ready : σ → S.Op → Bool) (s : State S W σ α) (schedule : Nat → Move W ι ε) : Prop :=
  ∀ w n, (∀ m, n ≤ m → ∃ m', m ≤ m' ∧ Runnable ready (states F ready s schedule m') w) →
    ∃ m, n ≤ m ∧ Goes ready (states F ready s schedule m) w (schedule m)

variable {s : State S W σ α} {w : W} {m : Move W ι ε}

/-- The thread a move is of. -/
def Move.thread : Move W ι ε → W
  | .start w _ => w
  | .step w _ => w

theorem prog_act_of_ne (h : w ≠ m.thread) : (F.act ready s m).prog w = s.prog w := by
  rw [act]
  split
  · cases m with
    | start =>
      simp only [Move.label, step]
      split
      · exact update_of_ne h _ _
      · rfl
    | step =>
      simp only [Move.label, step]
      split
      · rfl
      · exact update_of_ne h _ _
      · exact update_of_ne h _ _
  · rfl

/-- A thread that does not run does nothing. -/
theorem act_step_of_none (h : s.prog w = none) : F.act ready s (.step w e) = s := by
  rw [act]
  split
  · simp only [Move.label, step, h]
  · rfl

/-- A thread that does not go on has what it had to do. -/
theorem prog_act (hp : s.prog w = some p) (h : ¬ Goes ready s w m) : (F.act ready s m).prog w = some p := by
  by_cases hw : w = m.thread
  · subst hw
    rw [act]
    split
    · rename_i hunblocked
      cases m with
      | start =>
        simp only [Move.label, step]
        split
        · rename_i hv
          cases hp.symm.trans hv
        · exact hp
      | step v e =>
        refine absurd ⟨?_, e, rfl⟩ h
        simp only [Move.thread] at hp
        rw [Runnable, Move.thread, hp]
        rw [unblocked, hp] at hunblocked
        cases p with
        | ret => trivial
        | ask => exact hunblocked
    · exact hp
  · rw [prog_act_of_ne hw]
    exact hp

theorem prog_act_of_goes (hp : s.prog w = some (.ask o k)) (h : Goes ready s w m) :
    ∃ r, (F.act ready s m).prog w = some (k r) := by
  obtain ⟨hrunnable, e, rfl⟩ := h
  rw [Runnable, hp] at hrunnable
  refine ⟨((F.world w).answer o s.shared e).1, ?_⟩
  rw [act, unblocked, hp, if_pos hrunnable]
  simp only [Move.label, step, hp]
  exact update_self _ _ _

variable {schedule : Nat → Move W ι ε}

/-- **A thread that can go on again and again as long as it has the same to do**, goes on. -/
theorem Fair.goes (hfair : Fair F ready s schedule) (hp : (states F ready s schedule n).prog w = some p)
    (hagain : (∀ m, n ≤ m → (states F ready s schedule m).prog w = some p) →
      ∀ m, n ≤ m → ∃ m', m ≤ m' ∧ Runnable ready (states F ready s schedule m') w) :
    ∃ m, n ≤ m ∧ (states F ready s schedule m).prog w = some p ∧
      Goes ready (states F ready s schedule m) w (schedule m) := by
  by_contra hnever
  -- then it would have the same to do forever
  have hsame : ∀ m, n ≤ m → (states F ready s schedule m).prog w = some p := by
    intro m hm
    induction m, hm using Nat.le_induction with
    | base => exact hp
    | succ m hm ih => exact prog_act ih fun hgoes => hnever ⟨m, hm, ih, hgoes⟩
  obtain ⟨m, hm, hgoes⟩ := hfair w n (hagain hsame)
  exact hnever ⟨m, hm, hsame m hm, hgoes⟩

/-- **Progress rule.** `J` holds until the goal is reached; under `J` the thread has an operation to make, and if it waits
    for it forever it can make it again and again. Then the goal is reached. -/
theorem Fair.eventually (hfair : Fair F ready s schedule) {J G : Nat → Prop} (hnext : ∀ n, J n → J (n + 1) ∨ G (n + 1))
    (hprog : ∀ n, J n → ∃ o k, (states F ready s schedule n).prog w = some (.ask o k))
    (hready : ∀ n o k, J n → (∀ m, n ≤ m → J m) →
      (∀ m, n ≤ m → (states F ready s schedule m).prog w = some (.ask o k)) →
        ∃ m, n ≤ m ∧ ready (states F ready s schedule m).shared o = true) (hn : J n) : ∃ m, n ≤ m ∧ G m := by
  by_contra hnever
  have hforever : ∀ m, n ≤ m → J m := by
    intro m hm
    induction m, hm using Nat.le_induction with
    | base => exact hn
    | succ m hm ih => exact (hnext m ih).resolve_right fun hgoal => hnever ⟨m + 1, by omega, hgoal⟩
  -- by induction on what the thread has to do
  suffices hends : ∀ (p : Prog S α) m, n ≤ m → (states F ready s schedule m).prog w ≠ some p by
    obtain ⟨o, k, hp⟩ := hprog n hn
    exact hends _ n (Nat.le_refl n) hp
  intro p
  induction p with
  | ret =>
    intro m hm hp
    obtain ⟨o, k, hp'⟩ := hprog m (hforever m hm)
    exact nomatch hp.symm.trans hp'
  | ask o k ih =>
    intro m hm hp
    obtain ⟨m', hm', hp', hgoes⟩ := hfair.goes hp fun hsame i hi => by
      obtain ⟨j, hj, hj'⟩ := hready i o k (hforever i (by omega)) (fun j hj => hforever j (by omega))
        (fun j hj => hsame j (by omega))
      refine ⟨j, hj, ?_⟩
      rw [Runnable, hsame j (by omega)]
      exact hj'
    obtain ⟨r, hr⟩ := prog_act_of_goes (F := F) hp' hgoes
    exact ih r (m' + 1) (by omega) hr

end Fleet
