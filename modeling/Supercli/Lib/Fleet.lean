import Supercli.Lib.Machine
import Supercli.Lib.Program

/-!
# `Lib.Fleet` — processes that run programs over one shared state and may crash

Any number of processes, indexed by `W`, share a state `σ`. A process is started on an input, makes one
operation at a time in any interleaving with the others, returns, or crashes, which drops whatever was
left of its program. `Fleet.step` is the machine (`Lib.Machine`) of these labels.

When the launched programs obey a discipline, an invariant between the shared state and the automaton
state of every process is enough: `Fleet.invariant` turns four local obligations (a start, a move, a
return, a crash) into a statement about every run.
-/

/-- A fleet: how each process is answered, what it runs on an input, and what starting, returning and
    crashing do to the shared state. -/
structure Fleet (S : Sig) (W ι σ ε α : Type) where
  world : W → World S σ ε
  launch : W → ι → Prog S α
  onStart : W → ι → σ → σ
  onReturn : W → α → σ → σ
  onCrash : W → σ → σ

namespace Fleet

open Function

variable {S : Sig} {W ι σ ε α M : Type}

/-- The shared state, and what every running process has left to do. -/
structure State (S : Sig) (W σ α : Type) where
  shared : σ
  prog : W → Option (Prog S α)

/-- What happens next: a process is started, makes its next move (or returns), or crashes. -/
inductive Label (W ι ε : Type)
  | start (w : W) (i : ι)
  | step (w : W) (e : ε)
  | crash (w : W)

/-- Nothing runs. -/
def State.idle (s : σ) : State S W σ α := ⟨s, fun _ => none⟩

/-- One label. Starting a process that runs, or moving one that does not, changes nothing. -/
def step [DecidableEq W] (F : Fleet S W ι σ ε α) (s : State S W σ α) : Label W ι ε → State S W σ α
  | .start w i =>
    match s.prog w with
    | none => ⟨F.onStart w i s.shared, update s.prog w (some (F.launch w i))⟩
    | some _ => s
  | .step w e =>
    match s.prog w with
    | none => s
    | some (.ret a) => ⟨F.onReturn w a s.shared, update s.prog w none⟩
    | some (.ask o k) =>
      let r := (F.world w).answer o s.shared e
      ⟨r.2, update s.prog w (some (k r.1))⟩
  | .crash w => ⟨F.onCrash w s.shared, update s.prog w none⟩

/-- A condition on operations as a condition on labels: it is asked of every operation that is made. -/
def Meets (cond : W → (o : S.Op) → σ → ε → Prop) (s : State S W σ α) : Label W ι ε → Prop
  | .step w e =>
    match s.prog w with
    | some (.ask o _) => cond w o s.shared e
    | _ => True
  | _ => True

instance Meets.decidable (cond : W → (o : S.Op) → σ → ε → Prop) [∀ w o s e, Decidable (cond w o s e)]
    (s : State S W σ α) : (l : Label W ι ε) → Decidable (Meets cond s l)
  | .start _ _ => .isTrue trivial
  | .crash _ => .isTrue trivial
  | .step w e =>
    match hp : s.prog w with
    | some (.ask o _) => decidable_of_iff (cond w o s.shared e) (by simp [Meets, hp])
    | some (.ret _) => .isTrue (by simp [Meets, hp])
    | none => .isTrue (by simp [Meets, hp])

/-- Every running process is tracked by an automaton state from which what it has left is obedient. -/
def Tracks (D : Discipline S M) (Q : α → M → Prop) (prog : W → Option (Prog S α)) (marks : W → Option M) : Prop :=
  ∀ w, match prog w, marks w with
    | none, none => True
    | some p, some m => p.Obeys D Q m
    | _, _ => False

/-- `I` holds between the shared state and automaton states that track every process. -/
def Held (D : Discipline S M) (Q : α → M → Prop) (I : σ → (W → Option M) → Prop) (s : State S W σ α) : Prop :=
  ∃ marks, I s.shared marks ∧ Tracks D Q s.prog marks

/-- The local obligations of an invariant `I` between the shared state and the automaton states. -/
structure Preserves [DecidableEq W] (F : Fleet S W ι σ ε α) (D : Discipline S M) (init : ι → M) (Q : α → M → Prop)
    (cond : W → (o : S.Op) → σ → ε → Prop) (I : σ → (W → Option M) → Prop) : Prop where
  launch : ∀ w i, (F.launch w i).Obeys D Q (init i)
  start : ∀ s marks w i, I s marks → marks w = none → I (F.onStart w i s) (update marks w (some (init i)))
  move : ∀ s marks w m o e m', I s marks → marks w = some m → cond w o s e →
    D.next m o ((F.world w).answer o s e).1 = some m' →
    I ((F.world w).answer o s e).2 (update marks w (some m'))
  done : ∀ s marks w m a, I s marks → marks w = some m → Q a m → I (F.onReturn w a s) (update marks w none)
  crash : ∀ s marks w, I s marks → I (F.onCrash w s) (update marks w none)

variable {F : Fleet S W ι σ ε α} {D : Discipline S M} {init : ι → M} {Q : α → M → Prop}
  {cond : W → (o : S.Op) → σ → ε → Prop} {I : σ → (W → Option M) → Prop}
  {marks : W → Option M} {prog : W → Option (Prog S α)} {ready : σ → S.Op → Bool} {s : State S W σ α}

section

variable (h : Tracks D Q prog marks)

include h

theorem tracks_update [DecidableEq W]
    (hw : match p, m with | none, none => True | some p, some m => p.Obeys D Q m | _, _ => False) :
    Tracks D Q (update prog w p) (update marks w m) := by
  intro v
  by_cases hv : v = w
  · subst hv
    simp only [update_self]
    exact hw
  · simp only [update_of_ne hv]
    exact h v

/-- A process that has an automaton state runs. -/
theorem running_of_mark (hm : marks w = some m) : ∃ p, prog w = some p ∧ p.Obeys D Q m := by
  have := h w
  rw [hm] at this
  cases hp : prog w with
  | none => simp [hp] at this
  | some p => exact ⟨p, rfl, by simpa [hp] using this⟩

/-- A process that does not run has no automaton state. -/
theorem Tracks.none (hw : prog w = none) : marks w = none := by
  have := h w
  rw [hw] at this
  cases hm : marks w with
  | none => rfl
  | some => simp [hm] at this

/-- A process that runs obeys from its automaton state. -/
theorem Tracks.some (hw : prog w = some p) : ∃ m, marks w = some m ∧ p.Obeys D Q m := by
  have := h w
  rw [hw] at this
  cases hm : marks w with
  | none => simp [hm] at this
  | some m => exact ⟨m, rfl, by simpa [hm] using this⟩

end

/-- The obligations without those of a crash. -/
structure Keeps [DecidableEq W] (F : Fleet S W ι σ ε α) (D : Discipline S M) (init : ι → M) (Q : α → M → Prop)
    (cond : W → (o : S.Op) → σ → ε → Prop) (I : σ → (W → Option M) → Prop) : Prop where
  launch : ∀ w i, (F.launch w i).Obeys D Q (init i)
  start : ∀ s marks w i, I s marks → marks w = none → I (F.onStart w i s) (update marks w (some (init i)))
  move : ∀ s marks w m o e m', I s marks → marks w = some m → cond w o s e →
    D.next m o ((F.world w).answer o s e).1 = some m' →
    I ((F.world w).answer o s e).2 (update marks w (some m'))
  done : ∀ s marks w m a, I s marks → marks w = some m → Q a m → I (F.onReturn w a s) (update marks w none)

/-- The automaton states after a label. -/
def marked [DecidableEq W] (F : Fleet S W ι σ ε α) (D : Discipline S M) (init : ι → M) (s : State S W σ α)
    (marks : W → Option M) : Label W ι ε → W → Option M
  | .start w i =>
    match s.prog w with
    | none => update marks w (some (init i))
    | some _ => marks
  | .step w e =>
    match s.prog w with
    | none => marks
    | some (.ret _) => update marks w none
    | some (.ask o _) =>
      update marks w ((marks w).bind fun m => D.next m o ((F.world w).answer o s.shared e).1)
  | .crash w => update marks w none

/-- **Step lemma.** One label that is not a crash keeps the invariant and the tracking. -/
theorem Keeps.marked [DecidableEq W] (h : Keeps F D init Q cond I) (hcrash : ∀ w, l ≠ .crash w)
    (hI : I s.shared marks) (hT : Tracks D Q s.prog marks) (hl : Meets cond s l) :
    I (F.step s l).shared (F.marked D init s marks l) ∧ Tracks D Q (F.step s l).prog (F.marked D init s marks l) := by
  cases l with
  | start w i =>
    cases hp : s.prog w with
    | none =>
      simp only [Fleet.step, Fleet.marked, hp]
      exact ⟨h.start _ marks w i hI (hT.none hp), tracks_update hT (h.launch w i)⟩
    | some =>
      simp only [Fleet.step, Fleet.marked, hp]
      exact ⟨hI, hT⟩
  | step w e =>
    cases hp : s.prog w with
    | none =>
      simp only [Fleet.step, Fleet.marked, hp]
      exact ⟨hI, hT⟩
    | some p =>
      obtain ⟨m, hm, hobey⟩ := hT.some hp
      cases p with
      | ret a =>
        simp only [Fleet.step, Fleet.marked, hp]
        exact ⟨h.done _ marks w m a hI hm hobey, tracks_update hT trivial⟩
      | ask o k =>
        obtain ⟨m', hnext, hk⟩ := hobey ((F.world w).answer o s.shared e).1
        simp only [Meets, hp] at hl
        simp only [Fleet.step, Fleet.marked, hp, hm, Option.bind_some, hnext]
        exact ⟨h.move _ marks w m o e m' hI hm hl hnext, tracks_update hT hk⟩
  | crash w => exact absurd rfl (hcrash w)

/-- The step lemma, whatever the automaton states are. -/
theorem Keeps.step [DecidableEq W] (h : Keeps F D init Q cond I) (s : State S W σ α) (l : Label W ι ε)
    (hcrash : ∀ w, l ≠ .crash w) (hs : Held D Q I s) (hl : Meets cond s l) : Held D Q I (F.step s l) := by
  obtain ⟨marks, hI, hT⟩ := hs
  exact ⟨_, h.marked hcrash hI hT hl⟩

/-- The step lemma with crashes. -/
theorem Preserves.step [DecidableEq W] (h : Preserves F D init Q cond I) (s : State S W σ α)
    (l : Label W ι ε) (hs : Held D Q I s) (hl : Meets cond s l) : Held D Q I (F.step s l) := by
  have hkeeps : Keeps F D init Q cond I := { h with }
  cases l with
  | start _ _ | step _ _ => exact hkeeps.step s _ nofun hs hl
  | crash w =>
    obtain ⟨marks, hI, hT⟩ := hs
    exact ⟨_, h.crash _ marks w hI, tracks_update hT trivial⟩

/-- **Run rule.** In every run whose operations meet the condition, the invariant holds. -/
theorem invariant [DecidableEq W] (h : Preserves F D init Q cond I) {s : σ} (h0 : I s fun _ => none)
    (hls : Machine.Along F.step (Meets cond) (State.idle s) ls) : Held D Q I (Machine.run F.step (State.idle s) ls) :=
  Machine.invariant h.step ⟨_, h0, fun _ => trivial⟩ hls

/-! ## Threads that wait

Threads of one process do not crash, but an operation may have to wait for the others. -/

/-- A thread is started, or goes on. -/
inductive Move (W ι ε : Type)
  | start (w : W) (i : ι)
  | step (w : W) (e : ε)

def Move.label : Move W ι ε → Label W ι ε
  | .start w i => .start w i
  | .step w e => .step w e

/-- What the move is for is not taken by another thread. -/
def unblocked (ready : σ → S.Op → Bool) (s : State S W σ α) : Move W ι ε → Bool
  | .start _ _ => true
  | .step w _ =>
    match s.prog w with
    | some (.ask o _) => ready s.shared o
    | _ => true

/-- One move; a thread that has to wait does nothing. -/
def act [DecidableEq W] (F : Fleet S W ι σ ε α) (ready : σ → S.Op → Bool) (s : State S W σ α) (m : Move W ι ε) :
    State S W σ α :=
  if unblocked ready s m then F.step s m.label else s

theorem Move.label_ne_crash (m : Move W ι ε) (w : W) : m.label ≠ .crash w := by
  cases m with
  | start _ _ | step _ _ => exact nofun

theorem meets_of_unblocked (h : unblocked ready s m = true) : Meets (fun _ o s _ => ready s o = true) s m.label := by
  cases m with
  | start => trivial
  | step =>
    simp only [unblocked] at h
    simp only [Move.label, Meets]
    split
    · rename_i o k hp
      rw [hp] at h
      exact h
    · trivial

/-- The automaton states after a move. -/
def actMarks [DecidableEq W] (F : Fleet S W ι σ ε α) (D : Discipline S M) (init : ι → M) (ready : σ → S.Op → Bool)
    (s : State S W σ α) (marks : W → Option M) (m : Move W ι ε) : W → Option M :=
  if unblocked ready s m then F.marked D init s marks m.label else marks

/-- **Step lemma for threads that wait.** -/
theorem Keeps.act [DecidableEq W] (h : Keeps F D init Q (fun _ o s _ => ready s o = true) I) (hI : I s.shared marks)
    (hT : Tracks D Q s.prog marks) (m : Move W ι ε) :
    I (F.act ready s m).shared (F.actMarks D init ready s marks m) ∧
      Tracks D Q (F.act ready s m).prog (F.actMarks D init ready s marks m) := by
  simp only [Fleet.act, actMarks]
  split
  · rename_i hready
    exact h.marked m.label_ne_crash hI hT (meets_of_unblocked hready)
  · exact ⟨hI, hT⟩

/-- **Run rule for threads that wait.** -/
theorem Keeps.invariant [DecidableEq W] (h : Keeps F D init Q (fun _ o s _ => ready s o = true) I) {s : σ}
    (h0 : I s fun _ => none) (ms : List (Move W ι ε)) : Held D Q I (Machine.run (F.act ready) (State.idle s) ms) := by
  refine Machine.invariant_of_forall (fun t m ht => ?_) ⟨_, h0, fun _ => trivial⟩ ms
  obtain ⟨marks, hI, hT⟩ := ht
  exact ⟨_, h.act hI hT m⟩

end Fleet
