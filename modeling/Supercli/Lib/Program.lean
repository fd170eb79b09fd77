import Mathlib

/-!
# `Lib.Program` — programs that talk to a world

A program is a tree of operations: at each node it asks for something and continues with the answer
(`Prog`). What the answer is, and what asking does to the state, is up to a `World`; whatever the world
leaves open (a clock, a failure, the reply of a remote service) is an environment value supplied per
operation. Cutting a program off after any operation is a crash of the process that runs it.

A `Discipline` is an automaton that watches the operations and their answers. `Obeys` says that a program
never leaves it, whatever it is answered; it is proved once per program, by its rules for `ret`, `ask` and
`bind`. What the discipline guarantees about the world is then an invariant of the automaton's moves
(`exec_sound`), and no proof about the state has to look at the program again.
-/

/-- Operations and the type of answer each one gets. -/
structure Sig where
  Op : Type
  Ans : Op → Type

/-- Programs over a signature. -/
inductive Prog (S : Sig) (α : Type) where
  | ret (a : α) : Prog S α
  | ask (o : S.Op) (k : S.Ans o → Prog S α) : Prog S α

namespace Prog

variable {S : Sig} {α β : Type}

/-- Sequencing. -/
def bind : Prog S α → (α → Prog S β) → Prog S β
  | ret a, f => f a
  | ask o k, f => ask o fun r => (k r).bind f

instance : Monad (Prog S) where
  pure := ret
  bind := bind

@[simp] theorem pure_eq : (pure a : Prog S α) = ret a := rfl

theorem bind_ret (p : Prog S α) : p.bind ret = p := by
  induction p with
  | ret => rfl
  | ask o k ih => exact congrArg (ask o) (funext ih)

theorem bind_bind {γ : Type} (p : Prog S α) (f : α → Prog S β) {g : β → Prog S γ} :
    (p.bind f).bind g = p.bind fun a => (f a).bind g := by
  induction p with
  | ret => rfl
  | ask o k ih => exact congrArg (ask o) (funext ih)

instance : LawfulMonad (Prog S) := LawfulMonad.mk' _ bind_ret (fun _ _ => rfl) bind_bind

/-- Ask and return the answer. -/
def perform (o : S.Op) : Prog S (S.Ans o) := ask o ret

end Prog

/-- How operations are answered: from the state and what the environment supplies, with what is left. -/
structure World (S : Sig) (σ ε : Type) where
  answer : (o : S.Op) → σ → ε → S.Ans o × σ

namespace Prog

variable {S : Sig} {σ ε α β : Type}

/-- Run a program to its end; `none` if the environment values run out first. -/
def exec (W : World S σ ε) : Prog S α → σ → List ε → Option (α × σ)
  | ret a, s, _ => some (a, s)
  | ask _ _, _, [] => none
  | ask o k, s, e :: es => exec W (k (W.answer o s e).1) (W.answer o s e).2 es

/-- The program returns after at most `n` operations, whatever it is answered. -/
def Within : Prog S α → Nat → Prop
  | ret _, _ => True
  | ask _ _, 0 => False
  | ask _ k, n + 1 => ∀ r, (k r).Within n

@[simp] theorem within_ret : (ret a : Prog S α).Within n := by
  cases n <;> trivial

variable {p : Prog S α} {n : Nat}

@[simp] theorem within_perform_bind : (perform o >>= f).Within (n + 1) ↔ ∀ r, (f r).Within n := Iff.rfl

theorem Within.mono (h : p.Within n) (hnk : n ≤ k) : p.Within k := by
  induction p generalizing n k with
  | ret a => exact within_ret
  | ask o c ih =>
    cases n with
    | zero => exact h.elim
    | succ =>
      cases k with
      | zero => omega
      | succ => exact fun r => ih r (h r) (by omega)

theorem Within.bind {f : α → Prog S β} (hp : p.Within n) (hf : ∀ a, (f a).Within k) : (p >>= f).Within (n + k) := by
  induction p generalizing n with
  | ret a => exact (hf a).mono (by omega)
  | ask o c ih =>
    cases n with
    | zero => exact hp.elim
    | succ =>
      rw [Nat.add_right_comm]
      exact fun r => ih r (hp r)

/-- With as many environment values as a program may ask for, it returns. -/
theorem exec_of_within (h : p.Within n) (s : σ) (hes : n ≤ es.length) : ∃ r, p.exec W s es = some r := by
  induction p generalizing n s es with
  | ret => exact ⟨_, rfl⟩
  | ask o c ih =>
    cases n with
    | zero => exact h.elim
    | succ =>
      cases es with
      | nil => simp at hes
      | cons => exact ih _ (h _) _ (by simpa using hes)

end Prog

/-! ## Disciplines -/

/-- An automaton over operations and answers; `none` is a move it forbids. -/
structure Discipline (S : Sig) (M : Type) where
  next : M → (o : S.Op) → S.Ans o → Option M

namespace Prog

variable {S : Sig} {σ ε α β M : Type} {D : Discipline S M} {Q Q' : α → M → Prop} {m : M}

/-- From `m`, the program only makes moves the discipline allows, whatever it is answered, and returns in
    a state that satisfies `Q`. -/
def Obeys (D : Discipline S M) : Prog S α → (α → M → Prop) → M → Prop
  | ret a, Q, m => Q a m
  | ask o k, Q, m => ∀ r, ∃ m', D.next m o r = some m' ∧ (k r).Obeys D Q m'

@[simp] theorem obeys_ret : (ret a : Prog S α).Obeys D Q m ↔ Q a m := Iff.rfl

variable {p : Prog S α}

/-- Weakening the postcondition. -/
theorem Obeys.mono (h : p.Obeys D Q m) (hQ : ∀ a m, Q a m → Q' a m) : p.Obeys D Q' m := by
  induction p generalizing m with
  | ret a => exact hQ a m h
  | ask o k ih =>
    intro r
    obtain ⟨m', hm, hk⟩ := h r
    exact ⟨m', hm, ih r hk⟩

variable {R : β → M → Prop}

/-- **Sequencing rule.** -/
theorem Obeys.bind (h : p.Obeys D (fun a m => (f a).Obeys D R m) m) : (p >>= f).Obeys D R m := by
  induction p generalizing m with
  | ret => exact h
  | ask o k ih =>
    intro r
    obtain ⟨m', hm, hk⟩ := h r
    exact ⟨m', hm, ih r hk⟩

/-- Obeying through a function of the result. -/
theorem Obeys.map (h : p.Obeys D (fun a m => R (f a) m) m) : (f <$> p).Obeys D R m := by
  induction p generalizing m with
  | ret => exact h
  | ask o k ih =>
    intro r
    obtain ⟨m', hm, hk⟩ := h r
    exact ⟨m', hm, ih r hk⟩

/-- An operation the discipline does not care about. -/
theorem obeys_idle_bind (hidle : ∀ r, D.next m o r = some m) (h : ∀ r, (f r).Obeys D R m) :
    (perform o >>= f).Obeys D R m := fun r => ⟨m, hidle r, h r⟩

/-- The program makes only operations with the property. -/
def Makes (P : S.Op → Prop) : Prog S α → Prop
  | ret _ => True
  | ask o k => P o ∧ ∀ r, (k r).Makes P

variable {P : S.Op → Prop}

theorem Makes.bind {f : α → Prog S β} (hp : p.Makes P) (hf : ∀ a, (f a).Makes P) : (p >>= f).Makes P := by
  induction p with
  | ret a => exact hf a
  | ask o k ih => exact ⟨hp.1, fun r => ih r (hp.2 r)⟩

theorem Makes.mono (hp : p.Makes P) (h : ∀ o, P o → P' o) : p.Makes P' := by
  induction p with
  | ret => trivial
  | ask o k ih => exact ⟨h o hp.1, fun r => ih r (hp.2 r)⟩

theorem Makes.map (hp : p.Makes P) {f : α → β} : (f <$> p).Makes P :=
  hp.bind fun _ => trivial

/-- A program that makes only operations the discipline does not care about. -/
theorem Makes.obeys (hp : p.Makes P) (hidle : ∀ o, P o → ∀ r, D.next m o r = some m) :
    p.Obeys D (fun _ m' => m' = m) m := by
  induction p with
  | ret => rfl
  | ask o k ih => exact fun r => ⟨m, hidle o hp.1 r, ih r (hp.2 r)⟩

variable {s : σ} {es : List ε}

/-- **Soundness for one complete execution.** If the allowed moves keep `Inv` between the automaton and the
    world, an obedient program ends with `Inv` and its postcondition. -/
theorem exec_sound (Inv : M → σ → Prop) (P : ε → Prop)
    (hstep : ∀ m o s e m', Inv m s → P e → D.next m o (W.answer o s e).1 = some m' → Inv m' (W.answer o s e).2)
    (hp : p.Obeys D Q m) (hinv : Inv m s) (hes : ∀ e ∈ es, P e)
    (hrun : p.exec W s es = some (a, s')) : ∃ m', Q a m' ∧ Inv m' s' := by
  induction p generalizing m s es with
  | ret =>
    simp only [exec, Option.some.injEq, Prod.mk.injEq] at hrun
    obtain ⟨rfl, rfl⟩ := hrun
    exact ⟨m, hp, hinv⟩
  | ask o k ih =>
    cases es with
    | nil => simp [exec] at hrun
    | cons e es =>
      obtain ⟨m', hm, hk⟩ := hp (W.answer o s e).1
      exact ih _ hk (hstep m o s e m' hinv (hes e List.mem_cons_self) hm)
        (fun e he => hes e (List.mem_cons_of_mem _ he)) hrun

/-! ## What holds on return -/

/-- Whatever the environment supplies, the program returns with `Q` if it returns. -/
def Ensures (W : World S σ ε) : Prog S α → (α → σ → Prop) → σ → Prop
  | ret a, Q, s => Q a s
  | ask o k, Q, s => ∀ e, (k (W.answer o s e).1).Ensures W Q (W.answer o s e).2

variable {Q : α → σ → Prop}

@[simp] theorem ensures_ret : (ret a : Prog S α).Ensures W Q s ↔ Q a s := Iff.rfl

theorem Ensures.mono {R : α → σ → Prop} (h : p.Ensures W Q s) (hQ : ∀ a s, Q a s → R a s) : p.Ensures W R s := by
  induction p generalizing s with
  | ret a => exact hQ a s h
  | ask o k ih => exact fun e => ih _ (h e)

theorem Ensures.and {R : α → σ → Prop} (h : p.Ensures W Q s) (h' : p.Ensures W R s) :
    p.Ensures W (fun a s => Q a s ∧ R a s) s := by
  induction p generalizing s with
  | ret => exact ⟨h, h'⟩
  | ask o k ih => exact fun e => ih _ (h e) (h' e)

/-- **Sequencing rule.** -/
theorem Ensures.bind {f : α → Prog S β} {Q : β → σ → Prop} (h : p.Ensures W (fun a s => (f a).Ensures W Q s) s) :
    (p >>= f).Ensures W Q s := by
  induction p generalizing s with
  | ret => exact h
  | ask o k ih => exact fun e => ih _ (h e)

/-- What is ensured holds of every execution. -/
theorem Ensures.exec (h : p.Ensures W Q s) (hrun : p.exec W s es = some (a, s')) : Q a s' := by
  induction p generalizing s es with
  | ret =>
    simp only [Prog.exec, Option.some.injEq, Prod.mk.injEq] at hrun
    obtain ⟨rfl, rfl⟩ := hrun
    exact h
  | ask o k ih =>
    cases es with
    | nil => simp [Prog.exec] at hrun
    | cons e es => exact ih _ (h e) hrun

/-- What is supplied beyond the end is not looked at. -/
theorem exec_append (h : p.exec W s es = some out) (more : List ε) : p.exec W s (es ++ more) = some out := by
  induction p generalizing s es with
  | ret => exact h
  | ask o k ih =>
    cases es with
    | nil => cases h
    | cons => exact ih _ h

/-- An execution of a sequence starts with one of its first part, from which every sequence goes on. -/
theorem exec_bind (h : (p >>= f).exec W s es = some out) : ∃ a s₁ rest, p.exec W s es = some (a, s₁) ∧
      ∀ {γ : Type} (g : α → Prog S γ), (p >>= g).exec W s es = (g a).exec W s₁ rest := by
  induction p generalizing s es with
  | ret a => exact ⟨a, s, es, rfl, fun _ => rfl⟩
  | ask o k ih =>
    cases es with
    | nil => cases h
    | cons => exact ih _ h

/-- A relation that every operation keeps holds between the state before and the state on return. -/
theorem Makes.ensures {W : World S σ ε} (hp : p.Makes P) {R : σ → σ → Prop} (hrefl : ∀ s, R s s)
    (htrans : ∀ s t u, R s t → R t u → R s u) (hstep : ∀ o s e, P o → R s (W.answer o s e).2) (s : σ) :
    p.Ensures W (fun _ s' => R s s') s := by
  induction p generalizing s with
  | ret => exact hrefl s
  | ask o k ih => exact fun e => (ih _ (hp.2 _) _).mono fun _ _ h => htrans _ _ _ (hstep o s e hp.1) h

/-- The run in which the environment always supplies the same. -/
def always (W : World S σ ε) (e : ε) : Prog S α → σ → α × σ
  | ret a, s => (a, s)
  | ask o k, s => always W e (k (W.answer o s e).1) (W.answer o s e).2

theorem always_bind (e : ε) (f : α → Prog S β) (s : σ) :
    (p >>= f).always W e s = (f (p.always W e s).1).always W e (p.always W e s).2 := by
  induction p generalizing s with
  | ret => rfl
  | ask o k ih => exact ih _ _

theorem exec_always (W : World S σ ε) (e : ε) (p : Prog S α) (s : σ) :
    ∃ n, p.exec W s (List.replicate n e) = some (p.always W e s) := by
  induction p generalizing s with
  | ret => exact ⟨0, rfl⟩
  | ask o k ih =>
    obtain ⟨n, hn⟩ := ih (W.answer o s e).1 (W.answer o s e).2
    exact ⟨n + 1, hn⟩

end Prog

/-! ## Programs that may fail -/

section Fallible

variable {S : Sig} {σ ε E α β : Type} {W : World S σ ε} {P : S.Op → Prop} {Q : α → σ → Prop} {R : β → σ → Prop} {s : σ}

/-- Whatever the environment supplies, the program ends with `Q` if it succeeds. -/
def Succeeds (W : World S σ ε) (p : ExceptT E (Prog S) α) (Q : α → σ → Prop) (s : σ) : Prop :=
  Prog.Ensures W p.run (fun r s => ∀ a, r = .ok a → Q a s) s

theorem Succeeds.pure (h : Q a s) : Succeeds W (pure a : ExceptT E (Prog S) α) Q s := by
  rintro b ⟨⟩
  exact h

theorem Succeeds.throw : Succeeds W (throw e : ExceptT E (Prog S) α) Q s := nofun

variable {p : ExceptT E (Prog S) α}

theorem Succeeds.mono (h : Succeeds W p Q s) (hQ : ∀ a s, Q a s → Q' a s) : Succeeds W p Q' s :=
  Prog.Ensures.mono h fun _ s hr a ha => hQ a s (hr a ha)

/-- **Sequencing rule.** -/
theorem Succeeds.bind {f : α → ExceptT E (Prog S) β} (h : Succeeds W p (fun a s => Succeeds W (f a) R s) s) :
    Succeeds W (p >>= f) R s := by
  refine Prog.Ensures.bind (Prog.Ensures.mono h ?_)
  intro r s hr
  cases r with
  | ok a => exact hr a rfl
  | error => exact nofun

/-- A program that cannot fail. -/
theorem Succeeds.lift {p : Prog S α} (h : p.Ensures W Q s) : Succeeds W (ExceptT.lift p : ExceptT E (Prog S) α) Q s := by
  refine Prog.Ensures.bind (Prog.Ensures.mono h ?_)
  rintro a s hQ b ⟨⟩
  exact hQ

theorem Prog.Makes.lift {p : Prog S α} (hp : p.Makes P) : Prog.Makes P (ExceptT.lift p : ExceptT E (Prog S) α).run :=
  Prog.Makes.bind hp fun _ => trivial

end Fallible
