/-
**Fallible computations on a state.**

A computation that fails keeps the changes it has made up to there, as a method on a mutable
receiver does.
-/

import Mathlib.Order.Defs.Unbundled

abbrev Stateful (σ ε α : Type) : Type := ExceptT ε (StateM σ) α

namespace Stateful

variable {σ ε α β : Type}

def exec (p : Stateful σ ε α) (s : σ) : Except ε α × σ := p.run.run s

/-! ### Statements -/

@[simp] theorem exec_pure (a : α) (s : σ) : exec (pure a : Stateful σ ε α) s = (.ok a, s) := rfl

@[simp] theorem exec_throw (e : ε) (s : σ) :
    exec (throw e : Stateful σ ε α) s = (.error e, s) := rfl

@[simp] theorem exec_get (s : σ) : exec (get : Stateful σ ε σ) s = (.ok s, s) := rfl

@[simp] theorem exec_modify (f : σ → σ) (s : σ) :
    exec (modify f : Stateful σ ε PUnit) s = (.ok ⟨⟩, f s) := rfl

def ask (x : σ → Except ε α) : Stateful σ ε α := do
  let s ← get
  liftM (x s)

@[simp] theorem exec_ask (x : σ → Except ε α) (s : σ) : exec (ask x) s = (x s, s) := rfl

theorem exec_bind (p : Stateful σ ε α) (f : α → Stateful σ ε β) (s : σ) : exec (p >>= f) s =
      match exec p s with
      | (.ok a, s') => exec (f a) s'
      | (.error e, s') => (.error e, s') := by
  change ((p.run >>= ExceptT.bindCont f).run s) = _
  rw [StateT.run_bind]
  change (match p.run.run s with | (r, s') => (ExceptT.bindCont f r).run s') = _
  unfold exec
  rcases p.run.run s with ⟨_ | a, s'⟩ <;> rfl

variable {p : Stateful σ ε α} {f : α → Stateful σ ε β}

theorem exec_bind_ok {s s' : σ} {a : α}
    (h : exec p s = (.ok a, s')) : exec (p >>= f) s = exec (f a) s' := by
  rw [exec_bind, h]

theorem exec_bind_pure_snd (p : Stateful σ ε α) (f : α → β) (s : σ) :
    (exec (p >>= fun a => pure (f a)) s).2 = (exec p s).2 := by
  rw [exec_bind]
  rcases exec p s with ⟨_ | _, _⟩ <;> rfl

variable {s : σ}

theorem exec_bind_pure_eq_ok {f : α → β} {b : β} :
    (exec (p >>= fun a => pure (f a)) s).1 = .ok b ↔ ∃ a, (exec p s).1 = .ok a ∧ f a = b := by
  rw [exec_bind]
  rcases exec p s with ⟨_ | _, _⟩ <;> simp

/-- `R` holds between the states before and after every run of `p`. -/
def Keeps (R : σ → σ → Prop) (p : Stateful σ ε α) : Prop := ∀ s, R s (exec p s).2

variable {R : σ → σ → Prop}

theorem keeps_pure [Std.Refl R] (a : α) : Keeps R (pure a : Stateful σ ε α) :=
  fun s => refl_of R s

theorem keeps_throw [Std.Refl R] (e : ε) : Keeps R (throw e : Stateful σ ε α) :=
  fun s => refl_of R s

theorem keeps_get [Std.Refl R] : Keeps R (get : Stateful σ ε σ) := fun s => refl_of R s

theorem keeps_liftExcept [Std.Refl R] (x : Except ε α) :
    Keeps R (liftM x : Stateful σ ε α) := fun s => refl_of R s

theorem keeps_modify {f : σ → σ} (h : ∀ s, R s (f s)) :
    Keeps R (modify f : Stateful σ ε PUnit) := h

theorem Keeps.bind [IsTrans σ R]
    (hp : Keeps R p) (hf : ∀ a, Keeps R (f a)) : Keeps R (p >>= f) := by
  intro s
  have hs := hp s
  rw [exec_bind]
  rcases hrun : exec p s with ⟨e | a, s'⟩
  · rwa [hrun] at hs
  · rw [hrun] at hs
    exact trans_of R hs (hf a s')

/-! ### How a computation fails -/

/-- Every error of `p` satisfies `E`. -/
def Raises (E : ε → Prop) (p : Stateful σ ε α) : Prop := ∀ s e, (exec p s).1 = .error e → E e

variable {E : ε → Prop}

theorem raises_of_ok (h : ∀ s, ∃ a s', exec p s = (.ok a, s')) : Raises E p := by
  intro s e he
  obtain ⟨a, s', hrun⟩ := h s
  rw [hrun] at he
  cases he

theorem raises_pure (a : α) : Raises E (pure a : Stateful σ ε α) := fun _ _ => nofun

theorem raises_get : Raises E (get : Stateful σ ε σ) := fun _ _ => nofun

theorem raises_modify (f : σ → σ) : Raises E (modify f : Stateful σ ε PUnit) := fun _ _ => nofun

variable {x : Except ε α}

theorem raises_liftExcept (h : ∀ e, x = .error e → E e) :
    Raises E (liftM x : Stateful σ ε α) := fun _ e he => h e he

theorem Raises.bind (hp : Raises E p) (hf : ∀ a, Raises E (f a)) : Raises E (p >>= f) := by
  intro s e he
  rw [exec_bind] at he
  rcases hrun : exec p s with ⟨e' | a, s'⟩
  · rw [hrun] at he
    cases he
    exact hp s e (by rw [hrun])
  · rw [hrun] at he
    exact hf a s' e he

/-- From `s`, `p` fails only with an error of `E`, and then leaves the state as it was. -/
def FailsCleanly (E : ε → Prop) (p : Stateful σ ε α) (s : σ) : Prop :=
  ∀ e, (exec p s).1 = .error e → E e ∧ (exec p s).2 = s

theorem FailsCleanly.of_ok {s s' : σ} {a : α} (h : exec p s = (.ok a, s')) :
    FailsCleanly E p s := by
  intro e he
  rw [h] at he
  cases he

theorem FailsCleanly.bind (hp : exec p s = (x, s)) (he : ∀ e, x = .error e → E e)
    (hf : ∀ a, x = .ok a → FailsCleanly E (f a) s) : FailsCleanly E (p >>= f) s := by
  intro e hfail
  rw [exec_bind, hp] at hfail ⊢
  cases x with
  | error e' =>
    cases hfail
    exact ⟨he _ rfl, rfl⟩
  | ok a => exact hf a rfl e hfail

/-- An outcome that comes with the new state; an error comes with no change. -/
def settle (r : Except ε (α × σ)) (s : σ) : Except ε α × σ :=
  match r with
  | .ok (a, s') => (.ok a, s')
  | .error e => (.error e, s)

theorem settle_eq_ok {r : Except ε (α × σ)} {a : α} (h : (settle r s).1 = .ok a) :
    r = .ok (a, (settle r s).2) := by
  rcases r with e | ⟨a', s'⟩ <;> cases h
  rfl

theorem settle_eq_error {r : Except ε (α × σ)} {e : ε} (h : (settle r s).1 = .error e) :
    (settle r s).2 = s := by
  rcases r with e | ⟨a', s'⟩ <;> cases h
  rfl

theorem exec_bind_settle
    {g : α → Except ε (β × σ)} (hp : exec p s = (x, s)) (hf : ∀ a, exec (f a) s = settle (g a) s) :
    exec (p >>= f) s = settle (x >>= g) s := by
  rw [exec_bind, hp]
  cases x with
  | error e => rfl
  | ok a => exact hf a

theorem exec_bind_read
    {g : α → Except ε β} (hp : exec p s = (x, s)) (hf : ∀ a, exec (f a) s = (g a, s)) :
    exec (p >>= f) s = (x >>= g, s) := by
  rw [exec_bind, hp]
  cases x with
  | error e => rfl
  | ok a => exact hf a

end Stateful
