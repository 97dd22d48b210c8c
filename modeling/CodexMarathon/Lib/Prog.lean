/-
**Programs that call.**

A program is a finite tree of calls: each node asks something of the outside and goes on with the
answer.  One program can be run against several worlds.
-/

import Mathlib.Logic.Relation

/-- A program over the calls `Op`, where a call `o` is answered by a value of `Ans o`. -/
inductive Prog (Op : Type) (Ans : Op → Type) (α : Type) : Type
  | ret (a : α)
  | call (o : Op) (k : Ans o → Prog Op Ans α)

namespace Prog

variable {Op : Type} {Ans : Op → Type} {α β σ δ ε : Type}

protected def bind : Prog Op Ans α → (α → Prog Op Ans β) → Prog Op Ans β
  | ret a, f => f a
  | call o k, f => call o fun a => (k a).bind f

instance : Monad (Prog Op Ans) where
  pure := ret
  bind := Prog.bind

def perform (o : Op) : Prog Op Ans (Ans o) := call o ret

@[simp] theorem pure_eq (a : α) : (pure a : Prog Op Ans α) = ret a := rfl

@[simp] theorem ret_bind (a : α) (f : α → Prog Op Ans β) : ret a >>= f = f a := rfl

def orFail (p : Prog Op Ans (Except δ α)) (f : δ → ε) : ExceptT ε (Prog Op Ans) α :=
  ExceptT.mk (p >>= fun r => pure (r.mapError f))

section Run

variable (h : (o : Op) → σ → Ans o × σ)

def run : Prog Op Ans α → σ → α × σ
  | ret a, s => (a, s)
  | call o k, s => run (k (h o s).1) (h o s).2

@[simp] theorem run_ret (a : α) (s : σ) : run h (ret a : Prog Op Ans α) s = (a, s) := rfl

@[simp] theorem run_pure (a : α) (s : σ) : run h (pure a : Prog Op Ans α) s = (a, s) := rfl

theorem run_bind (p : Prog Op Ans α) (f : α → Prog Op Ans β) (s : σ) :
    run h (p >>= f) s = run h (f (run h p s).1) (run h p s).2 := by
  induction p generalizing s with
  | ret a => rfl
  | call o k ih => exact ih (h o s).1 (h o s).2

variable {f : α → ExceptT ε (Prog Op Ans) β} {p : ExceptT ε (Prog Op Ans) α}

theorem run_except_bind_ok {s s' : σ} {a : α} (hp : run h p.run s = (.ok a, s')) :
    run h (p >>= f).run s = run h (f a).run s' := by
  rw [ExceptT.run_bind, run_bind, hp]

theorem run_except_bind_error {s s' : σ} {e : ε}
    (hp : run h p.run s = (.error e, s')) : run h (p >>= f).run s = (.error e, s') := by
  rw [ExceptT.run_bind, run_bind, hp]
  rfl

theorem run_except_bind_eq_ok {s s'' : σ} {b : β} : run h (p >>= f).run s = (.ok b, s'') ↔
      ∃ a s', run h p.run s = (.ok a, s') ∧ run h (f a).run s' = (.ok b, s'') := by
  rw [ExceptT.run_bind, run_bind]
  rcases run h p.run s with ⟨e | a, s'⟩
  · simp
  · constructor
    · intro h
      exact ⟨a, s', rfl, h⟩
    · rintro ⟨_, _, h, hf⟩
      cases h
      exact hf

theorem run_orFail (p : Prog Op Ans (Except δ α)) (f : δ → ε) (s : σ) :
    run h (orFail p f).run s = ((run h p s).1.mapError f, (run h p s).2) := by
  change run h (p >>= fun r => pure (r.mapError f)) s = _
  rw [run_bind, run_pure]

/-- **The invariant rule.**  What every call preserves, every program preserves. -/
theorem run_invariant {h : (o : Op) → σ → Ans o × σ} {I : σ → Prop}
    (hI : ∀ o s, I s → I (h o s).2) (p : Prog Op Ans α) {s : σ} (hs : I s) : I (run h p s).2 := by
  induction p generalizing s with
  | ret a => exact hs
  | call o k ih => exact ih (h o s).1 (hI o s hs)

/-- **The projection rule.** A program does to a part of the state what it does to the whole, if
every call does. -/
theorem run_project {τ : Type} {h : (o : Op) → σ → Ans o × σ} {h' : (o : Op) → τ → Ans o × τ}
    {f : σ → τ} (hf : ∀ o s, h' o (f s) = ((h o s).1, f (h o s).2)) (p : Prog Op Ans α) (s : σ) :
    run h' p (f s) = ((run h p s).1, f (run h p s).2) := by
  induction p generalizing s with
  | ret a => rfl
  | call o k ih =>
    change run h' (k (h' o (f s)).1) (h' o (f s)).2 = _
    rw [hf]
    exact ih (h o s).1 (h o s).2

/-- **The frame rule.**  What no call changes, no program changes. -/
theorem run_frame {τ : Type} {h : (o : Op) → σ → Ans o × σ} {f : σ → τ}
    (hf : ∀ o s, f (h o s).2 = f s) (p : Prog Op Ans α) (s : σ) : f (run h p s).2 = f s :=
  run_invariant (I := fun s' => f s' = f s) (fun o s' hs => (hf o s').trans hs) p rfl

end Run

end Prog
