/-
**A program logic for programs over calls.**

The environment of a program is given by a precondition for every call and a relation that says how
the call may be answered and what it leaves.  A program is *safe* in a state for a postcondition if,
whatever it is answered, it only makes calls whose preconditions hold and only returns where the
postcondition does.  A precondition that does not depend on the call is an invariant of the whole
execution, interruptions included.
-/

import CodexMarathon.Lib.Prog
import Mathlib.Tactic.SplitIfs

namespace Prog

variable {Op : Type} {Ans : Op → Type} {α β σ δ ε : Type}

structure Semantics (Op : Type) (Ans : Op → Type) (σ : Type) where
  /-- What holds before a call. -/
  pre : Op → σ → Prop
  /-- In a state, a call may be answered so and leave another state. -/
  rel : (o : Op) → σ → Ans o → σ → Prop

variable {M : Semantics Op Ans σ}

/-! ### The judgement -/

variable (M) in
def Safe : Prog Op Ans α → (α → σ → Prop) → σ → Prop
  | ret a, Q, s => Q a s
  | call o k, Q, s => M.pre o s ∧ ∀ a s', M.rel o s a s' → Safe (k a) Q s'

variable {p : Prog Op Ans α}

theorem Safe.mono {Q R : α → σ → Prop} {s : σ} (h : p.Safe M Q s)
    (hQ : ∀ a s, Q a s → R a s) : p.Safe M R s := by
  induction p generalizing s with
  | ret a => exact hQ a s h
  | call o k ih => exact ⟨h.1, fun a s' hrel => ih a (h.2 a s' hrel)⟩

theorem safe_perform {o : Op} {Q : Ans o → σ → Prop} {s : σ} :
    (perform o : Prog Op Ans (Ans o)).Safe M Q s ↔
      M.pre o s ∧ ∀ a s', M.rel o s a s' → Q a s' := Iff.rfl

/-- **The sequence rule.** -/
theorem safe_bind {f : α → Prog Op Ans β} {Q : β → σ → Prop} {s : σ} :
    (p >>= f).Safe M Q s ↔ p.Safe M (fun a s' => (f a).Safe M Q s') s := by
  induction p generalizing s with
  | ret a => exact Iff.rfl
  | call o k ih =>
    exact and_congr_right fun _ => forall₃_congr fun a s' _ => ih a

def Semantics.ofExec (h : (o : Op) → σ → Ans o × σ) : Semantics Op Ans σ where
  pre _ _ := True
  rel o s a s' := h o s = (a, s')

theorem Safe.run {h : (o : Op) → σ → Ans o × σ} {Q : α → σ → Prop} {s : σ}
    (hp : p.Safe (.ofExec h) Q s) : Q (p.run h s).1 (p.run h s).2 := by
  induction p generalizing s with
  | ret a => exact hp
  | call o k ih => exact ih _ (hp.2 _ _ rfl)

theorem Safe.and {Q R : α → σ → Prop} {s : σ} (hQ : p.Safe M Q s)
    (hR : p.Safe M R s) : p.Safe M (fun a s => Q a s ∧ R a s) s := by
  induction p generalizing s with
  | ret a => exact ⟨hQ, hR⟩
  | call o k ih => exact ⟨hQ.1, fun a s' h => ih a (hQ.2 a s' h) (hR.2 a s' h)⟩

theorem safe_of_forall {Q : α → σ → Prop} {s : σ} (hpre : ∀ o s, M.pre o s)
    (hQ : ∀ a s, Q a s) : p.Safe M Q s := by
  induction p generalizing s with
  | ret a => exact hQ a s
  | call o k ih => exact ⟨hpre o s, fun a s' _ => ih a⟩

def Runs (rel : (o : Op) → σ → Ans o → σ → Prop) : Prog Op Ans α → σ → α → σ → Prop
  | ret b, s, a, s' => a = b ∧ s' = s
  | call o k, s, a, s' => ∃ x s₁, rel o s x s₁ ∧ Runs rel (k x) s₁ a s'

theorem Safe.of_runs {Q : α → σ → Prop} {s s' : σ} {a : α} (h : p.Safe M Q s)
    (hruns : Runs M.rel p s a s') : Q a s' := by
  induction p generalizing s with
  | ret b =>
    obtain ⟨rfl, rfl⟩ := hruns
    exact h
  | call o k ih =>
    obtain ⟨x, s₁, hrel, hruns⟩ := hruns
    exact ih x (h.2 x s₁ hrel) hruns

theorem runs_bind {rel : (o : Op) → σ → Ans o → σ → Prop}
    {f : α → Prog Op Ans β} {s s₁ s' : σ} {a : α} {b : β} (hp : Runs rel p s a s₁)
    (hf : Runs rel (f a) s₁ b s') : Runs rel (p >>= f) s b s' := by
  induction p generalizing s with
  | ret a' =>
    obtain ⟨rfl, rfl⟩ := hp
    exact hf
  | call o k ih =>
    obtain ⟨x, s₂, hrel, hp⟩ := hp
    exact ⟨x, s₂, hrel, ih x hp⟩

theorem runs_run {rel : (o : Op) → σ → Ans o → σ → Prop} {h : (o : Op) → σ → Ans o × σ}
    (hrel : ∀ o s, rel o s (h o s).1 (h o s).2) (p : Prog Op Ans α) (s : σ) :
    Runs rel p s (run h p s).1 (run h p s).2 := by
  induction p generalizing s with
  | ret a => exact ⟨rfl, rfl⟩
  | call o k ih => exact ⟨(h o s).1, (h o s).2, hrel o s, ih _ _⟩

/-! ### Fallible programs -/

/-- The postcondition `Q` of the result, and `E` of a failure. -/
def Outcome (Q : α → σ → Prop) (E : σ → Prop) : Except ε α → σ → Prop
  | .ok a, s => Q a s
  | .error _, s => E s

variable {Q : α → σ → Prop} {R : β → σ → Prop} {E : σ → Prop} {s : σ}

theorem Outcome.mono {Q' : α → σ → Prop} {E' : σ → Prop} {r : Except ε α} (h : Outcome Q E r s)
    (hQ : ∀ a, Q a s → Q' a s) (hE : E s → E' s) : Outcome Q' E' r s := by
  cases r with
  | ok a => exact hQ a h
  | error e => exact hE h

variable {f : α → ExceptT ε (Prog Op Ans) β}

/-- **The sequence rule of fallible programs.** -/
theorem safe_seq {p : ExceptT ε (Prog Op Ans) α} (hp : p.run.Safe M (Outcome Q E) s)
    (hf : ∀ a s', Q a s' → (f a).run.Safe M (Outcome R E) s') :
    (p >>= f).run.Safe M (Outcome R E) s := by
  rw [ExceptT.run_bind, safe_bind]
  refine hp.mono ?_
  rintro (e | a) s' h
  · exact h
  · exact hf a s' h

/-- The sequence rule, backwards. -/
theorem safe_then {p : ExceptT ε (Prog Op Ans) α}
    (h : p.run.Safe M (Outcome (fun a s' => (f a).run.Safe M (Outcome R E) s') E) s) :
    (p >>= f).run.Safe M (Outcome R E) s :=
  safe_seq h fun _ _ hf => hf

/-- The postcondition `Q` of the result, and `E` of a failure with its error. -/
def Ends (Q : α → σ → Prop) (E : ε → σ → Prop) : Except ε α → σ → Prop
  | .ok a, s => Q a s
  | .error e, s => E e s

theorem safe_ends_bind {E : ε → σ → Prop} {p : ExceptT ε (Prog Op Ans) α} (hp : p.run.Safe M (Ends Q E) s)
    (hf : ∀ a s', Q a s' → (f a).run.Safe M (Ends R E) s') : (p >>= f).run.Safe M (Ends R E) s := by
  rw [ExceptT.run_bind, safe_bind]
  refine hp.mono ?_
  rintro (e | a) s' h
  · exact h
  · exact hf a s' h

variable {x : Except ε α}

theorem safe_ends_check {E : ε → σ → Prop} (hE : ∀ e, x = .error e → E e s)
    (h : ∀ a, x = .ok a → Q a s) :
    (liftM x : ExceptT ε (Prog Op Ans) α).run.Safe M (Ends Q E) s := by
  change Ends Q E x s
  cases x with
  | ok a => exact h a rfl
  | error e => exact hE e rfl

theorem safe_ends_liftProg {E : ε → σ → Prop} (h : p.Safe M Q s) :
    (liftM p : ExceptT ε (Prog Op Ans) α).run.Safe M (Ends Q E) s := by
  change (p >>= fun a => pure (Except.ok a)).Safe M _ s
  rw [safe_bind]
  exact h

theorem safe_ends_ok {E : ε → σ → Prop} {a : α} (hx : x = .ok a) (h : Q a s) :
    (liftM x : ExceptT ε (Prog Op Ans) α).run.Safe M (Ends Q E) s := by
  subst hx
  exact h

theorem safe_checked (hE : ∀ e, x = .error e → E s) (h : ∀ a, x = .ok a → Q a s) :
    (liftM x : ExceptT ε (Prog Op Ans) α).run.Safe M (Outcome Q E) s := by
  change Outcome Q E x s
  cases x with
  | ok a => exact h a rfl
  | error e => exact hE e rfl

theorem safe_lift (hE : E s) (h : ∀ a, x = .ok a → Q a s) :
    (liftM x : ExceptT ε (Prog Op Ans) α).run.Safe M (Outcome Q E) s :=
  safe_checked (fun _ _ => hE) h

theorem safe_liftProg (h : p.Safe M Q s) :
    (liftM p : ExceptT ε (Prog Op Ans) α).run.Safe M (Outcome Q E) s := by
  change (p >>= fun a => pure (Except.ok a)).Safe M _ s
  rw [safe_bind]
  exact h

theorem safe_orFail {p : Prog Op Ans (Except δ α)} {f : δ → ε} (h : p.Safe M (Outcome Q E) s) :
    (orFail p f).run.Safe M (Outcome Q E) s := by
  change (p >>= fun r => pure (r.mapError f)).Safe M _ s
  rw [safe_bind]
  refine h.mono ?_
  rintro (e | a) s' h
  · exact h
  · exact h

section Runs

variable {rel : (o : Op) → σ → Ans o → σ → Prop} {t s' : σ} {a : α}

theorem runs_seq {p : ExceptT ε (Prog Op Ans) α} {f : α → ExceptT ε (Prog Op Ans) β}
    {r : Except ε β} (hp : Runs rel p.run s (.ok a) t) (hf : Runs rel (f a).run t r s') :
    Runs rel (p >>= f).run s r s' := by
  rw [ExceptT.run_bind]
  exact runs_bind hp hf

theorem runs_except_ok {x : Except ε α} (hx : x = .ok a) :
    Runs rel (liftM x : ExceptT ε (Prog Op Ans) α).run s (.ok a) s := by
  subst hx
  exact ⟨rfl, rfl⟩

theorem runs_orFail {p : Prog Op Ans (Except δ α)} {f : δ → ε} (hp : Runs rel p s (.ok a) s') :
    Runs rel (orFail p f).run s (.ok a) s' :=
  runs_bind hp ⟨rfl, rfl⟩

end Runs

def cut (tick : Op) (passed : Ans tick → Bool) : Prog Op Ans α → Prog Op Ans (Option α)
  | ret a => ret (some a)
  | call o k => call o fun a => call tick fun b => if passed b then ret none else cut tick passed (k a)

theorem safe_cut {tick : Op} {passed : Ans tick → Bool} {I J : σ → Prop}
    (htick : ∀ s, M.pre tick s)
    (hpassed : ∀ s b s', J s → M.rel tick s b s' → s' = s ∧ (passed b = true → I s))
    (hrel : ∀ o s a s', J s → M.rel o s a s' → J s') (hs : J s) (hp : p.Safe M Q s) :
    (p.cut tick passed).Safe M (fun r s => (∀ a, r = some a → Q a s) ∧ (r = none → I s)) s := by
  induction p generalizing s with
  | ret a =>
    refine ⟨?_, nofun⟩
    rintro _ ⟨⟩
    exact hp
  | call o k ih =>
    refine ⟨hp.1, fun a s' h => ⟨htick s', ?_⟩⟩
    rintro b s'' hb
    have hs' := hrel o s a s' hs h
    obtain ⟨rfl, hdrop⟩ := hpassed s' b s'' hs' hb
    change Safe M (if passed b then ret none else cut tick passed (k a)) _ _
    split_ifs with hpast
    · exact ⟨nofun, fun _ => hdrop hpast⟩
    · exact ih a hs' (hp.2 a _ h)

theorem safe_cut_of_passed {tick : Op} {passed : Ans tick → Bool} {I : σ → Prop}
    (htick : ∀ s, M.pre tick s)
    (hpassed : ∀ s b s', M.rel tick s b s' → s' = s ∧ (passed b = true → I s)) (hp : p.Safe M Q s) :
    (p.cut tick passed).Safe M (fun r s => (∀ a, r = some a → Q a s) ∧ (r = none → I s)) s :=
  safe_cut (J := fun _ => True) htick (fun s b s' _ => hpassed s b s') (fun _ _ _ _ _ _ => trivial)
    trivial hp

section Subst

variable {Op' τ : Type} {Ans' : Op' → Type}

/-- Every call of a program replaced by a program over other calls. -/
def subst (impl : (o : Op) → Prog Op' Ans' (Ans o)) : Prog Op Ans α → Prog Op' Ans' α
  | ret a => ret a
  | call o k => impl o >>= fun a => subst impl (k a)

theorem Safe.grants {I : σ → Prop} {p : Prog Op Ans α} (hpre : ∀ o s, M.pre o s → I s)
    (hQ : ∀ a s, Q a s → I s) (h : p.Safe M Q s) : I s := by
  cases p with
  | ret a => exact hQ a s h
  | call o k => exact hpre o s h.1

/-- **The refinement rule.** States of the implementation are read through `R`. An implementation of
a call may rely on its precondition and on the invariant `I`. -/
theorem Safe.subst {N : Semantics Op' Ans' τ} {R : τ → σ} {I : σ → Prop}
    {impl : (o : Op) → Prog Op' Ans' (Ans o)} {p : Prog Op Ans α} {t : τ}
    (hpre : ∀ o s, M.pre o s → I s) (hQ : ∀ a s, Q a s → I s)
    (himpl : ∀ o t, M.pre o (R t) → (∀ a s, M.rel o (R t) a s → I s) →
      (impl o).Safe N (fun a t' => M.rel o (R t) a (R t')) t)
    (h : p.Safe M Q (R t)) : (p.subst impl).Safe N (fun a t' => Q a (R t')) t := by
  induction p generalizing t with
  | ret a => exact h
  | call o k ih =>
    change (impl o >>= fun a => (k a).subst impl).Safe N _ t
    rw [safe_bind]
    refine (himpl o t h.1 fun a s hrel => (h.2 a s hrel).grants hpre hQ).mono ?_
    intro a t' hrel
    exact ih a (h.2 a (R t') hrel)

end Subst

inductive Step (rel : (o : Op) → σ → Ans o → σ → Prop) :
    Prog Op Ans α × σ → Prog Op Ans α × σ → Prop
  | call {o : Op} {k : Ans o → Prog Op Ans α} {s s' : σ} {a : Ans o} (h : rel o s a s') :
      Step rel (.call o k, s) (k a, s')

theorem Safe.steps {x y : Prog Op Ans α × σ} (h : x.1.Safe M Q x.2)
    (hsteps : Relation.ReflTransGen (Step M.rel) x y) : y.1.Safe M Q y.2 := by
  induction hsteps with
  | refl => exact h
  | tail _ hstep ih =>
    obtain ⟨hrel⟩ := hstep
    exact ih.2 _ _ hrel

end Prog
