/-
**Traces of programs over calls.**

The trace of an execution is the list of the calls that were made, each with its answer.  A protocol
says when a call may be made, in terms of the trace before it.  Most of a program makes only calls
of a harmless kind, which is a property of its text.
-/

import CodexMarathon.Lib.Hoare

namespace Prog

variable {Op : Type} {Ans : Op → Type} {α β δ ε σ : Type}

/-! ### Traces -/

abbrev Event (Op : Type) (Ans : Op → Type) : Type := (o : Op) × Ans o

def Emits : List (Event Op Ans) → Prog Op Ans α → Prop
  | [], _ => True
  | _ :: _, .ret _ => False
  | e :: t, .call o k => ∃ a, e = ⟨o, a⟩ ∧ Emits t (k a)

def Returns : List (Event Op Ans) → Prog Op Ans α → α → Prop
  | [], .ret a, b => a = b
  | [], .call _ _, _ => False
  | _ :: _, .ret _, _ => False
  | e :: t, .call o k, b => ∃ a, e = ⟨o, a⟩ ∧ Returns t (k a) b

def record (h : (o : Op) → σ → Ans o × σ) : Prog Op Ans α → σ → List (Event Op Ans)
  | .ret _, _ => []
  | .call o k, s => ⟨o, (h o s).1⟩ :: record h (k (h o s).1) (h o s).2

theorem emits_record (h : (o : Op) → σ → Ans o × σ) (p : Prog Op Ans α) (s : σ) :
    Emits (record h p s) p := by
  induction p generalizing s with
  | ret a => exact trivial
  | call o k ih => exact ⟨_, rfl, ih _ _⟩

def tracing (protocol : Op → List (Event Op Ans) → Prop) :
    Semantics Op Ans (List (Event Op Ans)) where
  pre := protocol
  rel o t a t' := t' = t ++ [⟨o, a⟩]

variable {protocol : Op → List (Event Op Ans) → Prop}

theorem Safe.emits {p : Prog Op Ans α} {Q : α → List (Event Op Ans) → Prop}
    {t₀ t : List (Event Op Ans)} (h : p.Safe (tracing protocol) Q t₀) (ht : Emits t p) :
    ∀ t₁ o a t₂, t = t₁ ++ ⟨o, a⟩ :: t₂ → protocol o (t₀ ++ t₁) := by
  induction t generalizing p t₀ with
  | nil =>
    intro t₁ o a t₂ heq
    exact absurd heq (by simp)
  | cons e t ih =>
    cases p with
    | ret a => exact ht.elim
    | call o k =>
      obtain ⟨a, rfl, ht⟩ := ht
      rintro (_ | ⟨e, t₁⟩) o' a' t₂ heq
      · cases heq
        rw [List.append_nil]
        exact h.1
      · obtain ⟨rfl, rfl⟩ := List.cons.inj heq
        have := ih (h.2 a _ rfl) ht t₁ o' a' t₂ rfl
        rwa [List.append_assoc] at this

/-- If a program that starts with the trace `t` returns, then its own part of the trace satisfies
`R`. -/
def Traced (protocol : Op → List (Event Op Ans) → Prop) (p : ExceptT ε (Prog Op Ans) α)
    (R : α → List (Event Op Ans) → Prop) (t : List (Event Op Ans)) : Prop :=
  p.run.Safe (tracing protocol)
    (Outcome (fun a t' => ∃ more, t' = t ++ more ∧ R a more) fun _ => True) t

section Traced

variable {p : ExceptT ε (Prog Op Ans) α} {f : α → ExceptT ε (Prog Op Ans) β}
  {R : α → List (Event Op Ans) → Prop} {S : β → List (Event Op Ans) → Prop}
  {t : List (Event Op Ans)}

/-- **The sequence rule of traces.** -/
theorem traced_bind (hp : Traced protocol p R t)
    (hf : ∀ a m, R a m → Traced protocol (f a) (fun b m' => S b (m ++ m')) (t ++ m)) :
    Traced protocol (p >>= f) S t := by
  refine safe_seq hp ?_
  rintro a _ ⟨m, rfl, ha⟩
  refine (hf a m ha).mono ?_
  rintro (e | b) t' h
  · exact trivial
  · obtain ⟨m', rfl, hb⟩ := h
    exact ⟨m ++ m', List.append_assoc _ _ _, hb⟩

theorem Traced.mono {R' : α → List (Event Op Ans) → Prop} (h : Traced protocol p R t)
    (hR : ∀ a m, R a m → R' a m) : Traced protocol p R' t := by
  refine Safe.mono h ?_
  rintro (e | a) t' h
  · exact trivial
  · obtain ⟨m, rfl, ha⟩ := h
    exact ⟨m, rfl, hR a m ha⟩

theorem traced_pure {a : α} (h : R a []) : Traced protocol (pure a : ExceptT ε (Prog Op Ans) α) R t :=
  ⟨[], (List.append_nil t).symm, h⟩

theorem traced_throw {e : ε} : Traced protocol (throw e : ExceptT ε (Prog Op Ans) α) R t := trivial

theorem traced_orFail {o : Op} {k : Ans o → Except δ α} {g : δ → ε} (ho : protocol o t)
    (h : ∀ x a, k x = .ok a → R a [⟨o, x⟩]) :
    Traced protocol (orFail (call o fun x => ret (k x)) g : ExceptT ε (Prog Op Ans) α) R t := by
  refine safe_orFail ⟨ho, ?_⟩
  rintro x _ rfl
  change Outcome _ _ (k x) _
  cases hx : k x with
  | ok a => exact ⟨[⟨o, x⟩], rfl, h x a hx⟩
  | error e => exact trivial

theorem traced_perform {o : Op} {R : Ans o → List (Event Op Ans) → Prop} (ho : protocol o t)
    (h : ∀ a, R a [⟨o, a⟩]) :
    Traced protocol (liftM (perform o : Prog Op Ans (Ans o)) : ExceptT ε (Prog Op Ans) (Ans o)) R t :=
  safe_liftProg ⟨ho, fun a _ ht => ⟨[⟨o, a⟩], ht, h a⟩⟩

end Traced

/-! ### Kinds of calls -/

/-- Whatever it is answered, the program makes only calls of the kind `P`. -/
def Calls (P : Op → Prop) : Prog Op Ans α → (α → Prop) → Prop
  | .ret a, R => R a
  | .call o k, R => P o ∧ ∀ a, Calls P (k a) R

section Calls

variable {P : Op → Prop} {p : Prog Op Ans α} {R : α → Prop}

theorem Calls.mono {P' : Op → Prop} {R' : α → Prop} (h : Calls P p R) (hP : ∀ o, P o → P' o)
    (hR : ∀ a, R a → R' a) : Calls P' p R' := by
  induction p with
  | ret a => exact hR a h
  | call o k ih => exact ⟨hP o h.1, fun a => ih a (h.2 a)⟩

theorem calls_bind {f : α → Prog Op Ans β} {R : β → Prop} :
    Calls P (p >>= f) R ↔ Calls P p fun a => Calls P (f a) R := by
  induction p with
  | ret a => exact Iff.rfl
  | call o k ih => exact and_congr_right fun _ => forall_congr' fun a => ih a

/-- **Where calls of a kind keep an invariant, a program that makes no others keeps it.** -/
theorem Calls.safe {M : Semantics Op Ans σ} {I : σ → Prop} {s : σ} (h : Calls P p R)
    (hpre : ∀ o s, P o → I s → M.pre o s)
    (hrel : ∀ o s a s', P o → I s → M.rel o s a s' → I s') (hs : I s) :
    p.Safe M (fun a s' => R a ∧ I s') s := by
  induction p generalizing s with
  | ret a => exact ⟨h, hs⟩
  | call o k ih =>
    exact ⟨hpre o s h.1 hs, fun a s' hstep => ih a (h.2 a) (hrel o s a s' h.1 hs hstep)⟩

theorem calls_subst {Op' : Type} {Ans' : Op' → Type} {P' : Op' → Prop}
    {impl : (o : Op) → Prog Op' Ans' (Ans o)} (himpl : ∀ o, Calls P' (impl o) fun _ => True)
    (p : Prog Op Ans α) : Calls P' (p.subst impl) fun _ => True := by
  induction p with
  | ret a => exact trivial
  | call o k ih => exact calls_bind.2 ((himpl o).mono (fun _ ho => ho) fun a _ => ih a)

/-- **A program is as safe under other answers**, if they are the same for the calls it makes. -/
theorem Safe.of_calls {M N : Semantics Op Ans σ} {Q : α → σ → Prop} {s : σ} (h : p.Safe M Q s)
    (hcalls : Calls P p R) (hpre : ∀ o s, P o → M.pre o s → N.pre o s)
    (hrel : ∀ o s a s', P o → N.rel o s a s' → M.rel o s a s') : p.Safe N Q s := by
  induction p generalizing s with
  | ret a => exact h
  | call o k ih =>
    exact ⟨hpre o s hcalls.1 h.1, fun a s' hstep =>
      ih a (h.2 a s' (hrel o s a s' hcalls.1 hstep)) (hcalls.2 a)⟩

theorem Calls.traces {t : List (Event Op Ans)} (h : Calls P p R)
    (hprot : ∀ o t, P o → protocol o t) : p.Safe (tracing protocol)
      (fun a t' => ∃ more, t' = t ++ more ∧ R a ∧ (∀ e ∈ more, P e.1) ∧ Returns more p a) t := by
  induction p generalizing t with
  | ret a => exact ⟨[], (List.append_nil t).symm, h, List.forall_mem_nil _, rfl⟩
  | call o k ih =>
    refine ⟨hprot o t h.1, ?_⟩
    rintro a _ rfl
    refine (ih a (h.2 a)).mono ?_
    rintro b _ ⟨more, rfl, hb, hmore, hret⟩
    exact ⟨⟨o, a⟩ :: more, List.append_assoc _ _ _, hb, List.forall_mem_cons.2 ⟨h.1, hmore⟩,
      a, rfl, hret⟩

end Calls

/-- The result of a fallible program satisfies `Q` if there is one. -/
def Ensures (Q : α → Prop) : Except ε α → Prop
  | .ok a => Q a
  | .error _ => True

def Makes (P : Op → Prop) (p : ExceptT ε (Prog Op Ans) α) (Q : α → Prop) : Prop :=
  Calls P p.run (Ensures Q)

section Makes

variable {P : Op → Prop} {p : ExceptT ε (Prog Op Ans) α} {f : α → ExceptT ε (Prog Op Ans) β}
  {Q : α → Prop} {Q' : β → Prop}

theorem makes_bind (hp : Makes P p Q) (hf : ∀ a, Q a → Makes P (f a) Q') :
    Makes P (p >>= f) Q' := by
  unfold Makes
  rw [ExceptT.run_bind, calls_bind]
  refine Calls.mono hp (fun _ ho => ho) ?_
  rintro (e | a) h
  · exact trivial
  · exact hf a h

theorem makes_pure {a : α} (h : Q a) : Makes P (pure a : ExceptT ε (Prog Op Ans) α) Q := h

theorem makes_throw {e : ε} : Makes P (throw e : ExceptT ε (Prog Op Ans) α) Q := trivial

theorem makes_guard {x : Except ε α} :
    Makes P (liftM x : ExceptT ε (Prog Op Ans) α) fun _ => True := by
  cases x <;> exact trivial

theorem makes_lift {p : Prog Op Ans α} (h : Calls P p Q) :
    Makes P (liftM p : ExceptT ε (Prog Op Ans) α) Q :=
  calls_bind.2 (h.mono (fun _ ho => ho) fun _ ha => ha)

theorem makes_perform {o : Op} (ho : P o) :
    Makes P (liftM (perform o : Prog Op Ans (Ans o)) : ExceptT ε (Prog Op Ans) (Ans o))
      fun _ => True :=
  makes_lift ⟨ho, fun _ => trivial⟩

theorem makes_orFail {p : Prog Op Ans (Except δ α)} {g : δ → ε} (hp : Calls P p fun _ => True) :
    Makes P (orFail p g) fun _ => True := by
  refine calls_bind.2 (hp.mono (fun _ ho => ho) ?_)
  rintro (e | a) _
  · exact trivial
  · exact trivial

theorem Makes.mono {P' : Op → Prop} (h : Makes P p Q) (hP : ∀ o, P o → P' o) : Makes P' p Q :=
  Calls.mono h hP fun _ ha => ha

theorem Makes.safe {M : Semantics Op Ans σ} {I : σ → Prop} {s : σ} (h : Makes P p Q)
    (hpre : ∀ o s, P o → I s → M.pre o s)
    (hrel : ∀ o s a s', P o → I s → M.rel o s a s' → I s') (hs : I s) :
    p.run.Safe M (Outcome (fun a s' => Q a ∧ I s') I) s := by
  refine (Calls.safe h hpre hrel hs).mono ?_
  rintro (e | a) s' ⟨hr, hs'⟩
  · exact hs'
  · exact ⟨hr, hs'⟩

theorem Makes.traced {t : List (Event Op Ans)} (h : Makes P p Q)
    (hprot : ∀ o t, P o → protocol o t) : Traced protocol p
      (fun a more => Q a ∧ (∀ e ∈ more, P e.1) ∧ Returns more p.run (.ok a)) t := by
  refine (Calls.traces h hprot).mono ?_
  rintro (e | a) t' ⟨more, rfl, ha, hmore, hret⟩
  · exact trivial
  · exact ⟨more, rfl, ha, hmore, hret⟩

end Makes

def Follows (M : Semantics Op Ans σ) (s : σ) : List (Event Op Ans) → σ → Prop
  | [], s' => s = s'
  | e :: t, s' => ∃ s₁, M.rel e.1 s e.2 s₁ ∧ Follows M s₁ t s'

variable {M : Semantics Op Ans σ}

theorem follows_append {s s' : σ} {t t' : List (Event Op Ans)} :
    Follows M s (t ++ t') s' ↔ ∃ s₁, Follows M s t s₁ ∧ Follows M s₁ t' s' := by
  induction t generalizing s with
  | nil => exact ⟨fun h => ⟨s, rfl, h⟩, fun ⟨_, h, h'⟩ => h ▸ h'⟩
  | cons e t ih =>
    constructor
    · rintro ⟨s₁, hrel, h⟩
      obtain ⟨s₂, h, h'⟩ := ih.1 h
      exact ⟨s₂, ⟨s₁, hrel, h⟩, h'⟩
    · rintro ⟨s₂, ⟨s₁, hrel, h⟩, h'⟩
      exact ⟨s₁, hrel, ih.2 ⟨s₂, h, h'⟩⟩

theorem Safe.resume {p : Prog Op Ans α} {f : α → Prog Op Ans β}
    {Q : β → σ → Prop} {s s' : σ} {t : List (Event Op Ans)} {a : α} (h : (p >>= f).Safe M Q s)
    (hp : Returns t p a) (ht : Follows M s t s') : (f a).Safe M Q s' := by
  induction t generalizing p s with
  | nil =>
    cases p with
    | ret _ => exact hp ▸ ht ▸ h
    | call _ _ => exact hp.elim
  | cons e t ih =>
    cases p with
    | ret _ => exact hp.elim
    | call o k =>
      obtain ⟨x, rfl, hp⟩ := hp
      obtain ⟨s₁, hrel, ht⟩ := ht
      exact ih (h.2 x s₁ hrel) hp ht

theorem Safe.resume_ok {p : ExceptT ε (Prog Op Ans) α}
    {f : α → ExceptT ε (Prog Op Ans) β} {Q : Except ε β → σ → Prop} {s s' : σ}
    {t : List (Event Op Ans)} {a : α} (h : (p >>= f).run.Safe M Q s)
    (hp : Returns t p.run (.ok a)) (ht : Follows M s t s') : (f a).run.Safe M Q s' := by
  rw [ExceptT.run_bind] at h
  exact h.resume hp ht

theorem returns_check {x : Except ε α} {a : α} (h : x = .ok a) :
    Returns [] (liftM x : ExceptT ε (Prog Op Ans) α).run (.ok a) := h

theorem returns_orFail {o : Op} {k : Ans o → Except δ α} {g : δ → ε} {x : Ans o} {a : α}
    (h : k x = .ok a) :
    Returns [⟨o, x⟩] (orFail (call o fun x => ret (k x)) g : ExceptT ε (Prog Op Ans) α).run
      (.ok a) := by
  refine ⟨x, rfl, ?_⟩
  change (k x).mapError g = .ok a
  rw [h]
  rfl

/-- **What a protocol ensures in an environment** that grants the precondition of every call after
every trace. -/
theorem Safe.follow {p : Prog Op Ans α} {s₀ s : σ}
    {t : List (Event Op Ans)} {Q : α → List (Event Op Ans) → Prop} (h : p.Safe (tracing protocol) Q t)
    (hpre : ∀ o t s, Follows M s₀ t s → protocol o t → M.pre o s) (hs : Follows M s₀ t s) :
    p.Safe M (fun _ s => ∃ t, Follows M s₀ t s) s := by
  induction p generalizing t s with
  | ret a => exact ⟨t, hs⟩
  | call o k ih =>
    refine ⟨hpre o t s hs h.1, ?_⟩
    intro a s' hrel
    exact ih a (h.2 a _ rfl) (follows_append.2 ⟨s, hs, s', hrel, rfl⟩)

end Prog
