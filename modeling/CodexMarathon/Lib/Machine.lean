/-
**Deterministic machines and their histories.**

A machine answers an input in a state with an output and a next state.  A *history* is the list
of the inputs it was given with the outputs it answered, oldest first.  Safety statements about a
long-lived component usually speak about both — "the values handed out so far" against "the rows
stored now" — so the invariants here are predicates of a history *and* a state.
-/

import Mathlib.Data.List.Basic
import Mathlib.Data.List.Nodup

/-- A deterministic machine with states `σ`, inputs `ι` and outputs `ο`. -/
structure Machine (σ ι ο : Type*) where
  step : σ → ι → σ × ο

namespace Machine

variable {σ ι ο : Type*} (M : Machine σ ι ο)

def run (s : σ) : List ι → σ
  | [] => s
  | i :: is => run (M.step s i).1 is

/-- The inputs `is` paired with the outputs the machine answers to them. -/
def history (s : σ) : List ι → List (ι × ο)
  | [] => []
  | i :: is => (i, (M.step s i).2) :: history (M.step s i).1 is

@[simp] theorem run_nil (s : σ) : M.run s [] = s := rfl

@[simp] theorem run_cons (s : σ) (i : ι) (is : List ι) :
    M.run s (i :: is) = M.run (M.step s i).1 is := rfl

@[simp] theorem history_nil (s : σ) : M.history s [] = [] := rfl

@[simp] theorem history_cons (s : σ) (i : ι) (is : List ι) :
    M.history s (i :: is) = (i, (M.step s i).2) :: M.history (M.step s i).1 is := rfl

theorem run_append (s : σ) (is js : List ι) : M.run s (is ++ js) = M.run (M.run s is) js := by
  induction is generalizing s with
  | nil => rfl
  | cons i is ih => exact ih (M.step s i).1

theorem run_concat (s : σ) (is : List ι) (i : ι) :
    M.run s (is ++ [i]) = (M.step (M.run s is) i).1 := by
  rw [run_append]
  rfl

theorem history_append (s : σ) (is js : List ι) :
    M.history s (is ++ js) = M.history s is ++ M.history (M.run s is) js := by
  induction is generalizing s with
  | nil => rfl
  | cons i is ih => simp [ih]

/-! ### The invariant rule -/

variable {M}

variable {s : σ} {I : List (ι × ο) → σ → Prop}

theorem invariant_history_of_forall {P : ι × ο → Prop}
    (hstep : ∀ h s i, P (i, (M.step s i).2) → I h s → I (h ++ [(i, (M.step s i).2)]) (M.step s i).1)
    (is : List ι) {h : List (ι × ο)} (hP : ∀ e ∈ M.history s is, P e) (hs : I h s) :
    I (h ++ M.history s is) (M.run s is) := by
  induction is generalizing h s with
  | nil => simpa using hs
  | cons i is ih =>
    simp only [history_cons, List.forall_mem_cons] at hP
    have := ih hP.2 (hstep h s i hP.1 hs)
    simpa using this

/-- **The invariant rule.**  A predicate of the history and the state that every step preserves
is preserved by every run. -/
theorem invariant_history (hstep : ∀ h s i, I h s → I (h ++ [(i, (M.step s i).2)]) (M.step s i).1)
    (is : List ι) {h : List (ι × ο)} (hs : I h s) : I (h ++ M.history s is) (M.run s is) :=
  invariant_history_of_forall (P := fun _ => True) (fun h s i _ => hstep h s i) is
    (fun _ _ => trivial) hs

theorem invariant_run {I : σ → Prop} (hstep : ∀ s i, I s → I (M.step s i).1) (is : List ι)
    (hs : I s) : I (M.run s is) :=
  invariant_history (I := fun _ => I) (fun _ => hstep) is (h := []) hs

theorem invariant_inputs {I : List ι → σ → Prop}
    (hstep : ∀ is s i, I is s → I (is ++ [i]) (M.step s i).1) (is : List ι) {js : List ι}
    (hs : I js s) : I (js ++ is) (M.run s is) := by
  induction is generalizing js s with
  | nil => simpa using hs
  | cons i is ih =>
    have := ih (hstep js s i hs)
    simpa using this

variable {is : List ι}

theorem invariant_run_of_forall {I : σ → Prop} {P : ι → Prop}
    (hstep : ∀ s i, P i → I s → I (M.step s i).1) (his : ∀ i ∈ is, P i)
    (hs : I s) : I (M.run s is) := by
  induction is generalizing s with
  | nil => exact hs
  | cons i is ih =>
    rw [List.forall_mem_cons] at his
    exact ih his.2 (hstep s i his.1 hs)

theorem invariant_history_nil
    (hstep : ∀ h s i, I h s → I (h ++ [(i, (M.step s i).2)]) (M.step s i).1)
    (is : List ι) (hs : I [] s) : I (M.history s is) (M.run s is) := by
  simpa using invariant_history hstep is hs

variable (M) in
/-- Every step of the run is taken on an input and in a state that satisfy `Q`. -/
def Each (Q : σ → ι → Prop) (s : σ) : List ι → Prop
  | [] => True
  | i :: is => Q s i ∧ Each Q (M.step s i).1 is

instance Each.decidable {Q : σ → ι → Prop} [∀ s, DecidablePred (Q s)] (s : σ) :
    (is : List ι) → Decidable (M.Each Q s is)
  | [] => inferInstanceAs (Decidable True)
  | i :: is =>
    have := Each.decidable (Q := Q) (M.step s i).1 is
    inferInstanceAs (Decidable (Q s i ∧ M.Each Q (M.step s i).1 is))

theorem each_imp {Q Q' P : σ → ι → Prop} (h : ∀ s i, Q s i → Q' s i → P s i)
    (hQ : M.Each Q s is) (hQ' : M.Each Q' s is) : M.Each P s is := by
  induction is generalizing s with
  | nil => trivial
  | cons i is ih => exact ⟨h s i hQ.1 hQ'.1, ih hQ.2 hQ'.2⟩

theorem each_append {Q : σ → ι → Prop} (is js : List ι) :
    M.Each Q s (is ++ js) ↔ M.Each Q s is ∧ M.Each Q (M.run s is) js := by
  induction is generalizing s with
  | nil => simp [Each]
  | cons i is ih => simp [Each, ih, and_assoc]

theorem invariant_run_of_each {I : σ → Prop} {Q : σ → ι → Prop}
    (hstep : ∀ s i, Q s i → I s → I (M.step s i).1) (hQ : M.Each Q s is)
    (hs : I s) : I (M.run s is) := by
  induction is generalizing s with
  | nil => exact hs
  | cons i is ih => exact ih hQ.2 (hstep s i hQ.1 hs)

theorem each_of_each {I : σ → Prop} {Q P : σ → ι → Prop}
    (hstep : ∀ s i, Q s i → I s → I (M.step s i).1 ∧ P s i)
    (hQ : M.Each Q s is) (hs : I s) : M.Each P s is := by
  induction is generalizing s with
  | nil => trivial
  | cons i is ih =>
    obtain ⟨hnext, hP⟩ := hstep s i hQ.1 hs
    exact ⟨hP, ih hQ.2 hnext⟩

theorem forall_history_of_each {I : σ → Prop} {Q : σ → ι → Prop} {P : ι × ο → Prop}
    (hstep : ∀ s i, Q s i → I s → I (M.step s i).1 ∧ P (i, (M.step s i).2))
    (hQ : M.Each Q s is) (hs : I s) : ∀ e ∈ M.history s is, P e := by
  induction is generalizing s with
  | nil => exact List.forall_mem_nil _
  | cons i is ih =>
    obtain ⟨hnext, hP⟩ := hstep s i hQ.1 hs
    exact List.forall_mem_cons.2 ⟨hP, ih hQ.2 hnext⟩

theorem invariant_history_of_each {Q : σ → ι → Prop}
    {C : List (ι × ο) → Prop} (hC : ∀ h h', C (h ++ h') → C h)
    (hstep : ∀ h s i, Q s i → C (h ++ [(i, (M.step s i).2)]) → I h s →
      I (h ++ [(i, (M.step s i).2)]) (M.step s i).1) {h : List (ι × ο)} (hQ : M.Each Q s is) (hhist : C (h ++ M.history s is))
    (hs : I h s) : I (h ++ M.history s is) (M.run s is) := by
  induction is generalizing h s with
  | nil => simpa using hs
  | cons i is ih =>
    rw [history_cons, List.append_cons] at hhist
    have hnext := ih hQ.2 hhist (hstep h s i hQ.1 (hC _ _ hhist) hs)
    simpa using hnext

section Measure

variable {f : σ → ℕ}

theorem le_run (hstep : ∀ s i, f s ≤ f (M.step s i).1) (s : σ) (is : List ι) :
    f s ≤ f (M.run s is) := by
  induction is generalizing s with
  | nil => exact Nat.le_refl _
  | cons i is ih => exact Nat.le_trans (hstep s i) (ih (M.step s i).1)

variable {is : List ι}

/-- **A measure that never decreases and ends where it began is kept by every step.** -/
theorem each_of_run_eq (hstep : ∀ s i, f s ≤ f (M.step s i).1) {s : σ}
    (h : f (M.run s is) = f s) : M.Each (fun s i => f (M.step s i).1 = f s) s is := by
  induction is generalizing s with
  | nil => trivial
  | cons i is ih =>
    have hfirst := hstep s i
    have hrest := le_run hstep (M.step s i).1 is
    rw [run_cons] at h
    exact ⟨Nat.le_antisymm (h ▸ hrest) hfirst, ih (Nat.le_antisymm (h ▸ hfirst) hrest)⟩

theorem run_eq_of_each {s : σ}
    (h : M.Each (fun s i => f (M.step s i).1 = f s) s is) : f (M.run s is) = f s := by
  induction is generalizing s with
  | nil => rfl
  | cons i is ih => exact (ih h.2).trans h.1

/-- **A measure that stands for a value**: a run that keeps the measure has kept the value. -/
theorem value_of_run_eq {τ : Type*} {g : σ → τ} {s : σ}
    (h : M.Each (fun s i => f (M.step s i).1 = f s ∧ g (M.step s i).1 = g s ∨
      f s < f (M.step s i).1) s is) :
    f s ≤ f (M.run s is) ∧ (f (M.run s is) = f s → g (M.run s is) = g s) := by
  induction is generalizing s with
  | nil => exact ⟨Nat.le_refl _, fun _ => rfl⟩
  | cons i is ih =>
    obtain ⟨hle, hrest⟩ := ih h.2
    rcases h.1 with ⟨hf, hg⟩ | hlt
    · rw [hf] at hle hrest
      rw [hg] at hrest
      exact ⟨hle, hrest⟩
    · have hlater := Nat.lt_of_lt_of_le hlt hle
      exact ⟨Nat.le_of_lt hlater, fun heq => absurd heq (Nat.ne_of_gt hlater)⟩

end Measure

/-! ### Latches -/

variable (M) in
def Always (P : σ → Prop) (s : σ) : List ι → Prop
  | [] => P s
  | i :: is => P s ∧ Always P (M.step s i).1 is

variable (M) in
def Once (Q : σ → ι → Prop) (s : σ) : List ι → Prop
  | [] => False
  | i :: is => Q s i ∨ Once Q (M.step s i).1 is

instance Always.decidable {P : σ → Prop} [DecidablePred P] (s : σ) :
    (is : List ι) → Decidable (M.Always P s is)
  | [] => inferInstanceAs (Decidable (P s))
  | i :: is =>
    have := Always.decidable (P := P) (M.step s i).1 is
    inferInstanceAs (Decidable (P s ∧ M.Always P (M.step s i).1 is))

instance Once.decidable {Q : σ → ι → Prop} [∀ s, DecidablePred (Q s)] (s : σ) :
    (is : List ι) → Decidable (M.Once Q s is)
  | [] => inferInstanceAs (Decidable False)
  | i :: is =>
    have := Once.decidable (Q := Q) (M.step s i).1 is
    inferInstanceAs (Decidable (Q s i ∨ M.Once Q (M.step s i).1 is))

theorem always_of_invariant {I : σ → Prop} (hstep : ∀ s i, I s → I (M.step s i).1) (is : List ι) (hs : I s) : M.Always I s is := by
  induction is generalizing s with
  | nil => exact hs
  | cons i is ih => exact ⟨hs, ih (hstep s i hs)⟩

theorem Always.head {P : σ → Prop} (h : M.Always P s is) : P s := by
  cases is with
  | nil => exact h
  | cons i is => exact h.1

theorem Always.last {P : σ → Prop} (h : M.Always P s is) : P (M.run s is) := by
  induction is generalizing s with
  | nil => exact h
  | cons i is ih => exact ih h.2

theorem once_append {Q : σ → ι → Prop} (is js : List ι) :
    M.Once Q s (is ++ js) ↔ M.Once Q s is ∨ M.Once Q (M.run s is) js := by
  induction is generalizing s with
  | nil => simp [Once]
  | cons i is ih => simp [Once, ih, or_assoc]

theorem once_iff_exists {Q : σ → ι → Prop} :
    M.Once Q s is ↔ ∃ is₁ i is₂, is = is₁ ++ i :: is₂ ∧ Q (M.run s is₁) i := by
  constructor
  · intro h
    induction is generalizing s with
    | nil => exact absurd h id
    | cons i is ih =>
      rcases h with hi | his
      · exact ⟨[], i, is, rfl, hi⟩
      · obtain ⟨is₁, j, is₂, rfl, hj⟩ := ih his
        exact ⟨i :: is₁, j, is₂, rfl, hj⟩
  · rintro ⟨is₁, i, is₂, rfl, hi⟩
    exact (once_append is₁ (i :: is₂)).2 (.inr (.inl hi))

theorem invariant_run_of_not_once {I : σ → Prop} {Q : σ → ι → Prop}
    (hstep : ∀ s i, ¬ Q s i → I s → I (M.step s i).1)
    (h : ¬ M.Once Q s is) (hs : I s) : I (M.run s is) := by
  induction is generalizing s with
  | nil => exact hs
  | cons i is ih =>
    obtain ⟨hi, his⟩ := not_or.1 h
    exact ih his (hstep s i hi hs)

/-- **The latch rule.**  As long as `P` holds, a step makes `f` true exactly if it was or the step is
one of `Q`; so does a run. -/
theorem latch_run_iff {P f : σ → Prop} {Q : σ → ι → Prop}
    (hstep : ∀ s i, P s → P (M.step s i).1 → (f (M.step s i).1 ↔ f s ∨ Q s i))
    (is : List ι) (h : M.Always P s is) : f (M.run s is) ↔ f s ∨ M.Once Q s is := by
  induction is generalizing s with
  | nil => simp [Once]
  | cons i is ih =>
    rw [run_cons, ih h.2, hstep s i h.1 h.2.head, Once, or_assoc]

theorem always_of_each {P : σ → Prop} {is js : List ι} {i : ι}
    (h : M.Each (fun s _ => P s) s (is ++ i :: js)) : M.Always P s is := by
  induction is generalizing s with
  | nil => exact h.1
  | cons j is ih => exact ⟨h.1, ih h.2⟩

variable (M) in
def collect {β : Type*} (e : σ → ι → List β) (s : σ) : List ι → List β
  | [] => []
  | i :: is => e s i ++ collect e (M.step s i).1 is

theorem filter_collect {β : Type*} (p : β → Bool) (e : σ → ι → List β) (s : σ) (is : List ι) :
    (M.collect e s is).filter p = M.collect (fun s i => (e s i).filter p) s is := by
  induction is generalizing s with
  | nil => rfl
  | cons i is ih => rw [collect, List.filter_append, ih, collect]

section OneShot

variable {β : Type*} {P f : σ → Prop} {Q : σ → ι → Prop} {e : σ → ι → List β} {x : σ → ι → β}
  [DecidablePred f] [∀ s, DecidablePred (Q s)]
  (hset : ∀ s i, P s → P (M.step s i).1 → (f (M.step s i).1 ↔ f s ∨ Q s i))
  (hemit : ∀ s i, P s → e s i = if ¬ f s ∧ Q s i then [x s i] else [])

include hset hemit

/-- **The one-shot rule**, step by step: as long as `P` holds, only the first step of `Q` emits. -/
theorem emit_of_latch {is js : List ι} {i : ι} {s : σ}
    (h : M.Each (fun s _ => P s) s (is ++ i :: js)) : e (M.run s is) i =
      if ¬ (f s ∨ M.Once Q s is) ∧ Q (M.run s is) i then [x (M.run s is) i] else [] := by
  have hlatch := latch_run_iff (M := M) hset is (always_of_each h)
  rw [hemit _ i ((each_append is (i :: js)).1 h).2.1]
  simp only [hlatch]

/-- **The one-shot rule**, for a whole run: it emits once if a step of `Q` is taken. -/
theorem length_collect_of_latch {is : List ι} {s : σ} (h : M.Each (fun s _ => P s) s is) :
    (M.collect e s is).length = if ¬ f s ∧ M.Once Q s is then 1 else 0 := by
  induction is generalizing s with
  | nil => simp [collect, Once]
  | cons i is ih =>
    rw [collect, List.length_append, hemit s i h.1, ih h.2]
    cases is with
    | nil => by_cases hf : f s <;> by_cases hQ : Q s i <;> simp [Once, hf, hQ]
    | cons j is =>
      have hnext := hset s i h.1 h.2.1
      by_cases hf : f s <;> by_cases hQ : Q s i <;> simp [Once, hf, hQ, hnext]

end OneShot

end Machine
