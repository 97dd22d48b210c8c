/-
**Fallible computations.**

A sequence in `Except` that succeeded succeeded at every step, and a loop that succeeded is a chain
of its turns.
-/

import Mathlib.Data.List.Forall2
import Mathlib.Logic.Relation

namespace Result

universe u v

variable {ε : Type u} {α β : Type v}

variable {f : α → Except ε β} {x : Except ε α}

theorem bind_eq_ok {b : β} : x >>= f = .ok b ↔ ∃ a, x = .ok a ∧ f a = .ok b := by
  cases x <;> simp [bind, Except.bind]

theorem ok_of_bind {x : Except ε PUnit} {f : PUnit → Except ε β} {b : β} (h : x >>= f = .ok b) :
    f ⟨⟩ = .ok b :=
  let ⟨_, _, h⟩ := bind_eq_ok.1 h
  h

theorem bind_eq_error {e : ε} :
    x >>= f = .error e ↔ x = .error e ∨ ∃ a, x = .ok a ∧ f a = .error e := by
  cases x <;> simp [bind, Except.bind]

theorem map_eq_ok {f : α → β} {b : β} : x.map f = .ok b ↔ ∃ a, x = .ok a ∧ f a = b := by
  cases x <;> simp [Except.map]

theorem mapError_eq_ok {ε' : Type u} {f : ε → ε'} {a : α} : x.mapError f = .ok a ↔ x = .ok a := by
  cases x <;> simp [Except.mapError]

theorem toOption_eq_some {a : α} : x.toOption = some a ↔ x = .ok a := by
  cases x <;> simp [Except.toOption]

def require (c : Prop) [Decidable c] (e : ε) : Except ε Unit := if c then .ok () else .error e

def okOr (o : Option α) (e : ε) : Except ε α :=
  match o with
  | some a => .ok a
  | none => .error e

@[simp] theorem require_eq_ok {c : Prop} [Decidable c] {e : ε} {u : Unit} :
    require c e = .ok u ↔ c := by
  by_cases hc : c <;> simp [require, hc]

theorem require_eq_error {c : Prop} [Decidable c] {e e' : ε} :
    require c e = .error e' ↔ ¬ c ∧ e = e' := by
  by_cases hc : c <;> simp [require, hc]

@[simp] theorem okOr_eq_ok {o : Option α} {e : ε} {a : α} : okOr o e = .ok a ↔ o = some a := by
  cases o <;> simp [okOr]

theorem forM_eq_ok {α : Type v} {f : α → Except ε PUnit} {as : List α} :
    as.forM f = .ok ⟨⟩ ↔ ∀ a ∈ as, f a = .ok ⟨⟩ := by
  induction as with
  | nil => simp [List.forM, pure, Except.pure]
  | cons a as ih =>
    change (f a >>= fun _ => as.forM f) = _ ↔ _
    rw [bind_eq_ok, List.forall_mem_cons, ← ih]
    exact ⟨fun ⟨⟨⟩, ha, has⟩ => ⟨ha, has⟩, fun ⟨ha, has⟩ => ⟨⟨⟩, ha, has⟩⟩

theorem forM_eq_error {α : Type v} {f : α → Except ε PUnit} {as : List α} {e : ε}
    (h : as.forM f = .error e) : ∃ a ∈ as, f a = .error e := by
  induction as with
  | nil => cases h
  | cons a as ih =>
    change (f a >>= fun _ => as.forM f) = _ at h
    rcases bind_eq_error.1 h with ha | ⟨⟨⟩, -, has⟩
    · exact ⟨a, List.mem_cons_self, ha⟩
    · obtain ⟨b, hb, hfail⟩ := ih has
      exact ⟨b, List.mem_cons_of_mem a hb, hfail⟩

variable {as : List α}

theorem mapM_eq_ok {bs : List β} :
    as.mapM f = .ok bs ↔ List.Forall₂ (fun a b => f a = .ok b) as bs := by
  induction as generalizing bs with
  | nil => cases bs <;> simp [pure, Except.pure]
  | cons a as ih =>
    rw [List.mapM_cons, bind_eq_ok, List.forall₂_cons_left_iff]
    constructor
    · rintro ⟨b, hb, hrest⟩
      obtain ⟨bs', hbs', hpure⟩ := bind_eq_ok.1 hrest
      cases hpure
      exact ⟨b, bs', hb, ih.1 hbs', rfl⟩
    · rintro ⟨b, bs', hb, hbs', rfl⟩
      exact ⟨b, hb, bind_eq_ok.2 ⟨bs', ih.2 hbs', rfl⟩⟩

theorem exists_mapM_iff : (∃ bs, as.mapM f = .ok bs) ↔ ∀ a ∈ as, ∃ b, f a = .ok b := by
  induction as with
  | nil => simp [pure, Except.pure]
  | cons a as ih =>
    rw [List.forall_mem_cons, ← ih, List.mapM_cons]
    constructor
    · rintro ⟨bs, hbs⟩
      obtain ⟨b, hb, hrest⟩ := bind_eq_ok.1 hbs
      obtain ⟨bs', hbs', -⟩ := bind_eq_ok.1 hrest
      exact ⟨⟨b, hb⟩, bs', hbs'⟩
    · rintro ⟨⟨b, hb⟩, bs', hbs'⟩
      exact ⟨b :: bs', bind_eq_ok.2 ⟨b, hb, bind_eq_ok.2 ⟨bs', hbs', rfl⟩⟩⟩

theorem foldlM_invariant {I : β → Prop} {f : β → α → Except ε β} {s s' : β}
    (hf : ∀ s a s', a ∈ as → I s → f s a = .ok s' → I s') (hs : I s)
    (h : as.foldlM f s = .ok s') : I s' := by
  induction as generalizing s with
  | nil =>
    cases h
    exact hs
  | cons a as ih =>
    rw [List.foldlM_cons] at h
    obtain ⟨m, hm, hrest⟩ := bind_eq_ok.1 h
    exact ih (fun s a s' ha => hf s a s' (List.mem_cons_of_mem _ ha))
      (hf s a m List.mem_cons_self hs hm) hrest

theorem foldlM_reflTransGen {R : β → β → Prop} {f : β → α → Except ε β}
    (hf : ∀ {s s' : β} {a : α}, f s a = .ok s' → Relation.ReflTransGen R s s')
    {s s' : β} (h : as.foldlM f s = .ok s') : Relation.ReflTransGen R s s' := by
  induction as generalizing s with
  | nil =>
    cases h
    exact .refl
  | cons a as ih =>
    rw [List.foldlM_cons] at h
    obtain ⟨m, hm, hrest⟩ := bind_eq_ok.1 h
    exact (hf hm).trans (ih hrest)

end Result
