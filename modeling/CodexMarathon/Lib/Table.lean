/-
**Tables as lists of rows.**

An `UPDATE … WHERE` is a map that rewrites the selected rows; a primary key or a unique constraint
says that the keys of the rows are pairwise distinct.
-/

import Mathlib.Data.List.Basic
import Mathlib.Data.List.Nodup

namespace Table

variable {α κ : Type*}

def update (p : α → Bool) (f : α → α) (t : List α) : List α :=
  t.map fun r => if p r then f r else r

variable {f : α → α} {p : α → Bool} {r : α}

theorem mem_update {t : List α} :
    r ∈ update p f t ↔ ∃ q ∈ t, (p q = true ∧ r = f q) ∨ (p q = false ∧ r = q) := by
  simp only [update, List.mem_map]
  constructor
  · rintro ⟨q, hq, rfl⟩
    refine ⟨q, hq, ?_⟩
    cases hp : p q <;> simp
  · rintro ⟨q, hq, ⟨hp, rfl⟩ | ⟨hp, rfl⟩⟩ <;> exact ⟨_, hq, by simp [hp]⟩

theorem mem_update_of_mem {t : List α} (hr : r ∈ t)
    (hp : p r = true) : f r ∈ update p f t := mem_update.2 ⟨r, hr, .inl ⟨hp, rfl⟩⟩

theorem mem_update_of_not {t : List α} (hr : r ∈ t)
    (hp : p r = false) : r ∈ update p f t := mem_update.2 ⟨r, hr, .inr ⟨hp, rfl⟩⟩

theorem forall_update {P : α → Prop} {t : List α} (ht : ∀ r ∈ t, P r)
    (hf : ∀ r ∈ t, P r → P (f r)) : ∀ r ∈ update p f t, P r := by
  intro r hr
  obtain ⟨q, hq, ⟨-, rfl⟩ | ⟨-, rfl⟩⟩ := mem_update.1 hr
  · exact hf q hq (ht q hq)
  · exact ht r hq

theorem map_update {β : Type*} {k : α → β} (hk : ∀ r, k (f r) = k r)
    (t : List α) : (update p f t).map k = t.map k := by
  simp only [update, List.map_map]
  refine List.map_congr_left fun r _ => ?_
  by_cases hp : p r <;> simp [hp, hk]

theorem find?_update {p q : α → Bool} (hq : ∀ r, q (f r) = q r) (t : List α) :
    (update p f t).find? q = (t.find? q).map fun r => if p r then f r else r := by
  have hcomp : (q ∘ fun r => if p r then f r else r) = q := by
    funext r
    cases hp : p r <;> simp [hp, hq]
  rw [update, List.find?_map, hcomp]

def KeyUnique (k : α → κ) (t : List α) : Prop := (t.map k).Nodup

@[simp] theorem keyUnique_nil (k : α → κ) : KeyUnique k [] := List.nodup_nil

variable {k : α → κ}

theorem KeyUnique.eq_of_mem {t : List α} (h : KeyUnique k t) {r s : α}
    (hr : r ∈ t) (hs : s ∈ t) (hk : k r = k s) : r = s :=
  List.inj_on_of_nodup_map h hr hs hk

theorem KeyUnique.update {t : List α} (h : KeyUnique k t)
    (hk : ∀ r, k (f r) = k r) : KeyUnique k (Table.update p f t) := by
  unfold KeyUnique
  rw [map_update hk]
  exact h

theorem KeyUnique.append_singleton {t : List α} (h : KeyUnique k t)
    (hr : ∀ s ∈ t, k s ≠ k r) : KeyUnique k (t ++ [r]) := by
  unfold KeyUnique
  rw [List.map_append, List.nodup_append]
  refine ⟨h, by simp, ?_⟩
  rintro a ha b hb rfl
  obtain ⟨s, hs, rfl⟩ := List.mem_map.1 ha
  exact hr s hs (by simpa using hb)

theorem KeyUnique.find?_eq_some [DecidableEq κ] {t : List α} (h : KeyUnique k t) (hr : r ∈ t) : t.find? (fun s => k s = k r) = some r := by
  cases hf : t.find? (fun s => k s = k r) with
  | none => exact absurd (by simp) (List.find?_eq_none.1 hf r hr)
  | some s =>
    have hs : k s = k r := by simpa using List.find?_some hf
    rw [h.eq_of_mem (List.mem_of_find?_eq_some hf) hr hs]

/-- Rows are replaced as `R` allows, and rows of `N` are appended. -/
inductive Revises (R : α → α → Prop) (N : α → Prop) : List α → List α → Prop
  | added {new : List α} (h : ∀ r ∈ new, N r) : Revises R N [] new
  | kept {r r' : α} {t t' : List α} (h : R r r') (rest : Revises R N t t') :
      Revises R N (r :: t) (r' :: t')

section Revises

variable {R : α → α → Prop} {N : α → Prop} {t t' t'' : List α}

theorem revises_append {new : List α} (hR : ∀ r ∈ t, R r r) (hN : ∀ r ∈ new, N r) :
    Revises R N t (t ++ new) := by
  induction t with
  | nil => exact .added hN
  | cons r t ih =>
    rw [List.forall_mem_cons] at hR
    exact .kept hR.1 (ih hR.2)

theorem Revises.refl (hR : ∀ r ∈ t, R r r) : Revises R N t t := by
  simpa using revises_append hR (List.forall_mem_nil N)

theorem revises_update {p : α → Bool} {f : α → α} (hf : ∀ r ∈ t, p r = true → R r (f r))
    (hR : ∀ r ∈ t, p r = false → R r r) : Revises R N t (update p f t) := by
  induction t with
  | nil => exact .added (List.forall_mem_nil N)
  | cons r t ih =>
    rw [List.forall_mem_cons] at hf hR
    refine .kept ?_ (ih hf.2 hR.2)
    cases hp : p r with
    | true => simpa [hp] using hf.1 hp
    | false => simpa [hp] using hR.1 hp

theorem Revises.forall_new (hN : ∀ r r', N r → R r r' → N r') (h : Revises R N t t')
    (ht : ∀ r ∈ t, N r) : ∀ r ∈ t', N r := by
  induction h with
  | added hnew => exact hnew
  | @kept r r' t t' hR _ ih =>
    rw [List.forall_mem_cons] at ht
    exact List.forall_mem_cons.2 ⟨hN r r' ht.1 hR, ih ht.2⟩

theorem Revises.trans (hR : ∀ r r' r'', R r r' → R r' r'' → R r r'')
    (hN : ∀ r r', N r → R r r' → N r') (h : Revises R N t t') (h' : Revises R N t' t'') :
    Revises R N t t'' := by
  induction h generalizing t'' with
  | added hnew => exact .added (h'.forall_new hN hnew)
  | kept hrow _ ih =>
    cases h' with
    | kept hrow' hrest => exact .kept (hR _ _ _ hrow hrow') (ih hrest)

theorem Revises.exists_mem (h : Revises R N t t') {r : α} (hr : r ∈ t) : ∃ r' ∈ t', R r r' := by
  induction h with
  | added => exact absurd hr List.not_mem_nil
  | kept hrow _ ih =>
    rcases List.mem_cons.1 hr with rfl | hr
    · exact ⟨_, List.mem_cons_self, hrow⟩
    · obtain ⟨r', hr', hR⟩ := ih hr
      exact ⟨r', List.mem_cons_of_mem _ hr', hR⟩

end Revises

end Table
