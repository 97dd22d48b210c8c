/-
**Listings: rows in order, cut off after some number.**

`SELECT … ORDER BY key LIMIT n` lists the rows of a table by a key and cuts the listing off.  What
has to stay visible is put in front by the key; this module says when it does.
-/

import Mathlib.Data.List.Sort
import Mathlib.Order.Lattice

namespace Listing

variable {α κ : Type*}

section Order

variable [LinearOrder κ] (k : α → κ)

def orderBy (t : List α) : List α := t.insertionSort fun a b => k a ≤ k b

theorem perm_orderBy (t : List α) : (orderBy k t).Perm t := List.perm_insertionSort _ t

theorem mem_orderBy {t : List α} {r : α} : r ∈ orderBy k t ↔ r ∈ t := (perm_orderBy k t).mem_iff

theorem pairwise_orderBy (t : List α) : (orderBy k t).Pairwise fun a b => k a ≤ k b := by
  have htotal : Std.Total fun a b => k a ≤ k b := ⟨fun a b => le_total (k a) (k b)⟩
  have htrans : IsTrans α fun a b => k a ≤ k b := ⟨fun _ _ _ => le_trans⟩
  exact List.pairwise_insertionSort _ t

variable {k} in
theorem orderBy_cons {t : List α} {r : α} (hr : r ∈ t) :
    ∃ a rest, orderBy k t = a :: rest ∧ a ∈ t ∧ ∀ b ∈ t, k a ≤ k b := by
  cases h : orderBy k t with
  | nil =>
    rw [← mem_orderBy k, h] at hr
    exact absurd hr List.not_mem_nil
  | cons a rest =>
    have hsorted := pairwise_orderBy k t
    rw [h, List.pairwise_cons] at hsorted
    refine ⟨a, rest, rfl, ?_, fun b hb => ?_⟩
    · rw [← mem_orderBy k, h]
      exact List.mem_cons_self
    · rw [← mem_orderBy k, h] at hb
      rcases List.mem_cons.1 hb with rfl | hb
      · exact le_rfl
      · exact hsorted.1 b hb

end Order

def Front (P : α → Prop) (t : List α) : Prop := t.Pairwise fun a b => P b → P a

section Front

variable {P : α → Prop} {t : List α}

theorem front_orderBy [LinearOrder κ] {k : α → κ} (h : ∀ a b, k a ≤ k b → P b → P a) :
    Front P (orderBy k t) :=
  (pairwise_orderBy k t).imp fun {a b} => h a b

theorem Front.take (h : Front P t) (n : ℕ) : Front P (t.take n) :=
  h.sublist (List.take_sublist n t)

theorem Front.of_mem_drop (h : Front P t) {n : ℕ} {r s : α} (hr : r ∈ t.drop n) (hP : P r)
    (hs : s ∈ t.take n) : P s := by
  rw [Front, ← List.take_append_drop n t, List.pairwise_append] at h
  exact h.2.2 s hs r hr hP

/-- **What stands in front is listed** if there is not more of it than the listing holds. -/
theorem Front.mem_take [DecidablePred P] (h : Front P t) {n : ℕ} (hn : t.countP P ≤ n) {r : α}
    (hr : r ∈ t) (hP : P r) : r ∈ t.take n := by
  induction t generalizing n with
  | nil => exact absurd hr List.not_mem_nil
  | cons a t ih =>
    rw [Front, List.pairwise_cons] at h
    -- the first row is one of `P`, so it takes one of the `n` places
    have ha : P a := by
      rcases List.mem_cons.1 hr with rfl | hr
      · exact hP
      · exact h.1 r hr hP
    rw [List.countP_cons_of_pos (by simpa using ha)] at hn
    obtain ⟨m, rfl⟩ : ∃ m, n = m + 1 := ⟨n - 1, by omega⟩
    rw [List.take_succ_cons]
    rcases List.mem_cons.1 hr with rfl | hr
    · exact List.mem_cons_self
    · exact List.mem_cons_of_mem _ (ih h.2 (by omega) hr)

end Front

end Listing
