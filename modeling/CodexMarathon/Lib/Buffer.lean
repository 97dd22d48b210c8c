/-
**Bounded buffers that accept nothing twice.**

A full buffer gives up its oldest entry for a new one, and of the entries with one key only the
first is accepted.
-/

import Mathlib.Data.List.Basic
import Mathlib.Data.List.Nodup

namespace Buffer

variable {α κ : Type*}

section Firsts

variable [DecidableEq κ] (key : α → κ)

def firsts : List α → List α
  | [] => []
  | a :: l => a :: (firsts l).filter fun b => key b ≠ key a

variable {key} {l : List α}

theorem nodup_map_firsts : ((firsts key l).map key).Nodup := by
  induction l with
  | nil => exact List.nodup_nil
  | cons a l ih =>
    rw [firsts, List.map_cons, List.nodup_cons]
    refine ⟨fun h => ?_, ih.sublist (List.filter_sublist.map key)⟩
    obtain ⟨b, hb, hkey⟩ := List.mem_map.1 h
    simpa [hkey] using (List.mem_filter.1 hb).2

theorem firsts_concat (l : List α) (a : α) :
    firsts key (l ++ [a]) = if key a ∈ l.map key then firsts key l else firsts key l ++ [a] := by
  induction l with
  | nil => rfl
  | cons b l ih =>
    rw [List.cons_append, firsts, ih, firsts, List.map_cons]
    by_cases hl : key a ∈ l.map key
    · rw [if_pos hl, if_pos (List.mem_cons_of_mem _ hl)]
    · rw [if_neg hl]
      by_cases hb : key a = key b
      · rw [if_pos (hb ▸ List.mem_cons_self)]
        simp [hb]
      · rw [if_neg (List.mem_cons.not.2 (not_or.2 ⟨hb, hl⟩))]
        simp [hb]

end Firsts

def last (n : ℕ) (l : List α) : List α := l.drop (l.length - n)

def push (capacity : ℕ) (buffer : List α) (a : α) : List α :=
  (if capacity ≤ buffer.length then buffer.tail else buffer) ++ [a]

section Last

variable {n : ℕ} {l : List α}

@[simp] theorem last_nil : last n ([] : List α) = [] := List.drop_nil

theorem length_last_le : (last n l).length ≤ n := by
  rw [last, List.length_drop]
  omega

theorem last_sublist : (last n l).Sublist l := List.drop_sublist ..

theorem push_last (hn : 0 < n) (l : List α) (a : α) : push n (last n l) a = last n (l ++ [a]) := by
  unfold push last
  rw [List.length_drop, List.length_append, List.length_singleton]
  by_cases hfull : n ≤ l.length
  · rw [if_pos (by omega), List.tail_drop, List.drop_append_of_le_length (by omega)]
    congr 2
    omega
  · have hzero : l.length - n = 0 := by omega
    rw [if_neg (by omega), hzero, List.drop_zero, Nat.sub_eq_zero_of_le (by omega), List.drop_zero]

theorem mem_last (l l' : List α) (a : α) : a ∈ last n (l ++ a :: l') ∨ n ≤ l'.length := by
  by_cases h : n ≤ l'.length
  · exact .inr h
  · left
    unfold last
    rw [List.length_append, List.length_cons, List.drop_append_of_le_length (by omega)]
    exact List.mem_append_right _ List.mem_cons_self

end Last

end Buffer
