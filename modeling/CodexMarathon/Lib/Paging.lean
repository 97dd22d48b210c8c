/-
**Reading a growing table by pages.**

A page holds the first rows after a cursor, and the next cursor is the key of its last row.  The
table may grow between two pages, at its end.
-/

import Mathlib.Data.List.Sort
import Mathlib.Order.Lattice

namespace Paging

variable {α κ : Type*} [LinearOrder κ] (key : α → κ)

def after (cursor : κ) (table : List α) : List α := table.filter fun r => cursor < key r

/-- The key of the last row of the page, or the cursor itself. -/
def next (cursor : κ) (page : List α) : κ := (page.getLast?.map key).getD cursor

def Increasing (table : List α) : Prop := table.Pairwise fun r s => key r < key s

variable {key} {cursor : κ} {table page rest : List α}

theorem mem_after {r : α} : r ∈ after key cursor table ↔ r ∈ table ∧ cursor < key r := by
  simp [after]

theorem Increasing.after (h : Increasing key table) : Increasing key (after key cursor table) :=
  h.sublist List.filter_sublist

theorem after_append (table new : List α) :
    after key cursor (table ++ new) = after key cursor table ++ after key cursor new :=
  List.filter_append ..

theorem Increasing.after_of_append (h : Increasing key (page ++ rest)) {last : α}
    (hlast : page.getLast? = some last) : Paging.after key (key last) (page ++ rest) = rest := by
  obtain ⟨front, rfl⟩ := List.getLast?_eq_some_iff.1 hlast
  rw [Increasing, List.pairwise_append, List.pairwise_append] at h
  obtain ⟨⟨-, -, hfront⟩, -, hrest⟩ := h
  have hnone : Paging.after key (key last) (front ++ [last]) = [] := by
    rw [Paging.after, List.filter_eq_nil_iff]
    intro r hr hlt
    have hlt : key last < key r := by simpa using hlt
    rcases List.mem_append.1 hr with hr | hr
    · exact lt_asymm hlt (hfront r hr last List.mem_cons_self)
    · rw [List.mem_singleton.1 hr] at hlt
      exact lt_irrefl _ hlt
  rw [after_append, hnone, List.nil_append, Paging.after, List.filter_eq_self]
  intro r hr
  exact decide_eq_true (hrest last (by simp) r hr)

theorem after_after {cursor' : κ} (h : cursor ≤ cursor') :
    after key cursor' (after key cursor table) = after key cursor' table := by
  rw [after, after, after, List.filter_filter]
  refine List.filter_congr fun r _ => ?_
  simp only [Bool.and_eq_left_iff_imp, decide_eq_true_eq]
  exact h.trans_lt

theorem after_next (h : Increasing key table) (hpage : after key cursor table = page ++ rest) :
    page = [] ∨ after key (next key cursor page) table = rest := by
  cases hlast : page.getLast? with
  | none => exact .inl (List.getLast?_eq_none_iff.1 hlast)
  | some last =>
    right
    have hlt : cursor < key last := by
      have hmem : last ∈ after key cursor table := by
        rw [hpage]
        exact List.mem_append_left _ (List.mem_of_getLast? hlast)
      exact (mem_after.1 hmem).2
    have hnext : next key cursor page = key last := by simp [next, hlast]
    rw [hnext, ← after_after hlt.le, hpage]
    refine Increasing.after_of_append ?_ hlast
    rw [← hpage]
    exact h.after

/-- The rows `read` so far, followed by the rows after the cursor, are all the rows after `start`.
-/
structure Reading (key : α → κ) (start : κ) (table : List α) (cursor : κ) (read : List α) :
    Prop where
  increasing : Increasing key table
  exact : read ++ after key cursor table = after key start table
  place : cursor = start ∨ ∃ r ∈ table, key r = cursor ∧ start < cursor

section Reading

variable {start : κ} {read : List α}

theorem reading_start (h : Increasing key table) :
    Reading key start table start [] := ⟨h, rfl, .inl rfl⟩

theorem Reading.grow (h : Reading key start table cursor read) {new : List α}
    (hnew : Increasing key (table ++ new)) : Reading key start (table ++ new) cursor read where
  increasing := hnew
  exact := by
    rw [after_append, after_append, ← List.append_assoc, h.exact]
    rcases h.place with rfl | ⟨r, hr, rfl, hlt⟩
    · rfl
    · -- the new rows come after the row at the cursor
      rw [Increasing, List.pairwise_append] at hnew
      have hall : ∀ c ≤ key r, after key c new = new := by
        intro c hc
        rw [after, List.filter_eq_self]
        exact fun s hs => decide_eq_true (hc.trans_lt (hnew.2.2 r hr s hs))
      rw [hall (key r) le_rfl, hall start hlt.le]
  place := h.place.imp_right fun ⟨r, hr, hcursor⟩ => ⟨r, List.mem_append_left _ hr, hcursor⟩

theorem Reading.turn (h : Reading key start table cursor read)
    (hpage : after key cursor table = page ++ rest) :
    Reading key start table (next key cursor page) (read ++ page) := by
  rcases after_next h.increasing hpage with rfl | hrest
  · simpa [next] using h
  · refine ⟨h.increasing, ?_, ?_⟩
    · rw [hrest, List.append_assoc, ← hpage, h.exact]
    · cases hlast : page.getLast? with
      | none => simpa [next, hlast] using h.place
      | some last =>
        have hmem : last ∈ after key cursor table := by
          rw [hpage]
          exact List.mem_append_left _ (List.mem_of_getLast? hlast)
        obtain ⟨htable, hlt⟩ := mem_after.1 hmem
        have hnext : next key cursor page = key last := by simp [next, hlast]
        refine .inr ⟨last, htable, hnext.symm, ?_⟩
        rw [hnext]
        rcases h.place with rfl | ⟨r, -, -, hstart⟩
        · exact hlt
        · exact hstart.trans hlt

theorem Reading.le_cursor (h : Reading key start table cursor read) : start ≤ cursor := by
  rcases h.place with rfl | ⟨-, -, -, hlt⟩
  · exact le_rfl
  · exact hlt.le

theorem Reading.read_eq (h : Reading key start table cursor read) :
    read = table.filter fun r => start < key r ∧ key r ≤ cursor := by
  have hexact := h.exact
  have hinc : Increasing key (after key start table) := h.increasing.after
  rw [← hexact, Increasing, List.pairwise_append] at hinc
  -- the rows up to the cursor, taken from both sides of `exact`
  have hread : read.filter (fun r => key r ≤ cursor) = read := by
    rw [List.filter_eq_self]
    intro r hr
    have hmem : r ∈ after key start table := hexact ▸ List.mem_append_left _ hr
    rcases h.place with rfl | ⟨s, hs, rfl, hlt⟩
    · -- nothing was read yet
      have hlen := congrArg List.length hexact
      rw [List.length_append] at hlen
      have hnil : read = [] := List.length_eq_zero_iff.1 (by omega)
      rw [hnil] at hr
      exact absurd hr List.not_mem_nil
    · by_contra hgt
      have hgt : key s < key r := by simpa using hgt
      have hlate : r ∈ after key (key s) table := mem_after.2 ⟨(mem_after.1 hmem).1, hgt⟩
      exact lt_irrefl _ (hinc.2.2 r hr r hlate)
  have hrest : (after key cursor table).filter (fun r => key r ≤ cursor) = [] := by
    rw [List.filter_eq_nil_iff]
    intro r hr
    simpa using (mem_after.1 hr).2
  calc read = (read ++ after key cursor table).filter fun r => key r ≤ cursor := by
        rw [List.filter_append, hread, hrest, List.append_nil]
    _ = table.filter fun r => start < key r ∧ key r ≤ cursor := by
        rw [hexact, after, List.filter_filter]
        refine List.filter_congr fun r _ => ?_
        simp [and_comm]

end Reading

def ahead (key : α → κ) (cursor bound : κ) (table : List α) : ℕ :=
  (after key cursor table).countP fun r => key r ≤ bound

section Progress

variable {bound : κ}

theorem ahead_append {new : List α} (hnew : ∀ r ∈ new, bound < key r) :
    ahead key cursor bound (table ++ new) = ahead key cursor bound table := by
  have hnone : (after key cursor new).countP (fun r => key r ≤ bound) = 0 := by
    rw [List.countP_eq_zero]
    intro r hr
    simpa using hnew r (mem_after.1 hr).1
  rw [ahead, after_append, List.countP_append, hnone, Nat.add_zero, ahead]

theorem ahead_next (h : Increasing key table) (hpage : after key cursor table = page ++ rest)
    (hne : page ≠ []) :
    ahead key (next key cursor page) bound table ≤ ahead key cursor bound table - 1 := by
  have hrest : after key (next key cursor page) table = rest :=
    (after_next h hpage).resolve_left hne
  obtain ⟨first, others, rfl⟩ := List.exists_cons_of_ne_nil hne
  rw [ahead, ahead, hrest, hpage, List.countP_append]
  by_cases hfirst : key first ≤ bound
  · rw [List.countP_cons_of_pos (by simpa using hfirst)]
    omega
  · -- the first row lies beyond the bound, so all do
    have hinc : Increasing key (first :: others ++ rest) := hpage ▸ h.after
    rw [Increasing, List.cons_append, List.pairwise_cons] at hinc
    have hbeyond : ∀ r ∈ rest, ¬ key r ≤ bound := fun r hr hle =>
      hfirst ((hinc.1 r (List.mem_append_right _ hr)).le.trans hle)
    have hzero : rest.countP (fun r => key r ≤ bound) = 0 := by
      rw [List.countP_eq_zero]
      exact fun r hr => by simpa using hbeyond r hr
    omega

theorem Reading.mem_of_ahead_eq_zero {start : κ} {read : List α}
    (h : Reading key start table cursor read) {r : α} (hr : r ∈ table) (hstart : start < key r)
    (hahead : ahead key cursor (key r) table = 0) : r ∈ read := by
  have hmem : r ∈ read ++ after key cursor table := by
    rw [h.exact]
    exact mem_after.2 ⟨hr, hstart⟩
  rcases List.mem_append.1 hmem with hread | hlate
  · exact hread
  · rw [ahead, List.countP_eq_zero] at hahead
    exact absurd (hahead r hlate) (by simp)

end Progress

end Paging
