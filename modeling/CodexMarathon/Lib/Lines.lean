/-
**The lines of a stream.**

A stream is cut into lines after each delimiter.  A reader that keeps the line it is in the middle
of gets the same lines however the stream arrives.
-/

import Mathlib.Data.Nat.Notation
import Mathlib.Tactic.SplitIfs

namespace Lines

variable {α : Type} [DecidableEq α] {d : α}

/-- The complete lines of a stream that goes on after `line`, and the line that is not complete. -/
def split (d : α) (line : List α) : List α → List (List α) × List α
  | [] => ([], line)
  | b :: bs =>
    if b = d then ((line ++ [b]) :: (split d [] bs).1, (split d [] bs).2)
    else split d (line ++ [b]) bs

def cut (d : α) : List α → Option (List α × List α)
  | [] => none
  | b :: bs => if b = d then some ([b], bs) else (cut d bs).map fun r => (b :: r.1, r.2)

theorem split_append (line xs ys : List α) : split d line (xs ++ ys) =
      ((split d line xs).1 ++ (split d (split d line xs).2 ys).1,
        (split d (split d line xs).2 ys).2) := by
  induction xs generalizing line with
  | nil => rfl
  | cons b bs ih =>
    simp only [List.cons_append, split]
    split_ifs
    · rw [ih, List.cons_append]
    · exact ih _

theorem cut_append (xs ys : List α) : cut d (xs ++ ys) =
      match cut d xs with
      | some (first, rest) => some (first, rest ++ ys)
      | none => (cut d ys).map fun r => (xs ++ r.1, r.2) := by
  induction xs with
  | nil => simp [cut]
  | cons b bs ih =>
    simp only [List.cons_append, cut]
    split_ifs
    · rfl
    · rw [ih]
      cases cut d bs with
      | some r => rfl
      | none => simp [Function.comp_def]

theorem cut_of_not_mem {xs : List α} (h : d ∉ xs) (ys : List α) :
    cut d (xs ++ d :: ys) = some (xs ++ [d], ys) := by
  induction xs with
  | nil => simp [cut]
  | cons b bs ih =>
    rw [List.mem_cons, not_or] at h
    obtain ⟨hb, hbs⟩ := h
    rw [List.cons_append, cut, if_neg (Ne.symm hb), ih hbs]
    rfl

variable {xs first rest : List α}

theorem pos_of_cut (h : cut d xs = some (first, rest)) : 0 < first.length := by
  cases xs with
  | nil => cases h
  | cons b bs =>
    simp only [cut] at h
    split_ifs at h
    · cases h
      exact Nat.zero_lt_one
    · obtain ⟨r, -, hr⟩ := Option.map_eq_some_iff.1 h
      cases hr
      exact Nat.succ_pos _

theorem getLast?_of_cut (h : cut d xs = some (first, rest)) : first.getLast? = some d := by
  induction xs generalizing first with
  | nil => cases h
  | cons b bs ih =>
    simp only [cut] at h
    split_ifs at h with hb
    · cases h
      rw [hb, List.getLast?_singleton]
    · obtain ⟨r, hr, heq⟩ := Option.map_eq_some_iff.1 h
      cases heq
      simp [List.getLast?_cons, ih hr]

theorem not_mem_of_cut_eq_none {xs : List α} (h : cut d xs = none) : d ∉ xs := by
  induction xs with
  | nil => exact List.not_mem_nil
  | cons b bs ih =>
    simp only [cut] at h
    split_ifs at h with hb
    rw [List.mem_cons, not_or]
    exact ⟨Ne.symm hb, ih (Option.map_eq_none_iff.1 h)⟩

theorem length_of_cut (h : cut d xs = some (first, rest)) : rest.length < xs.length := by
  induction xs generalizing first with
  | nil => cases h
  | cons b bs ih =>
    simp only [cut] at h
    split_ifs at h
    · cases h
      exact Nat.lt_succ_self _
    · obtain ⟨r, hr, heq⟩ := Option.map_eq_some_iff.1 h
      cases heq
      exact Nat.lt_succ_of_lt (ih hr)

theorem split_of_cut {line xs first rest : List α} (h : cut d xs = some (first, rest)) :
    split d line xs = ((line ++ first) :: (split d [] rest).1, (split d [] rest).2) := by
  induction xs generalizing line first with
  | nil => cases h
  | cons b bs ih =>
    simp only [cut] at h
    simp only [split]
    split_ifs at h ⊢ with hb
    · cases h
      rfl
    · obtain ⟨r, hr, heq⟩ := Option.map_eq_some_iff.1 h
      cases heq
      rw [ih hr, List.append_assoc]
      rfl

theorem split_of_cut_eq_none {line xs : List α} (h : cut d xs = none) :
    split d line xs = ([], line ++ xs) := by
  induction xs generalizing line with
  | nil => simp [split]
  | cons b bs ih =>
    simp only [cut] at h
    simp only [split]
    split_ifs at h ⊢
    rw [ih (Option.map_eq_none_iff.1 h), List.append_assoc]
    rfl

def parts (d : α) (xs : List α) : List (List α) :=
  (split d [] xs).1 ++ if (split d [] xs).2 = [] then [] else [(split d [] xs).2]

theorem parts_of_cut (h : cut d xs = some (first, rest)) : parts d xs = first :: parts d rest := by
  simp [parts, split_of_cut h]

theorem parts_of_cut_eq_none {xs : List α} (h : cut d xs = none) :
    parts d xs = if xs = [] then [] else [xs] := by
  simp [parts, split_of_cut_eq_none h]

/-- Goes on with `line` up to the first delimiter or the end, and not beyond `bound` elements; the
delimiter counts as `counted` of them. A chunk that is too long is not consumed. -/
def fill (d : α) (counted bound : ℕ) (line : List α) :
    List (List α) → Except (List (List α)) (List α × Bool × List (List α))
  | [] => .ok (line, false, [])
  | available :: chunks =>
    if available = [] then .ok (line, false, available :: chunks)
    else
      match cut d available with
      | some (first, rest) =>
        if bound < line.length + (first.length - 1 + counted) then .error (available :: chunks)
        else .ok (line ++ first, true, if rest = [] then chunks else rest :: chunks)
      | none =>
        if bound < line.length + available.length then .error (available :: chunks)
        else fill d counted bound (line ++ available) chunks

section Fill

variable (counted bound : ℕ) {chunks : List (List α)}

theorem fill_of_cut {first rest : List α} (hchunks : [] ∉ chunks)
    (hcut : cut d chunks.flatten = some (first, rest)) (line : List α) :
    if bound < line.length + (first.length - 1 + counted) then
      ∃ left, fill d counted bound line chunks = .error left else
      ∃ left, fill d counted bound line chunks = .ok (line ++ first, true, left) ∧
        left.flatten = rest ∧ [] ∉ left := by
  induction chunks generalizing line first with
  | nil => cases hcut
  | cons available chunks ih =>
    rw [List.mem_cons, not_or] at hchunks
    obtain ⟨havail, hchunks⟩ := hchunks
    rw [List.flatten_cons, cut_append] at hcut
    rw [fill, if_neg (Ne.symm havail)]
    cases hfirst : cut d available with
    | some r =>
      obtain ⟨first', rest'⟩ := r
      rw [hfirst] at hcut
      cases hcut
      simp only
      split_ifs with hlong hrest
      · exact ⟨_, rfl⟩
      · exact ⟨_, rfl, by rw [hrest, List.nil_append], hchunks⟩
      · exact ⟨_, rfl, rfl, by simp [hchunks, Ne.symm hrest]⟩
    | none =>
      rw [hfirst] at hcut
      obtain ⟨⟨more, after⟩, hmore, heq⟩ := Option.map_eq_some_iff.1 hcut
      cases heq
      -- the delimiter is in a later chunk, so all of this one belongs to the line
      have hpos := pos_of_cut hmore
      have hnext := ih hchunks hmore (line ++ available)
      simp only [List.length_append, List.append_assoc] at hnext ⊢
      split_ifs at hnext ⊢
      all_goals first | exact ⟨_, rfl⟩ | exact hnext | omega

theorem fill_of_cut_eq_none (hchunks : [] ∉ chunks) (hcut : cut d chunks.flatten = none)
    (line : List α) (hline : line.length ≤ bound) :
    if bound < line.length + chunks.flatten.length then
      ∃ left, fill d counted bound line chunks = .error left
    else fill d counted bound line chunks = .ok (line ++ chunks.flatten, false, []) := by
  induction chunks generalizing line with
  | nil => simp [fill, Nat.not_lt.2 hline]
  | cons available chunks ih =>
    rw [List.mem_cons, not_or] at hchunks
    obtain ⟨havail, hchunks⟩ := hchunks
    rw [List.flatten_cons, cut_append] at hcut
    rw [fill, if_neg (Ne.symm havail)]
    cases hfirst : cut d available with
    | some r =>
      rw [hfirst] at hcut
      cases hcut
    | none =>
      rw [hfirst] at hcut
      have hnext := ih hchunks (Option.map_eq_none_iff.1 hcut) (line ++ available)
      simp only [List.flatten_cons, List.length_append, List.append_assoc] at hnext ⊢
      by_cases hlong : bound < line.length + available.length
      · rw [if_pos (by omega), if_pos hlong]
        exact ⟨_, rfl⟩
      · rw [if_neg hlong, ← Nat.add_assoc]
        exact hnext (by omega)

end Fill

section Calls

variable {ε β S : Type}

def calls (read : S → Except ε (Option β) × S) : ℕ → S → List (Except ε β)
  | 0, _ => []
  | n + 1, s =>
    match read s with
    | (.error e, _) => [.error e]
    | (.ok none, _) => []
    | (.ok (some b), s') => .ok b :: calls read n s'

def untilError : List (Except ε β) → List (Except ε β)
  | [] => []
  | .ok b :: rs => .ok b :: untilError rs
  | .error e :: _ => [.error e]

def Next (results : S → List (Except ε β)) (P : S → Prop) (s : S) (r : Except ε (Option β) × S) :
    Prop :=
  match results s with
  | [] => r.1 = .ok none
  | .error e :: _ => r.1 = .error e
  | .ok b :: rs => r.1 = .ok (some b) ∧ results r.2 = rs ∧ P r.2

theorem calls_eq_untilError {read : S → Except ε (Option β) × S} {results : S → List (Except ε β)}
    {P : S → Prop} (hread : ∀ s, P s → Next results P s (read s)) {n : ℕ} {s : S} (hs : P s)
    (hn : (results s).length < n) : calls read n s = untilError (results s) := by
  induction n generalizing s with
  | zero => omega
  | succ n ih =>
    have hnext := hread s hs
    unfold Next at hnext
    rw [calls]
    rcases hr : read s with ⟨r, s'⟩
    rw [hr] at hnext
    cases hres : results s with
    | nil =>
      rw [hres] at hnext
      cases hnext
      rfl
    | cons x rs =>
      rw [hres] at hnext hn
      cases x with
      | error e =>
        cases hnext
        rfl
      | ok b =>
        obtain ⟨rfl, hrs, hs'⟩ := hnext
        rw [List.length_cons] at hn
        simp only [untilError, ih hs' (by rw [hrs]; omega), hrs]

end Calls

end Lines
