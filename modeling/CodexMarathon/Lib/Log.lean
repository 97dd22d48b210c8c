/-
**Logs.**

A log is a list of entries, oldest first, that is only ever appended to.  Some entries are about an
object: they carry its key.  What a log says of an object depends on the entries about it alone, and
an append changes these for at most the objects that the new entries name.
-/

import Mathlib.Data.List.Basic

namespace Log

variable {ε κ : Type*} [DecidableEq κ] (key : ε → Option κ)

def about (k : κ) (log : List ε) : List ε := log.filter fun e => key e = some k

variable {key} {k : κ} {log : List ε}

@[simp] theorem about_nil : about key k [] = [] := rfl

theorem about_append_of_eq {e : ε} (h : key e = some k) :
    about key k (log ++ [e]) = about key k log ++ [e] := by
  simp [about, h]

theorem about_eq_nil (h : ∀ e ∈ log, key e ≠ some k) : about key k log = [] := by
  rw [about, List.filter_eq_nil_iff]
  intro e he
  simpa using h e he

theorem about_append_of_ne {es : List ε} (h : ∀ e ∈ es, key e ≠ some k) :
    about key k (log ++ es) = about key k log := by
  have hnone : about key k es = [] := about_eq_nil h
  rw [about] at hnone ⊢
  rw [List.filter_append, hnone, List.append_nil, about]

end Log
