/-
**The standard-library primitives the program is written with.**

Texts are checked byte- and character-wise, times are `chrono`'s `DateTime<Utc>` with its bounded
range, counters saturate.  Here and in every later module, a definition that embeds a function of
the source has the function's own name, in Lean's case.
-/

import Mathlib.Data.Int.Order.Basic
import Mathlib.Data.String.Basic
import Mathlib.Order.Lattice
import Mathlib.Tactic.Linarith

namespace CodexMarathon

def isControl (c : Char) : Bool :=
  c.toNat < 0x20 || (0x7f ≤ c.toNat && c.toNat < 0xa0)

/-- `char::is_whitespace`: the Unicode property `White_Space`. -/
def isWhitespace (c : Char) : Bool :=
  let n := c.toNat
  (0x9 ≤ n && n ≤ 0xd) || n = 0x20 || n = 0x85 || n = 0xa0 || n = 0x1680
    || (0x2000 ≤ n && n ≤ 0x200a) || n = 0x2028 || n = 0x2029 || n = 0x202f || n = 0x205f
    || n = 0x3000

def trim (s : String) : String :=
  String.ofList ((s.toList.dropWhile isWhitespace).reverse.dropWhile isWhitespace).reverse

def isBlank (s : String) : Bool := (trim s).isEmpty

/-- `validate_identifier`: nonempty, at most `maxBytes` bytes, no control character. -/
def validateIdentifier (value : String) (maxBytes : ℕ) : Bool :=
  !(value.isEmpty || maxBytes < value.utf8ByteSize || value.toList.any isControl)

def i64Max : ℤ := 9223372036854775807

def i64Min : ℤ := -9223372036854775808

def saturatingAdd (a b : ℤ) : ℤ := max i64Min (min i64Max (a + b))

def saturatingSub (a b : ℤ) : ℤ := max i64Min (min i64Max (a - b))

theorem saturatingAdd_one_of_nonneg {a : ℤ} (ha : 0 ≤ a) :
    saturatingAdd a 1 = min i64Max (a + 1) := by
  unfold saturatingAdd
  refine max_eq_right (le_min ?_ ?_) <;> simp only [i64Min, i64Max] <;> omega

theorem saturatingAdd_one_pos {a : ℤ} (ha : 0 ≤ a) : 0 < saturatingAdd a 1 := by
  rw [saturatingAdd_one_of_nonneg ha]
  exact lt_min (by decide) (by omega)

/-! ### Instants -/

def minSecs : ℤ := -8334601228800

def maxSecs : ℤ := 8210266876799

/-- `DateTime<Utc>`: seconds since the epoch and a fraction, which reaches two seconds inside a leap
second. -/
structure DateTime where
  secs : ℤ
  nanos : ℕ
  minSecs_le : minSecs ≤ secs
  le_maxSecs : secs ≤ maxSecs
  nanos_lt : nanos < 2000000000
deriving DecidableEq

namespace DateTime

instance : LT DateTime :=
  ⟨fun a b => a.secs < b.secs ∨ (a.secs = b.secs ∧ a.nanos < b.nanos)⟩

instance : DecidableRel (α := DateTime) (· < ·) := fun a b =>
  inferInstanceAs (Decidable (a.secs < b.secs ∨ (a.secs = b.secs ∧ a.nanos < b.nanos)))

/-- `timestamp_millis`: the fraction is cut off, not rounded. -/
def timestampMillis (t : DateTime) : ℤ := t.secs * 1000 + (t.nanos / 1000000 : ℕ)

/-- `DateTime::from_timestamp_millis`: `None` outside the range. -/
def fromTimestampMillis (ms : ℤ) : Option DateTime :=
  if h : minSecs ≤ ms / 1000 ∧ ms / 1000 ≤ maxSecs then
    some { secs := ms / 1000
           nanos := (ms % 1000).toNat * 1000000
           minSecs_le := h.1
           le_maxSecs := h.2
           nanos_lt := by omega }
  else none

theorem timestampMillis_bounds (t : DateTime) :
    -8334601228800000 ≤ t.timestampMillis ∧ t.timestampMillis ≤ 8210266876800999 := by
  have h₁ := t.minSecs_le
  have h₂ := t.le_maxSecs
  have h₃ := t.nanos_lt
  simp only [minSecs, maxSecs] at h₁ h₂
  unfold timestampMillis
  omega

theorem timestampMillis_fromTimestampMillis {ms : ℤ} {t : DateTime}
    (h : fromTimestampMillis ms = some t) : t.timestampMillis = ms := by
  unfold fromTimestampMillis at h
  split at h
  · cases h
    simp only [timestampMillis]
    omega
  · cases h

theorem saturatingAdd_timestampMillis (t : DateTime) {d : ℤ} (h₀ : 0 ≤ d) (h₁ : d ≤ 1000000) :
    saturatingAdd t.timestampMillis d = t.timestampMillis + d := by
  have h := t.timestampMillis_bounds
  unfold saturatingAdd
  rw [min_eq_right (by simp only [i64Max]; omega), max_eq_right (by simp only [i64Min]; omega)]

theorem saturatingSub_timestampMillis (t : DateTime) {d : ℤ} (h₀ : 0 ≤ d) (h₁ : d ≤ 1000000) :
    saturatingSub t.timestampMillis d = t.timestampMillis - d := by
  have h := t.timestampMillis_bounds
  unfold saturatingSub
  rw [min_eq_right (by simp only [i64Max]; omega), max_eq_right (by simp only [i64Min]; omega)]

theorem lt_of_fromTimestampMillis {ms : ℤ} {t now : DateTime} (h : fromTimestampMillis ms = some t)
    (hms : now.timestampMillis < ms) : now < t := by
  unfold fromTimestampMillis at h
  split at h
  · cases h
    change now.secs < ms / 1000 ∨ now.secs = ms / 1000 ∧ now.nanos < (ms % 1000).toNat * 1000000
    unfold timestampMillis at hms
    omega
  · cases h

theorem not_lt_of_fromTimestampMillis {ms : ℤ} {t now : DateTime}
    (h : fromTimestampMillis ms = some t) (hms : ms ≤ now.timestampMillis)
    (hnanos : now.nanos < 1000000000) : ¬ now < t := by
  unfold fromTimestampMillis at h
  split at h
  · cases h
    change ¬ (now.secs < ms / 1000 ∨ now.secs = ms / 1000 ∧ now.nanos < (ms % 1000).toNat * 1000000)
    unfold timestampMillis at hms
    omega
  · cases h

/-- A leap second is left; `none` stands for the panic of `chrono` beyond its range. -/
def addSecs (t : DateTime) (d : ℕ) : Option DateTime :=
  if h : t.secs + d ≤ maxSecs then
    some { secs := t.secs + d
           nanos := if 1000000000 ≤ t.nanos then t.nanos - 1000000000 else t.nanos
           minSecs_le := t.minSecs_le.trans (by omega)
           le_maxSecs := h
           nanos_lt := by have := t.nanos_lt; split <;> omega }
  else none

def isZero (t : DateTime) : Bool := t.secs = 0 && t.nanos = 0

def ofSecs (secs : ℤ) (hlo : minSecs ≤ secs) (hhi : secs ≤ maxSecs) : DateTime :=
  ⟨secs, 0, hlo, hhi, by decide⟩

def epoch : DateTime := .ofSecs 0 (by decide) (by decide)

def sample : DateTime := .ofSecs 1700000000 (by decide) (by decide)

end DateTime

/-! ### Fresh identifiers -/

/-- The values `Uuid::new_v4` returns; that none repeats is what the program assumes. -/
structure UuidSource where
  v4 : ℕ → String
  injective : Function.Injective v4

namespace UuidSource

def bits : ℕ → ℕ → List Bool
  | 0, _ => []
  | fuel + 1, n => if n = 0 then [] else (n % 2 = 1) :: bits fuel (n / 2)

def ofBits : List Bool → ℕ
  | [] => 0
  | b :: bs => b.toNat + 2 * ofBits bs

theorem ofBits_bits {fuel n : ℕ} (h : n ≤ fuel) : ofBits (bits fuel n) = n := by
  induction fuel generalizing n with
  | zero =>
    obtain rfl : n = 0 := by omega
    rfl
  | succ fuel ih =>
    unfold bits
    split
    · simp [ofBits, *]
    · rw [ofBits, ih (by omega)]
      have hbit : (decide (n % 2 = 1)).toNat = n % 2 := by
        rcases Nat.mod_two_eq_zero_or_one n with h | h <;> simp [h]
      omega

theorem length_bits_le {fuel n k : ℕ} (h : n < 2 ^ k) : (bits fuel n).length ≤ k := by
  induction fuel generalizing n k with
  | zero => simp [bits]
  | succ fuel ih =>
    unfold bits
    split
    · simp
    · cases k with
      | zero => omega
      | succ k =>
        have : n / 2 < 2 ^ k := by rw [pow_succ] at h; omega
        simpa using ih this

def bitChar (b : Bool) : Char := if b then '1' else '0'

theorem bitChar_injective : Function.Injective bitChar := by
  rintro (_ | _) (_ | _) h
  all_goals first | rfl | exact absurd h (by decide)

def binary : UuidSource where
  v4 n := String.ofList ('u' :: (bits n n).map bitChar)
  injective := by
    intro m n h
    have hbits : bits m m = bits n n := by
      have h := List.cons_injective (String.ofList_injective h)
      exact bitChar_injective.list_map h
    rw [← ofBits_bits (le_refl m), hbits, ofBits_bits (le_refl n)]

theorem utf8Len_map_bitChar (bs : List Bool) : String.utf8Len (bs.map bitChar) = bs.length := by
  induction bs with
  | nil => rfl
  | cons b bs ih =>
    have hb : (bitChar b).utf8Size = 1 := by cases b <;> rfl
    simp [ih, hb]

theorem validateIdentifier_binary {n : ℕ} (h : n < 2 ^ 255) :
    validateIdentifier (binary.v4 n) 256 = true := by
  have hsize : (binary.v4 n).utf8ByteSize = (bits n n).length + 1 := by
    rw [binary, String.utf8ByteSize_ofList, String.utf8Len_cons, utf8Len_map_bitChar]
    rfl
  have hlen : (bits n n).length ≤ 255 := length_bits_le h
  have hchars : ∀ c ∈ (binary.v4 n).toList, isControl c = false := by
    simp only [binary, String.toList_ofList, List.forall_mem_cons, List.forall_mem_map]
    exact ⟨by decide, fun b _ => by cases b <;> decide⟩
  have hne : (binary.v4 n).isEmpty = false := by
    simp [binary]
  have hctrl : (binary.v4 n).toList.any isControl = false := by
    simpa [List.any_eq_false] using hchars
  simp only [validateIdentifier, hne, hctrl, hsize]
  simp only [Bool.false_or, Bool.or_false, Bool.not_eq_true', decide_eq_false_iff_not]
  omega

end UuidSource

end CodexMarathon
