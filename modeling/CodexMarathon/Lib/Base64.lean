/-
**Base64.**

Three bytes are written as four digits of six bits each; one or two bytes that are left over are
padded.  The decoder takes exactly what the encoder writes: the padding has to be there, and the bits
that it stands for have to be zero.
-/

import CodexMarathon.Lib.Utf8

namespace Base64

def alphabet : List Char :=
  "ABCDEFGHIJKLMNOPQRSTUVWXYZabcdefghijklmnopqrstuvwxyz0123456789+/".toList

def digit (n : ℕ) : Char := alphabet.getD n '='

def value (c : Char) : Option ℕ := alphabet.idxOf? c

theorem value_digit {n : ℕ} (h : n < 64) : value (digit n) = some n := by
  have hall : ∀ n < 64, value (digit n) = some n := by decide +kernel
  exact hall n h

theorem digit_ne_pad {n : ℕ} (h : n < 64) : digit n ≠ '=' := by
  intro heq
  have hvalue := value_digit h
  rw [heq, show value '=' = none by decide] at hvalue
  cases hvalue

theorem digit_ascii (n : ℕ) : (digit n).toNat < 128 := by
  have hall : ('=' :: alphabet).Forall fun c => c.toNat < 128 := by decide
  refine List.forall_iff_forall_mem.1 hall _ ?_
  rw [digit, List.getD_eq_getElem?_getD]
  cases h : alphabet[n]? with
  | none => exact List.mem_cons_self
  | some c => exact List.mem_cons_of_mem _ (List.mem_of_getElem? h)

def encodeChars : List UInt8 → List Char
  | [] => []
  | [a] => [digit (a.toNat / 4), digit (a.toNat % 4 * 16), '=', '=']
  | [a, b] =>
    [digit (a.toNat / 4), digit (a.toNat % 4 * 16 + b.toNat / 16), digit (b.toNat % 16 * 4), '=']
  | a :: b :: c :: rest =>
    digit (a.toNat / 4) :: digit (a.toNat % 4 * 16 + b.toNat / 16) ::
      digit (b.toNat % 16 * 4 + c.toNat / 64) :: digit (c.toNat % 64) :: encodeChars rest

def decodePadded (a b c : Char) : Option (List UInt8) := do
  let x ← value a
  let y ← value b
  if c = '=' then
    if y % 16 = 0 then some [UInt8.ofNat (x * 4 + y / 16)] else none
  else
    let z ← value c
    if z % 4 = 0 then some [UInt8.ofNat (x * 4 + y / 16), UInt8.ofNat (y % 16 * 16 + z / 4)]
    else none

def decodeGroup (a b c d : Char) : Option (List UInt8) := do
  let x ← value a
  let y ← value b
  let z ← value c
  let w ← value d
  some [UInt8.ofNat (x * 4 + y / 16), UInt8.ofNat (y % 16 * 16 + z / 4), UInt8.ofNat (z % 4 * 64 + w)]

def decodeChars : List Char → Option (List UInt8)
  | [] => some []
  | a :: b :: c :: d :: rest =>
    if d = '=' then
      if rest = [] then decodePadded a b c else none
    else do
      let bytes ← decodeGroup a b c d
      let others ← decodeChars rest
      some (bytes ++ others)
  | _ => none

def encode (bytes : List UInt8) : String := String.ofList (encodeChars bytes)

def decode (text : String) : Option (List UInt8) := decodeChars text.toList

variable (a b c : UInt8)

theorem ofNat_first : UInt8.ofNat (a.toNat / 4 * 4 + (a.toNat % 4 * 16 + b.toNat / 16) / 16) = a := by
  have hb := b.toNat_lt
  rw [show a.toNat / 4 * 4 + (a.toNat % 4 * 16 + b.toNat / 16) / 16 = a.toNat by omega]
  exact UInt8.ofNat_toNat

theorem ofNat_second : UInt8.ofNat ((a.toNat % 4 * 16 + b.toNat / 16) % 16 * 16 +
    (b.toNat % 16 * 4 + c.toNat / 64) / 4) = b := by
  have hb := b.toNat_lt
  have hc := c.toNat_lt
  rw [show (a.toNat % 4 * 16 + b.toNat / 16) % 16 * 16 + (b.toNat % 16 * 4 + c.toNat / 64) / 4 =
    b.toNat by omega]
  exact UInt8.ofNat_toNat

theorem ofNat_third :
    UInt8.ofNat ((b.toNat % 16 * 4 + c.toNat / 64) % 4 * 64 + c.toNat % 64) = c := by
  have hc := c.toNat_lt
  rw [show (b.toNat % 16 * 4 + c.toNat / 64) % 4 * 64 + c.toNat % 64 = c.toNat by omega]
  exact UInt8.ofNat_toNat

theorem decodePadded_one :
    decodePadded (digit (a.toNat / 4)) (digit (a.toNat % 4 * 16)) '=' = some [a] := by
  have ha := a.toNat_lt
  have hfirst := ofNat_first a 0
  rw [show (0 : UInt8).toNat / 16 = 0 from rfl, Nat.add_zero] at hfirst
  unfold decodePadded
  rw [value_digit (by omega), value_digit (by omega)]
  simp only [Option.bind_eq_bind, Option.bind_some, Nat.mul_mod_left, if_true, hfirst]

theorem decodePadded_two :
    decodePadded (digit (a.toNat / 4)) (digit (a.toNat % 4 * 16 + b.toNat / 16))
      (digit (b.toNat % 16 * 4)) = some [a, b] := by
  have ha := a.toNat_lt
  have hb := b.toNat_lt
  have hsecond := ofNat_second a b 0
  rw [show (0 : UInt8).toNat / 64 = 0 from rfl, Nat.add_zero] at hsecond
  unfold decodePadded
  rw [value_digit (by omega), value_digit (by omega), value_digit (n := b.toNat % 16 * 4) (by omega)]
  simp only [Option.bind_eq_bind, Option.bind_some, Nat.mul_mod_left, if_true, ofNat_first, hsecond,
    if_neg (digit_ne_pad (n := b.toNat % 16 * 4) (by omega))]

theorem decodeGroup_three :
    decodeGroup (digit (a.toNat / 4)) (digit (a.toNat % 4 * 16 + b.toNat / 16))
      (digit (b.toNat % 16 * 4 + c.toNat / 64)) (digit (c.toNat % 64)) = some [a, b, c] := by
  have ha := a.toNat_lt
  have hb := b.toNat_lt
  have hc := c.toNat_lt
  unfold decodeGroup
  rw [value_digit (by omega), value_digit (by omega), value_digit (by omega),
    value_digit (n := c.toNat % 64) (by omega)]
  simp only [Option.bind_eq_bind, Option.bind_some, ofNat_first, ofNat_second, ofNat_third]

theorem decodeChars_encodeChars (bytes : List UInt8) :
    decodeChars (encodeChars bytes) = some bytes := by
  fun_induction encodeChars bytes with
  | case1 => rfl
  | case2 a => exact decodePadded_one a
  | case3 a b => exact decodePadded_two a b
  | case4 a b c rest ih =>
    rw [decodeChars, if_neg (digit_ne_pad (by omega)), decodeGroup_three, ih]
    rfl

theorem decode_encode (bytes : List UInt8) : decode (encode bytes) = some bytes := by
  rw [decode, encode, String.toList_ofList, decodeChars_encodeChars]

theorem length_encodeChars (bytes : List UInt8) :
    (encodeChars bytes).length = (bytes.length + 2) / 3 * 4 := by
  fun_induction encodeChars bytes with
  | case1 => rfl
  | case2 a => simp
  | case3 a b => simp
  | case4 a b c rest ih =>
    simp only [List.length_cons, ih]
    omega

theorem encodeChars_ascii (bytes : List UInt8) : ∀ c ∈ encodeChars bytes, c.toNat < 128 := by
  fun_induction encodeChars bytes with
  | case1 => exact List.forall_mem_nil _
  | case2 a => simp [digit_ascii]
  | case3 a b => simp [digit_ascii]
  | case4 a b c rest ih => simpa [digit_ascii] using ih

theorem utf8ByteSize_encode (bytes : List UInt8) :
    (encode bytes).utf8ByteSize = (bytes.length + 2) / 3 * 4 := by
  rw [encode, Utf8.utf8ByteSize_ofList, Utf8.encode_of_ascii (encodeChars_ascii bytes),
    List.length_map, length_encodeChars]

end Base64
