/-
**Texts as bytes.**

A program that slices a text at byte positions sees its UTF-8 encoding.  A slice is only defined
where both ends are boundaries of characters.
-/

import Mathlib.Data.List.Basic
import Mathlib.Data.Nat.Init

namespace Utf8

def encode (cs : List Char) : List UInt8 := cs.flatMap String.utf8EncodeChar

def isContinuation (b : UInt8) : Bool := 128 ≤ b.toNat && b.toNat < 192

/-- Whether a text can be cut before the byte `i`. -/
def isCharBoundary (bytes : List UInt8) (i : ℕ) : Bool :=
  i = 0 ||
    match bytes[i]? with
    | none => i = bytes.length
    | some b => !isContinuation b

/-- The bytes from `a` to `b`, if the text can be cut at both. -/
def slice (bytes : List UInt8) (a b : ℕ) : Option (List UInt8) :=
  if a ≤ b ∧ isCharBoundary bytes a = true ∧ isCharBoundary bytes b = true then
    some ((bytes.take b).drop a)
  else none

variable {cs : List Char} {b : UInt8} {i : ℕ}

@[simp] theorem encode_nil : encode [] = [] := rfl

@[simp] theorem encode_cons (c : Char) (cs : List Char) :
    encode (c :: cs) = String.utf8EncodeChar c ++ encode cs := rfl

@[simp] theorem encode_append (cs cs' : List Char) : encode (cs ++ cs') = encode cs ++ encode cs' :=
  List.flatMap_append

theorem length_encode_reverse (cs : List Char) : (encode cs.reverse).length = (encode cs).length := by
  rw [encode, encode, List.length_flatMap, List.length_flatMap, List.map_reverse, List.sum_reverse]

theorem encode_injective {cs cs' : List Char} (h : encode cs = encode cs') : cs = cs' := by
  have hbytes : (String.ofList cs).toByteArray = (String.ofList cs').toByteArray := by
    rw [String.toByteArray_ofList, String.toByteArray_ofList]
    exact congrArg List.toByteArray h
  rw [← String.toList_ofList (l := cs), String.toByteArray_inj.1 hbytes, String.toList_ofList]

theorem utf8ByteSize_ofList (cs : List Char) :
    (String.ofList cs).utf8ByteSize = (encode cs).length := by
  rw [← String.size_toByteArray, String.toByteArray_ofList]
  exact List.size_toByteArray

theorem isContinuation_ofNat (n : ℕ) : isContinuation (UInt8.ofNat (n % 64 + 128)) = true := by
  have hn : (UInt8.ofNat (n % 64 + 128)).toNat = n % 64 + 128 := by
    rw [UInt8.toNat_ofNat']
    omega
  simp only [isContinuation, hn, Bool.and_eq_true, decide_eq_true_eq]
  omega

theorem le_ofNat {n : ℕ} (h₁ : 192 ≤ n) (h₂ : n < 256) : 192 ≤ (UInt8.ofNat n).toNat := by
  rw [UInt8.toNat_ofNat']
  omega

theorem encodeChar_cases (c : Char) :
    (c.toNat < 128 ∧ String.utf8EncodeChar c = [UInt8.ofNat c.toNat]) ∨
      (128 ≤ c.toNat ∧ ∃ b bs, String.utf8EncodeChar c = b :: bs ∧ 192 ≤ b.toNat ∧
        ∀ x ∈ bs, isContinuation x = true) := by
  by_cases h₁ : c.val.toNat ≤ 127
  · refine .inl ⟨Nat.lt_succ_of_le h₁, ?_⟩
    simp only [String.utf8EncodeChar, h₁, if_true]
    rfl
  refine .inr ⟨Nat.succ_le_of_lt (Nat.not_le.1 h₁), ?_⟩
  by_cases h₂ : c.val.toNat ≤ 2047
  · refine ⟨_, _, by simp only [String.utf8EncodeChar, h₁, h₂, if_true, if_false]; rfl,
      le_ofNat (by omega) (by omega), ?_⟩
    rintro x (_ | ⟨_, ⟨⟩⟩)
    exact isContinuation_ofNat _
  by_cases h₃ : c.val.toNat ≤ 65535
  · refine ⟨_, _, by simp only [String.utf8EncodeChar, h₁, h₂, h₃, if_true, if_false]; rfl,
      le_ofNat (by omega) (by omega), ?_⟩
    rintro x (_ | ⟨_, _ | ⟨_, ⟨⟩⟩⟩) <;> exact isContinuation_ofNat _
  · refine ⟨_, _, by simp only [String.utf8EncodeChar, h₁, h₂, h₃, if_false]; rfl,
      le_ofNat (by omega) (by omega), ?_⟩
    rintro x (_ | ⟨_, _ | ⟨_, _ | ⟨_, ⟨⟩⟩⟩⟩) <;> exact isContinuation_ofNat _

theorem encode_of_ascii (h : ∀ c ∈ cs, c.toNat < 128) :
    encode cs = cs.map fun c => UInt8.ofNat c.toNat := by
  induction cs with
  | nil => rfl
  | cons c cs ih =>
    obtain ⟨hc, hcs⟩ := List.forall_mem_cons.1 h
    obtain ⟨-, hencode⟩ | ⟨hlarge, -⟩ := encodeChar_cases c
    · rw [encode_cons, hencode, ih hcs]
      rfl
    · omega

theorem ascii_of_encode (h : ∀ b ∈ encode cs, b.toNat < 128) : ∀ c ∈ cs, c.toNat < 128 := by
  intro c hc
  obtain ⟨hsmall, -⟩ | ⟨-, b, bs, hencode, hb, -⟩ := encodeChar_cases c
  · exact hsmall
  · have hmem : b ∈ encode cs := List.mem_flatMap.2 ⟨c, hc, by simp [hencode]⟩
    have := h b hmem
    omega

theorem not_isContinuation_head (h : (encode cs)[0]? = some b) : isContinuation b = false := by
  cases cs with
  | nil => cases h
  | cons c cs =>
    obtain ⟨hc, hencode⟩ | ⟨-, b', bs, hencode, hb', -⟩ := encodeChar_cases c
    · rw [encode_cons, hencode] at h
      cases h
      simp only [isContinuation, UInt8.toNat_ofNat', Bool.and_eq_false_iff, decide_eq_false_iff_not]
      omega
    · rw [encode_cons, hencode] at h
      cases h
      simp only [isContinuation, Bool.and_eq_false_iff, decide_eq_false_iff_not]
      omega

theorem isCharBoundary_of_get {bytes : List UInt8} (h : bytes[i]? = some b)
    (hb : isContinuation b = false) : isCharBoundary bytes i = true := by
  simp [isCharBoundary, h, hb]

theorem isCharBoundary_length (bytes : List UInt8) : isCharBoundary bytes bytes.length = true := by
  simp [isCharBoundary]

theorem isCharBoundary_succ (h : (encode cs)[i]? = some b) (hb : b.toNat < 128) :
    isCharBoundary (encode cs) (i + 1) = true := by
  have hnext : ∀ b', (encode cs)[i + 1]? = some b' → isContinuation b' = false := by
    induction cs generalizing i with
    | nil => cases h
    | cons c cs ih =>
      intro b' hb'
      obtain ⟨hc, hencode⟩ | ⟨-, first, bs, hencode, hfirst, hbs⟩ := encodeChar_cases c
      · rw [encode_cons, hencode, List.singleton_append] at h hb'
        rw [List.getElem?_cons_succ] at hb'
        cases i with
        | zero => exact not_isContinuation_head hb'
        | succ i => exact ih (by simpa using h) b' hb'
      · -- an ASCII byte is none of those of a longer character
        rw [encode_cons, hencode] at h hb'
        have hlength : (first :: bs).length ≤ i := by
          by_contra hlt
          rw [List.getElem?_append_left (by omega)] at h
          rcases List.mem_cons.1 (List.mem_of_getElem? h) with rfl | hmem
          · omega
          · have := hbs b hmem
            simp only [isContinuation, Bool.and_eq_true, decide_eq_true_eq] at this
            omega
        rw [List.getElem?_append_right hlength] at h
        rw [List.getElem?_append_right (by omega),
          show i + 1 - (first :: bs).length = i - (first :: bs).length + 1 by omega] at hb'
        exact ih h b' hb'
  cases hget : (encode cs)[i + 1]? with
  | some b' => exact isCharBoundary_of_get hget (hnext b' hget)
  | none =>
    have hi : i < (encode cs).length := (List.getElem?_eq_some_iff.1 h).1
    have hend := List.getElem?_eq_none_iff.1 hget
    rw [show i + 1 = (encode cs).length by omega]
    exact isCharBoundary_length _

theorem isCharBoundary_append (cs cs' : List Char) :
    isCharBoundary (encode (cs ++ cs')) (encode cs).length = true := by
  rw [encode_append]
  cases hget : (encode cs')[0]? with
  | none =>
    rw [List.getElem?_eq_none_iff, Nat.le_zero, List.length_eq_zero_iff] at hget
    rw [hget, List.append_nil]
    exact isCharBoundary_length _
  | some b =>
    refine isCharBoundary_of_get (b := b) ?_ (not_isContinuation_head hget)
    rw [List.getElem?_append_right (Nat.le_refl _), Nat.sub_self, hget]

def charIndices (i : ℕ) : List Char → List (ℕ × Char)
  | [] => []
  | c :: cs => (i, c) :: charIndices (i + (String.utf8EncodeChar c).length) cs

def takeBytes (k : ℕ) : List Char → List Char
  | [] => []
  | c :: cs =>
    if (String.utf8EncodeChar c).length ≤ k then
      c :: takeBytes (k - (String.utf8EncodeChar c).length) cs
    else []

/-- `&text[..k]`: the text before the byte `k`, if it can be cut there. -/
def sliceTo (cs : List Char) (k : ℕ) : Option (List Char) :=
  if isCharBoundary (encode cs) k = true then some (takeBytes k cs) else none

theorem charIndices_concat (i : ℕ) (cs : List Char) (c : Char) :
    charIndices i (cs ++ [c]) = charIndices i cs ++ [(i + (encode cs).length, c)] := by
  induction cs generalizing i with
  | nil => rfl
  | cons d cs ih =>
    rw [List.cons_append, charIndices, ih, charIndices, List.cons_append, encode_cons,
      List.length_append, Nat.add_assoc]

theorem takeBytes_append (cs cs' : List Char) : takeBytes (encode cs).length (cs ++ cs') = cs := by
  induction cs with
  | nil =>
    cases cs' with
    | nil => rfl
    | cons c cs' =>
      have hpos : 0 < (String.utf8EncodeChar c).length := by
        rw [String.length_utf8EncodeChar]
        exact c.utf8Size_pos
      exact if_neg (Nat.not_le.2 hpos)
  | cons c cs ih =>
    rw [encode_cons, List.length_append, List.cons_append, takeBytes,
      if_pos (Nat.le_add_right _ _), Nat.add_sub_cancel_left, ih]

theorem sliceTo_lastIndex (cs : List Char) (c : Char) :
    ∃ k, (charIndices 0 (cs ++ [c])).getLast? = some (k, c) ∧ sliceTo (cs ++ [c]) k = some cs := by
  refine ⟨(encode cs).length, ?_, ?_⟩
  · rw [charIndices_concat, List.getLast?_concat, Nat.zero_add]
  · rw [sliceTo, if_pos (isCharBoundary_append cs [c]), takeBytes_append]

end Utf8
