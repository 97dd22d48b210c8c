/-
**The keys of the vault, byte by byte.**

`generatedRef` and `checkRef` describe keys by their characters.  The code cuts a key at fixed byte
positions, which could fall inside a character and stop the process.  Here both functions are
written as the code evaluates them, and shown to be total and to agree with the characters.
-/

import CodexMarathon.Lib.Utf8
import CodexMarathon.Store.Vault
import Mathlib.Data.List.TakeWhile

namespace CodexMarathon

open Result Utf8

def GeneratedForm (key : String) (digest : HexText 64) : Prop :=
  ∃ nonce : Nonce, key = "cmv1-" ++ nonce.text ++ "-" ++ digest.text

theorem toList_generatedForm (nonce : Nonce) (digest : HexText 64) :
    ("cmv1-" ++ nonce.text ++ "-" ++ digest.text).toList =
      "cmv1-".toList ++ nonce.text.toList ++ ['-'] ++ digest.text.toList := by
  simp [String.toList_append]

theorem generatedRef_of_form {key : String} {digest : HexText 64} (h : GeneratedForm key digest) :
    generatedRef key = true := by
  obtain ⟨nonce, rfl⟩ := h
  have hdash : ("cmv1-".toList ++ nonce.text.toList ++ ['-'] ++ digest.text.toList)[37]? =
      some '-' := by
    rw [List.append_assoc, List.getElem?_append_right (by simp [nonce.length_eq])]
    simp [nonce.length_eq]
  have hnonce : (("cmv1-".toList ++ nonce.text.toList ++ ['-'] ++ digest.text.toList).drop 5).take 32 =
      nonce.text.toList := by
    simp [nonce.length_eq]
  have hdigest : ("cmv1-".toList ++ nonce.text.toList ++ ['-'] ++ digest.text.toList).drop 38 =
      digest.text.toList := by
    rw [List.drop_append_of_le_length] <;> simp [nonce.length_eq]
  unfold generatedRef
  simp only [toList_generatedForm, hdash, hnonce, hdigest, nonce.hex, digest.hex]
  simp [nonce.length_eq, digest.length_eq]

theorem refDigest_of_form {key : String} {digest : HexText 64} (h : GeneratedForm key digest) :
    refDigest key = digest.text := by
  obtain ⟨nonce, rfl⟩ := h
  rw [refDigest, toList_generatedForm, List.drop_append_of_le_length] <;> simp [nonce.length_eq]

structure GeneratedChars (chars : List Char) : Prop where
  length : chars.length = 102
  start : chars.take 5 = "cmv1-".toList
  dash : chars[37]? = some '-'
  nonce : ∀ c ∈ (chars.drop 5).take 32, isHexDigit c = true
  digest : ∀ c ∈ chars.drop 38, isHexDigit c = true

theorem generatedRef_iff_chars {key : String} :
    generatedRef key = true ↔ GeneratedChars key.toList := by
  simp only [generatedRef, Bool.and_eq_true, decide_eq_true_eq, List.all_eq_true]
  exact ⟨fun ⟨⟨⟨⟨h₁, h₂⟩, h₃⟩, h₄⟩, h₅⟩ => ⟨h₁, h₂, h₃, h₄, h₅⟩,
    fun ⟨h₁, h₂, h₃, h₄, h₅⟩ => ⟨⟨⟨⟨h₁, h₂⟩, h₃⟩, h₄⟩, h₅⟩⟩

theorem eq_parts {α : Type} {l : List α} {x : α} (h : l[37]? = some x) :
    l = l.take 5 ++ (l.drop 5).take 32 ++ [x] ++ l.drop 38 := by
  have hdash : l.drop 37 = x :: l.drop 38 := by
    obtain ⟨hlt, hget⟩ := List.getElem_of_getElem? h
    rw [List.drop_eq_getElem_cons hlt, hget]
  calc l = l.take 5 ++ l.drop 5 := (List.take_append_drop 5 l).symm
    _ = l.take 5 ++ ((l.drop 5).take 32 ++ (l.drop 5).drop 32) :=
        congrArg (l.take 5 ++ ·) (List.take_append_drop 32 (l.drop 5)).symm
    _ = l.take 5 ++ (l.drop 5).take 32 ++ [x] ++ l.drop 38 := by
        rw [List.drop_drop, hdash]
        simp

theorem generatedRef_iff {key : String} :
    generatedRef key = true ↔ ∃ digest, GeneratedForm key digest := by
  refine ⟨fun h => ?_, fun ⟨digest, h⟩ => generatedRef_of_form h⟩
  rw [generatedRef_iff_chars] at h
  have hlength := h.length
  refine ⟨⟨String.ofList (key.toList.drop 38), ?_, ?_⟩,
    ⟨String.ofList ((key.toList.drop 5).take 32), ?_, ?_⟩, ?_⟩
  · rw [String.toList_ofList, List.length_drop, hlength]
  · rw [String.toList_ofList]
    exact List.all_eq_true.2 h.digest
  · rw [String.toList_ofList, List.length_take, List.length_drop, hlength]
    rfl
  · rw [String.toList_ofList]
    exact List.all_eq_true.2 h.nonce
  · rw [← String.toList_inj, toList_generatedForm, ← h.start]
    simpa only [String.toList_ofList] using eq_parts h.dash

/-! ### The checks on bytes -/

def asBytes (text : String) : Bytes := Utf8.encode text.toList

def isHexByte (b : UInt8) : Bool :=
  (48 ≤ b.toNat && b.toNat ≤ 57) || (97 ≤ b.toNat && b.toNat ≤ 102)
    || (65 ≤ b.toNat && b.toNat ≤ 70)

/-- `generated_ref` on bytes; there is no result where an index or a slice is out of place. -/
def generatedRefBytes (key : Bytes) : Option Bool :=
  if key.length = 102 ∧ key.take 5 = asBytes "cmv1-" then do
    let dash ← key[37]?
    if dash = 45 then do
      let nonce ← Utf8.slice key 5 37
      if nonce.all isHexByte then do
        let digest ← Utf8.slice key 38 key.length
        pure (digest.all isHexByte)
      else pure false
    else pure false
  else pure false

structure GeneratedBytes (bytes : Bytes) : Prop where
  length : bytes.length = 102
  start : bytes.take 5 = asBytes "cmv1-"
  dash : bytes[37]? = some 45
  nonce : ∀ b ∈ (bytes.drop 5).take 32, isHexByte b = true
  digest : ∀ b ∈ bytes.drop 38, isHexByte b = true

theorem ascii_of_isHexByte {b : UInt8} (h : isHexByte b = true) : b.toNat < 128 := by
  simp only [isHexByte, Bool.or_eq_true, Bool.and_eq_true, decide_eq_true_eq] at h
  omega

theorem GeneratedBytes.ascii {bytes : Bytes} (h : GeneratedBytes bytes) :
    ∀ b ∈ bytes, b.toNat < 128 := by
  intro b hb
  rw [eq_parts h.dash, List.mem_append, List.mem_append, List.mem_append, h.start] at hb
  rcases hb with ((hb | hb) | hb) | hb
  · have hstart : (asBytes "cmv1-").Forall fun b => b.toNat < 128 := by decide
    exact List.forall_iff_forall_mem.1 hstart b hb
  · exact ascii_of_isHexByte (h.nonce b hb)
  · cases List.mem_singleton.1 hb
    decide
  · exact ascii_of_isHexByte (h.digest b hb)

theorem isHexDigit_iff {c : Char} : isHexDigit c = true ↔
    (48 ≤ c.toNat ∧ c.toNat ≤ 57) ∨ (97 ≤ c.toNat ∧ c.toNat ≤ 102) ∨
      (65 ≤ c.toNat ∧ c.toNat ≤ 70) := by
  simp only [isHexDigit, Bool.or_eq_true, Bool.and_eq_true, decide_eq_true_eq, Char.le_def,
    UInt32.le_iff_toNat_le, or_assoc]
  exact Iff.rfl

theorem GeneratedChars.forall_mem {chars : List Char} {P : Char → Prop} (h : GeneratedChars chars)
    (hstart : "cmv1-".toList.Forall P) (hhex : ∀ c, isHexDigit c = true → P c) :
    ∀ c ∈ chars, P c := by
  intro c hc
  rw [eq_parts h.dash, List.mem_append, List.mem_append, List.mem_append, h.start] at hc
  rcases hc with ((hc | hc) | hc) | hc
  · exact List.forall_iff_forall_mem.1 hstart c hc
  · exact hhex c (h.nonce c hc)
  · cases List.mem_singleton.1 hc
    exact List.forall_iff_forall_mem.1 hstart '-' (by decide)
  · exact hhex c (h.digest c hc)

theorem GeneratedChars.ascii {chars : List Char} (h : GeneratedChars chars) :
    ∀ c ∈ chars, c.toNat < 128 := by
  refine h.forall_mem (by decide) ?_
  intro c hc
  rw [isHexDigit_iff] at hc
  omega

theorem GeneratedChars.plain {chars : List Char} (h : GeneratedChars chars) :
    ∀ c ∈ chars, isControl c = false ∧ c ∉ "/\\<>:\"|?*".toList ∧ c ≠ '.' ∧ c ≠ ' ' := by
  have hspec : ('.' :: ' ' :: "/\\<>:\"|?*".toList).Forall fun c => isHexDigit c = false := by decide
  refine h.forall_mem (by decide) ?_
  intro c hc
  have hne : c ∉ '.' :: ' ' :: "/\\<>:\"|?*".toList := by
    intro hmem
    rw [List.forall_iff_forall_mem.1 hspec c hmem] at hc
    cases hc
  simp only [List.mem_cons, not_or] at hne
  refine ⟨?_, by simpa using hne.2.2, hne.1, hne.2.1⟩
  rw [isHexDigit_iff] at hc
  simp only [isControl, Bool.or_eq_false_iff, Bool.and_eq_false_iff, decide_eq_false_iff_not]
  omega

theorem validateAccountId_of_generatedRef {key : String} (h : generatedRef key = true) :
    validateAccountId key = .ok () := by
  rw [generatedRef_iff_chars] at h
  have hplain := h.plain
  have hlength : key.toList.length = 102 := h.length
  have hsize : key.utf8ByteSize = 102 := by
    rw [← String.ofList_toList (s := key), utf8ByteSize_ofList, encode_of_ascii h.ascii,
      List.length_map, hlength]
  have hlast : ∀ c, key.toList.getLast? = some c → c ≠ '.' ∧ c ≠ ' ' := by
    intro c hc
    exact (hplain c (List.mem_of_getLast? hc)).2.2
  have hbase : String.ofList ((key.toList.takeWhile (· ≠ '.')).map Char.toUpper) ∉ reservedNames := by
    have hshort : ∀ name ∈ reservedNames, name.toList.length ≤ 4 := by decide
    intro hmem
    have htake : key.toList.takeWhile (· ≠ '.') = key.toList :=
      List.takeWhile_eq_self_iff.2 fun c hc => by simpa using (hplain c hc).2.2.1
    have := hshort _ hmem
    rw [htake, String.toList_ofList, List.length_map, hlength] at this
    omega
  have hne : ∀ text : String, text.toList.length ≠ 102 → key ≠ text := by
    rintro text htext rfl
    exact htext hlength
  have hempty : key.isEmpty = false := by
    rw [String.isEmpty_eq_false_iff]
    exact hne "" (by decide)
  have hcon : key.toList.any isControl = false :=
    List.any_eq_false.2 fun c hc => by simp [(hplain c hc).1]
  have hfor : key.toList.any (· ∈ "/\\<>:\"|?*".toList) = false :=
    List.any_eq_false.2 fun c hc => by simpa using (hplain c hc).2.1
  refine require_eq_ok.2 ?_
  simp only [hempty, hne "." (by decide), hne ".." (by decide), hsize, hcon, hfor, hbase,
    show key.toList.getLast? ≠ some '.' from fun h => (hlast _ h).1 rfl,
    show key.toList.getLast? ≠ some ' ' from fun h => (hlast _ h).2 rfl]
  decide

section Ascii

variable {chars : List Char}

theorem toNat_ofNat_ascii {c : Char} (h : c.toNat < 128) : (UInt8.ofNat c.toNat).toNat = c.toNat := by
  rw [UInt8.toNat_ofNat']
  omega

theorem isHexByte_ofNat {c : Char} (h : c.toNat < 128) :
    isHexByte (UInt8.ofNat c.toNat) = isHexDigit c := by
  rw [Bool.eq_iff_iff, isHexDigit_iff, isHexByte, toNat_ofNat_ascii h]
  simp only [Bool.or_eq_true, Bool.and_eq_true, decide_eq_true_eq, or_assoc]

theorem ofNat_eq_dash {c : Char} (h : c.toNat < 128) : UInt8.ofNat c.toNat = 45 ↔ c = '-' := by
  constructor
  · intro heq
    have := congrArg UInt8.toNat heq
    rw [toNat_ofNat_ascii h] at this
    exact Char.toNat_inj.1 this
  · rintro rfl
    rfl

theorem generatedBytes_map_iff (h : ∀ c ∈ chars, c.toNat < 128) :
    GeneratedBytes (chars.map fun c => UInt8.ofNat c.toNat) ↔ GeneratedChars chars := by
  have hstart : (chars.map fun c => UInt8.ofNat c.toNat).take 5 = asBytes "cmv1-" ↔
      chars.take 5 = "cmv1-".toList := by
    rw [← List.map_take, ← encode_of_ascii fun c hc => h c (List.mem_of_mem_take hc)]
    exact ⟨encode_injective, congrArg encode⟩
  have hdash : (chars.map fun c => UInt8.ofNat c.toNat)[37]? = some 45 ↔ chars[37]? = some '-' := by
    rw [List.getElem?_map]
    cases hget : chars[37]? with
    | none => simp
    | some c => simpa using ofNat_eq_dash (h c (List.mem_of_getElem? hget))
  have hhex : ∀ part : List Char, (∀ c ∈ part, c ∈ chars) →
      ((∀ b ∈ part.map fun c => UInt8.ofNat c.toNat, isHexByte b = true) ↔
        ∀ c ∈ part, isHexDigit c = true) := by
    intro part hpart
    rw [List.forall_mem_map]
    exact forall₂_congr fun c hc => by rw [isHexByte_ofNat (h c (hpart c hc))]
  have hnonce := hhex ((chars.drop 5).take 32) fun c hc =>
    List.mem_of_mem_drop (List.mem_of_mem_take hc)
  have hdigest := hhex (chars.drop 38) fun c hc => List.mem_of_mem_drop hc
  rw [List.map_take, List.map_drop] at hnonce
  rw [List.map_drop] at hdigest
  constructor
  · intro hbytes
    exact ⟨by simpa using hbytes.length, hstart.1 hbytes.start, hdash.1 hbytes.dash,
      hnonce.1 hbytes.nonce, hdigest.1 hbytes.digest⟩
  · intro hchars
    exact ⟨by simpa using hchars.length, hstart.2 hchars.start, hdash.2 hchars.dash,
      hnonce.2 hchars.nonce, hdigest.2 hchars.digest⟩

theorem generatedBytes_iff : GeneratedBytes (encode chars) ↔ GeneratedChars chars := by
  constructor
  · intro h
    have hascii := ascii_of_encode h.ascii
    rwa [encode_of_ascii hascii, generatedBytes_map_iff hascii] at h
  · intro h
    rwa [encode_of_ascii h.ascii, generatedBytes_map_iff h.ascii]

end Ascii

/-! ### Every cut is at a boundary -/

theorem slice_nonce {key : String} (hstart : (asBytes key).take 5 = asBytes "cmv1-")
    (hdash : (asBytes key)[37]? = some 45) :
    slice (asBytes key) 5 37 = some (((asBytes key).drop 5).take 32) := by
  have hlast : (asBytes key)[4]? = some 45 := by
    rw [← List.getElem?_take_of_lt (show 4 < 5 by decide), hstart]
    decide
  rw [slice, if_pos ⟨by decide, isCharBoundary_succ hlast (by decide),
    isCharBoundary_of_get hdash (by decide)⟩, List.drop_take]

theorem slice_digest {key : String} (hdash : (asBytes key)[37]? = some 45)
    (hlength : (asBytes key).length = 102) :
    slice (asBytes key) 38 (asBytes key).length = some ((asBytes key).drop 38) := by
  rw [slice, if_pos ⟨by omega, isCharBoundary_succ hdash (by decide),
    isCharBoundary_length _⟩, List.take_length]

theorem generatedRefBytes_eq (key : String) :
    generatedRefBytes (asBytes key) = some (generatedRef key) := by
  have hiff : generatedRef key = true ↔ GeneratedBytes (asBytes key) :=
    generatedRef_iff_chars.trans generatedBytes_iff.symm
  have hfalse : ¬ GeneratedBytes (asBytes key) → generatedRef key = false := fun h =>
    Bool.eq_false_iff.2 fun htrue => h (hiff.1 htrue)
  unfold generatedRefBytes
  split_ifs with hhead
  swap
  · rw [hfalse fun h => hhead ⟨h.length, h.start⟩]
    rfl
  obtain ⟨hlength, hstart⟩ := hhead
  obtain ⟨dash, hdash⟩ : ∃ dash, (asBytes key)[37]? = some dash :=
    ⟨_, List.getElem?_eq_getElem (by omega)⟩
  rw [hdash, Option.bind_eq_bind, Option.bind_some]
  split_ifs with hdash'
  swap
  · rw [hfalse fun h => hdash' (Option.some_inj.1 (hdash.symm.trans h.dash))]
    rfl
  subst hdash'
  rw [slice_nonce hstart hdash, Option.bind_eq_bind, Option.bind_some]
  split_ifs with hnonce
  swap
  · rw [hfalse fun h => hnonce (List.all_eq_true.2 h.nonce)]
    rfl
  rw [slice_digest hdash hlength, Option.bind_some]
  refine congrArg some (Bool.eq_iff_iff.2 (Iff.trans ?_ hiff.symm))
  rw [List.all_eq_true]
  exact ⟨fun h => ⟨hlength, hstart, hdash, List.all_eq_true.1 hnonce, h⟩, fun h => h.digest⟩

theorem asBytes_drop_digest {key : String} (h : generatedRef key = true) :
    (asBytes key).drop 38 = asBytes (refDigest key) := by
  have hascii := (generatedRef_iff_chars.1 h).ascii
  have htail : ∀ c ∈ key.toList.drop 38, c.toNat < 128 := fun c hc =>
    hascii c (List.mem_of_mem_drop hc)
  rw [refDigest, asBytes, asBytes, String.toList_ofList, encode_of_ascii hascii,
    encode_of_ascii htail, List.map_drop]

theorem asBytes_injective {text text' : String} (h : asBytes text = asBytes text') : text = text' :=
  String.toList_inj.1 (encode_injective h)

theorem HexText.ext_text {digits : ℕ} {a b : HexText digits} (h : a.text = b.text) : a = b := by
  cases a
  cases b
  cases h
  rfl

section CheckRef

variable [Externals] {key : String} {snapshot : AuthSnapshot}

/-- `check_ref`, with the key as bytes. -/
def checkRefBytes (key : String) (snapshot : AuthSnapshot) : Option (Except DomainError Unit) := do
  let generated ← generatedRefBytes (asBytes key)
  if generated then
    match snapshot.embeddedAccountId with
    | none => pure (.error .snapshotAccountMismatch)
    | some id => do
        let digest ← Utf8.slice (asBytes key) 38 (asBytes key).length
        pure (Result.require (digest = asBytes (Externals.sha256 id).text) .snapshotAccountMismatch)
  else pure (AuthSnapshot.checkAccount key snapshot.embeddedAccountId)

/-- **The check of a reference cuts no character in two**, and decides as it does on characters. -/
theorem checkRefBytes_eq (key : String) (snapshot : AuthSnapshot) :
    checkRefBytes key snapshot = some (checkRef key snapshot) := by
  unfold checkRefBytes checkRef
  rw [generatedRefBytes_eq, Option.bind_eq_bind, Option.bind_some]
  split_ifs with hgen
  swap
  · rfl
  cases snapshot.embeddedAccountId with
  | none => rfl
  | some id =>
    have hbytes := generatedBytes_iff.2 (generatedRef_iff_chars.1 hgen)
    have hiff : (asBytes key).drop 38 = asBytes (Externals.sha256 id).text ↔
        refDigest key = (Externals.sha256 id).text := by
      rw [asBytes_drop_digest hgen]
      exact ⟨asBytes_injective, congrArg asBytes⟩
    simp only [slice_digest hbytes.dash hbytes.length, Option.bind_eq_bind, Option.bind_some]
    simp only [Result.require, hiff]
    rfl

/-- Under a generated key an identity with the key's digest, under any other key that key or none at
all. -/
structure Bound (key : String) (snapshot : AuthSnapshot) : Prop where
  generated : ∀ digest, GeneratedForm key digest →
    ∃ id, snapshot.embeddedAccountId = some id ∧ Externals.sha256 id = digest
  plain : (∀ digest, ¬ GeneratedForm key digest) →
    snapshot.embeddedAccountId = none ∨ snapshot.embeddedAccountId = some key

theorem checkRef_eq_ok_iff (hkey : validateAccountId key = .ok ()) :
    checkRef key snapshot = .ok () ↔ Bound key snapshot := by
  unfold checkRef
  split_ifs with hgen
  · obtain ⟨digest, hform⟩ := generatedRef_iff.1 hgen
    have hdigest := refDigest_of_form hform
    constructor
    · intro h
      obtain ⟨id, hid, h⟩ := bind_eq_ok.1 h
      rw [okOr_eq_ok] at hid
      rw [require_eq_ok] at h
      refine ⟨fun digest' hform' => ⟨id, hid, HexText.ext_text ?_⟩, fun hno => absurd hform (hno _)⟩
      rw [← h, refDigest_of_form hform']
    · intro h
      obtain ⟨id, hid, hsha⟩ := h.generated digest hform
      refine bind_eq_ok.2 ⟨id, okOr_eq_ok.2 hid, require_eq_ok.2 ?_⟩
      rw [hdigest, hsha]
  · have hno : ∀ digest, ¬ GeneratedForm key digest := fun digest hform =>
      hgen (generatedRef_of_form hform)
    constructor
    · intro h
      have h := ok_of_bind h
      exact ⟨fun digest hform => absurd hform (hno digest), fun _ => require_eq_ok.1 h⟩
    · intro h
      exact bind_eq_ok.2 ⟨(), hkey, require_eq_ok.2 (h.plain hno)⟩

end CheckRef

end CodexMarathon
