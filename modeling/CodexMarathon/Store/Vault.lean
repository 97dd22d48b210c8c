/-
**The credential vault.**

The vault keeps one opaque document per key, which is an account id or a generated reference that
ends in a digest of one.  A document is only accepted under a key that agrees with the identity in
it, and generated entries that no account refers to are collected.
-/

import CodexMarathon.Store.Accounts
import Mathlib.Logic.Function.Basic

namespace CodexMarathon

open Result

inductive Json
  | null
  | bool (value : Bool)
  | number (text : String)
  | string (text : String)
  | array (items : List Json)
  | object (fields : List (String × Json))

def Json.field (fields : List (String × Json)) (key : String) : Option Json :=
  (fields.find? (fun entry => entry.1 = key)).map (·.2)

abbrev Bytes := List UInt8

def isHexDigit (c : Char) : Bool :=
  ('0' ≤ c && c ≤ '9') || ('a' ≤ c && c ≤ 'f') || ('A' ≤ c && c ≤ 'F')

structure HexText (digits : ℕ) where
  text : String
  length_eq : text.toList.length = digits
  hex : text.toList.all isHexDigit = true
deriving DecidableEq

instance (digits : ℕ) : Inhabited (HexText digits) :=
  ⟨{ text := String.ofList (List.replicate digits '0')
     length_eq := by simp
     hex := by simp [isHexDigit] }⟩

/-- The serialisers of `serde_json` and the digest of `sha2`. -/
class Externals where
  /-- `serde_json::from_slice::<Value>`. -/
  parseJson : Bytes → Option Json
  /-- `serde_json::to_vec` on an auth document. -/
  encodeAuth : Auth.AuthDotJson → Option Bytes
  /-- `serde_json::from_slice::<AuthDotJson>`. -/
  decodeAuth : Bytes → Option Auth.AuthDotJson
  /-- The length of `serde_json::to_vec_pretty` on a registry. -/
  registryJsonLength : RegistryState → ℕ
  /-- The digest of the UTF-8 bytes, printed in lower-case hexadecimal. -/
  sha256 : String → HexText 64

variable [Externals]

/-! ### Documents -/

def maxSnapshotBytes : ℕ := 1024 * 1024

def extractStringField : Option Json → Except DomainError (Option String)
  | none | some .null => .ok none
  | some (.string text) => if text.isEmpty then .error .invalidSnapshot else .ok (some text)
  | some _ => .error .invalidSnapshot

def extractNested : Option Json → Except DomainError (Option String)
  | none | some .null => .ok none
  | some (.object tokens) => extractStringField (Json.field tokens "account_id")
  | some _ => .error .invalidSnapshot

def extractAccountId (fields : List (String × Json)) : Except DomainError (Option String) := do
  let topLevel ← extractStringField (Json.field fields "account_id")
  let nested ← extractNested (Json.field fields "tokens")
  Result.require (¬ (topLevel.isSome ∧ nested.isSome ∧ topLevel ≠ nested)) .snapshotAccountMismatch
  match topLevel.or nested with
  | none => pure none
  | some id => do
      validateAccountId id
      pure (some id)

def embeddedIdentity (bytes : Bytes) : Except DomainError (Option String) := do
  Result.require (bytes.length ≤ maxSnapshotBytes) .invalidSnapshot
  let value ← Result.okOr (Externals.parseJson bytes) .invalidSnapshot
  match value with
  | .object fields => extractAccountId fields
  | _ => throw .invalidSnapshot

/-- `AuthSnapshot`: a document that was read, with the identity found in it. -/
structure AuthSnapshot where
  embeddedAccountId : Option String
  bytes : Bytes
  embedded_eq : embeddedIdentity bytes = .ok embeddedAccountId
deriving DecidableEq

namespace AuthSnapshot

def checkAccount (account : String) (embedded : Option String) : Except DomainError Unit := do
  validateAccountId account
  Result.require (embedded = none ∨ embedded = some account) .snapshotAccountMismatch

def fromBytes (account : Option String) (bytes : Bytes) : Except DomainError AuthSnapshot :=
  match h : embeddedIdentity bytes with
  | .error e => .error e
  | .ok embedded =>
    match account with
    | none => .ok ⟨embedded, bytes, h⟩
    | some account => (checkAccount account embedded).map fun _ => ⟨embedded, bytes, h⟩

theorem fromBytes_eq_ok {account : Option String} {bytes : Bytes} {s : AuthSnapshot}
    (h : fromBytes account bytes = .ok s) : s.bytes = bytes ∧
      ∀ id, account = some id → s.embeddedAccountId = none ∨ s.embeddedAccountId = some id := by
  unfold fromBytes at h
  split at h
  · cases h
  split at h
  · cases h
    exact ⟨rfl, nofun⟩
  obtain ⟨⟨⟩, hcheck, rfl⟩ := map_eq_ok.1 h
  have hid := ok_of_bind hcheck
  refine ⟨rfl, ?_⟩
  rintro id ⟨⟩
  exact require_eq_ok.1 hid

theorem fromBytes_bytes (s : AuthSnapshot) : fromBytes none s.bytes = .ok s := by
  obtain ⟨embedded, bytes, hemb⟩ := s
  unfold fromBytes
  split
  · rename_i e he
    rw [hemb] at he
    cases he
  · rename_i embedded' he
    rw [hemb] at he
    cases he
    rfl

end AuthSnapshot

/-- `generated_ref`: `cmv1-`, 32 hexadecimal digits, a dash, 64 hexadecimal digits. -/
def generatedRef (key : String) : Bool :=
  let chars := key.toList
  chars.length = 102 && chars.take 5 = "cmv1-".toList && chars[37]? = some '-'
    && ((chars.drop 5).take 32).all isHexDigit && (chars.drop 38).all isHexDigit

def refDigest (key : String) : String := String.ofList (key.toList.drop 38)

/-- `check_ref`: a generated key ends in the digest of the embedded identity. -/
def checkRef (key : String) (snapshot : AuthSnapshot) : Except DomainError Unit :=
  if generatedRef key then do
    let id ← Result.okOr snapshot.embeddedAccountId .snapshotAccountMismatch
    Result.require (refDigest key = (Externals.sha256 id).text) .snapshotAccountMismatch
  else AuthSnapshot.checkAccount key snapshot.embeddedAccountId

abbrev Nonce := HexText 32

def HexText.zeros : Nonce := ⟨"00000000000000000000000000000000", by decide, by decide⟩

def HexText.ones : Nonce := ⟨"11111111111111111111111111111111", by decide, by decide⟩

def freshKey (nonce : Nonce) (id : String) : String :=
  "cmv1-" ++ nonce.text ++ "-" ++ (Externals.sha256 id).text

def referenced (state : RegistryState) (key : String) : Bool :=
  state.records.any fun account =>
    account.credentialRef = key || (account.credentialRef.isEmpty && account.id = key)

/-! ### The stores under the state lock -/

structure Store where
  registry : Option RegistryFile
  vault : String → Option Bytes

namespace Store

variable (s : Store)

def stateLocked : Except DomainError RegistryState := loadUnlocked s.registry

def replaceLocked (state : RegistryState) : Except DomainError Store := do
  let file ← saveUnlocked Externals.registryJsonLength state
  pure { s with registry := some file }

def setActiveLocked (id : String) : Except DomainError Store := do
  let state ← s.stateLocked
  Result.require (state.get? id).isSome .accountNotFound
  s.replaceLocked { state with activeAccountId := id }

def setEnabled (enabled : Bool) : Except DomainError Store := do
  let state ← s.stateLocked
  s.replaceLocked { state with enabled }

def loadLocked (key : String) : Except DomainError AuthSnapshot := do
  validateAccountId key
  let bytes ← Result.okOr (s.vault key) .snapshotNotFound
  let snapshot ← AuthSnapshot.fromBytes none bytes
  checkRef key snapshot
  pure snapshot

def saveLocked (key : String) (snapshot : AuthSnapshot) : Except DomainError Store := do
  validateAccountId key
  checkRef key snapshot
  pure { s with vault := Function.update s.vault key (some snapshot.bytes) }

def saveFreshLocked (nonce : Nonce) (snapshot : AuthSnapshot) :
    Except DomainError (String × Store) := do
  let id ← Result.okOr snapshot.embeddedAccountId .snapshotAccountMismatch
  let key := freshKey nonce id
  Result.require (s.vault key = none) .unsafePath
  let saved ← s.saveLocked key snapshot
  pure (key, saved)

def collectOrphansLocked (state : RegistryState) : Store :=
  { s with vault := fun key =>
      if generatedRef key && !referenced state key then none else s.vault key }

variable {s} {s' : Store}

theorem replaceLocked_eq_ok {state : RegistryState} (h : s.replaceLocked state = .ok s') :
    s'.stateLocked = .ok { state with version := registryVersion } ∧ s'.vault = s.vault := by
  obtain ⟨file, hfile, h⟩ := bind_eq_ok.1 h
  cases h
  exact ⟨loadUnlocked_saveUnlocked hfile, rfl⟩

theorem setActiveLocked_eq_ok {id : String} (h : s.setActiveLocked id = .ok s') :
    ∃ state, s.stateLocked = .ok state ∧ s'.stateLocked = .ok { state with activeAccountId := id } ∧
      s'.vault = s.vault := by
  obtain ⟨state, hstate, h⟩ := bind_eq_ok.1 h
  have h := ok_of_bind h
  obtain ⟨hread, hvault⟩ := replaceLocked_eq_ok h
  refine ⟨state, hstate, ?_, hvault⟩
  rw [hread, ← (loadUnlocked_valid hstate).version]

theorem setActiveLocked_ok_iff {id : String} : (∃ s', s.setActiveLocked id = .ok s') ↔
      ∃ state file, loadUnlocked s.registry = .ok state ∧ (state.get? id).isSome = true ∧
        saveUnlocked Externals.registryJsonLength { state with activeAccountId := id } = .ok file := by
  constructor
  · rintro ⟨s', h⟩
    obtain ⟨state, hstate, h⟩ := bind_eq_ok.1 h
    obtain ⟨⟨⟩, hget, h⟩ := bind_eq_ok.1 h
    obtain ⟨file, hfile, -⟩ := bind_eq_ok.1 h
    exact ⟨state, file, hstate, require_eq_ok.1 hget, hfile⟩
  · rintro ⟨state, file, hstate, hget, hfile⟩
    refine ⟨{ s with registry := some file }, bind_eq_ok.2 ⟨state, hstate, ?_⟩⟩
    refine bind_eq_ok.2 ⟨(), require_eq_ok.2 hget, ?_⟩
    exact bind_eq_ok.2 ⟨file, hfile, rfl⟩

variable {snapshot : AuthSnapshot} {key : String}

theorem loadLocked_eq_ok (h : s.loadLocked key = .ok snapshot) :
    validateAccountId key = .ok () ∧ s.vault key = some snapshot.bytes ∧
      checkRef key snapshot = .ok () := by
  obtain ⟨⟨⟩, hkey, h⟩ := bind_eq_ok.1 h
  obtain ⟨bytes, hbytes, h⟩ := bind_eq_ok.1 h
  obtain ⟨snapshot', hread, h⟩ := bind_eq_ok.1 h
  obtain ⟨⟨⟩, hcheck, h⟩ := bind_eq_ok.1 h
  cases h
  refine ⟨hkey, ?_, hcheck⟩
  rw [(AuthSnapshot.fromBytes_eq_ok hread).1]
  exact okOr_eq_ok.1 hbytes

theorem loadLocked_of_checkRef
    (hkey : validateAccountId key = .ok ()) (hvault : s.vault key = some snapshot.bytes)
    (hcheck : checkRef key snapshot = .ok ()) : s.loadLocked key = .ok snapshot := by
  refine bind_eq_ok.2 ⟨(), hkey, ?_⟩
  refine bind_eq_ok.2 ⟨snapshot.bytes, okOr_eq_ok.2 hvault, ?_⟩
  refine bind_eq_ok.2 ⟨snapshot, AuthSnapshot.fromBytes_bytes snapshot, ?_⟩
  exact bind_eq_ok.2 ⟨(), hcheck, rfl⟩

theorem saveLocked_eq_ok (h : s.saveLocked key snapshot = .ok s') :
    validateAccountId key = .ok () ∧ checkRef key snapshot = .ok () ∧
      s' = { s with vault := Function.update s.vault key (some snapshot.bytes) } := by
  obtain ⟨⟨⟩, hkey, h⟩ := bind_eq_ok.1 h
  obtain ⟨⟨⟩, hcheck, h⟩ := bind_eq_ok.1 h
  cases h
  exact ⟨hkey, hcheck, rfl⟩

theorem loadLocked_saveLocked
    (h : s.saveLocked key snapshot = .ok s') : s'.loadLocked key = .ok snapshot := by
  obtain ⟨hkey, hcheck, rfl⟩ := saveLocked_eq_ok h
  exact loadLocked_of_checkRef hkey (Function.update_self ..) hcheck

end Store

def asciiBytes (text : String) : Bytes := text.toList.map fun c => UInt8.ofNat c.toNat

def asciiText (bytes : Bytes) : String := String.ofList (bytes.map fun b => Char.ofNat b.toNat)

@[reducible]
def Externals.sample : Externals where
  parseJson bytes :=
    some (.object [("account_id", .string (asciiText (bytes.takeWhile (· ≠ 0))))])
  encodeAuth doc := doc.tokens.map fun tokens =>
    asciiBytes (tokens.accountId.getD "") ++ 0 :: asciiBytes tokens.refreshToken
  decodeAuth bytes := some
    (.sample (asciiText (bytes.takeWhile (· ≠ 0))) (asciiText ((bytes.dropWhile (· ≠ 0)).drop 1)))
  registryJsonLength _ := 0
  sha256 _ :=
    ⟨"0000000000000000000000000000000000000000000000000000000000000000", by decide, by decide⟩

def AccountRecord.sample (id : String) : AccountRecord where
  id
  aliasName := id
  credentialRef := ""
  metadata := []
  lastTelemetryAt := none
  telemetrySource := ""
  credentialHealth := .healthy
  createdAt := .epoch
  updatedAt := .epoch

def RegistryState.sample : RegistryState :=
  { (RegistryState.empty.insert "a" (.sample "a")).insert "b" (.sample "b") with
    activeAccountId := "a" }

def Store.sample : Store where
  registry := some { size := 1, document := some .sample }
  vault := Function.update (fun _ => none) "b" (some (asciiBytes "b" ++ 0 :: asciiBytes "1"))

end CodexMarathon
