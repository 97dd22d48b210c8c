/-
**The account registry.**

The registry is one JSON document: the accounts, which of them is active, and whether transitions
are enabled.  An account refers to its vault entry by `credential_ref`, or by its own id when that
is empty.  Every read and every write validates the document.
-/

import CodexMarathon.Auth.Data
import CodexMarathon.Lib.Result
import Mathlib.Data.List.AList
import Mathlib.Data.List.Infix

namespace CodexMarathon

open Result

/-- The `DomainError`s the registry and the vault return. -/
inductive DomainError
  | invalidAccountId
  | invalidAlias
  | invalidAccountRecord (detail : String)
  | accountNotFound
  | accountExists
  | accountIsActive
  | invalidRegistry
  | invalidSnapshot
  | snapshotAccountMismatch
  | snapshotNotFound
  | unsafePath
  | io (error : Auth.IoError)
  | json
deriving DecidableEq

def reservedNames : List String :=
  ["CON", "PRN", "AUX", "NUL", "COM1", "COM2", "COM3", "COM4", "COM5", "COM6", "COM7", "COM8",
    "COM9", "LPT1", "LPT2", "LPT3", "LPT4", "LPT5", "LPT6", "LPT7", "LPT8", "LPT9"]

def validateAccountId (value : String) : Except DomainError Unit :=
  let chars := value.toList
  let base := String.ofList ((chars.takeWhile (· ≠ '.')).map Char.toUpper)
  Result.require
    (!(value.isEmpty || value = "." || value = ".." || 240 < value.utf8ByteSize
      || chars.any isControl || chars.any (· ∈ "/\\<>:\"|?*".toList)
      || chars.getLast? = some '.' || chars.getLast? = some ' ' || base ∈ reservedNames))
    .invalidAccountId

def validateAlias (value : String) : Except DomainError Unit :=
  Result.require
    (!(trim value ≠ value || 256 < value.utf8ByteSize || value.toList.any isControl))
    .invalidAlias

def validateTextField (value field : String) : Except DomainError Unit :=
  Result.require (!(4096 < value.utf8ByteSize || value.toList.any isControl))
    (.invalidAccountRecord field)

def sensitiveMarkers : List String :=
  ["access_token", "id_token", "refresh_token", "authorization", "api_key", "password", "secret",
    "auth_json", "credential", "private_key"]

def validateMetadataEntry (key value : String) : Except DomainError Unit := do
  Result.require (!(isBlank key || key.toList.any isControl))
    (.invalidAccountRecord "invalid metadata key")
  Result.require (!value.toList.any isControl) (.invalidAccountRecord "invalid metadata value")
  let normalized := key.toList.map fun c => if c = '-' ∨ c = ' ' then '_' else c.toLower
  Result.require (!sensitiveMarkers.any fun marker => decide (marker.toList <:+: normalized))
    (.invalidAccountRecord "metadata key may contain credential material")

inductive CredentialHealth
  | unknown
  | healthy
  | stale
  | invalid
deriving DecidableEq, Repr

structure AccountRecord where
  id : String
  aliasName : String
  credentialRef : String
  metadata : List (String × String)
  lastTelemetryAt : Option DateTime
  telemetrySource : String
  credentialHealth : CredentialHealth
  createdAt : DateTime
  updatedAt : DateTime
deriving DecidableEq

namespace AccountRecord

/-- `AccountRecord::new`: the record refers to the vault entry of its own id. -/
def new (id aliasName : String) (now : DateTime) : Except DomainError AccountRecord := do
  validateAccountId id
  validateAlias aliasName
  pure
    { id, aliasName, credentialRef := id, metadata := [], lastTelemetryAt := none
      telemetrySource := "", credentialHealth := .unknown, createdAt := now, updatedAt := now }

theorem new_eq_ok {id aliasName : String} {now : DateTime} {record : AccountRecord}
    (h : new id aliasName now = .ok record) : record.id = id ∧ record.aliasName = aliasName := by
  have h := ok_of_bind h
  have h := ok_of_bind h
  cases h
  exact ⟨rfl, rfl⟩

def validateRef (credentialRef : String) : Except DomainError Unit :=
  if credentialRef.isEmpty then .ok ()
  else (validateAccountId credentialRef).mapError fun _ =>
    .invalidAccountRecord "credential_ref is not a valid vault key"

def validate (account : AccountRecord) : Except DomainError Unit := do
  validateAccountId account.id
  validateAlias account.aliasName
  validateRef account.credentialRef
  account.metadata.forM fun entry => validateMetadataEntry entry.1 entry.2
  validateTextField account.telemetrySource "telemetry_source"
  Result.require (¬ account.updatedAt < account.createdAt)
    (.invalidAccountRecord "created_at is after updated_at")

/-- The vault key of an account: its reference, or its id when it has none. -/
def effectiveRef (account : AccountRecord) : String :=
  if account.credentialRef.isEmpty then account.id else account.credentialRef

end AccountRecord

/-! ### The document -/

def registryVersion : ℕ := 2

structure RegistryState where
  version : ℕ
  activeAccountId : String
  enabled : Bool
  accounts : AList fun _ : String => AccountRecord

namespace RegistryState

def empty : RegistryState :=
  { version := registryVersion, activeAccountId := "", enabled := true, accounts := ∅ }

def records (state : RegistryState) : List AccountRecord := state.accounts.entries.map (·.2)

def get? (state : RegistryState) (id : String) : Option AccountRecord := state.accounts.lookup id

def insert (state : RegistryState) (id : String) (account : AccountRecord) : RegistryState :=
  { state with accounts := state.accounts.insert id account }

def upgrade (state : RegistryState) : RegistryState :=
  if state.version = 0 ∨ state.version = 1 then { state with version := registryVersion } else state

def keysMatch (state : RegistryState) : Bool := state.accounts.entries.all fun e => e.1 = e.2.id

def activeRegistered (state : RegistryState) : Bool :=
  state.activeAccountId.isEmpty || (state.get? state.activeAccountId).isSome

end RegistryState

/-- The length, and the document `serde_json` makes of it if it can. -/
structure RegistryFile where
  size : ℕ
  document : Option RegistryState

def validateActive (state : RegistryState) : Except DomainError Unit :=
  if state.activeAccountId.isEmpty then .ok ()
  else do
    validateAccountId state.activeAccountId
    Result.require (state.get? state.activeAccountId).isSome .invalidRegistry

def maxRegistryBytes : ℕ := 16 * 1024 * 1024

/-- `load_unlocked`: a missing or empty file is an empty registry. -/
def loadUnlocked (file : Option RegistryFile) : Except DomainError RegistryState :=
  match file with
  | none => .ok .empty
  | some file => do
      Result.require (file.size ≤ maxRegistryBytes) .invalidRegistry
      if file.size = 0 then pure .empty
      else
        let document ← Result.okOr file.document .invalidRegistry
        let state := document.upgrade
        Result.require (state.version = registryVersion) .invalidRegistry
        Result.require (state.keysMatch = true) .invalidRegistry
        (state.records.forM AccountRecord.validate).mapError fun _ => .invalidRegistry
        validateActive state
        pure state

/-- The document `serde_json` prints in `jsonLength state` bytes, and a line feed. -/
def registryFile (jsonLength : RegistryState → ℕ) (state : RegistryState) :
    Except DomainError RegistryFile := do
  state.records.forM AccountRecord.validate
  Result.require (state.keysMatch = true) .invalidRegistry
  Result.require (state.activeRegistered = true) .invalidRegistry
  Result.require (jsonLength state + 1 ≤ maxRegistryBytes) .invalidRegistry
  pure { size := jsonLength state + 1, document := some state }

def saveUnlocked (jsonLength : RegistryState → ℕ) (state : RegistryState) :
    Except DomainError RegistryFile :=
  registryFile jsonLength { state with version := registryVersion }

/-! ### Reading back what was published -/

structure RegistryState.Valid (state : RegistryState) : Prop where
  version : state.version = registryVersion
  keys : state.keysMatch = true
  records : ∀ account ∈ state.records, account.validate = .ok ()
  active : state.activeRegistered = true

namespace RegistryState

theorem get?_id {state : RegistryState} (h : state.keysMatch = true) {id : String}
    {account : AccountRecord} (hget : state.get? id = some account) : account.id = id := by
  have hmem := AList.mem_lookup_iff.1 hget
  have := List.all_eq_true.1 h _ hmem
  simpa using (of_decide_eq_true this).symm

theorem mem_records_of_get? {state : RegistryState} {id : String} {account : AccountRecord}
    (hget : state.get? id = some account) : account ∈ state.records :=
  List.mem_map.2 ⟨_, AList.mem_lookup_iff.1 hget, rfl⟩

theorem get?_of_mem_records {state : RegistryState} {account : AccountRecord}
    (h : state.keysMatch = true) (hmem : account ∈ state.records) :
    state.get? account.id = some account := by
  obtain ⟨entry, hentry, rfl⟩ := List.mem_map.1 hmem
  have hkey : entry.1 = entry.2.id := of_decide_eq_true (List.all_eq_true.1 h entry hentry)
  rw [← hkey]
  exact AList.mem_lookup_iff.2 hentry

theorem id_mem_keys {state : RegistryState} (h : state.keysMatch = true) {account : AccountRecord}
    (hmem : account ∈ state.records) : account.id ∈ state.accounts.keys :=
  AList.lookup_isSome.1 (Option.isSome_of_eq_some (get?_of_mem_records h hmem))

theorem nodup_records {state : RegistryState} (h : state.keysMatch = true) : state.records.Nodup := by
  have hids : state.records.map (·.id) = state.accounts.keys := by
    rw [records, List.map_map]
    refine List.map_congr_left fun entry hentry => ?_
    exact (of_decide_eq_true (List.all_eq_true.1 h entry hentry)).symm
  exact .of_map (·.id) (hids ▸ state.accounts.keys_nodup)

section Insert

variable {state : RegistryState} {id id' : String} {account : AccountRecord}

theorem get?_insert_self : (state.insert id account).get? id = some account :=
  AList.lookup_insert _

theorem get?_insert_of_ne (h : id' ≠ id) : (state.insert id account).get? id' = state.get? id' :=
  AList.lookup_insert_ne h

theorem keysMatch_insert (h : state.keysMatch = true) :
    (state.insert account.id account).keysMatch = true := by
  refine List.all_eq_true.2 ?_
  intro entry hentry
  have hget : (state.insert account.id account).get? entry.1 = some entry.2 :=
    AList.mem_lookup_iff.2 hentry
  refine decide_eq_true ?_
  by_cases heq : entry.1 = account.id
  · rw [heq, get?_insert_self] at hget
    rw [← Option.some.inj hget]
    exact heq
  · rw [get?_insert_of_ne heq] at hget
    exact (get?_id h hget).symm

theorem records_insert (h : state.get? id = none) :
    (state.insert id account).records = account :: state.records := by
  rw [records, insert, AList.entries_insert_of_notMem (AList.lookup_eq_none.1 h)]
  rfl

end Insert

end RegistryState

theorem AccountRecord.validateAccountId_of_validate {account : AccountRecord}
    (h : account.validate = .ok ()) : validateAccountId account.id = .ok () := by
  obtain ⟨⟨⟩, hid, -⟩ := bind_eq_ok.1 h
  exact hid

theorem validateActive_eq_ok {state : RegistryState} (h : state.Valid) :
    validateActive state = .ok () := by
  have hactive := h.active
  unfold RegistryState.activeRegistered at hactive
  unfold validateActive
  split
  · rfl
  rename_i hne
  simp only [hne, Bool.false_or] at hactive
  obtain ⟨account, hacc⟩ := Option.isSome_iff_exists.1 hactive
  have hid := RegistryState.get?_id h.keys hacc
  have hvalid := AccountRecord.validateAccountId_of_validate
    (h.records account (RegistryState.mem_records_of_get? hacc))
  rw [hid] at hvalid
  simp [hvalid, hactive, bind, Except.bind, Result.require]

theorem activeRegistered_of_validateActive {state : RegistryState}
    (h : validateActive state = .ok ()) : state.activeRegistered = true := by
  unfold validateActive at h
  unfold RegistryState.activeRegistered
  split at h
  · simp [*]
  · have h := ok_of_bind h
    rw [require_eq_ok] at h
    simp [h]

variable {jsonLength : RegistryState → ℕ}

theorem saveUnlocked_eq_ok {state : RegistryState}
    {file : RegistryFile} (h : saveUnlocked jsonLength state = .ok file) :
    ∃ saved : RegistryState, saved = { state with version := registryVersion } ∧ saved.Valid ∧
      jsonLength saved + 1 ≤ maxRegistryBytes ∧
      file = { size := jsonLength saved + 1, document := some saved } := by
  obtain ⟨⟨⟩, hrec, h⟩ := bind_eq_ok.1 h
  obtain ⟨⟨⟩, hkeys, h⟩ := bind_eq_ok.1 h
  obtain ⟨⟨⟩, hactive, h⟩ := bind_eq_ok.1 h
  obtain ⟨⟨⟩, hsize, h⟩ := bind_eq_ok.1 h
  cases h
  rw [require_eq_ok] at hkeys hactive hsize
  exact ⟨_, rfl, ⟨rfl, hkeys, forM_eq_ok.1 hrec, hactive⟩, hsize, rfl⟩

theorem saveUnlocked_of_valid {state : RegistryState}
    (h : RegistryState.Valid { state with version := registryVersion })
    (hsize : jsonLength { state with version := registryVersion } + 1 ≤ maxRegistryBytes) :
    saveUnlocked jsonLength state =
      .ok { size := jsonLength { state with version := registryVersion } + 1
            document := some { state with version := registryVersion } } := by
  refine bind_eq_ok.2 ⟨⟨⟩, forM_eq_ok.2 h.records, ?_⟩
  refine bind_eq_ok.2 ⟨(), require_eq_ok.2 h.keys, ?_⟩
  refine bind_eq_ok.2 ⟨(), require_eq_ok.2 h.active, ?_⟩
  exact bind_eq_ok.2 ⟨(), require_eq_ok.2 hsize, rfl⟩

theorem loadUnlocked_saveUnlocked {state : RegistryState}
    {file : RegistryFile} (h : saveUnlocked jsonLength state = .ok file) :
    loadUnlocked (some file) = .ok { state with version := registryVersion } := by
  obtain ⟨saved, hsaved, hvalid, hsize, rfl⟩ := saveUnlocked_eq_ok h
  have hupg : saved.upgrade = saved := by simp [RegistryState.upgrade, hvalid.version,
    registryVersion]
  rw [← hsaved]
  refine bind_eq_ok.2 ⟨(), require_eq_ok.2 hsize, ?_⟩
  rw [if_neg (Nat.succ_ne_zero _)]
  refine bind_eq_ok.2 ⟨saved, rfl, ?_⟩
  simp only [hupg]
  refine bind_eq_ok.2 ⟨(), require_eq_ok.2 hvalid.version, ?_⟩
  refine bind_eq_ok.2 ⟨(), require_eq_ok.2 hvalid.keys, ?_⟩
  refine bind_eq_ok.2 ⟨(), mapError_eq_ok.2 (forM_eq_ok.2 hvalid.records), ?_⟩
  exact bind_eq_ok.2 ⟨(), validateActive_eq_ok hvalid, rfl⟩

theorem loadUnlocked_valid {file : Option RegistryFile} {state : RegistryState}
    (h : loadUnlocked file = .ok state) : state.Valid := by
  have hempty : RegistryState.empty.Valid :=
    ⟨rfl, rfl, by simp [RegistryState.records, RegistryState.empty], rfl⟩
  cases file with
  | none =>
    cases h
    exact hempty
  | some file =>
    have h := ok_of_bind h
    split at h
    · cases h
      exact hempty
    obtain ⟨document, -, h⟩ := bind_eq_ok.1 h
    obtain ⟨⟨⟩, hver, h⟩ := bind_eq_ok.1 h
    obtain ⟨⟨⟩, hkeys, h⟩ := bind_eq_ok.1 h
    obtain ⟨⟨⟩, hrec, h⟩ := bind_eq_ok.1 h
    obtain ⟨⟨⟩, hactive, h⟩ := bind_eq_ok.1 h
    cases h
    rw [require_eq_ok] at hver hkeys
    rw [mapError_eq_ok] at hrec
    exact ⟨hver, hkeys, forM_eq_ok.1 hrec,
      activeRegistered_of_validateActive hactive⟩

end CodexMarathon
