/-
**Exporting a backup of accounts.**

An export reads the selected accounts under the shared state lock, with the credentials that their
references load, and writes them as an encrypted manifest.  Encryption, JSON and dates are the work
of other crates; base64 is modelled.
-/

import CodexMarathon.Lib.Base64
import CodexMarathon.Transfer.Import
import Mathlib.Data.List.Sort

namespace CodexMarathon.Transfer

open Auth Result Prog

def maxPlaintextBytes : ℕ := 16 * 1024 * 1024

def maxCiphertextBytes : ℕ := maxPlaintextBytes + 64 * 1024

def maxHeaderBytes : ℕ := 8 * 1024

def minPassphraseChars : ℕ := 12

/-- `chrono`, `serde_json` and `age`, besides what an import needs. -/
structure Crates extends Config where
  toRfc3339 : DateTime → String
  encodeManifest : Manifest → Option Bytes
  decodeManifest : Bytes → Option Manifest
  /-- The `age` files of a plaintext; each encryption draws random values. -/
  Encrypts : String → Bytes → Bytes → Prop
  /-- `Decryptor::new_buffered`, and whether the file is for a passphrase. -/
  readHeader : Bytes → Option Bool
  /-- The bytes up to the end, or up to a part that is not authentic, and whether it is the end. -/
  decrypt : String → Bytes → Option (Bytes × Bool)

def headerMark : Bytes := asciiBytes "\n--- "

def headerEnd (ciphertext : Bytes) : Option ℕ :=
  let start := ciphertext.take maxHeaderBytes
  (List.range (start.length - 4)).find? fun i => (start.drop i).take 5 = headerMark

/-- The reading of a backup in `import_accounts`, once the file is open. -/
def openArchive (crates : Crates) (passphrase : String) (ciphertext : Bytes) :
    Except TransferError Manifest := do
  Result.require (ciphertext.length ≤ maxCiphertextBytes) .limit
  let header ← Result.okOr (headerEnd ciphertext) .format
  Result.require (header + 49 ≤ maxHeaderBytes) .limit
  let scrypt ← Result.okOr (crates.readHeader ciphertext) .decryption
  Result.require (scrypt = true) .format
  let read ← Result.okOr (crates.decrypt passphrase ciphertext) .decryption
  -- no more is read than fits, so what comes after is not looked at
  Result.require (read.1.length ≤ maxPlaintextBytes) .limit
  Result.require (read.2 = true) .decryption
  Result.okOr (crates.decodeManifest read.1) .format

/-! ### The export -/

def validateExportPassphrase (passphrase : String) : Except TransferError Unit :=
  Result.require
    (!(passphrase.toList.length < minPassphraseChars || maxPassphraseBytes < passphrase.utf8ByteSize
      || isBlank passphrase || passphrase.toList.any (· ∈ ['\x00', '\n', '\r'])))
    .passphrase

/-- The selected ids as a `BTreeSet`: without duplicates, in order. -/
def selectedIds (selected : List String) : List String :=
  selected.dedup.insertionSort (· ≤ ·)

variable [Externals]

/-- The archive is encrypted into a temporary file, which then takes the place of the output. -/
inductive ExportCall
  | checkedOutput (overwrite : Bool)
  | lockShared
  | stateLocked
  | loadLocked (key : String)
  | now
  | encrypt (passphrase : String) (plaintext : Bytes)
  | persist (archive : Bytes) (overwrite : Bool)
  | syncDir

abbrev ExportCall.Ans : ExportCall → Type
  | .checkedOutput _ => Except TransferError Unit
  | .lockShared => Except DomainError Unit
  | .stateLocked => Except DomainError RegistryState
  | .loadLocked _ => Except DomainError AuthSnapshot
  | .now => DateTime
  | .encrypt _ _ => Except TransferError Bytes
  | .persist _ _ => Except TransferError Unit
  | .syncDir => Except TransferError Unit

abbrev ExportM (α : Type) : Type := ExceptT TransferError (Prog ExportCall ExportCall.Ans) α

structure ExportReport where
  accounts : List AccountSummary
deriving DecidableEq, Repr

namespace Export

def call (c : ExportCall) : Prog ExportCall ExportCall.Ans c.Ans := Prog.perform c

abbrev check {α : Type} (x : Except TransferError α) : ExportM α := liftM x

/-- A turn of the loop of `export_accounts`, up to the check of the size. -/
def entry (state : RegistryState) (id : String) : ExportM BackupAccount := do
  let account ← check (Result.okOr (state.get? id) .selection)
  let snapshot ← Prog.orFail (call (.loadLocked account.effectiveRef)) stateError
  check (Result.require (snapshot.embeddedAccountId = some id) .format)
  pure { id, aliasName := account.aliasName, snapshot := Base64.encode snapshot.bytes }

/-- The loop of `export_accounts`; `size` is that of the snapshots before. -/
def entries (state : RegistryState) (size : ℕ) : List String → ExportM (List BackupAccount)
  | [] => pure []
  | id :: rest => do
      let account ← entry state id
      let size := size + account.snapshot.utf8ByteSize
      check (Result.require (size ≤ maxPlaintextBytes) .limit)
      let others ← entries state size rest
      pure (account :: others)

end Export

def exporterVersion : String := "0.160.0"

def Crates.manifest (crates : Crates) (now : DateTime) (accounts : List BackupAccount) : Manifest where
  format := "codexmarathon-accounts"
  version := 1
  createdAt := crates.toRfc3339 now
  exporterVersion := exporterVersion
  accounts := accounts

def exportAccounts (crates : Crates) (selected : List String) (passphrase : String)
    (overwrite : Bool) : ExportM ExportReport := do
  Export.check (validateExportPassphrase passphrase)
  let ids := selectedIds selected
  Export.check (Result.require
    (ids ≠ [] ∧ ids.length = selected.length ∧ ids.length ≤ maxAccounts) .selection)
  Prog.orFail (Export.call (.checkedOutput overwrite)) id
  Prog.orFail (Export.call .lockShared) stateError
  let state ← Prog.orFail (Export.call .stateLocked) stateError
  let accounts ← Export.entries state 0 ids
  let now ← Export.call .now
  let plaintext ← Export.check
    (Result.okOr (crates.encodeManifest (crates.manifest now accounts)) .format)
  Export.check (Result.require (plaintext.length ≤ maxPlaintextBytes) .limit)
  let archive ← Prog.orFail (Export.call (.encrypt passphrase plaintext)) id
  Prog.orFail (Export.call (.checkedOutput overwrite)) id
  Prog.orFail (Export.call (.persist archive overwrite)) id
  Prog.orFail (Export.call .syncDir) id
  pure ⟨accounts.map fun account => ⟨account.id, account.aliasName⟩⟩

/-! ### What an export runs in -/

structure Exporter where
  store : Store
  clock : DateTime
  output : Option Bytes

def ExportCall.Effect (crates : Crates) : (c : ExportCall) → Exporter → c.Ans → Exporter → Prop
  | .stateLocked, s, a, s' => s' = s ∧ ∀ state, a = .ok state → s.store.stateLocked = .ok state
  | .loadLocked key, s, a, s' =>
    s' = s ∧ ∀ snapshot, a = .ok snapshot → s.store.loadLocked key = .ok snapshot
  | .now, s, a, s' => s' = s ∧ a = s.clock
  | .encrypt passphrase plaintext, s, a, s' =>
    s' = s ∧ ∀ archive, a = .ok archive → crates.Encrypts passphrase plaintext archive
  | .persist archive _, s, a, s' =>
    s' = { s with output := some archive } ∨ (∃ e, a = .error e) ∧ s' = s
  | _, s, _, s' => s' = s

structure Backed (store : Store) (state : RegistryState) (id : String) (account : BackupAccount)
    (record : AccountRecord) (snapshot : AuthSnapshot) : Prop where
  get : state.get? id = some record
  load : store.loadLocked record.effectiveRef = .ok snapshot
  named : snapshot.embeddedAccountId = some id
  eq : account = { id, aliasName := record.aliasName, snapshot := Base64.encode snapshot.bytes }

structure Exported (crates : Crates) (s : Exporter) (selected : List String) (passphrase : String)
    (state : RegistryState) (accounts : List BackupAccount) (plaintext archive : Bytes) : Prop where
  valid : validateExportPassphrase passphrase = .ok ()
  ids : selectedIds selected ≠ [] ∧ (selectedIds selected).length = selected.length ∧
    (selectedIds selected).length ≤ maxAccounts
  read : s.store.stateLocked = .ok state
  backed : List.Forall₂ (fun id account => ∃ record snapshot,
    Backed s.store state id account record snapshot) (selectedIds selected) accounts
  encoded : crates.encodeManifest (crates.manifest s.clock accounts) = some plaintext
  fits : plaintext.length ≤ maxPlaintextBytes
  encrypted : crates.Encrypts passphrase plaintext archive

def exportSemantics (crates : Crates) : Prog.Semantics ExportCall ExportCall.Ans Exporter :=
  ⟨fun _ _ => True, ExportCall.Effect crates⟩

section Spec

variable {crates : Crates} {s : Exporter} {state : RegistryState}

omit [Externals] in
theorem outcome_read {δ α : Type} {P : α → Prop} {r : Except δ α} {s' : Exporter} (hs : s' = s)
    (h : ∀ v, r = .ok v → P v) : Prog.Outcome (fun v t => s = t ∧ P v) (fun _ => True) r s' := by
  cases r with
  | ok v => exact ⟨hs.symm, h v rfl⟩
  | error e => trivial

theorem safe_entry (id : String) : (Export.entry state id).run.Safe (exportSemantics crates)
      (Prog.Outcome (fun account t => s = t ∧ ∃ record snapshot,
        Backed s.store state id account record snapshot) fun _ => True) s := by
  refine safe_then (safe_lift trivial fun record h => ?_)
  have hget := okOr_eq_ok.1 h
  refine safe_seq
    (safe_orFail ⟨trivial, fun a s' h => outcome_read h.1 h.2⟩) ?_
  rintro snapshot _ ⟨rfl, hload⟩
  refine safe_then (safe_lift trivial fun _ h => ?_)
  have hnamed := require_eq_ok.1 h
  exact ⟨rfl, record, snapshot, hget, hload, hnamed, rfl⟩

theorem safe_entries (size : ℕ) (ids : List String) :
    (Export.entries state size ids).run.Safe (exportSemantics crates)
      (Prog.Outcome (fun accounts t => s = t ∧ List.Forall₂ (fun id account =>
        ∃ record snapshot, Backed s.store state id account record snapshot) ids accounts)
        fun _ => True) s := by
  induction ids generalizing size with
  | nil => exact ⟨rfl, .nil⟩
  | cons id ids ih =>
    refine safe_seq (safe_entry id) ?_
    rintro account _ ⟨rfl, hbacked⟩
    refine safe_then (safe_lift trivial fun _ _ => ?_)
    refine safe_seq (ih _) ?_
    rintro accounts _ ⟨rfl, hothers⟩
    exact ⟨rfl, .cons hbacked hothers⟩

theorem safe_exportAccounts (crates : Crates) (s : Exporter) (selected : List String)
    (passphrase : String) (overwrite : Bool) :
    (exportAccounts crates selected passphrase overwrite).run.Safe (exportSemantics crates)
      (Prog.Outcome (fun report t => ∃ state accounts plaintext archive,
        Exported crates s selected passphrase state accounts plaintext archive ∧
        t.output = some archive ∧
        report.accounts = accounts.map fun account => ⟨account.id, account.aliasName⟩)
        fun _ => True) s := by
  have hquiet : ∀ {δ : Type} {r : Except δ Unit} {s' : Exporter}, s' = s →
      Prog.Outcome (fun _ t => s = t) (fun _ => True) r s' := by
    rintro δ (e | v) s' h
    · trivial
    · exact h.symm
  refine safe_then (safe_lift trivial fun _ hvalid => ?_)
  refine safe_then (safe_lift trivial fun _ h => ?_)
  have hids := require_eq_ok.1 h
  refine safe_seq (safe_orFail ⟨trivial, fun _ _ h => hquiet h⟩) ?_
  rintro _ _ rfl
  refine safe_seq (safe_orFail ⟨trivial, fun _ _ h => hquiet h⟩) ?_
  rintro _ _ rfl
  refine safe_seq
    (safe_orFail ⟨trivial, fun a s' h => outcome_read h.1 h.2⟩) ?_
  rintro state _ ⟨rfl, hread⟩
  refine safe_seq (safe_entries 0 (selectedIds selected)) ?_
  rintro accounts _ ⟨rfl, hbacked⟩
  refine safe_seq (Q := fun now t => s = t ∧ now = s.clock)
    (safe_liftProg ⟨trivial, fun _ _ h => ⟨h.1.symm, h.2⟩⟩) ?_
  rintro _ _ ⟨rfl, rfl⟩
  refine safe_then (safe_lift trivial fun plaintext h => ?_)
  have hencod := okOr_eq_ok.1 h
  refine safe_then (safe_lift trivial fun _ h => ?_)
  have hfits := require_eq_ok.1 h
  refine safe_seq
    (safe_orFail ⟨trivial, fun a s' h => outcome_read h.1 h.2⟩) ?_
  rintro archive _ ⟨rfl, henc⟩
  have hexp : Exported crates s selected passphrase state accounts plaintext archive :=
    ⟨hvalid, hids, hread, hbacked, hencod, hfits, henc⟩
  refine safe_seq (safe_orFail ⟨trivial, fun _ _ h => hquiet h⟩) ?_
  rintro _ _ rfl
  refine safe_seq (Q := fun _ t => t.output = some archive)
    (safe_orFail ⟨trivial, ?_⟩) ?_
  · rintro (e | v) t h
    · trivial
    · rcases h with rfl | ⟨⟨e, he⟩, -⟩
      · rfl
      · cases he
  intro _ t ht
  refine safe_seq (Q := fun _ t => t.output = some archive)
    (safe_orFail ⟨trivial, ?_⟩) ?_
  · rintro (e | v) _ rfl
    · trivial
    · exact ht
  intro _ t ht
  exact ⟨state, accounts, plaintext, archive, hexp, ht, rfl⟩

end Spec

theorem exported_of_runs {crates : Crates} {s s' : Exporter} {selected : List String}
    {passphrase : String} {overwrite : Bool} {report : ExportReport}
    (h : Prog.Runs (ExportCall.Effect crates)
      (exportAccounts crates selected passphrase overwrite).run s (.ok report) s') :
    ∃ state accounts plaintext archive,
      Exported crates s selected passphrase state accounts plaintext archive ∧
      s'.output = some archive ∧
      report.accounts = accounts.map fun account => ⟨account.id, account.aliasName⟩ :=
  (safe_exportAccounts crates s selected passphrase overwrite).of_runs
    h

def Plain (record : AccountRecord) : Prop :=
  record.validate = .ok () ∧ record.metadata = [] ∧ record.telemetrySource = ""

/-- An `age` file is a short header, a nonce of 16 bytes, and the plaintext in parts of 64 KiB, each
with a tag of 16 bytes. -/
structure Crates.Lawful (crates : Crates) : Prop where
  base64 : ∀ bytes, crates.decodeBase64 (Base64.encode bytes) = some bytes
  json : ∀ {manifest bytes}, crates.encodeManifest manifest = some bytes →
    crates.decodeManifest bytes = some manifest
  header : ∀ {passphrase plaintext archive}, crates.Encrypts passphrase plaintext archive →
    ∃ mark, headerEnd archive = some mark ∧ mark + 49 ≤ maxHeaderBytes ∧ archive.length =
      mark + 49 + 16 + plaintext.length + 16 * max 1 ((plaintext.length + 65535) / 65536)
  scrypt : ∀ {passphrase plaintext archive}, crates.Encrypts passphrase plaintext archive →
    crates.readHeader archive = some true
  decrypt : ∀ {passphrase plaintext archive}, crates.Encrypts passphrase plaintext archive →
    crates.decrypt passphrase archive = some (plaintext, true)
  registry : ∀ state : RegistryState, state.activeAccountId = "" →
    (∀ record ∈ state.records, Plain record) →
    Externals.registryJsonLength state ≤ 4096 * (state.records.length + 1)

theorem Exported.openArchive_eq_ok {crates : Crates} {s : Exporter} {selected : List String}
    {passphrase : String} {state : RegistryState} {accounts : List BackupAccount}
    {plaintext archive : Bytes} (hlaws : crates.Lawful)
    (h : Exported crates s selected passphrase state accounts plaintext archive) :
    openArchive crates passphrase archive = .ok (crates.manifest s.clock accounts) := by
  obtain ⟨mark, hmark, hheader, hlength⟩ := hlaws.header h.encrypted
  have hsize : archive.length ≤ maxCiphertextBytes := by
    have hplain : plaintext.length ≤ 16777216 := h.fits
    have hmark : mark + 49 ≤ 8192 := hheader
    have hmax : maxCiphertextBytes = 16842752 := rfl
    omega
  refine bind_eq_ok.2 ⟨(), require_eq_ok.2 hsize, ?_⟩
  refine bind_eq_ok.2 ⟨mark, okOr_eq_ok.2 hmark, ?_⟩
  refine bind_eq_ok.2 ⟨(), require_eq_ok.2 hheader, ?_⟩
  refine bind_eq_ok.2 ⟨true, okOr_eq_ok.2 (hlaws.scrypt h.encrypted), ?_⟩
  refine bind_eq_ok.2 ⟨(), require_eq_ok.2 rfl, ?_⟩
  refine bind_eq_ok.2 ⟨(plaintext, true), okOr_eq_ok.2 (hlaws.decrypt h.encrypted), ?_⟩
  refine bind_eq_ok.2 ⟨(), require_eq_ok.2 h.fits, ?_⟩
  refine bind_eq_ok.2 ⟨(), require_eq_ok.2 rfl, ?_⟩
  exact okOr_eq_ok.2 (hlaws.json h.encoded)

end CodexMarathon.Transfer
