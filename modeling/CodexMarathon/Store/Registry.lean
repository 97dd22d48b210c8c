/-
**Changes to the account registry.**

Every operation reads the document, edits it and publishes the result, all under the state lock.
The checks of a read are not those of a write; what is published is read back all the same.  An
upsert may be given a record that was read long before, but never moves an account to other
credentials.
-/

import CodexMarathon.Store.Vault

namespace CodexMarathon

open Result RegistryState

namespace AccountRecord

/-- The reference and the times are filled in: `now` for a creation time that is missing, `later`
after it. -/
def stamped (account : AccountRecord) (now later : DateTime) : AccountRecord :=
  { account with
    credentialRef := account.effectiveRef
    createdAt := if account.createdAt.isZero then now else account.createdAt
    updatedAt := later }

/-- What `upsert` takes over from the record it replaces. -/
def keeping (account existing : AccountRecord) : Except DomainError AccountRecord := do
  Result.require (account.credentialRef = "" ∨ account.credentialRef = existing.credentialRef)
    (.invalidAccountRecord "credential reference changed; retry")
  pure { account with
    credentialRef :=
      if account.credentialRef.isEmpty then existing.credentialRef else account.credentialRef
    createdAt := if account.createdAt.isZero then existing.createdAt else account.createdAt
    lastTelemetryAt := account.lastTelemetryAt.or existing.lastTelemetryAt
    telemetrySource :=
      if account.telemetrySource.isEmpty then existing.telemetrySource else account.telemetrySource
    credentialHealth :=
      if account.credentialHealth = .unknown then existing.credentialHealth
      else account.credentialHealth }

def upserted (account : AccountRecord) (existing : Option AccountRecord) (now later : DateTime) :
    Except DomainError AccountRecord := do
  let kept ← existing.elim (.ok account) account.keeping
  (kept.stamped now later).validate
  pure (kept.stamped now later)

variable {account existing record : AccountRecord} {now later : DateTime}

theorem keeping_eq_ok (h : account.keeping existing = .ok record) :
    record.id = account.id ∧ record.credentialRef = existing.credentialRef := by
  obtain ⟨⟨⟩, href, h⟩ := bind_eq_ok.1 h
  cases h
  refine ⟨rfl, ?_⟩
  rcases require_eq_ok.1 href with href | href
  · simp [href]
  · simp only [href]
    split_ifs <;> rfl

theorem effectiveRef_stamped : (account.stamped now later).effectiveRef = account.effectiveRef := by
  change (if account.effectiveRef.isEmpty then account.id else account.effectiveRef) = _
  unfold effectiveRef
  split_ifs <;> rfl

theorem effectiveRef_upserted (hid : existing.id = account.id)
    (h : account.upserted (some existing) now later = .ok record) :
    record.effectiveRef = existing.effectiveRef := by
  obtain ⟨kept, hkept, h⟩ := bind_eq_ok.1 h
  have h := ok_of_bind h
  cases h
  obtain ⟨hkeptId, href⟩ := keeping_eq_ok hkept
  rw [effectiveRef_stamped, effectiveRef, effectiveRef, href, hkeptId, hid]

end AccountRecord

variable [Externals]

namespace Store

section Operations

variable (s : Store)

/-- Every change: arguments are checked, the registry is read, edited, published. -/
def update (check : Except DomainError Unit)
    (edit : RegistryState → Except DomainError RegistryState) : Except DomainError Store := do
  check
  let state ← s.stateLocked
  let edited ← edit state
  s.replaceLocked edited

def register (account : AccountRecord) (now : DateTime) : Except DomainError Store :=
  s.update account.validate fun state => do
    Result.require ((state.get? account.id).isNone = true) .accountExists
    pure (state.insert account.id (account.stamped now now))

def upsert (account : AccountRecord) (now later : DateTime) : Except DomainError Store :=
  s.update (validateAccountId account.id >>= fun _ => validateAlias account.aliasName) fun state => do
    let record ← account.upserted (state.get? account.id) now later
    pure (state.insert account.id record)

def setActive (id : String) : Except DomainError Store :=
  s.update (validateAccountId id) fun state => do
    Result.require ((state.get? id).isSome = true) .accountNotFound
    pure { state with activeAccountId := id }

def clearActive : Except DomainError Store :=
  s.update (.ok ()) fun state => pure { state with activeAccountId := "" }

def remove (id : String) (force : Bool) : Except DomainError Store :=
  s.update (validateAccountId id) fun state => do
    Result.require ((state.get? id).isSome = true) .accountNotFound
    Result.require (state.activeAccountId ≠ id ∨ force = true) .accountIsActive
    pure { state with
      accounts := state.accounts.erase id
      activeAccountId := if state.activeAccountId = id then "" else state.activeAccountId }

def get (id : String) : Except DomainError AccountRecord := do
  validateAccountId id
  let state ← s.stateLocked
  Result.okOr (state.get? id) .accountNotFound

def list : Except DomainError (List AccountRecord) := s.stateLocked.map (·.records)

def active : Except DomainError (Option AccountRecord) :=
  s.stateLocked.map fun state => state.get? state.activeAccountId

def enabled : Except DomainError Bool := s.stateLocked.map (·.enabled)

end Operations

end Store

/-- `state` is also `preview_state` and `state_locked`. -/
inductive RegistryOp
  | register (account : AccountRecord)
  | upsert (account : AccountRecord)
  | setActive (id : String)
  | clearActive
  | remove (id : String) (force : Bool)
  | setEnabled (enabled : Bool)
  | setActiveLocked (id : String)
  | replaceLocked (state : RegistryState)
  | get (id : String)
  | list
  | active
  | state
  | enabled

namespace RegistryOp

def isRead : RegistryOp → Bool
  | .get _ | .list | .active | .state | .enabled => true
  | _ => false

def account : RegistryOp → Option String
  | .register account | .upsert account => some account.id
  | .remove id _ => some id
  | _ => none

end RegistryOp

/-- An operation, the readings of the clock, and whether taking the lock or writing the file fails.
-/
structure RegistryRequest where
  op : RegistryOp
  now : DateTime
  later : DateTime
  lockFault : Option DomainError
  writeFault : Option DomainError

namespace Store

def perform (s : Store) (now later : DateTime) : RegistryOp → Except DomainError Store
  | .register account => s.register account now
  | .upsert account => s.upsert account now later
  | .setActive id => s.setActive id
  | .clearActive => s.clearActive
  | .remove id force => s.remove id force
  | .setEnabled enabled => s.setEnabled enabled
  | .setActiveLocked id => s.setActiveLocked id
  | .replaceLocked state => s.replaceLocked state
  | .get id => (s.get id).map fun _ => s
  | .list => s.list.map fun _ => s
  | .active => s.active.map fun _ => s
  | .state => s.stateLocked.map fun _ => s
  | .enabled => s.enabled.map fun _ => s

/-- A write that fails comes after every check, and a read writes nothing. -/
def attempt (s : Store) (r : RegistryRequest) : Except DomainError Unit × Store :=
  match r.lockFault, s.perform r.now r.later r.op with
  | some e, _ => (.error e, s)
  | none, .error e => (.error e, s)
  | none, .ok s' =>
    match r.writeFault with
    | some e => if r.op.isRead then (.ok (), s') else (.error e, s)
    | none => (.ok (), s')

def after (s : Store) (requests : List RegistryRequest) : Store :=
  requests.foldl (fun s r => (s.attempt r).2) s

/-! ### One operation -/

variable {s s' : Store} {now later : DateTime} {op : RegistryOp} {r : RegistryRequest}

def Written (s : Store) (op : RegistryOp) (written : RegistryState) : Prop :=
  op = .replaceLocked written ∨ ∃ state, s.stateLocked = .ok state ∧
    ∀ id, op.account ≠ some id → written.get? id = state.get? id

theorem update_eq_ok {check : Except DomainError Unit}
    {edit : RegistryState → Except DomainError RegistryState} (h : s.update check edit = .ok s') :
    ∃ state edited, s.stateLocked = .ok state ∧ edit state = .ok edited ∧
      s.replaceLocked edited = .ok s' := by
  have h := ok_of_bind h
  obtain ⟨state, hstate, h⟩ := bind_eq_ok.1 h
  obtain ⟨edited, hedit, h⟩ := bind_eq_ok.1 h
  exact ⟨state, edited, hstate, hedit, h⟩

theorem written_of_update {check : Except DomainError Unit}
    {edit : RegistryState → Except DomainError RegistryState} (h : s.update check edit = .ok s')
    (hedit : ∀ {state edited}, edit state = .ok edited →
      ∀ id, op.account ≠ some id → edited.get? id = state.get? id) :
    ∃ written, s.Written op written ∧ s.replaceLocked written = .ok s' := by
  obtain ⟨state, edited, hstate, hed, h⟩ := update_eq_ok h
  exact ⟨edited, .inr ⟨state, hstate, hedit hed⟩, h⟩

theorem perform_eq_ok (h : s.perform now later op = .ok s') :
    (op.isRead = true ∧ s' = s) ∨ (op.isRead = false ∧
      ∃ written, s.Written op written ∧ s.replaceLocked written = .ok s') := by
  cases op with
  | register account =>
    refine .inr ⟨rfl, written_of_update h fun hedit id hid => ?_⟩
    have hedit := ok_of_bind hedit
    cases hedit
    exact get?_insert_of_ne fun heq => hid (congrArg some heq.symm)
  | upsert account =>
    refine .inr ⟨rfl, written_of_update h fun hedit id hid => ?_⟩
    obtain ⟨record, -, hedit⟩ := bind_eq_ok.1 hedit
    cases hedit
    exact get?_insert_of_ne fun heq => hid (congrArg some heq.symm)
  | setActive id =>
    refine .inr ⟨rfl, written_of_update h fun hedit _ _ => ?_⟩
    have hedit := ok_of_bind hedit
    cases hedit
    rfl
  | clearActive =>
    refine .inr ⟨rfl, written_of_update h fun hedit _ _ => ?_⟩
    cases hedit
    rfl
  | remove id force =>
    refine .inr ⟨rfl, written_of_update h fun hedit id' hid => ?_⟩
    have hedit := ok_of_bind hedit
    have hedit := ok_of_bind hedit
    cases hedit
    exact AList.lookup_erase_ne fun heq => hid (congrArg some heq.symm)
  | setEnabled enabled =>
    obtain ⟨state, hstate, h⟩ := bind_eq_ok.1 h
    exact .inr ⟨rfl, { state with enabled }, .inr ⟨state, hstate, fun _ _ => rfl⟩, h⟩
  | setActiveLocked id =>
    obtain ⟨state, hstate, h⟩ := bind_eq_ok.1 h
    have h := ok_of_bind h
    exact .inr ⟨rfl, { state with activeAccountId := id }, .inr ⟨state, hstate, fun _ _ => rfl⟩, h⟩
  | replaceLocked state => exact .inr ⟨rfl, state, .inl rfl, h⟩
  | get | list | active | state | enabled =>
    obtain ⟨_, -, rfl⟩ := map_eq_ok.1 h
    exact .inl ⟨rfl, rfl⟩

/-- What a write leaves: a document that is read back as it was written. -/
structure Publishes (s s' : Store) (op : RegistryOp) (written : RegistryState) : Prop where
  asked : s.Written op written
  document : ∃ file, s'.registry = some file ∧
    file.document = some { written with version := registryVersion }
  read : s'.stateLocked = .ok { written with version := registryVersion }
  valid : RegistryState.Valid { written with version := registryVersion }
  vault : s'.vault = s.vault

theorem publishes_of_replaceLocked {written : RegistryState} (hasked : s.Written op written)
    (h : s.replaceLocked written = .ok s') : s.Publishes s' op written := by
  obtain ⟨hread, hvault⟩ := replaceLocked_eq_ok h
  obtain ⟨file, hfile, h⟩ := bind_eq_ok.1 h
  cases h
  obtain ⟨saved, rfl, hvalid, -, hdoc⟩ := saveUnlocked_eq_ok hfile
  exact ⟨hasked, ⟨file, rfl, by rw [hdoc]⟩, hread, hvalid, hvault⟩

/-- **A request** fails and leaves the stores, or reads, or publishes what it was asked for. -/
theorem attempt_cases (s : Store) (r : RegistryRequest) :
    (∃ e, s.attempt r = (.error e, s)) ∨ (r.op.isRead = true ∧ s.attempt r = (.ok (), s)) ∨
      (r.op.isRead = false ∧ ∃ s' written, s.perform r.now r.later r.op = .ok s' ∧
        s.attempt r = (.ok (), s') ∧ s.Publishes s' r.op written) := by
  unfold attempt
  cases r.lockFault with
  | some e => exact .inl ⟨e, rfl⟩
  | none =>
    cases hperform : s.perform r.now r.later r.op with
    | error e => exact .inl ⟨e, rfl⟩
    | ok s' =>
      rcases perform_eq_ok hperform with ⟨hread, rfl⟩ | ⟨hread, written, hasked, hwrite⟩
      · refine .inr (.inl ⟨hread, ?_⟩)
        cases r.writeFault <;> simp [hread]
      · have hpub := publishes_of_replaceLocked hasked hwrite
        cases r.writeFault with
        | some e => exact .inl ⟨e, by simp [hread]⟩
        | none => exact .inr (.inr ⟨hread, s', written, rfl, rfl, hpub⟩)

omit [Externals] in
theorem get?_of_loadUnlocked {file : RegistryFile} {document state : RegistryState}
    (hsize : file.size ≠ 0) (hdoc : file.document = some document)
    (h : loadUnlocked (some file) = .ok state) :
    state = { document with version := registryVersion } := by
  have hversion := (loadUnlocked_valid h).version
  have h := ok_of_bind h
  rw [if_neg hsize] at h
  obtain ⟨found, hfound, h⟩ := bind_eq_ok.1 h
  rw [okOr_eq_ok, hdoc] at hfound
  cases hfound
  have h := ok_of_bind h
  have h := ok_of_bind h
  have h := ok_of_bind h
  have h := ok_of_bind h
  cases h
  rw [← hversion]
  unfold upgrade
  split_ifs <;> rfl

theorem registry_after (s : Store) (requests : List RegistryRequest) :
    (s.after requests).registry = s.registry ∨ ∃ state, (s.after requests).stateLocked = .ok state := by
  induction requests generalizing s with
  | nil => exact .inl rfl
  | cons r requests ih =>
    have hcons : s.after (r :: requests) = (s.attempt r).2.after requests := rfl
    rw [hcons]
    rcases ih (s.attempt r).2 with hsame | hread
    · rcases attempt_cases s r with ⟨e, hr⟩ | ⟨-, hr⟩ | ⟨-, s', written, -, hr, hpub⟩ <;>
        rw [hr] at hsame ⊢
      · exact .inl hsame
      · exact .inl hsame
      · rw [stateLocked, hsame]
        exact .inr ⟨_, hpub.read⟩
    · exact .inr hread

theorem upsert_effectiveRef {account existing : AccountRecord} {state : RegistryState} {id : String}
    (hstate : s.stateLocked = .ok state) (hget : state.get? id = some existing)
    (h : s.upsert account now later = .ok s') :
    ∃ state' record, s'.stateLocked = .ok state' ∧ state'.get? id = some record ∧
      record.effectiveRef = existing.effectiveRef := by
  obtain ⟨read, edited, hread, hedit, hwrite⟩ := update_eq_ok h
  rw [hstate] at hread
  cases hread
  obtain ⟨record, hrecord, hedit⟩ := bind_eq_ok.1 hedit
  cases hedit
  have hread := (replaceLocked_eq_ok hwrite).1
  by_cases hid : id = account.id
  · subst hid
    rw [hget] at hrecord
    have hexisting := get?_id (loadUnlocked_valid hstate).keys hget
    exact ⟨_, record, hread, get?_insert_self,
      AccountRecord.effectiveRef_upserted hexisting hrecord⟩
  · exact ⟨_, existing, hread, (get?_insert_of_ne hid).trans hget, rfl⟩

theorem upsert_ne_ok {account existing : AccountRecord} (hget : s.get account.id = .ok existing)
    (hempty : account.credentialRef ≠ "") (hne : account.credentialRef ≠ existing.credentialRef) :
    s.upsert account now later ≠ .ok s' := by
  intro h
  obtain ⟨state, edited, hstate, hedit, -⟩ := update_eq_ok h
  have hget := ok_of_bind hget
  obtain ⟨read, hread, hget⟩ := bind_eq_ok.1 hget
  rw [hstate] at hread
  cases hread
  obtain ⟨record, hrecord, -⟩ := bind_eq_ok.1 hedit
  rw [okOr_eq_ok.1 hget] at hrecord
  obtain ⟨kept, hkept, -⟩ := bind_eq_ok.1 hrecord
  obtain ⟨⟨⟩, href, -⟩ := bind_eq_ok.1 hkept
  exact (require_eq_ok.1 href).elim hempty hne

def moved : Store :=
  let account := { AccountRecord.sample "a" with credentialRef := freshKey .zeros "a" }
  Store.sample.after
    [⟨.replaceLocked (RegistryState.sample.insert "a" account), .sample, .sample, none, none⟩]

end Store

end CodexMarathon
