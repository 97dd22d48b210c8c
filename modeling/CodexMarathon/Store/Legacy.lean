/-
**Importing a legacy auth file.**

The import writes the vault first, then the record, then the active account, and undoes what it did
when a later step fails.  A store operation may fail without effect; a write of the registry may also
fail after its rename, with its whole effect.
-/

import CodexMarathon.Store.Listing
import CodexMarathon.Store.Registry

namespace CodexMarathon

open Result RegistryState

/-! ### The program -/

structure LegacyRequest where
  source : Except DomainError Bytes
  accountId : Option String
  aliasName : Option String
  activate : Bool
  overwrite : Bool

structure LegacyImportResult where
  accountId : String
  aliasName : String
  activated : Bool
  replaced : Bool
deriving DecidableEq

structure LegacyFaults where
  contains : Option DomainError := none
  get : Option DomainError := none
  load : Option DomainError := none
  save : Option DomainError := none
  publish : Option (DomainError × Bool) := none
  activate : Option (DomainError × Bool) := none

variable [Externals]

/-- The result, the stores, and the errors of undo operations, which are ignored. -/
structure LegacyOutcome where
  result : Except DomainError LegacyImportResult
  store : Store
  ignored : List DomainError

structure LegacyPlan where
  id : String
  snapshot : AuthSnapshot
  previousRecord : Option AccountRecord
  previousSnapshot : Option AuthSnapshot

def foundRecord : Except DomainError AccountRecord → Except DomainError (Option AccountRecord)
  | .ok record => .ok (some record)
  | .error .accountNotFound => .ok none
  | .error e => .error e

def Store.contains (s : Store) (key : String) : Except DomainError Bool :=
  (validateAccountId key).map fun _ => (s.vault key).isSome

def previousSnapshot (faults : LegacyFaults) (s : Store) (id : String) (hadSnapshot : Bool) :
    Except DomainError (Option AuthSnapshot) :=
  if hadSnapshot then (faults.load.elim (s.loadLocked id) .error).map some else .ok none

def LegacyRequest.plan (r : LegacyRequest) (faults : LegacyFaults) (s : Store) :
    Except DomainError LegacyPlan := do
  let snapshot ← r.source >>= AuthSnapshot.fromBytes none
  let id ← Result.okOr (r.accountId.or snapshot.embeddedAccountId) .invalidAccountId
  validateAccountId id
  r.aliasName.elim (.ok ()) validateAlias
  let hadSnapshot ← faults.contains.elim (s.contains id) .error
  let previousRecord ← foundRecord (faults.get.elim (s.get id) .error)
  Result.require (r.overwrite = true ∨ hadSnapshot = false ∧ previousRecord.isNone = true)
    .accountExists
  let previous ← previousSnapshot faults s id hadSnapshot
  pure ⟨id, snapshot, previousRecord, previous⟩

def writeRegistry (fault : Option (DomainError × Bool)) (s : Store)
    (written : Except DomainError Store) : Except DomainError Unit × Store :=
  match fault, written with
  | none, .ok s' => (.ok (), s')
  | none, .error e => (.error e, s)
  | some (e, true), .ok s' => (.error e, s')
  | some (e, _), _ => (.error e, s)

def undoAll (s : Store) : List (Store → Except DomainError Store) → Store × List DomainError
  | [] => (s, [])
  | undo :: rest =>
    match undo s with
    | .ok s' => undoAll s' rest
    | .error e => ((undoAll s rest).1, e :: (undoAll s rest).2)

namespace LegacyPlan

variable (p : LegacyPlan) (r : LegacyRequest) (faults : LegacyFaults) (clock : ℕ → DateTime)

def record : Except DomainError AccountRecord :=
  (p.previousRecord.elim (AccountRecord.new p.id (r.aliasName.getD p.id) (clock 0)) .ok).map
    fun record => { record with
      aliasName := r.aliasName.getD record.aliasName
      credentialRef := p.id }

def rollbackSnapshot (s : Store) : Except DomainError Store :=
  p.previousSnapshot.elim (s.delete p.id) (s.saveLocked p.id)

def rollbackRecord (s : Store) : Except DomainError Store :=
  p.previousRecord.elim (s.remove p.id true) (s.upsert · (clock 3) (clock 4))

def done (s : Store) : LegacyOutcome :=
  ⟨.ok ⟨p.id, r.aliasName.getD (p.previousRecord.elim p.id (·.aliasName)), r.activate,
    p.previousSnapshot.isSome⟩, s, []⟩

def failed (e : DomainError) (s : Store) (undos : List (Store → Except DomainError Store)) :
    LegacyOutcome :=
  ⟨.error e, (undoAll s undos).1, (undoAll s undos).2⟩

def activate (s : Store) : LegacyOutcome :=
  match writeRegistry faults.activate s (s.setActive p.id) with
  | (.error e, t) => failed e t [p.rollbackRecord clock, p.rollbackSnapshot]
  | (.ok _, t) => p.done r t

def publish (s : Store) : LegacyOutcome :=
  match p.record r clock with
  | .error e => ⟨.error e, s, []⟩
  | .ok record =>
    match writeRegistry faults.publish s (if p.previousRecord.isSome then
      s.upsert record (clock 1) (clock 2) else s.register record (clock 1)) with
    | (.error e, t) => failed e t [p.rollbackSnapshot]
    | (.ok _, t) => if r.activate then p.activate r faults clock t else p.done r t

end LegacyPlan

def importLegacyAuth (r : LegacyRequest) (faults : LegacyFaults) (clock : ℕ → DateTime)
    (s : Store) : LegacyOutcome :=
  match r.plan faults s with
  | .error e => ⟨.error e, s, []⟩
  | .ok p =>
    match faults.save.elim (s.saveLocked p.id p.snapshot) .error with
    | .error e => ⟨.error e, s, []⟩
    | .ok saved => p.publish r faults clock saved

variable {r : LegacyRequest} {faults : LegacyFaults} {clock : ℕ → DateTime} {p : LegacyPlan}
  {s t t' saved : Store} {e : DomainError}

structure LegacyPlan.Made (p : LegacyPlan) (r : LegacyRequest) (s : Store) : Prop where
  id : validateAccountId p.id = .ok ()
  aliasName : ∀ aliasName, r.aliasName = some aliasName → validateAlias aliasName = .ok ()
  snapshot : p.previousSnapshot.elim (s.vault p.id = none) (s.loadLocked p.id = .ok ·)

theorem LegacyRequest.made_of_plan (h : r.plan faults s = .ok p) : p.Made r s := by
  obtain ⟨snapshot, -, h⟩ := bind_eq_ok.1 h
  obtain ⟨id, -, h⟩ := bind_eq_ok.1 h
  obtain ⟨⟨⟩, hid, h⟩ := bind_eq_ok.1 h
  obtain ⟨⟨⟩, halias, h⟩ := bind_eq_ok.1 h
  obtain ⟨had, hhad, h⟩ := bind_eq_ok.1 h
  obtain ⟨record, -, h⟩ := bind_eq_ok.1 h
  have h := ok_of_bind h
  obtain ⟨previous, hprevious, h⟩ := bind_eq_ok.1 h
  cases h
  refine ⟨hid, ?_, ?_⟩
  · intro aliasName heq
    simpa [heq] using halias
  · cases hcontains : faults.contains with
    | some e => simp [hcontains] at hhad
    | none =>
      rw [hcontains] at hhad
      obtain ⟨⟨⟩, -, rfl⟩ := map_eq_ok.1 hhad
      unfold previousSnapshot at hprevious
      split at hprevious
      · obtain ⟨loaded, hloaded, rfl⟩ := map_eq_ok.1 hprevious
        cases hload : faults.load <;> simp_all
      · rename_i hnone
        cases hprevious
        simpa using hnone

omit [Externals] in
theorem writeRegistry_cases {fault : Option (DomainError × Bool)} (s : Store)
    (written : Except DomainError Store) (h : ∀ f, fault = some f → f.2 = false) :
    (∃ e, writeRegistry fault s written = (.error e, s)) ∨
      ∃ s', written = .ok s' ∧ writeRegistry fault s written = (.ok (), s') := by
  rcases fault with _ | ⟨e, kept⟩
  · cases written with
    | error e => exact .inl ⟨e, rfl⟩
    | ok s' => exact .inr ⟨s', rfl, rfl⟩
  · obtain rfl := h _ rfl
    exact .inl ⟨e, by cases written <;> rfl⟩

omit [Externals] in
theorem undoAll_cons {undo : Store → Except DomainError Store}
    {rest : List (Store → Except DomainError Store)} (h : (undoAll s (undo :: rest)).2 = []) :
    ∃ t, undo s = .ok t ∧ undoAll s (undo :: rest) = undoAll t rest := by
  cases hundo : undo s with
  | error e => simp [undoAll, hundo] at h
  | ok t => exact ⟨t, rfl, by simp [undoAll, hundo]⟩

theorem LegacyPlan.rollbackSnapshot_eq_ok (hmade : p.Made r s)
    (hsave : s.saveLocked p.id p.snapshot = .ok saved) (hvault : t.vault = saved.vault)
    (h : p.rollbackSnapshot t = .ok t') : t'.vault = s.vault ∧ t'.registry = t.registry := by
  obtain ⟨-, -, rfl⟩ := Store.saveLocked_eq_ok hsave
  have hprevious := hmade.snapshot
  unfold rollbackSnapshot at h
  cases hp : p.previousSnapshot with
  | none =>
    rw [hp] at h hprevious
    have h := ok_of_bind h
    have h := ok_of_bind h
    cases h
    exact ⟨by simpa [hvault] using hprevious.symm, rfl⟩
  | some previous =>
    rw [hp] at h hprevious
    obtain ⟨-, -, rfl⟩ := Store.saveLocked_eq_ok h
    obtain ⟨-, hbytes, -⟩ := Store.loadLocked_eq_ok hprevious
    exact ⟨by simp [hvault, ← hbytes], rfl⟩

theorem LegacyPlan.exists_record (p : LegacyPlan) (clock : ℕ → DateTime) (hmade : p.Made r s)
    (hname : p.previousRecord = none → r.aliasName = none → validateAlias p.id = .ok ()) :
    ∃ record, p.record r clock = .ok record ∧ record.id = p.previousRecord.elim p.id (·.id) := by
  cases hprevious : p.previousRecord with
  | some previous =>
    refine ⟨_, map_eq_ok.2 ⟨previous, ?_, rfl⟩, rfl⟩
    rw [hprevious]
    rfl
  | none =>
    have halias : validateAlias (r.aliasName.getD p.id) = .ok () := by
      cases haliasName : r.aliasName with
      | none => exact hname hprevious haliasName
      | some aliasName => exact hmade.aliasName aliasName haliasName
    obtain ⟨record, hrecord⟩ : ∃ record, AccountRecord.new p.id (r.aliasName.getD p.id) (clock 0) =
        .ok record := ⟨_, bind_eq_ok.2 ⟨(), hmade.id, bind_eq_ok.2 ⟨(), halias, rfl⟩⟩⟩
    refine ⟨_, map_eq_ok.2 ⟨record, ?_, rfl⟩, (AccountRecord.new_eq_ok hrecord).1⟩
    rw [hprevious]
    exact hrecord

structure Store.Alike (s s' : Store) : Prop where
  vault : s'.vault = s.vault
  registry : s'.registry = s.registry ∨ ∃ state state', s.stateLocked = .ok state ∧
    s'.stateLocked = .ok state' ∧ state'.activeAccountId = state.activeAccountId ∧
    ∀ id, state'.get? id = state.get? id

theorem Store.remove_register {record : AccountRecord} {now : DateTime}
    (hregister : s.register record now = .ok t) (hremove : t.remove record.id true = .ok t') :
    ∃ state state', s.stateLocked = .ok state ∧ t'.stateLocked = .ok state' ∧
      state'.activeAccountId = state.activeAccountId ∧ (∀ id, state'.get? id = state.get? id) ∧
      t'.vault = s.vault := by
  obtain ⟨state, edited, hstate, hedit, hwrite⟩ := Store.update_eq_ok hregister
  obtain ⟨⟨⟩, hnew, hedit⟩ := bind_eq_ok.1 hedit
  cases hedit
  have hnone : state.get? record.id = none := by simpa using require_eq_ok.1 hnew
  obtain ⟨hread, hvault⟩ := Store.replaceLocked_eq_ok hwrite
  obtain ⟨state', edited, hstate', hedit, hwrite⟩ := Store.update_eq_ok hremove
  cases hread.symm.trans hstate'
  have hedit := ok_of_bind hedit
  have hedit := ok_of_bind hedit
  cases hedit
  obtain ⟨hread', hvault'⟩ := Store.replaceLocked_eq_ok hwrite
  refine ⟨state, _, hstate, hread', ?_, fun id => ?_, hvault'.trans hvault⟩
  · -- the new account was not the active one
    have hactive : state.activeAccountId ≠ record.id ∨ state.activeAccountId = "" := by
      have := (loadUnlocked_valid hstate).active
      by_contra! hne
      simp [activeRegistered, hne.1, hnone] at this
      exact hne.2 (hne.1.trans this)
    change (if state.activeAccountId = record.id then "" else state.activeAccountId) = _
    rcases hactive with hactive | hactive
    · exact if_neg hactive
    · simp [hactive]
  · by_cases hid : id = record.id
    · subst hid
      exact (AList.lookup_erase _ _).trans hnone.symm
    · exact (AList.lookup_erase_ne hid).trans (get?_insert_of_ne hid)

def LegacyRequest.sample (id : String) (aliasName : Option String) (overwrite : Bool) : LegacyRequest :=
  ⟨.ok (asciiBytes id), none, aliasName, false, overwrite⟩

namespace AccountRecord

def reimported (record : AccountRecord) (aliasName : Option String) (now later : DateTime) :
    AccountRecord :=
  { record with aliasName := aliasName.getD record.aliasName }.stamped now later

variable {record : AccountRecord} {aliasName : Option String} {now later : DateTime}

omit [Externals] in
theorem validate_reimported (h : record.validate = .ok ())
    (halias : ∀ name, aliasName = some name → validateAlias name = .ok ())
    (hclock : ¬ later < if record.createdAt.isZero then now else record.createdAt) :
    (record.reimported aliasName now later).validate = .ok () := by
  obtain ⟨⟨⟩, hid, h⟩ := bind_eq_ok.1 h
  obtain ⟨⟨⟩, hname, h⟩ := bind_eq_ok.1 h
  obtain ⟨⟨⟩, href, h⟩ := bind_eq_ok.1 h
  obtain ⟨⟨⟩, hmetadata, h⟩ := bind_eq_ok.1 h
  obtain ⟨⟨⟩, hsource, -⟩ := bind_eq_ok.1 h
  refine bind_eq_ok.2 ⟨(), hid, bind_eq_ok.2 ⟨(), ?_, bind_eq_ok.2 ⟨(), ?_, bind_eq_ok.2 ⟨⟨⟩, hmetadata,
    bind_eq_ok.2 ⟨(), hsource, require_eq_ok.2 hclock⟩⟩⟩⟩⟩
  · cases aliasName with
    | none => exact hname
    | some name => exact halias name rfl
  · -- the reference that is filled in is the id
    change validateRef record.effectiveRef = .ok ()
    unfold effectiveRef
    split_ifs with hempty
    · unfold validateRef
      split_ifs
      · rfl
      · rw [hid]
        rfl
    · exact href

omit [Externals] in
theorem upserted_reimported (h : record.validate = .ok ()) (href : record.credentialRef = record.id)
    (halias : ∀ name, aliasName = some name → validateAlias name = .ok ())
    (hclock : ¬ later < if record.createdAt.isZero then now else record.createdAt) :
    ({ record with aliasName := aliasName.getD record.aliasName, credentialRef := record.id } :
      AccountRecord).upserted (some record) now later = .ok (record.reimported aliasName now later) := by
  refine bind_eq_ok.2 ⟨{ record with aliasName := aliasName.getD record.aliasName }, ?_,
    bind_eq_ok.2 ⟨(), validate_reimported h halias hclock, rfl⟩⟩
  refine bind_eq_ok.2 ⟨(), require_eq_ok.2 (.inr href.symm), ?_⟩
  cases record
  cases href
  simp [pure, Except.pure]

end AccountRecord

omit [Externals] in
theorem RegistryState.Valid.insert {state : RegistryState} (h : state.Valid) {record : AccountRecord}
    (hvalid : record.validate = .ok ()) {active : String}
    (hactive : active = state.activeAccountId ∨ active = record.id) :
    ({ state.insert record.id record with activeAccountId := active } : RegistryState).Valid := by
  have hkeys : (state.insert record.id record).keysMatch = true := keysMatch_insert h.keys
  refine ⟨h.version, hkeys, ?_, ?_⟩
  · intro account hmem
    have hget := get?_of_mem_records hkeys hmem
    by_cases hid : account.id = record.id
    · rw [hid, get?_insert_self] at hget
      rwa [← Option.some.inj hget]
    · rw [get?_insert_of_ne hid] at hget
      exact h.records account (mem_records_of_get? hget)
  · unfold activeRegistered
    change (active.isEmpty || ((state.insert record.id record).get? active).isSome) = true
    by_cases hid : active = record.id
    · rw [hid, get?_insert_self]
      simp
    · rw [get?_insert_of_ne hid, hactive.resolve_right hid]
      exact h.active

theorem Store.exists_replaceLocked (s : Store) {state : RegistryState} (h : state.Valid)
    (hsize : Externals.registryJsonLength state + 1 ≤ maxRegistryBytes) :
    ∃ t, s.replaceLocked state = .ok t ∧ t.stateLocked = .ok state ∧ t.vault = s.vault := by
  have hversion : { state with version := registryVersion } = state := by
    rw [← h.version]
  rw [← hversion] at h hsize
  obtain ⟨t, hwrite⟩ : ∃ t, s.replaceLocked state = .ok t :=
    ⟨_, bind_eq_ok.2 ⟨_, saveUnlocked_of_valid h hsize, rfl⟩⟩
  obtain ⟨hread, hvault⟩ := Store.replaceLocked_eq_ok hwrite
  exact ⟨t, hwrite, hread.trans (congrArg _ hversion), hvault⟩

def RegistryState.ownSample : RegistryState :=
  RegistryState.empty.insert "a" { AccountRecord.sample "a" with credentialRef := "a" }

end CodexMarathon
