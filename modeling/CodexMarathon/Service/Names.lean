/-
**What a name of an account resolves to.**

A switch names its target by an account id or, if that is not one, by an alias.  The imports of
native credentials and of backups see to it that no two accounts share an alias, but neither
compares aliases with ids.
-/

import CodexMarathon.Service.Operations
import CodexMarathon.Store.Consistency
import CodexMarathon.Transfer.Import

namespace CodexMarathon

open Auth Result Prog RegistryState

/-! ### Names in a registry -/

namespace RegistryState

def AliasesApart (state : RegistryState) : Prop :=
  ∀ id id' account account', state.get? id = some account → state.get? id' = some account' →
    account.aliasName = account'.aliasName → account.aliasName ≠ "" → id = id'

variable {state : RegistryState} {account : AccountRecord}

theorem aliasesApart_iff :
    state.AliasesApart ↔ Transfer.DistinctNames (Transfer.aliasOf state) := by
  simp only [Transfer.DistinctNames, Transfer.aliasOf, Option.map_eq_some_iff]
  constructor
  · rintro h id id' _ hne ⟨account, hget, rfl⟩ ⟨account', hget', halias⟩
    exact h id id' account account' hget hget' halias.symm hne
  · intro h id id' account account' hget hget' halias hne
    exact h id id' _ hne ⟨account, hget, rfl⟩ ⟨account', hget', halias.symm⟩

end RegistryState

theorem AccountRecord.validateAlias_of_validate {account : AccountRecord}
    (h : account.validate = .ok ()) : validateAlias account.aliasName = .ok () := by
  have h := ok_of_bind h
  obtain ⟨⟨⟩, halias, -⟩ := bind_eq_ok.1 h
  exact halias

theorem isBlank_of_validateAlias {aliasName : String} (h : validateAlias aliasName = .ok ())
    (hne : aliasName ≠ "") : isBlank aliasName = false := by
  have hpassed := require_eq_ok.1 h
  simp only [Bool.not_eq_true', Bool.or_eq_false_iff, decide_eq_false_iff_not, not_not] at hpassed
  rw [isBlank, hpassed.1.1]
  simpa using hne

section Resolve

variable {state : RegistryState} {account : AccountRecord}

theorem resolveTarget_id_iff (hstate : state.Valid) (hmem : account ∈ state.records) :
    resolveTarget state account.id = .ok account ↔ isBlank account.id = false := by
  rw [resolveTarget, get?_of_mem_records hstate.keys hmem]
  cases isBlank account.id <;> simp

theorem resolveTarget_alias (hstate : state.Valid) (hapart : state.AliasesApart)
    (hmem : account ∈ state.records) (hne : account.aliasName ≠ "")
    (hother : ∀ other ∈ state.records, other.id = account.aliasName → other = account) :
    resolveTarget state account.aliasName = .ok account := by
  have hblank := isBlank_of_validateAlias
    (AccountRecord.validateAlias_of_validate (hstate.records account hmem)) hne
  have hget := get?_of_mem_records hstate.keys hmem
  unfold resolveTarget
  rw [hblank]
  simp only [Bool.false_eq_true, if_false]
  cases hfound : state.get? account.aliasName with
  | some found =>
    have hsame := hother found (mem_records_of_get? hfound)
      (get?_id hstate.keys hfound)
    rw [hsame]
  | none =>
    -- the account is the only one with its alias
    have hnamed : ∀ other ∈ state.records.filter (fun other => other.aliasName = account.aliasName),
        other = account := by
      intro other hmem'
      obtain ⟨hrecord, halias⟩ := List.mem_filter.1 hmem'
      have hget' := get?_of_mem_records hstate.keys hrecord
      have hids := hapart _ _ _ _ hget hget' (of_decide_eq_true halias).symm hne
      rw [hids, hget'] at hget
      exact Option.some.inj hget
    have hself : account ∈
        state.records.filter (fun other => other.aliasName = account.aliasName) :=
      List.mem_filter.2 ⟨hmem, decide_eq_true rfl⟩
    have hnodup := (nodup_records hstate.keys).filter
      (fun other => other.aliasName = account.aliasName)
    revert hnamed hself hnodup
    generalize state.records.filter (fun other => other.aliasName = account.aliasName) = named
    intro hnamed hself hnodup
    match named with
    | [] => cases hself
    | [other] => rw [hnamed other List.mem_cons_self]
    | first :: second :: rest =>
      have hfirst := hnamed first List.mem_cons_self
      have hsecond := hnamed second (List.mem_cons_of_mem _ List.mem_cons_self)
      have hdis := (List.nodup_cons.1 hnodup).1
      rw [hfirst, hsecond] at hdis
      exact absurd List.mem_cons_self hdis

theorem resolveTarget_alias_iff (hstate : state.Valid) (hapart : state.AliasesApart)
    (hmem : account ∈ state.records) (hne : account.aliasName ≠ "") :
    resolveTarget state account.aliasName = .ok account ↔
      ∀ other ∈ state.records, other.id = account.aliasName → other = account := by
  refine ⟨?_, resolveTarget_alias hstate hapart hmem hne⟩
  intro h other hother hid
  have hblank := isBlank_of_validateAlias
    (AccountRecord.validateAlias_of_validate (hstate.records account hmem)) hne
  rw [← hid] at h hblank
  have hres := (resolveTarget_id_iff hstate hother).2 hblank
  exact Except.ok.inj (hres.symm.trans h)

end Resolve

variable [Externals]

namespace World

variable {w w' : World}

theorem run_lockAndRead_eq_ok {g : DomainError → MarathonServiceError} {state : RegistryState}
    (h : run (Service.lockAndRead g) w = (.ok state, w')) : w.store.stateLocked = .ok state := by
  obtain ⟨_, w₁, hlock, hread⟩ := (run_except_bind_eq_ok exec).1 h
  obtain ⟨store, hlocked, hstore⟩ := run_store_eq_ok hlock
  obtain ⟨store', hresult, -⟩ := run_store_eq_ok hread
  cases (faulty_eq_ok.1 hlocked).2
  obtain ⟨_, hstate, heq⟩ := map_eq_ok.1 (faulty_eq_ok.1 hresult).2
  cases heq
  rw [← hstore]
  exact hstate

/-- **What an import of the native credentials publishes**: a record whose alias no other account
had. -/
theorem run_importCurrent_eq_ok {aliasName : String} {response : MarathonImportResponse}
    (h : w.run (Service.importCurrent aliasName) = (.ok response, w')) :
    ∃ state id account, w.store.stateLocked = .ok state ∧ account.aliasName = aliasName ∧
      (∀ other ∈ state.records, other.id ≠ id → other.aliasName ≠ aliasName) ∧
      w'.store.stateLocked = .ok { state.insert id account with activeAccountId := id } := by
  obtain ⟨state, w₁, hread, h⟩ := (run_except_bind_eq_ok exec).1 h
  obtain ⟨cached, w₂, -, h⟩ := (run_except_bind_eq_ok exec).1 h
  obtain ⟨id, w₃, -, h⟩ := (run_except_bind_eq_ok exec).1 h
  obtain ⟨created, w₄, -, h⟩ := (run_except_bind_eq_ok exec).1 h
  obtain ⟨validated, w₅, hval, h⟩ := (run_except_bind_eq_ok exec).1 h
  obtain ⟨_, w₆, hfree, h⟩ := (run_except_bind_eq_ok exec).1 h
  obtain ⟨native, w₇, -, h⟩ := (run_except_bind_eq_ok exec).1 h
  obtain ⟨document, w₈, -, h⟩ := (run_except_bind_eq_ok exec).1 h
  obtain ⟨_, w₉, -, h⟩ := (run_except_bind_eq_ok exec).1 h
  obtain ⟨credentialRef, w₁₀, -, h⟩ := (run_except_bind_eq_ok exec).1 h
  obtain ⟨updatedAt, w₁₁, -, h⟩ := (run_except_bind_eq_ok exec).1 h
  obtain ⟨_, w₁₂, hrep, h⟩ := (run_except_bind_eq_ok exec).1 h
  have hstate := run_lockAndRead_eq_ok hread
  have hnew := run_check_eq_ok hval
  have hpassed := require_eq_ok.1 (run_check_eq_ok hfree)
  obtain ⟨store, hresult, hstore⟩ := run_store_eq_ok hrep
  obtain ⟨published, hpub, heq⟩ := map_eq_ok.1 (faulty_eq_ok.1 hresult).2
  cases heq
  obtain ⟨-, rfl⟩ := Prod.mk.inj (h : (_, w₁₂) = _)
  refine ⟨state, id,
    { (state.get? id).getD validated with
      aliasName := validated.aliasName, credentialHealth := .healthy, credentialRef, updatedAt },
    hstate, (AccountRecord.new_eq_ok (mapError_eq_ok.1 hnew)).2, ?_, ?_⟩
  · intro other hother hid halias
    refine absurd hpassed ?_
    simp only [Bool.not_eq_true', Bool.not_eq_false, List.any_eq_true]
    exact ⟨other, hother, by simp [hid, halias]⟩
  · rw [hstore, (Store.replaceLocked_eq_ok hpub).1]
    exact congrArg Except.ok (congrArg (fun version =>
      ({ state.insert id _ with version, activeAccountId := id } : RegistryState))
      (loadUnlocked_valid hstate).version.symm)

end World

open RegistryState

omit [Externals] in
theorem RegistryState.AliasesApart.insert {state : RegistryState} {id : String}
    {account : AccountRecord} (h : state.AliasesApart) (hkeys : state.keysMatch = true)
    (hfree : ∀ other ∈ state.records, other.id ≠ id → other.aliasName ≠ account.aliasName) :
    (state.insert id account).AliasesApart := by
  rw [aliasesApart_iff] at h ⊢
  rw [Transfer.aliasOf_insert]
  refine h.update fun id' hid _ halias => ?_
  obtain ⟨other, hget, hother⟩ := Option.map_eq_some_iff.1 halias
  refine hfree other (mem_records_of_get? hget) ?_ hother
  rwa [get?_id hkeys hget]

/-! ### The import of a backup -/

namespace World

open Transfer

/-- `backup` is what the backup is decrypted to, and `times` are the readings of the clock. -/
def execTransfer (backup : Except TransferError Manifest) (times : ℕ → DateTime) :
    (c : TransferCall) → World → c.Ans × World
  | .openBackup _, w => (backup, w)
  | .clock, w => (times, w)
  | .previewState, w => (w.store.stateLocked, w)
  | .store c, w => w.execStore c

def transfer {α : Type} (backup : Except TransferError Manifest) (times : ℕ → DateTime)
    (p : TransferM α) (w : World) : Except TransferError α × World :=
  Prog.run (execTransfer backup times) p.run w

end World

namespace Transfer

variable {backup : Except TransferError Manifest} {times : ℕ → DateTime} {w w' : World}

variable {conflict : ConflictPolicy} {report : ImportReport}

theorem aliasesApart_of_planImport {state : RegistryState}
    {entries changes : List (AccountRecord × AuthSnapshot)}
    {dryRun : Bool} (hkeys : state.keysMatch = true)
    (h : planImport state entries conflict dryRun = .ok (report, changes)) :
    (withChanges state changes).AliasesApart := by
  obtain ⟨plan, hplan, h⟩ := bind_eq_ok.1 h
  obtain ⟨⟨⟩, hnodup, h⟩ := bind_eq_ok.1 h
  cases h
  rw [require_eq_ok, planned_of_foldlM hplan rfl] at hnodup
  exact aliasesApart_iff.2 ((nodup_aliases_iff (keysMatch_withChanges hkeys)).1 hnodup)

def SameNames (state state' : RegistryState) : Prop :=
  ∀ id, (state.get? id).map (·.aliasName) = (state'.get? id).map (·.aliasName)

omit [Externals] in
theorem SameNames.insert {state state' : RegistryState} (h : SameNames state state') {id : String}
    {account account' : AccountRecord} (halias : account.aliasName = account'.aliasName) :
    SameNames (state.insert id account) (state'.insert id account') := by
  intro id'
  by_cases heq : id' = id
  · rw [heq, get?_insert_self, get?_insert_self, Option.map_some, Option.map_some, halias]
  · rw [get?_insert_of_ne heq, get?_insert_of_ne heq]
    exact h id'

theorem transfer_bind_eq_ok {α β : Type} {p : TransferM α} {f : α → TransferM β} {b : β} :
    w.transfer backup times (p >>= f) = (.ok b, w') ↔
      ∃ a w₁, w.transfer backup times p = (.ok a, w₁) ∧
        w₁.transfer backup times (f a) = (.ok b, w') :=
  run_except_bind_eq_ok _

theorem transfer_store_eq_ok {c : StoreCall} {g : DomainError → TransferError} {v : c.Val}
    (h : w.transfer backup times (Prog.orFail (call (.store c)) g) = (.ok v, w')) :
    ∃ store, w.storeResult c = .ok (v, store) ∧ w'.store = store := by
  unfold World.transfer at h
  rw [run_orFail] at h
  obtain ⟨hvalue, rfl⟩ := Prod.mk.inj h
  rw [mapError_eq_ok] at hvalue
  exact World.execStore_eq_ok hvalue

theorem transfer_store_of_eq_ok {c : StoreCall} {g : DomainError → TransferError} {v : c.Val}
    {store : Store} (h : w.storeResult c = .ok (v, store)) :
    w.transfer backup times (Prog.orFail (call (.store c)) g) =
      (.ok v, { w with store, drawn := w.drawn + c.draws }) := by
  have hexec : w.execStore c = (.ok v, { w with store, drawn := w.drawn + c.draws }) := by
    unfold World.execStore
    rw [h]
  unfold World.transfer
  rw [run_orFail]
  exact congrArg (fun r => (r.1.mapError g, r.2)) hexec

theorem transfer_check_eq_ok {α : Type} {x : Except TransferError α} {a : α} :
    w.transfer backup times (liftM x : TransferM α) = (.ok a, w') ↔ x = .ok a ∧ w = w' :=
  Prod.mk_inj

theorem sameNames_stageAll {changes : List (AccountRecord × AuthSnapshot)}
    {state state' staged : RegistryState} (hnames : SameNames state state')
    (h : w.transfer backup times (stageAll changes state) = (.ok staged, w')) :
    SameNames staged (withChanges state' changes) := by
  induction changes generalizing state state' w with
  | nil =>
    obtain ⟨heq, -⟩ := Prod.mk.inj (h : (Except.ok state, w) = _)
    cases heq
    exact hnames
  | cons change changes ih =>
    obtain ⟨record, snapshot⟩ := change
    obtain ⟨credentialRef, w₁, -, hrest⟩ := transfer_bind_eq_ok.1 h
    have hins : SameNames (state.insert record.id { record with credentialRef })
        (state'.insert record.id record) := hnames.insert rfl
    exact ih hins hrest

theorem transfer_importLocked_eq_ok {entries : List (AccountRecord × AuthSnapshot)}
    (h : w.transfer backup times (importLocked entries conflict) = (.ok report, w')) :
    ∃ state changes published, w.store.stateLocked = .ok state ∧
      planImport state entries conflict false = .ok (report, changes) ∧
      SameNames published (withChanges state changes) ∧ w'.store.stateLocked = .ok published := by
  obtain ⟨_, w₁, hlock, h₁⟩ := transfer_bind_eq_ok.1 h
  obtain ⟨state, w₂, hread, h₂⟩ := transfer_bind_eq_ok.1 h₁
  obtain ⟨⟨report', changes⟩, w₃, hplan, h₃⟩ := transfer_bind_eq_ok.1 h₂
  obtain ⟨_, hlocked, hstore₁⟩ := transfer_store_eq_ok hlock
  obtain ⟨_, hresult, hstore₂⟩ := transfer_store_eq_ok hread
  cases (faulty_eq_ok.1 hlocked).2
  obtain ⟨_, hstate, heq⟩ := map_eq_ok.1 (faulty_eq_ok.1 hresult).2
  cases heq
  obtain ⟨hplann, rfl⟩ := transfer_check_eq_ok.1 hplan
  rw [hstore₁] at hstate
  split_ifs at h₃ with hnil
  · obtain ⟨heq, rfl⟩ := Prod.mk.inj (h₃ : (Except.ok report', _) = _)
    cases heq
    cases hnil
    refine ⟨state, [], state, hstate, hplann, fun _ => rfl, ?_⟩
    rw [hstore₂, hstore₁, hstate]
  · obtain ⟨_, w₄, -, h₄⟩ := transfer_bind_eq_ok.1 h₃
    obtain ⟨staged, w₅, hstaged, h₅⟩ := transfer_bind_eq_ok.1 h₄
    obtain ⟨_, w₆, hrep, h₆⟩ := transfer_bind_eq_ok.1 h₅
    obtain ⟨heq, rfl⟩ := Prod.mk.inj (h₆ : (Except.ok report', w₆) = _)
    cases heq
    obtain ⟨_, hresult, hstore⟩ := transfer_store_eq_ok hrep
    obtain ⟨published, hpub, heq⟩ := map_eq_ok.1 (faulty_eq_ok.1 hresult).2
    cases heq
    have hnames : SameNames staged (withChanges state changes) :=
      sameNames_stageAll (fun _ => rfl) hstaged
    exact ⟨state, changes, { staged with version := registryVersion }, hstate, hplann, hnames,
      hstore ▸ (Store.replaceLocked_eq_ok hpub).1⟩

theorem transfer_importAccounts_eq_ok {cfg : Config} {passphrase : String} {dryRun : Bool} :
    w.transfer backup times (importAccounts cfg passphrase conflict dryRun) = (.ok report, w') ↔
      (!passphrase.isEmpty && passphrase.utf8ByteSize ≤ maxPassphraseBytes) = true ∧
      ∃ manifest entries, backup = .ok manifest ∧ validateManifest cfg times manifest = .ok entries ∧
        w.transfer backup times
          (if dryRun then previewImport entries conflict else importLocked entries conflict) =
            (.ok report, w') := by
  have hopen : ∀ {manifest w₁}, w.transfer backup times
      (Prog.orFail (call (.openBackup passphrase)) id) = (.ok manifest, w₁) ↔
        backup = .ok manifest ∧ w = w₁ := by
    cases backup <;> exact Prod.mk_inj
  constructor
  · intro h
    obtain ⟨⟨⟩, w₁, hcheck, h₁⟩ := transfer_bind_eq_ok.1 h
    obtain ⟨hpas, rfl⟩ := transfer_check_eq_ok.1 hcheck
    obtain ⟨manifest, w₂, hopened, h₂⟩ := transfer_bind_eq_ok.1 h₁
    obtain ⟨hmanifest, rfl⟩ := hopen.1 hopened
    obtain ⟨readings, w₃, hclock, h₃⟩ := transfer_bind_eq_ok.1 h₂
    obtain ⟨⟨⟩, rfl⟩ := Prod.mk.inj (hclock : (Except.ok times, w) = _)
    obtain ⟨entries, w₄, hchecked, h₄⟩ := transfer_bind_eq_ok.1 h₃
    obtain ⟨hval, rfl⟩ := transfer_check_eq_ok.1 hchecked
    exact ⟨require_eq_ok.1 hpas, manifest, entries, hmanifest, hval, h₄⟩
  · rintro ⟨hpas, manifest, entries, hmanifest, hval, h⟩
    refine transfer_bind_eq_ok.2 ⟨(), w, transfer_check_eq_ok.2 ⟨require_eq_ok.2 hpas, rfl⟩, ?_⟩
    refine transfer_bind_eq_ok.2 ⟨manifest, w, hopen.2 ⟨hmanifest, rfl⟩, ?_⟩
    refine transfer_bind_eq_ok.2 ⟨times, w, rfl, ?_⟩
    exact transfer_bind_eq_ok.2 ⟨entries, w, transfer_check_eq_ok.2 ⟨hval, rfl⟩, h⟩

end Transfer

/-! ### Registries that imports lead to -/

open Transfer in
/-- The stores that successful imports lead to, from an empty registry. -/
inductive Imported : Store → Prop
  | empty {s : Store} (h : s.stateLocked = .ok .empty) : Imported s
  | importCurrent {w w' : World} {aliasName : String} {response : MarathonImportResponse}
      (hw : Imported w.store) (h : w.run (Service.importCurrent aliasName) = (.ok response, w')) :
      Imported w'.store
  | importAccounts {w w' : World} {cfg : Config} {passphrase : String} {conflict : ConflictPolicy}
      {dryRun : Bool} {backup : Except TransferError Manifest} {times : ℕ → DateTime}
      {report : ImportReport} (hw : Imported w.store)
      (h : w.transfer backup times (importAccounts cfg passphrase conflict dryRun) =
        (.ok report, w')) : Imported w'.store

def Store.AliasesApart (s : Store) : Prop :=
  ∀ state, s.stateLocked = .ok state → state.AliasesApart

theorem Store.AliasesApart.importCurrent {w w' : World} {aliasName : String}
    {response : MarathonImportResponse} (hw : w.store.AliasesApart)
    (h : w.run (Service.importCurrent aliasName) = (.ok response, w')) : w'.store.AliasesApart := by
  obtain ⟨state, id, account, hstate, halias, hfree, hpub⟩ := World.run_importCurrent_eq_ok h
  intro published hread
  rw [hpub] at hread
  cases hread
  exact (hw state hstate).insert (loadUnlocked_valid hstate).keys (halias ▸ hfree)

open Transfer in
theorem Store.AliasesApart.importAccounts {w w' : World} {cfg : Config} {passphrase : String}
    {conflict : ConflictPolicy} {dryRun : Bool} {backup : Except TransferError Manifest}
    {times : ℕ → DateTime} {report : ImportReport} (hw : w.store.AliasesApart)
    (h : w.transfer backup times (importAccounts cfg passphrase conflict dryRun) =
      (.ok report, w')) : w'.store.AliasesApart := by
  obtain ⟨-, manifest, entries, -, -, h⟩ := transfer_importAccounts_eq_ok.1 h
  cases dryRun with
  | true =>
    -- a dry run writes nothing
    obtain ⟨state, w₁, hread, h₁⟩ := transfer_bind_eq_ok.1 h
    obtain ⟨plan, w₂, hplan, h₂⟩ := transfer_bind_eq_ok.1 h₁
    obtain rfl : w = w₁ := (Prod.mk.inj hread).2
    obtain rfl := (transfer_check_eq_ok.1 hplan).2
    obtain rfl : w = w' := (Prod.mk.inj h₂).2
    exact hw
  | false =>
    obtain ⟨state, changes, published, hstate, hplan, hnames, hpub⟩ := transfer_importLocked_eq_ok h
    intro state' hread
    rw [hpub] at hread
    cases hread
    rw [aliasesApart_iff, show aliasOf _ = aliasOf _ from funext hnames, ← aliasesApart_iff]
    exact aliasesApart_of_planImport (loadUnlocked_valid hstate).keys hplan

theorem Imported.aliasesApart {s : Store} (h : Imported s) : s.AliasesApart := by
  induction h with
  | empty h =>
    intro state hstate
    rw [h] at hstate
    cases hstate
    intro id _ account _ hget
    cases hget
  | importCurrent _ h ih => exact ih.importCurrent h
  | importAccounts _ h ih => exact ih.importAccounts h

/-- **What names resolve to** in every registry that imports lead to: an id to its account unless it
is blank, and an alias unless it is the id of another account. -/
theorem names_resolve {s : Store} {state : RegistryState} {account : AccountRecord}
    (h : Imported s) (hstate : s.stateLocked = .ok state) (haccount : account ∈ state.records) :
    (resolveTarget state account.id = .ok account ↔ isBlank account.id = false) ∧
      (account.aliasName ≠ "" → (resolveTarget state account.aliasName = .ok account ↔
          ∀ other ∈ state.records, other.id = account.aliasName → other = account)) := by
  have hvalid := loadUnlocked_valid hstate
  refine ⟨resolveTarget_id_iff hvalid haccount, ?_⟩
  exact resolveTarget_alias_iff hvalid (h.aliasesApart state hstate) haccount

def World.vacant : @World .sample :=
  letI := Externals.sample
  { World.sample with
    store := ⟨none, fun _ => none⟩
    nonces := fun n =>
      if n = 0 then HexText.zeros
      else HexText.ones }

omit [Externals] in
theorem Imported.vacant : letI := Externals.sample; Imported World.vacant.store :=
  letI := Externals.sample
  .empty rfl

def World.importFirst : Except MarathonServiceError MarathonImportResponse × @World .sample :=
  letI := Externals.sample
  World.vacant.run (Service.importCurrent "first")

omit [Externals] in
theorem Imported.importFirst {response : MarathonImportResponse}
    (hok : World.importFirst.1 = .ok response) :
    letI := Externals.sample; Imported World.importFirst.2.store := by
  let := Externals.sample
  rw [World.importFirst] at hok ⊢
  exact .importCurrent Imported.vacant (Prod.ext hok rfl)

omit [Externals] in
/-- An account that was imported is named by its id and by its alias. -/
theorem names_resolve_first :
    letI := Externals.sample
    ∃ state, World.importFirst.2.store.stateLocked = .ok state ∧ ∃ account ∈ state.records,
      account.id = "a" ∧ account.aliasName = "first" ∧
      resolveTarget state "a" = .ok account ∧ resolveTarget state "first" = .ok account := by
  let := Externals.sample
  have hfirst : World.importFirst.1 = .ok ⟨"a", "first", true, false⟩ ∧
      ∃ state ∈ World.importFirst.2.store.stateLocked.toOption,
        ∃ account ∈ state.records, account.id = "a" ∧ account.aliasName = "first" ∧
          ∀ other ∈ state.records, other.id = account.aliasName → other = account := by
    decide +kernel
  obtain ⟨hok, state, hstate, account, hacc, hid, halias, hother⟩ := hfirst
  rw [Option.mem_def, toOption_eq_some] at hstate
  obtain ⟨hbyId, hbyAlias⟩ := names_resolve (Imported.importFirst hok) hstate hacc
  rw [hid] at hbyId
  rw [halias] at hbyAlias hother
  exact ⟨state, hstate, account, hacc, hid, halias, hbyId.2 (by decide),
    (hbyAlias (by decide)).2 hother⟩

def Transfer.Manifest.crossed : Manifest where
  format := "codexmarathon-accounts"
  version := 1
  createdAt := "2026-01-01T00:00:00Z"
  exporterVersion := "1"
  accounts := [⟨"a", "first", "a"⟩, ⟨"\u00a0", "a", "\u00a0"⟩]

def World.importCrossed : Except Transfer.TransferError Transfer.ImportReport × @World .sample :=
  letI := Externals.sample
  World.vacant.transfer (.ok .crossed) (fun _ => World.sample.clock)
    (Transfer.importAccounts ⟨fun text => some (asciiBytes text), fun _ => true⟩ "correct horse" .skip
      false)

omit [Externals] in
theorem Imported.importCrossed {report : Transfer.ImportReport}
    (hok : World.importCrossed.1 = .ok report) :
    letI := Externals.sample; Imported World.importCrossed.2.store := by
  let := Externals.sample
  rw [World.importCrossed] at hok ⊢
  exact .importAccounts Imported.vacant (Prod.ext hok rfl)

omit [Externals] in
/-- **Names that do not resolve to their account**: an alias resolves to another account, and an id
to none. -/
theorem names_of_others :
    letI := Externals.sample
    ∃ s state, Imported s ∧ s.stateLocked = .ok state ∧
      ∃ account ∈ state.records, ∃ other ∈ state.records,
        account.aliasName = "a" ∧ other.id = "a" ∧ account ≠ other ∧
        resolveTarget state account.aliasName = .ok other ∧
        resolveTarget state account.id = .error .accountNotFound := by
  let := Externals.sample
  have hcros : World.importCrossed.1 = .ok ⟨[⟨"a", "first"⟩, ⟨"\u00a0", "a"⟩], [], [], false⟩ ∧
      ∃ state ∈ World.importCrossed.2.store.stateLocked.toOption,
        ∃ account ∈ state.records, ∃ other ∈ state.records,
          account.aliasName = "a" ∧ other.id = "a" ∧ account ≠ other ∧
          resolveTarget state account.aliasName = .ok other ∧
          resolveTarget state account.id = .error .accountNotFound := by
    decide +kernel
  obtain ⟨hok, state, hstate, hother⟩ := hcros
  exact ⟨_, state, Imported.importCrossed hok, toOption_eq_some.1 hstate, hother⟩

end CodexMarathon
