/-
**A backup comes back.**

An export takes the registry as it was read, which may name two accounts alike; an import does not
accept that.  Apart from it, whatever is exported is imported where no account is registered, and
loads the credentials that were exported.
-/

import CodexMarathon.Transfer.Batch
import CodexMarathon.Transfer.Export
import Mathlib.Data.List.Dedup

namespace CodexMarathon.Transfer

open Auth Result Prog RegistryState

/-! ### What an import accepts -/

def givenAliases (aliases : List String) : List String := aliases.filter fun name => !name.isEmpty

theorem pairwise_apart_iff {accounts : List BackupAccount} (hids : (accounts.map (·.id)).Nodup) :
    accounts.Pairwise Apart ↔ (givenAliases (accounts.map (·.aliasName))).Nodup := by
  rw [List.nodup_iff_pairwise_ne, List.pairwise_map] at hids
  rw [givenAliases, List.nodup_iff_pairwise_ne, List.pairwise_filter, List.pairwise_map]
  constructor
  · intro h
    refine h.imp ?_
    rintro a b ⟨-, h⟩ - hb
    exact h (by simpa using hb)
  · intro h
    refine (hids.and h).imp ?_
    rintro a b ⟨hid, h⟩
    refine ⟨hid, fun hb heq => h ?_ ?_ heq⟩
    · simpa [heq] using hb
    · simpa using hb

variable [Externals]

variable {account : BackupAccount} {id key : String} {snapshot : AuthSnapshot}
  {record : AccountRecord} {manifest : Manifest} {cfg : Config}

structure Faithful (account : BackupAccount) (snapshot : AuthSnapshot) : Prop where
  id : validateAccountId account.id = .ok ()
  aliasName : validateAlias account.aliasName = .ok ()
  text : account.snapshot = Base64.encode snapshot.bytes
  named : snapshot.embeddedAccountId = some account.id

theorem length_bytes_le (snapshot : AuthSnapshot) : snapshot.bytes.length ≤ maxSnapshotBytes := by
  obtain ⟨⟨⟩, h, -⟩ := bind_eq_ok.1 snapshot.embedded_eq
  exact require_eq_ok.1 h

theorem fromBytes_of_named (hid : validateAccountId id = .ok ())
    (hnamed : snapshot.embeddedAccountId = some id) :
    AuthSnapshot.fromBytes (some id) snapshot.bytes = .ok snapshot := by
  obtain ⟨embedded, bytes, hemb⟩ := snapshot
  cases hnamed
  unfold AuthSnapshot.fromBytes
  split
  · rename_i e he
    rw [hemb] at he
    cases he
  · rename_i embedded' he
    rw [hemb] at he
    cases he
    refine map_eq_ok.2 ⟨(), ?_, rfl⟩
    exact bind_eq_ok.2 ⟨(), hid, require_eq_ok.2 (.inr rfl)⟩

section Validate

variable {crates : Crates} {times : ℕ → DateTime} {seen accounts : List BackupAccount}

theorem validateEntry_ok_iff (hlaws : crates.Lawful) (h : Faithful account snapshot)
    (now : DateTime) (seen : List BackupAccount) :
    (∃ entry, validateEntry crates.toConfig now seen account = .ok entry) ↔
      ∀ other ∈ seen, Apart other account := by
  constructor
  · rintro ⟨entry, hentry⟩
    exact (validateEntry_eq_ok_iff.1 hentry).apart
  · intro hapart
    have hbytes := length_bytes_le snapshot
    have htext : account.snapshot.utf8ByteSize ≤ (maxSnapshotBytes + 2) / 3 * 4 := by
      rw [h.text, Base64.utf8ByteSize_encode]
      omega
    have hdec : crates.decodeBase64 account.snapshot = some snapshot.bytes := by
      rw [h.text]
      exact hlaws.base64 snapshot.bytes
    obtain ⟨record, hrecord⟩ : ∃ record, AccountRecord.new account.id account.aliasName now =
        .ok record :=
      ⟨_, bind_eq_ok.2 ⟨(), h.id, bind_eq_ok.2 ⟨(), h.aliasName, rfl⟩⟩⟩
    exact ⟨(record, snapshot), validateEntry_eq_ok_iff.2 ⟨h.id, h.aliasName, hapart, htext, hdec,
      hbytes, fromBytes_of_named h.id h.named, h.named, hrecord⟩⟩

theorem validateEntries_ok_iff (hlaws : crates.Lawful)
    (h : ∀ account ∈ accounts, ∃ snapshot, Faithful account snapshot) :
    (∃ entries, validateEntries crates.toConfig times seen accounts = .ok entries) ↔
      accounts.Pairwise Apart ∧ ∀ other ∈ seen, ∀ account ∈ accounts, Apart other account := by
  induction accounts generalizing seen with
  | nil => simp [validateEntries]
  | cons account accounts ih =>
    obtain ⟨⟨snapshot, hsnap⟩, hothers⟩ := List.forall_mem_cons.1 h
    have hfirst := validateEntry_ok_iff hlaws hsnap (times seen.length) seen
    have hrest : (∃ entries, validateEntries crates.toConfig times (account :: seen) accounts =
        .ok entries) ↔ _ := ih hothers
    rw [List.forall_mem_cons] at hrest
    constructor
    · rintro ⟨entries, hent⟩
      obtain ⟨entry, hentry, hent⟩ := bind_eq_ok.1 hent
      obtain ⟨others, hval, -⟩ := bind_eq_ok.1 hent
      obtain ⟨hpair, hacc, hseen⟩ := hrest.1 ⟨others, hval⟩
      exact ⟨List.pairwise_cons.2 ⟨hacc, hpair⟩, fun other hother =>
        List.forall_mem_cons.2 ⟨hfirst.1 ⟨entry, hentry⟩ other hother, hseen other hother⟩⟩
    · rintro ⟨hpair, hseen⟩
      obtain ⟨hacc, hpair⟩ := List.pairwise_cons.1 hpair
      obtain ⟨entry, hentry⟩ := hfirst.2 fun other hother =>
        hseen other hother account List.mem_cons_self
      obtain ⟨others, hval⟩ := hrest.2 ⟨hpair, hacc, fun other hother later hlater =>
        hseen other hother later (List.mem_cons_of_mem _ hlater)⟩
      exact ⟨entry :: others, bind_eq_ok.2 ⟨entry, hentry,
        bind_eq_ok.2 ⟨others, hval, rfl⟩⟩⟩

theorem validateManifest_ok_iff {now : DateTime} (hlaws : crates.Lawful)
    (h : ∀ account ∈ accounts, ∃ snapshot, Faithful account snapshot)
    (hlength : accounts ≠ [] ∧ accounts.length ≤ maxAccounts) :
    (∃ entries, validateManifest crates.toConfig times (crates.manifest now accounts) = .ok entries) ↔
      crates.parsesRfc3339 (crates.toRfc3339 now) = true ∧ accounts.Pairwise Apart := by
  have hver : (!exporterVersion.isEmpty && exporterVersion.utf8ByteSize ≤ 128
      && exporterVersion.toList.all isGraphic) = true := by decide
  have hent : (∃ entries, validateEntries crates.toConfig times [] accounts = .ok entries) ↔ _ :=
    validateEntries_ok_iff hlaws h
  rw [and_iff_left (List.forall_mem_nil _)] at hent
  constructor
  · rintro ⟨entries, hval⟩
    have hval := ok_of_bind hval
    obtain ⟨⟨⟩, hdated, hval⟩ := bind_eq_ok.1 hval
    have hval := ok_of_bind hval
    rw [require_eq_ok, Bool.and_eq_true, Bool.and_eq_true, Bool.and_eq_true] at hdated
    exact ⟨hdated.1.1.1, hent.1 ⟨entries, hval⟩⟩
  · rintro ⟨hdated, hpair⟩
    obtain ⟨entries, hval⟩ := hent.2 hpair
    refine ⟨entries, bind_eq_ok.2 ⟨(), require_eq_ok.2 ⟨rfl, rfl⟩, ?_⟩⟩
    refine bind_eq_ok.2 ⟨(), require_eq_ok.2 ?_, ?_⟩
    · simp only [Bool.and_eq_true] at hver ⊢
      exact ⟨⟨⟨hdated, hver.1.1⟩, hver.1.2⟩, hver.2⟩
    · exact bind_eq_ok.2 ⟨(), require_eq_ok.2 hlength, hval⟩

end Validate

section Plan

variable {entries : List (AccountRecord × AuthSnapshot)} {plan : Plan}

def Differ (a b : AccountRecord × AuthSnapshot) : Prop :=
  a.1.id ≠ b.1.id ∧ (b.1.aliasName ≠ "" → a.1.aliasName ≠ b.1.aliasName)

def summaries (entries : List (AccountRecord × AuthSnapshot)) : List AccountSummary :=
  entries.map fun entry => ⟨entry.1.id, entry.1.aliasName⟩

theorem foldlM_of_differ (active : String) (conflict : ConflictPolicy)
    (hkeys : plan.planned.keysMatch = true)
    (hnew : ∀ entry ∈ entries, plan.planned.get? entry.1.id = none)
    (hfree : ∀ entry ∈ entries, collides plan.planned entry.1.id entry.1.aliasName = false)
    (halias : (aliases plan.planned).Nodup) (hdiffer : entries.Pairwise Differ) :
    ∃ planned, (aliases planned).Nodup ∧ entries.foldlM (planEntry active conflict) plan =
      .ok ⟨planned, plan.changes ++ entries,
        { plan.report with imported := plan.report.imported ++ summaries entries }⟩ := by
  induction entries generalizing plan with
  | nil => exact ⟨plan.planned, halias, by simp [summaries, pure, Except.pure]⟩
  | cons entry entries ih =>
    obtain ⟨hentry, hnew⟩ := List.forall_mem_cons.1 hnew
    obtain ⟨hfirst, hfree⟩ := List.forall_mem_cons.1 hfree
    obtain ⟨hothers, hdiffer⟩ := List.pairwise_cons.1 hdiffer
    obtain ⟨planned, hnodup, hrest⟩ := @ih (plan.accept false entry.1 entry.2)
      (keysMatch_insert hkeys)
      (fun later hlater =>
        (get?_insert_of_ne (hothers later hlater).1.symm).trans (hnew later hlater))
      (fun later hlater =>
        collides_insert_eq_false hkeys (hfree later hlater) (hothers later hlater).2)
      (nodup_aliases_insert hkeys hfirst halias) hdiffer
    have hturn : planEntry active conflict plan entry = .ok (plan.accept false entry.1 entry.2) := by
      simp [planEntry, hentry, hfirst]
    refine ⟨planned, hnodup, ?_⟩
    rw [List.foldlM_cons, hturn]
    refine hrest.trans ?_
    simp [Plan.accept, summaries]

theorem planImport_of_differ {state : RegistryState} (hempty : state.accounts = ∅)
    (conflict : ConflictPolicy) (dryRun : Bool) (hdiffer : entries.Pairwise Differ) :
    planImport state entries conflict dryRun =
      .ok (⟨summaries entries, [], [], dryRun⟩, entries) := by
  have hnone : state.records = [] := by
    rw [records, hempty]
    rfl
  obtain ⟨planned, hnodup, hfold⟩ := @foldlM_of_differ _ entries
    ⟨state, [], ⟨[], [], [], dryRun⟩⟩ state.activeAccountId conflict
    (by rw [keysMatch, hempty]; rfl)
    (fun _ _ => by rw [get?, hempty]; rfl)
    (fun _ _ => by simp [collides, hnone]) (by simp [aliases, hnone]) hdiffer
  refine bind_eq_ok.2 ⟨_, hfold, ?_⟩
  exact bind_eq_ok.2 ⟨(), require_eq_ok.2 hnodup, rfl⟩

end Plan

/-! ### The destination -/

/-- The stores, the backup, the readings of the clock and the random values. -/
structure Destination where
  store : Store
  archive : Bytes
  times : ℕ → DateTime
  nonces : ℕ → Nonce
  drawn : ℕ

namespace Destination

def execStore (d : Destination) (c : StoreCall) : c.Ans × Destination :=
  match d.store.exec (d.nonces d.drawn) c with
  | .ok (v, store) => (.ok v, { d with store, drawn := d.drawn + c.draws })
  | .error e => (.error e, d)

def exec (crates : Crates) : (c : TransferCall) → Destination → c.Ans × Destination
  | .openBackup passphrase, d => (openArchive crates passphrase d.archive, d)
  | .clock, d => (d.times, d)
  | .previewState, d => (d.store.stateLocked, d)
  | .store c, d => d.execStore c

def run {α : Type} (crates : Crates) (p : TransferM α) (d : Destination) :
    Except TransferError α × Destination :=
  Prog.run (exec crates) p.run d

def importAccounts (crates : Crates) (passphrase : String) (conflict : ConflictPolicy)
    (d : Destination) : Except TransferError ImportReport × Destination :=
  d.run crates (Transfer.importAccounts crates.toConfig passphrase conflict false)

end Destination

def freshKeys (nonces : ℕ → Nonce) (n : ℕ) : List String → List String
  | [] => []
  | id :: rest => freshKey (nonces n) id :: freshKeys nonces (n + 1) rest

theorem generatedRef_of_mem_freshKeys {nonces : ℕ → Nonce} {n : ℕ} {ids : List String}
    (h : key ∈ freshKeys nonces n ids) : generatedRef key = true := by
  induction ids generalizing n with
  | nil => cases h
  | cons id ids ih =>
    rcases List.mem_cons.1 h with rfl | h
    · exact generatedRef_freshKey _ _
    · exact ih h

theorem saveFreshLocked_of_free {s : Store} {nonce : Nonce}
    (hid : snapshot.embeddedAccountId = some id) (hfree : s.vault (freshKey nonce id) = none) :
    s.saveFreshLocked nonce snapshot = .ok (freshKey nonce id,
      { s with vault := Function.update s.vault (freshKey nonce id) (some snapshot.bytes) }) := by
  have hgen := generatedRef_freshKey nonce id
  have hdigest : refDigest (freshKey nonce id) = (Externals.sha256 id).text :=
    refDigest_of_form ⟨nonce, rfl⟩
  refine bind_eq_ok.2 ⟨id, okOr_eq_ok.2 hid, ?_⟩
  refine bind_eq_ok.2 ⟨(), require_eq_ok.2 hfree, ?_⟩
  refine bind_eq_ok.2 ⟨_, bind_eq_ok.2
    ⟨(), validateAccountId_of_generatedRef hgen, bind_eq_ok.2 ⟨(), ?_, rfl⟩⟩, rfl⟩
  rw [checkRef, if_pos hgen]
  exact bind_eq_ok.2 ⟨id, okOr_eq_ok.2 hid, require_eq_ok.2 hdigest⟩

namespace Destination

variable {crates : Crates} {d d' : Destination}

theorem run_bind_eq_ok {α β : Type} {p : TransferM α} {f : α → TransferM β} {b : β} :
    d.run crates (p >>= f) = (.ok b, d') ↔
      ∃ a t, d.run crates p = (.ok a, t) ∧ t.run crates (f a) = (.ok b, d') :=
  run_except_bind_eq_ok (exec crates)

theorem run_store_eq_ok {c : StoreCall} {v : c.Val} {f : DomainError → TransferError} :
    d.run crates (Prog.orFail (call (.store c)) f) = (.ok v, d') ↔
      ∃ store, d.store.exec (d.nonces d.drawn) c = .ok (v, store) ∧
        d' = { d with store, drawn := d.drawn + c.draws } := by
  have hrun : d.run crates (Prog.orFail (call (.store c)) f) =
      ((d.execStore c).1.mapError f, (d.execStore c).2) :=
    run_orFail (exec crates) (call (.store c)) f d
  rw [hrun, execStore]
  cases d.store.exec (d.nonces d.drawn) c with
  | error e => simp [Except.mapError]
  | ok r =>
    obtain ⟨v', store⟩ := r
    simp [Except.mapError, eq_comm]

end Destination

namespace Destination

variable {crates : Crates} {changes : List (AccountRecord × AuthSnapshot)}

theorem exists_run_stageAll {before : Stores} {state staged : RegistryState}
    {processed : List (AccountRecord × AuthSnapshot)} {published : List (String × Bytes)}
    (crates : Crates) (d : Destination) (hunused : ∀ key, referenced state key = false)
    (hs : Staging before ⟨d.store, published⟩ state staged processed)
    (hnodup : ((processed ++ changes).map (·.1.id)).Nodup) (hnamed : ∀ change ∈ changes, Named change)
    (hkeys : (freshKeys d.nonces d.drawn (changes.map (·.1.id))).Nodup)
    (hfree : ∀ key ∈ freshKeys d.nonces d.drawn (changes.map (·.1.id)), d.store.vault key = none) :
    ∃ staged' d' published', d.run crates (stageAll changes staged) = (.ok staged', d') ∧
      Staging before ⟨d'.store, published'⟩ state staged' (processed ++ changes) := by
  induction changes generalizing d staged processed published with
  | nil =>
    rw [List.append_nil]
    exact ⟨staged, d, published, rfl, hs⟩
  | cons change changes ih =>
    obtain ⟨record, snapshot⟩ := change
    obtain ⟨hfirst, hnamed⟩ := List.forall_mem_cons.1 hnamed
    obtain ⟨hnew, hkeys⟩ := List.nodup_cons.1 hkeys
    obtain ⟨hfirstFree, hfree⟩ := List.forall_mem_cons.1 hfree
    obtain ⟨store, hsave⟩ : ∃ store, d.store.saveFreshLocked (d.nonces d.drawn) snapshot =
        .ok (freshKey (d.nonces d.drawn) record.id, store) :=
      ⟨_, saveFreshLocked_of_free hfirst hfirstFree⟩
    have hstored := Store.saveFreshLocked_eq_ok hsave
    have hsaved : Stores.SavedFresh ⟨d.store, published⟩
        ⟨store, published ++ [(pathFor (freshKey (d.nonces d.drawn) record.id), snapshot.bytes)]⟩
        snapshot (freshKey (d.nonces d.drawn) record.id) := by
      refine ⟨?_, hstored.generated, hstored.free, ?_, hstored.load, hstored.registry,
        hstored.other, rfl⟩
      · rw [show snapshot.embeddedAccountId = some record.id from hfirst]
        nofun
      · intro state' hstate'
        cases hs.stateLocked.symm.trans hstate'
        exact hunused _
    rw [List.append_cons] at hnodup ⊢
    have hrecord : ∀ change ∈ processed, change.1.id ≠ record.id := by
      rw [List.map_append, List.map_append, List.nodup_append, List.nodup_append] at hnodup
      intro change hchange
      exact hnodup.1.2.2 _ (List.mem_map_of_mem hchange) _ List.mem_cons_self
    obtain ⟨staged', d', published', hrun, hstag⟩ :=
      ih { d with store, drawn := d.drawn + 1 } (hs.insert hsaved hrecord) hnodup hnamed hkeys
        fun key hkey => (hstored.other key fun h => hnew (h ▸ hkey)).trans (hfree key hkey)
    exact ⟨staged', d', published', run_bind_eq_ok.2 ⟨_, _, run_store_eq_ok.2 ⟨_, hsave, rfl⟩, hrun⟩,
      hstag⟩

theorem freshKeys_of_run_stageAll {staged staged' : RegistryState} {d d' : Destination}
    (hnamed : ∀ change ∈ changes, Named change)
    (h : d.run crates (stageAll changes staged) = (.ok staged', d')) :
    (freshKeys d.nonces d.drawn (changes.map (·.1.id))).Nodup ∧
      ∀ key ∈ freshKeys d.nonces d.drawn (changes.map (·.1.id)), d.store.vault key = none := by
  induction changes generalizing d staged with
  | nil => exact ⟨List.nodup_nil, List.forall_mem_nil _⟩
  | cons change changes ih =>
    obtain ⟨record, snapshot⟩ := change
    obtain ⟨hfirst, hnamed⟩ := List.forall_mem_cons.1 hnamed
    obtain ⟨key, t, hsave, hrest⟩ := run_bind_eq_ok.1 h
    obtain ⟨store, hexec, rfl⟩ := run_store_eq_ok.1 hsave
    have hstored := Store.saveFreshLocked_eq_ok hexec
    obtain ⟨id, hid, rfl⟩ := Store.saveFreshLocked_key hexec
    obtain rfl : record.id = id := Option.some.inj (hfirst.symm.trans hid)
    obtain ⟨hkeys, hfree⟩ := ih hnamed hrest
    have htaken : store.vault (freshKey (d.nonces d.drawn) record.id) = some snapshot.bytes :=
      (Store.loadLocked_eq_ok hstored.load).2.1
    have hnew : freshKey (d.nonces d.drawn) record.id ∉
        freshKeys d.nonces (d.drawn + 1) (changes.map (·.1.id)) := by
      intro hmem
      have := hfree _ hmem
      rw [htaken] at this
      cases this
    refine ⟨List.nodup_cons.2 ⟨hnew, hkeys⟩, List.forall_mem_cons.2 ⟨hstored.free, ?_⟩⟩
    intro key hkey
    rw [← hstored.other key fun h => hnew (h ▸ hkey)]
    exact hfree key hkey

end Destination

def New (record : AccountRecord) : Prop :=
  ∃ now, AccountRecord.new record.id record.aliasName now = .ok record

omit [Externals] in
theorem New.plain (h : New record) (hkey : generatedRef key = true) :
    Plain { record with credentialRef := key } := by
  obtain ⟨now, h⟩ := h
  obtain ⟨⟨⟩, hid, h⟩ := bind_eq_ok.1 h
  obtain ⟨⟨⟩, halias, h⟩ := bind_eq_ok.1 h
  have hrecord := Except.ok.inj h
  have hmet : record.metadata = [] := by rw [← hrecord]
  have hsource : record.telemetrySource = "" := by rw [← hrecord]
  have hcreat : record.createdAt = now := by rw [← hrecord]
  have hupd : record.updatedAt = now := by rw [← hrecord]
  refine ⟨?_, hmet, hsource⟩
  refine bind_eq_ok.2 ⟨(), hid, bind_eq_ok.2 ⟨(), halias, ?_⟩⟩
  refine bind_eq_ok.2 ⟨(), ?_, ?_⟩
  · unfold AccountRecord.validateRef
    split_ifs
    · rfl
    · exact mapError_eq_ok.2 (validateAccountId_of_generatedRef hkey)
  refine bind_eq_ok.2 ⟨(), ?_, bind_eq_ok.2 ⟨(), ?_, require_eq_ok.2 ?_⟩⟩
  · simp only [hmet]
    rfl
  · simp only [hsource]
    decide
  · simp only [hcreat, hupd]
    rintro (h | h)
    · exact lt_irrefl _ h
    · exact lt_irrefl _ h.2

theorem new_of_validateManifest {times : ℕ → DateTime}
    {entries : List (AccountRecord × AuthSnapshot)}
    (h : validateManifest cfg times manifest = .ok entries) : ∀ entry ∈ entries, New entry.1 := by
  intro entry hentry
  obtain ⟨-, hchec, -⟩ := checked_of_validateManifest h
  obtain ⟨account, -, now, seen, hacc⟩ := exists_of_mem hchec hentry
  obtain ⟨hid, halias⟩ := AccountRecord.new_eq_ok hacc.record
  refine ⟨now, ?_⟩
  rw [hid, halias]
  exact hacc.record

section Publish

variable {before after : Stores} {state staged : RegistryState}
  {changes : List (AccountRecord × AuthSnapshot)}

theorem Staging.get?_eq_some (h : Staging before after state staged changes)
    (hempty : state.accounts = ∅) (hget : staged.get? id = some record) :
    ∃ change ∈ changes, change.1.id = id ∧ ∃ key, generatedRef key = true ∧
      record = { change.1 with credentialRef := key } := by
  by_cases hchange : ∃ change ∈ changes, change.1.id = id
  · obtain ⟨change, hmem, rfl⟩ := hchange
    obtain ⟨key, hfresh, hgen, -⟩ := h.fresh change hmem
    exact ⟨change, hmem, rfl, key, hgen, Option.some.inj (hget.symm.trans hfresh)⟩
  · have hother := h.other id fun change hmem heq => hchange ⟨change, hmem, heq⟩
    rw [hget, get?, hempty] at hother
    cases hother

theorem Staging.exists_replaceLocked {crates : Crates} (hlaws : crates.Lawful)
    (h : Staging before after state staged changes) (hempty : state.accounts = ∅)
    (hactive : state.activeAccountId = "") (hnew : ∀ change ∈ changes, New change.1)
    (hlength : changes.length ≤ maxAccounts) :
    ∃ store, after.store.replaceLocked staged = .ok store := by
  have hentry : ∀ e ∈ staged.accounts.entries, ∃ change ∈ changes, change.1.id = e.1 ∧
      e.2.id = e.1 ∧ Plain e.2 := by
    rintro ⟨id, record⟩ he
    obtain ⟨change, hmem, rfl, key, hkey, rfl⟩ :=
      h.get?_eq_some hempty (AList.mem_lookup_iff.2 he : staged.get? id = some record)
    exact ⟨change, hmem, rfl, rfl, (hnew change hmem).plain hkey⟩
  have hplain : ∀ record ∈ staged.records, Plain record := by
    intro record hrecord
    obtain ⟨e, he, rfl⟩ := List.mem_map.1 hrecord
    obtain ⟨-, -, -, -, hplain⟩ := hentry e he
    exact hplain
  have hcount : staged.records.length ≤ changes.length := by
    have hsubset : staged.accounts.keys ⊆ changes.map (·.1.id) := by
      intro id hid
      obtain ⟨e, he, rfl⟩ := List.mem_map.1 hid
      obtain ⟨change, hmem, heq, -⟩ := hentry e he
      exact List.mem_map.2 ⟨change, hmem, heq⟩
    have := (List.subperm_of_subset staged.accounts.keys_nodup hsubset).length_le
    simpa [AList.keys, List.keys, records] using this
  have hsize := hlaws.registry { staged with version := registryVersion } (h.active.trans hactive)
    hplain
  have hvalid : RegistryState.Valid { staged with version := registryVersion } := by
    refine ⟨rfl, List.all_eq_true.2 ?_, fun record hrecord => (hplain record hrecord).1, ?_⟩
    · intro e he
      obtain ⟨-, -, -, hid, -⟩ := hentry e he
      simpa using hid.symm
    · simp [activeRegistered, h.active.trans hactive]
  have hfits : Externals.registryJsonLength { staged with version := registryVersion } + 1 ≤
      maxRegistryBytes := by
    have hrec : 4096 * (staged.records.length + 1) + 1 ≤ maxRegistryBytes := by
      have hmax : maxAccounts = 256 := rfl
      have hbytes : maxRegistryBytes = 16777216 := rfl
      omega
    exact (Nat.add_le_add_right hsize 1).trans hrec
  exact ⟨_, bind_eq_ok.2 ⟨_, saveUnlocked_of_valid hvalid hfits, rfl⟩⟩

end Publish

/-! ### The import -/

omit [Externals] in
theorem referenced_of_empty {state : RegistryState} (hempty : state.accounts = ∅) (key : String) :
    referenced state key = false := by
  rw [referenced, records, hempty]
  rfl

namespace Destination

variable {crates : Crates} {d d' : Destination} {state : RegistryState} {conflict : ConflictPolicy}
  {report : ImportReport} {entries changes : List (AccountRecord × AuthSnapshot)}

def collected (d : Destination) (state : RegistryState) : Destination :=
  { d with store := d.store.collectOrphansLocked state }

theorem run_collect (d : Destination) (state : RegistryState) :
    d.run crates (Transfer.store (.collectOrphansLocked state)) = (.ok (), d.collected state) :=
  run_store_eq_ok.2 ⟨_, rfl, rfl⟩

theorem exists_run_commitChanges {backup : Manifest} {times : ℕ → DateTime} (hlaws : crates.Lawful)
    (d : Destination) (hstate : d.store.stateLocked = .ok state) (hempty : state.accounts = ∅)
    (hval : validateManifest crates.toConfig times backup = .ok entries)
    (hplan : planImport state entries conflict false = .ok (report, changes))
    (hnew : ∀ change ∈ changes, New change.1) (hlength : changes.length ≤ maxAccounts)
    (hkeys : (freshKeys d.nonces d.drawn (changes.map (·.1.id))).Nodup) :
    ∃ d' published, d.run crates (commitChanges state report changes) = (.ok report, d') ∧
      Completed crates.toConfig backup state report d'.store published := by
  have hplann := planImport_eq_ok hplan
  have hstart : Staging ⟨d.store, []⟩ ⟨(d.collected state).store, []⟩ state state [] := by
    refine ⟨hstate, rfl, ?_, rfl, rfl, fun _ _ => rfl, List.forall_mem_nil _⟩
    intro id account hacc
    rw [get?, hempty] at hacc
    cases hacc
  obtain ⟨staged, t, published, hstage, hstag⟩ := exists_run_stageAll crates
    (d.collected state) (referenced_of_empty hempty) hstart
    (hplann.sublist.nodup (validateManifest_eq_ok hval).2)
    (hplann.named (named_of_validateManifest hval)) hkeys
    fun key hkey => if_pos (by
      rw [generatedRef_of_mem_freshKeys hkey, referenced_of_empty hempty]
      rfl)
  rw [List.nil_append] at hstag
  obtain ⟨store, hrep⟩ := hstag.exists_replaceLocked hlaws hempty
    (by simpa [activeRegistered, get?, hempty] using (loadUnlocked_valid hstate).active) hnew hlength
  have hafter : t.store.replaceLocked staged = .ok (⟨store, []⟩ : Stores).store := hrep
  refine ⟨{ t with store }, _, ?_, hstag.completed hval hplann hafter⟩
  refine run_bind_eq_ok.2 ⟨(), _, run_collect d state, run_bind_eq_ok.2 ⟨staged, t, hstage, ?_⟩⟩
  refine run_bind_eq_ok.2 ⟨(), { t with store }, run_store_eq_ok.2 ⟨store, ?_, rfl⟩, rfl⟩
  exact map_eq_ok.2 ⟨store, hrep, rfl⟩

theorem freshKeys_of_run_commitChanges {report' : ImportReport}
    (hnamed : ∀ change ∈ changes, Named change)
    (h : d.run crates (commitChanges state report changes) = (.ok report', d')) :
    (freshKeys d.nonces d.drawn (changes.map (·.1.id))).Nodup := by
  obtain ⟨_, t, hcol, h⟩ := run_bind_eq_ok.1 h
  rw [run_collect] at hcol
  cases hcol
  obtain ⟨staged, t, hstage, -⟩ := run_bind_eq_ok.1 h
  exact (freshKeys_of_run_stageAll hnamed hstage).1

end Destination

namespace Destination

variable {crates : Crates} {d : Destination} {passphrase : String} {conflict : ConflictPolicy}

omit [Externals] in
theorem requirePassphrase_of_validateExportPassphrase
    (h : validateExportPassphrase passphrase = .ok ()) :
    Result.require (!passphrase.isEmpty && passphrase.utf8ByteSize ≤ maxPassphraseBytes)
      TransferError.passphrase = .ok () := by
  rw [validateExportPassphrase, require_eq_ok] at h
  simp only [Bool.not_eq_true', Bool.or_eq_false_iff, decide_eq_false_iff_not] at h
  have hempty : passphrase.isEmpty = false := by
    rw [String.isEmpty_eq_false_iff]
    rintro rfl
    exact h.1.1.1 (by decide)
  have hbytes : passphrase.utf8ByteSize ≤ maxPassphraseBytes := Nat.not_lt.1 h.1.1.2
  simp [hempty, hbytes]

theorem importAccounts_of_opened (conflict : ConflictPolicy)
    (hpas : validateExportPassphrase passphrase = .ok ())
    (hopen : openArchive crates passphrase d.archive = .ok manifest) :
    d.importAccounts crates passphrase conflict =
      match validateManifest crates.toConfig d.times manifest with
      | .error e => (.error e, d)
      | .ok entries => d.run crates (importLocked entries conflict) := by
  have hvalid := requirePassphrase_of_validateExportPassphrase hpas
  refine (run_except_bind_ok (exec crates) (congrArg (·, d) hvalid)).trans ?_
  have hread : Prog.run (exec crates) (Prog.orFail (call (.openBackup passphrase)) id).run d =
      (.ok manifest, d) := by
    rw [run_orFail]
    exact congrArg (fun r => (Except.mapError id r, d)) hopen
  refine (run_except_bind_ok (exec crates) hread).trans ?_
  have hclock : Prog.run (exec crates) (liftM (call .clock) : TransferM (ℕ → DateTime)).run d =
      (.ok d.times, d) := rfl
  refine (run_except_bind_ok (exec crates) hclock).trans ?_
  cases validateManifest crates.toConfig d.times manifest with
  | error e => exact run_except_bind_error (exec crates) rfl
  | ok entries => exact run_except_bind_ok (exec crates) rfl

theorem run_importLocked {state : RegistryState} {report : ImportReport}
    {entries changes : List (AccountRecord × AuthSnapshot)}
    (hstate : d.store.stateLocked = .ok state)
    (hplan : planImport state entries conflict false = .ok (report, changes))
    (hchan : changes ≠ []) :
    d.run crates (importLocked entries conflict) = d.run crates (commitChanges state report changes) := by
  have hread : d.run crates (Transfer.store .stateLocked) = (.ok state, d) :=
    run_store_eq_ok.2 ⟨d.store, map_eq_ok.2 ⟨state, hstate, rfl⟩, rfl⟩
  have hlock : d.run crates (Transfer.store .lockExclusive) = (.ok (), d) := rfl
  refine (run_except_bind_ok (exec crates) hlock).trans ?_
  refine (run_except_bind_ok (exec crates) hread).trans ?_
  refine (run_except_bind_ok (exec crates) (congrArg (·, d) hplan)).trans ?_
  rw [if_neg hchan]
  rfl

end Destination

/-! ### The round trip -/

omit [Externals] in
theorem nodup_selectedIds (selected : List String) : (selectedIds selected).Nodup :=
  (List.perm_insertionSort _ _).nodup_iff.2 (List.nodup_dedup selected)

omit [Externals] in
theorem perm_selectedIds {selected : List String}
    (h : (selectedIds selected).length = selected.length) : (selectedIds selected).Perm selected := by
  have hperm : (selectedIds selected).Perm selected.dedup := List.perm_insertionSort _ _
  have hdedup : selected.dedup = selected :=
    (List.dedup_sublist selected).eq_of_length (hperm.length_eq ▸ h)
  rwa [hdedup] at hperm

theorem Backed.faithful {store : Store} {state : RegistryState} (hvalid : state.Valid)
    (h : Backed store state id account record snapshot) : Faithful account snapshot := by
  have hid := get?_id hvalid.keys h.get
  obtain ⟨⟨⟩, hvalidId, hrecord⟩ := bind_eq_ok.1
    (hvalid.records record (mem_records_of_get? h.get))
  obtain ⟨⟨⟩, hvalidAlias, -⟩ := bind_eq_ok.1 hrecord
  rw [hid] at hvalidId
  obtain rfl := h.eq
  exact ⟨hvalidId, hvalidAlias, rfl, h.named⟩

namespace Exported

variable {crates : Crates} {source : Exporter} {selected : List String} {passphrase : String}
  {state : RegistryState} {accounts : List BackupAccount} {plaintext archive : Bytes}

theorem map_id (h : Exported crates source selected passphrase state accounts plaintext archive) :
    accounts.map (·.id) = selectedIds selected := by
  obtain ⟨-, -, -, hbacked, -⟩ := h
  generalize selectedIds selected = ids at hbacked
  induction hbacked with
  | nil => rfl
  | cons hfirst _ ih =>
    obtain ⟨record, snapshot, hfirst⟩ := hfirst
    rw [List.map_cons, ih, hfirst.eq]

theorem exists_backed
    (h : Exported crates source selected passphrase state accounts plaintext archive)
    (hmem : account ∈ accounts) :
    ∃ record snapshot, Backed source.store state account.id account record snapshot := by
  obtain ⟨i, hi, rfl⟩ := List.getElem_of_mem hmem
  obtain ⟨record, snapshot, hbacked⟩ := (List.forall₂_iff_get.1 h.backed).2 i
    (h.backed.length_eq ▸ hi) hi
  refine ⟨record, snapshot, ?_⟩
  have hid : accounts[i].id = _ := congrArg BackupAccount.id hbacked.eq
  rw [hid]
  exact hbacked

end Exported

/-- The selected accounts, and no others, are in `dest`, under their names and with their
credentials. -/
structure Restores (source : Store) (selected : List String) (before : RegistryState) (dest : Store)
    (after : RegistryState) : Prop where
  exported : source.stateLocked = .ok before
  read : dest.stateLocked = .ok after
  ids : ∀ id, (after.get? id).isSome = true ↔ id ∈ selected
  aliases : ∀ id ∈ selected,
    (after.get? id).map (·.aliasName) = (before.get? id).map (·.aliasName)
  bytes : ∀ id ∈ selected, ∃ bytes, source.yields id = some bytes ∧ dest.yields id = some bytes

/-- **A backup was restored**: every selected account was imported, and is there. -/
def Restored (source : Store) (selected : List String)
    (result : Except TransferError ImportReport × Destination) : Prop :=
  ∃ report before after, result.1 = .ok report ∧ (report.imported.map (·.id)).Perm selected ∧
    report.replaced = [] ∧ report.skipped = [] ∧
    Restores source selected before result.2.store after

/-- The date can be read, the names do not repeat, and neither do the keys under which the
credentials are saved. -/
structure Restorable (crates : Crates) (source : Exporter) (report : ExportReport) (d : Destination) :
    Prop where
  dated : crates.parsesRfc3339 (crates.toRfc3339 source.clock) = true
  aliases : (givenAliases (report.accounts.map (·.aliasName))).Nodup
  keys : (freshKeys d.nonces d.drawn (report.accounts.map (·.id))).Nodup

theorem differ_of_apart {accounts : List BackupAccount}
    {entries : List (AccountRecord × AuthSnapshot)}
    (h : List.Forall₂ (Archived cfg) accounts entries) (hapart : accounts.Pairwise Apart) :
    entries.Pairwise Differ := by
  have hnames : accounts.map (fun account => (account.id, account.aliasName)) =
      entries.map fun entry => (entry.1.id, entry.1.aliasName) :=
    Archived.map_eq (fun h => by rw [h.id, h.aliasName]) h
  have hpairs : (accounts.map fun account => (account.id, account.aliasName)).Pairwise
      fun x y => x.1 ≠ y.1 ∧ (y.2 ≠ "" → x.2 ≠ y.2) := List.pairwise_map.2 hapart
  rw [hnames, List.pairwise_map] at hpairs
  exact hpairs

section Restore

variable {crates : Crates} {source : Exporter} {selected : List String} {passphrase : String}
  {before state after : RegistryState} {accounts : List BackupAccount} {plaintext archive : Bytes}
  {entries : List (AccountRecord × AuthSnapshot)} {times : ℕ → DateTime} {dest : Store}

theorem Exported.restores (hlaws : crates.Lawful)
    (h : Exported crates source selected passphrase before accounts plaintext archive)
    (hempty : state.accounts = ∅) (harc : List.Forall₂ (Archived crates.toConfig) accounts entries)
    (hcom : Completed crates.toConfig (crates.manifest source.clock accounts) state
      ⟨summaries entries, [], [], false⟩ dest after) :
    Restores source.store selected before dest after := by
  have hperm := perm_selectedIds h.ids.2.1
  have hids : entries.map (·.1.id) = selectedIds selected := by
    rw [← Archived.map_eq (fun h => h.id.symm) harc, h.map_id]
  have hentry : ∀ id ∈ selected, ∃ record snapshot record' snapshot',
      before.get? id = some record ∧ source.store.loadLocked record.effectiveRef = .ok snapshot ∧
      after.get? id = some record' ∧ dest.loadLocked record'.effectiveRef = .ok snapshot' ∧
      record'.aliasName = record.aliasName ∧ snapshot'.bytes = snapshot.bytes := by
    intro id hid
    rw [← hperm.mem_iff, ← hids] at hid
    obtain ⟨entry, hmem, rfl⟩ := List.mem_map.1 hid
    obtain ⟨account, hacc, harc⟩ := exists_of_mem harc hmem
    obtain ⟨record, snapshot, hbacked⟩ := h.exists_backed hacc
    obtain ⟨account', hacc', record', snapshot', hid', hget', -, halias', hload', hdec⟩ :=
      hcom.listed _ (List.mem_append_left _ (List.mem_map_of_mem hmem))
    obtain rfl : account' = account :=
      List.inj_on_of_nodup_map (h.map_id ▸ nodup_selectedIds selected) hacc' hacc
        (hid'.trans harc.id)
    rw [← harc.id] at hbacked
    refine ⟨record, snapshot, record', snapshot', hbacked.get, hbacked.load, hget', hload', ?_, ?_⟩
    · rw [halias', harc.aliasName, hbacked.eq]
    · rw [hbacked.eq, hlaws.base64] at hdec
      exact (Option.some.inj hdec).symm
  refine ⟨h.read, hcom.read, ?_, ?_, ?_⟩
  · intro id
    constructor
    · intro hsome
      by_contra hid
      have hother := hcom.other id <| by
        intro summary hsum heq
        obtain ⟨entry, hmem, rfl⟩ := List.mem_map.1 (List.append_nil (summaries entries) ▸ hsum)
        refine hid (hperm.mem_iff.1 (hids ▸ List.mem_map.2 ⟨entry, hmem, heq⟩))
      rw [hother, get?, hempty] at hsome
      cases hsome
    · intro hid
      obtain ⟨record, snapshot, record', snapshot', -, -, hget', -⟩ := hentry id hid
      rw [hget']
      rfl
  · intro id hid
    obtain ⟨record, snapshot, record', snapshot', hget, -, hget', -, halias, -⟩ := hentry id hid
    rw [hget, hget']
    exact congrArg some halias
  · intro id hid
    obtain ⟨record, snapshot, record', snapshot', hget, hload, hget', hload', -, hbytes⟩ :=
      hentry id hid
    exact ⟨snapshot.bytes, Store.yields_eq_some_iff.2 ⟨_, _, _, h.read, hget, hload, rfl⟩,
      Store.yields_eq_some_iff.2 ⟨_, _, _, hcom.read, hget', hload', hbytes⟩⟩

theorem Exported.faithful
    (h : Exported crates source selected passphrase before accounts plaintext archive) :
    ∀ account ∈ accounts, ∃ snapshot, Faithful account snapshot := by
  intro account hacc
  obtain ⟨record, snapshot, hbacked⟩ := h.exists_backed hacc
  exact ⟨snapshot, hbacked.faithful (loadUnlocked_valid h.read)⟩

theorem Exported.length_accounts
    (h : Exported crates source selected passphrase before accounts plaintext archive) :
    accounts ≠ [] ∧ accounts.length ≤ maxAccounts := by
  have hlength := h.backed.length_eq
  refine ⟨?_, hlength ▸ h.ids.2.2⟩
  rintro rfl
  exact h.ids.1 (List.length_eq_zero_iff.1 hlength)

theorem Exported.validateManifest_ok_iff (hlaws : crates.Lawful)
    (h : Exported crates source selected passphrase before accounts plaintext archive)
    (times : ℕ → DateTime) :
    (∃ entries, validateManifest crates.toConfig times (crates.manifest source.clock accounts) =
        .ok entries) ↔ crates.parsesRfc3339 (crates.toRfc3339 source.clock) = true ∧
        (givenAliases (accounts.map (·.aliasName))).Nodup := by
  rw [Transfer.validateManifest_ok_iff hlaws h.faithful h.length_accounts,
    pairwise_apart_iff (h.map_id ▸ nodup_selectedIds selected)]

theorem Exported.restored_iff (hlaws : crates.Lawful) {d : Destination}
    (h : Exported crates source selected passphrase before accounts plaintext d.archive)
    (hstate : d.store.stateLocked = .ok state) (hempty : state.accounts = ∅)
    (hent : validateManifest crates.toConfig d.times (crates.manifest source.clock accounts) =
      .ok entries) (conflict : ConflictPolicy) :
    Restored source.store selected (d.importAccounts crates passphrase conflict) ↔
      (freshKeys d.nonces d.drawn (accounts.map (·.id))).Nodup := by
  have harc := (validateManifest_eq_ok hent).1
  have hids : accounts.map (·.id) = entries.map (·.1.id) :=
    Archived.map_eq (fun h => h.id.symm) harc
  have hlength : entries ≠ [] ∧ entries.length ≤ maxAccounts := by
    rw [← List.length_pos_iff, ← harc.length_eq, List.length_pos_iff]
    exact h.length_accounts
  have hapart : accounts.Pairwise Apart :=
    ((Transfer.validateManifest_ok_iff hlaws h.faithful h.length_accounts).1 ⟨entries, hent⟩).2
  have hplan := planImport_of_differ hempty conflict false (differ_of_apart harc hapart)
  have himport : d.importAccounts crates passphrase conflict =
      d.run crates (commitChanges state ⟨summaries entries, [], [], false⟩ entries) := by
    rw [Destination.importAccounts_of_opened conflict h.valid (h.openArchive_eq_ok hlaws), hent]
    exact Destination.run_importLocked hstate hplan hlength.1
  rw [himport, hids]
  constructor
  · rintro ⟨report, -, -, hok, -⟩
    exact Destination.freshKeys_of_run_commitChanges (named_of_validateManifest hent)
      (Prod.ext hok rfl)
  · intro hkeys
    obtain ⟨d', after, hrun, hcom⟩ := Destination.exists_run_commitChanges hlaws d hstate
      hempty hent hplan (new_of_validateManifest hent) hlength.2 hkeys
    rw [hrun]
    refine ⟨_, before, after, rfl, ?_, rfl, rfl, h.restores hlaws hempty harc hcom⟩
    have hsum : (summaries entries).map (·.id) = selectedIds selected := by
      rw [summaries, List.map_map, ← h.map_id, hids]
      rfl
    rw [hsum]
    exact perm_selectedIds h.ids.2.1

end Restore

/-- **A backup is restored exactly under these conditions**, where no account is registered. -/
theorem backup_round_trip {crates : Crates} (hlaws : crates.Lawful) {source exported : Exporter}
    {selected : List String} {passphrase : String} {overwrite : Bool} {report : ExportReport}
    (hexport : Prog.Runs (ExportCall.Effect crates)
      (exportAccounts crates selected passphrase overwrite).run source (.ok report) exported)
    (d : Destination) (harchive : exported.output = some d.archive) {state : RegistryState}
    (hstate : d.store.stateLocked = .ok state) (hempty : state.accounts = ∅)
    (conflict : ConflictPolicy) :
    Restored source.store selected (d.importAccounts crates passphrase conflict) ↔
      Restorable crates source report d := by
  obtain ⟨before, accounts, plaintext, archive, h, houtput, hreport⟩ := exported_of_runs hexport
  obtain rfl : archive = d.archive := Option.some.inj (houtput.symm.trans harchive)
  have hacc := h.validateManifest_ok_iff hlaws d.times
  have halias : report.accounts.map (·.aliasName) = accounts.map (·.aliasName) := by
    rw [hreport, List.map_map]
    rfl
  have hids : report.accounts.map (·.id) = accounts.map (·.id) := by
    rw [hreport, List.map_map]
    rfl
  constructor
  · intro hres
    cases hent : validateManifest crates.toConfig d.times (crates.manifest source.clock accounts) with
    | error e =>
      -- what is not accepted is not imported
      obtain ⟨imported, -, -, hok, -⟩ := hres
      rw [Destination.importAccounts_of_opened conflict h.valid (h.openArchive_eq_ok hlaws),
        hent] at hok
      cases hok
    | ok entries =>
      obtain ⟨hdated, hnodup⟩ := hacc.1 ⟨entries, hent⟩
      have hkeys := (h.restored_iff hlaws hstate hempty hent conflict).1 hres
      exact ⟨hdated, halias ▸ hnodup, hids ▸ hkeys⟩
  · rintro ⟨hdated, hnodup, hkeys⟩
    rw [halias] at hnodup
    rw [hids] at hkeys
    obtain ⟨entries, hent⟩ := hacc.2 ⟨hdated, hnodup⟩
    exact (h.restored_iff hlaws hstate hempty hent conflict).2 hkeys

/-! ### A sample backup -/

def archiveSample : Bytes := headerMark ++ List.replicate 76 0

def Crates.sample (manifest : Manifest) : Crates where
  decodeBase64 := Base64.decode
  parsesRfc3339 _ := true
  toRfc3339 _ := "1970-01-01T00:00:00+00:00"
  encodeManifest m := if m = manifest then some [] else none
  decodeManifest _ := some manifest
  Encrypts _ plaintext archive := plaintext = [] ∧ archive = archiveSample
  readHeader _ := some true
  decrypt _ _ := some ([], true)

omit [Externals] in
theorem Crates.lawful_sample (manifest : Manifest) :
    letI := Externals.sample
    (Crates.sample manifest).Lawful := by
  let := Externals.sample
  refine ⟨Base64.decode_encode, ?_, ?_, fun _ => rfl, ?_, fun _ _ _ => Nat.zero_le _⟩
  · intro m bytes h
    simp only [Crates.sample, Option.ite_none_right_eq_some] at h ⊢
    rw [h.1]
  · rintro passphrase plaintext archive ⟨rfl, rfl⟩
    exact ⟨0, by decide, by decide, by decide⟩
  · rintro passphrase plaintext archive ⟨rfl, -⟩
    rfl

def Exporter.exec : (c : ExportCall) → Exporter → c.Ans × Exporter
  | .checkedOutput _, s => (.ok (), s)
  | .lockShared, s => (.ok (), s)
  | .stateLocked, s => (s.store.stateLocked, s)
  | .loadLocked key, s => (s.store.loadLocked key, s)
  | .now, s => (s.clock, s)
  | .encrypt _ plaintext, s => (if plaintext = [] then .ok archiveSample else .error .encryption, s)
  | .persist archive _, s => (.ok (), { s with output := some archive })
  | .syncDir, s => (.ok (), s)

theorem Exporter.effect_exec (manifest : Manifest) (c : ExportCall) (s : Exporter) :
    ExportCall.Effect (Crates.sample manifest) c s (s.exec c).1 (s.exec c).2 := by
  cases c with
  | checkedOutput | lockShared | syncDir => rfl
  | stateLocked | loadLocked => exact ⟨rfl, fun _ h => h⟩
  | now => exact ⟨rfl, rfl⟩
  | persist => exact .inl rfl
  | encrypt passphrase plaintext =>
    refine ⟨rfl, fun archive h => ?_⟩
    simp only [Exporter.exec] at h
    split_ifs at h with hplain
    exact ⟨hplain, (Except.ok.inj h).symm⟩

def bytesSample (id : String) : Bytes := asciiBytes id ++ 0 :: asciiBytes "1"

def Exporter.sample (aliasName aliasName' : String) : Exporter where
  store :=
    { registry := some
        { size := 1
          document := some ((RegistryState.empty.insert "a" { AccountRecord.sample "a" with aliasName }).insert
            "b" { AccountRecord.sample "b" with aliasName := aliasName' }) }
      vault := Function.update (Function.update (fun _ => none) "a" (some (bytesSample "a"))) "b"
        (some (bytesSample "b")) }
  clock := .epoch
  output := none

def Manifest.sample (aliasName aliasName' : String) : Manifest where
  format := "codexmarathon-accounts"
  version := 1
  createdAt := "1970-01-01T00:00:00+00:00"
  exporterVersion := Transfer.exporterVersion
  accounts := [⟨"a", aliasName, Base64.encode (bytesSample "a")⟩,
    ⟨"b", aliasName', Base64.encode (bytesSample "b")⟩]

def Destination.sample : Destination where
  store := { registry := none, vault := fun _ => none }
  archive := archiveSample
  times := fun _ => .epoch
  nonces
    | 0 => HexText.zeros
    | _ => HexText.ones
  drawn := 0

theorem Exporter.runs_of_eq_ok {selected : List String} {passphrase : String} {overwrite : Bool}
    {s : Exporter} {report : ExportReport}
    (h : (Prog.run Exporter.exec (exportAccounts (Crates.sample manifest) selected passphrase overwrite).run s).1 = .ok report) :
    Prog.Runs (ExportCall.Effect (Crates.sample manifest))
      (exportAccounts (Crates.sample manifest) selected passphrase overwrite).run s (.ok report)
      (Prog.run Exporter.exec
        (exportAccounts (Crates.sample manifest) selected passphrase overwrite).run s).2 :=
  h ▸ runs_run (Exporter.effect_exec manifest) _ s

omit [Externals] in
theorem backup_round_trip_sample :
    letI := Externals.sample
    Restored (Exporter.sample "home" "work").store ["b", "a"] (Destination.sample.importAccounts
      (Crates.sample (.sample "home" "work")) "correct horse" .skip) := by
  let := Externals.sample
  have hexport : Prog.Runs (ExportCall.Effect (Crates.sample (.sample "home" "work")))
      (exportAccounts (Crates.sample (.sample "home" "work")) ["b", "a"] "correct horse" false).run
      (Exporter.sample "home" "work") (.ok ⟨[⟨"a", "home"⟩, ⟨"b", "work"⟩]⟩) _ :=
    Exporter.runs_of_eq_ok (by decide +kernel)
  refine (backup_round_trip (Crates.lawful_sample _) hexport Destination.sample (by decide +kernel)
    rfl rfl .skip).2 ⟨rfl, ?_, ?_⟩
  · decide
  · decide +kernel

omit [Externals] in
/-- **Two accounts with one name do not come back.**  They are exported, and no policy imports what
was written. -/
theorem backup_not_restored :
    letI := Externals.sample
    let crates := Crates.sample (.sample "work" "work")
    let source := Exporter.sample "work" "work"
    crates.Lawful ∧
      (∃ exported, Prog.Runs (ExportCall.Effect crates)
        (exportAccounts crates ["a", "b"] "correct horse" false).run source
        (.ok ⟨[⟨"a", "work"⟩, ⟨"b", "work"⟩]⟩) exported ∧
        exported.output = some Destination.sample.archive) ∧
      Destination.sample.store.stateLocked = .ok .empty ∧
      ∀ conflict,
        (Destination.sample.importAccounts crates "correct horse" conflict).1 = .error .format ∧
        ¬ Restored source.store ["a", "b"]
          (Destination.sample.importAccounts crates "correct horse" conflict) := by
  let := Externals.sample
  have himport : ∀ conflict, (Destination.sample.importAccounts
      (Crates.sample (.sample "work" "work")) "correct horse" conflict).1 = .error .format := by
    rintro (_ | _ | _) <;> decide +kernel
  refine ⟨Crates.lawful_sample _, ⟨_, Exporter.runs_of_eq_ok (by decide +kernel), by decide +kernel⟩,
    rfl, fun conflict => ⟨himport conflict, ?_⟩⟩
  rintro ⟨report, before, after, hok, -⟩
  rw [himport conflict] at hok
  cases hok

end CodexMarathon.Transfer
