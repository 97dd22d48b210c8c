/-
**An import is one batch.**

The credentials of all accepted accounts are saved under fresh references before the registry is
published once.  Whatever fails, and wherever the process is stopped, the registry on disk is the
one from before or the whole planned one.  A dry run writes nothing and reports what the import
would.
-/

import CodexMarathon.Store.Runs

namespace CodexMarathon.Transfer

open Auth Prog

variable [Externals]

variable {times : ℕ → DateTime}

/-- The backup is opened, or opening it fails; decryption inverts encryption. -/
def Opens (backup : Manifest) : (c : SystemCall) → c.Ans → Prop
  | .transfer (.openBackup _), a => ∀ manifest, a = .ok manifest → manifest = backup
  | _, _ => True

def importOnSystem (cfg : Config) (passphrase : String) (conflict : ConflictPolicy)
    (dryRun : Bool) : SystemProg (Except TransferError ImportReport) :=
  (importAccounts cfg passphrase conflict dryRun).run.subst TransferCall.onSystem

def Reaches {α : Type} (backup : Manifest) : SystemProg α × Disk → SystemProg α × Disk → Prop :=
  Relation.ReflTransGen (Prog.Step (SystemCall.Effect (Opens backup)))

theorem Reaches.safe {α : Type} {backup : Manifest} {p p' : SystemProg α} {d d' : Disk}
    {I : Stores → Prop} {Q : α → Disk → Prop} (h : Reaches backup (p, d) (p', d'))
    (hsafe : p.Safe (systemSemantics (Opens backup) I) Q d) :
    p'.Safe (systemSemantics (Opens backup) I) Q d' :=
  Prog.Safe.steps (y := (p', d')) hsafe h

def PlannedFrom (cfg : Config) (backup : Manifest) (conflict : ConflictPolicy) (dryRun : Bool)
    (state : RegistryState) (report : ImportReport)
    (changes : List (AccountRecord × AuthSnapshot)) : Prop :=
  ∃ times entries, validateManifest cfg times backup = .ok entries ∧
    planImport state entries conflict dryRun = .ok (report, changes)

/-- The listed accounts have new records, which load the bytes of the backup, and nothing else is
different. -/
structure Completed (cfg : Config) (backup : Manifest) (state : RegistryState)
    (report : ImportReport) (store : Store) (published : RegistryState) : Prop where
  read : store.stateLocked = .ok published
  active : published.activeAccountId = state.activeAccountId
  enabled : published.enabled = state.enabled
  other : ∀ id, (∀ summary ∈ report.imported ++ report.replaced, summary.id ≠ id) →
    published.get? id = state.get? id
  listed : ∀ summary ∈ report.imported ++ report.replaced,
    ∃ account ∈ backup.accounts, ∃ record snapshot, account.id = summary.id ∧
      published.get? summary.id = some record ∧ state.get? summary.id ≠ some record ∧
      record.aliasName = summary.aliasName ∧
      store.loadLocked record.effectiveRef = .ok snapshot ∧
      cfg.decodeBase64 account.snapshot = some snapshot.bytes
  inactive : ∀ summary ∈ report.replaced, summary.id ≠ state.activeAccountId

section

variable (cfg : Config) (backup : Manifest) (conflict : ConflictPolicy)

def Committed (before : Store) (report : ImportReport) (after : Store) : Prop :=
  ∃ state changes published, before.stateLocked = .ok state ∧
    PlannedFrom cfg backup conflict false state report changes ∧
    Completed cfg backup state report after published

/-- The registry is the old one or the planned one, and the accounts of the old one have kept their
credentials. -/
structure Progress (before after : Store) : Prop where
  kept : ∀ state, before.stateLocked = .ok state → ∀ id account, state.get? id = some account →
    after.vault account.effectiveRef = before.vault account.effectiveRef
  registry : after.registry = before.registry ∨
    ∃ report, Committed cfg backup conflict before report after

end

structure Staging (before after : Stores) (state staged : RegistryState)
    (processed : List (AccountRecord × AuthSnapshot)) : Prop where
  read : before.store.stateLocked = .ok state
  registry : after.store.registry = before.store.registry
  kept : ∀ id account, state.get? id = some account →
    after.store.vault account.effectiveRef = before.store.vault account.effectiveRef
  active : staged.activeAccountId = state.activeAccountId
  enabled : staged.enabled = state.enabled
  other : ∀ id, (∀ change ∈ processed, change.1.id ≠ id) → staged.get? id = state.get? id
  fresh : ∀ change ∈ processed, ∃ key,
    staged.get? change.1.id = some { change.1 with credentialRef := key } ∧
    generatedRef key = true ∧ referenced state key = false ∧
    after.store.loadLocked key = .ok change.2

namespace Staging

variable {before after after' : Stores} {state staged : RegistryState}
  {processed : List (AccountRecord × AuthSnapshot)} {snapshot : AuthSnapshot} {key : String}

theorem stateLocked (h : Staging before after state staged processed) :
    after.store.stateLocked = .ok state := by
  rw [← h.read, Store.stateLocked, h.registry, Store.stateLocked]

theorem progress {cfg : Config} {backup : Manifest} {conflict : ConflictPolicy}
    (h : Staging before after state staged processed) :
    Progress cfg backup conflict before.store after.store := by
  refine ⟨?_, .inl h.registry⟩
  intro state' hstate' id account hacc
  rw [h.read] at hstate'
  cases hstate'
  exact h.kept id account hacc

theorem saved (h : Staging before after state staged processed)
    (hsaved : Stores.SavedFresh after after' snapshot key) :
    Staging before after' state staged processed where
  read := h.read
  registry := hsaved.registry.trans h.registry
  kept id account hacc := by
    have hne : account.effectiveRef ≠ key := by
      rintro rfl
      have := hsaved.unused state h.stateLocked
      rw [referenced_of_get? hacc] at this
      cases this
    rw [hsaved.other _ hne]
    exact h.kept id account hacc
  active := h.active
  enabled := h.enabled
  other := h.other
  fresh change hchange := by
    obtain ⟨key', hget, hgen, hunused, hload⟩ := h.fresh change hchange
    -- the key of an earlier change is taken
    have hne : key' ≠ key := by
      rintro rfl
      have := (Store.loadLocked_eq_ok hload).2.1
      rw [hsaved.free] at this
      cases this
    refine ⟨key', hget, hgen, hunused, ?_⟩
    rw [Store.loadLocked_congr (hsaved.other key' hne)]
    exact hload

theorem insert {record : AccountRecord} (h : Staging before after state staged processed)
    (hsaved : Stores.SavedFresh after after' snapshot key)
    (hrecord : ∀ change ∈ processed, change.1.id ≠ record.id) :
    Staging before after' state (staged.insert record.id { record with credentialRef := key })
      (processed ++ [(record, snapshot)]) := by
  have hnext := h.saved hsaved
  refine ⟨hnext.read, hnext.registry, hnext.kept, h.active, h.enabled, ?_, ?_⟩
  · intro id hid
    obtain ⟨hproc, hlast⟩ := List.forall_mem_append.1 hid
    have hne : id ≠ record.id := fun h => List.forall_mem_singleton.1 hlast h.symm
    rw [RegistryState.get?_insert_of_ne hne]
    exact h.other id hproc
  · refine List.forall_mem_append.2 ⟨?_, List.forall_mem_singleton.2 ?_⟩
    · intro change hchange
      obtain ⟨key', hget, hrest⟩ := hnext.fresh change hchange
      refine ⟨key', ?_, hrest⟩
      rw [RegistryState.get?_insert_of_ne (hrecord change hchange)]
      exact hget
    · exact ⟨key, RegistryState.get?_insert_self, hsaved.generated,
        hsaved.unused state h.stateLocked, hsaved.load⟩

end Staging

section

variable {cfg : Config} {backup : Manifest} {conflict : ConflictPolicy} {before s : Stores}
  {state : RegistryState} {report : ImportReport}
  {entries changes : List (AccountRecord × AuthSnapshot)}
  {answers : (c : TransferCall) → c.Ans → Prop}

theorem Staging.completed {after : Stores} {staged : RegistryState}
    (h : Staging before s state staged changes)
    (hval : validateManifest cfg times backup = .ok entries)
    (hplan : Planned state.activeAccountId entries report changes)
    (hrep : s.store.replaceLocked staged = .ok after.store) :
    Completed cfg backup state report after.store { staged with version := registryVersion } := by
  obtain ⟨hread, hvault⟩ := Store.replaceLocked_eq_ok hrep
  refine ⟨hread, h.active, h.enabled, ?_, ?_, fun summary hsum =>
    (hplan.inactive summary hsum).symm⟩
  · intro id hid
    refine h.other id ?_
    intro change hchange
    exact hid _ ((hplan.listed _).2 ⟨change, hchange, rfl⟩)
  · intro summary hsum
    obtain ⟨change, hchange, rfl⟩ := (hplan.listed summary).1 hsum
    obtain ⟨key, hget, hgen, hunused, hload⟩ := h.fresh change hchange
    obtain ⟨entry, hentry, hid, hsnap⟩ := hplan.mem change hchange
    obtain ⟨account, hacc, harc⟩ :=
      exists_of_mem (validateManifest_eq_ok hval).1 hentry
    have href := effectiveRef_of_generatedRef hgen change.1
    refine ⟨account, hacc, _, change.2, harc.id.symm.trans hid.symm, hget, ?_, rfl, ?_, ?_⟩
    · intro hold
      rw [← href, referenced_of_get? hold] at hunused
      cases hunused
    · rw [href, Store.loadLocked_congr (congrFun hvault key)]
      exact hload
    · rw [hsnap]
      exact harc.bytes

theorem safe_stageAll_batch {staged : RegistryState}
    {processed : List (AccountRecord × AuthSnapshot)}
    (hnodup : ((processed ++ changes).map (·.1.id)).Nodup)
    (hs : Staging before s state staged processed) : (stageAll changes staged).run.Safe
      (transferSemantics answers fun s => Progress cfg backup conflict before.store s.store)
      (Prog.Outcome (fun staged s => Staging before s state staged (processed ++ changes))
        fun s => Progress cfg backup conflict before.store s.store) s := by
  induction changes generalizing staged processed s with
  | nil =>
    rw [List.append_nil]
    exact hs
  | cons change changes ih =>
    obtain ⟨record, snapshot⟩ := change
    rw [List.append_cons] at hnodup ⊢
    have hrecord : ∀ change ∈ processed, change.1.id ≠ record.id := by
      rw [List.map_append, List.map_append, List.nodup_append, List.nodup_append] at hnodup
      intro change hchange
      exact hnodup.1.2.2 _ (List.mem_map_of_mem hchange) _ List.mem_cons_self
    refine safe_seq (Q := fun key s =>
      Staging before s state (staged.insert record.id { record with credentialRef := key })
        (processed ++ [(record, snapshot)])) (safe_store hs.progress nofun ?_) ?_
    · intro a s' h
      cases a with
      | ok key =>
        have hdone : s.Done (.saveFreshLocked snapshot) key s' := h
        exact hs.insert hdone.savedFresh hrecord
      | error e =>
        rcases h with rfl | ⟨key, h⟩
        · exact hs.progress
        · exact (hs.saved h.savedFresh).progress
    · intro key s hs
      exact ih hnodup hs

theorem safe_commitChanges_batch (hstate : before.store.stateLocked = .ok state)
    (hval : validateManifest cfg times backup = .ok entries)
    (hplan : planImport state entries conflict false = .ok (report, changes)) :
    (commitChanges state report changes).run.Safe
      (transferSemantics answers fun s => Progress cfg backup conflict before.store s.store)
      (Prog.Outcome (fun report s => Progress cfg backup conflict before.store s.store ∧
          Committed cfg backup conflict before.store report s.store)
        fun s => Progress cfg backup conflict before.store s.store) before := by
  have hplann := planImport_eq_ok hplan
  have hstart : Staging before before state state [] :=
    ⟨hstate, rfl, fun _ _ _ => rfl, rfl, rfl, fun _ _ => rfl, List.forall_mem_nil _⟩
  have hcoll : StoreCall.CollectsOnDisk (.collectOrphansLocked state) before := by
    rintro _ ⟨⟩
    exact hstate
  refine safe_seq (Q := fun _ s => Staging before s state state [])
    (safe_store hstart.progress hcoll ?_) ?_
  · intro a s h
    have hcol : before.Collected state s := h
    have hs : Staging before s state state [] := by
      refine ⟨hstate, hcol.registry, ?_, rfl, rfl, fun _ _ => rfl, List.forall_mem_nil _⟩
      intro id account hacc
      refine (hcol.vault account.effectiveRef).resolve_right ?_
      rintro ⟨-, hunr, -⟩
      rw [referenced_of_get? hacc] at hunr
      cases hunr
    cases a with
    | ok v => exact hs
    | error e => exact hs.progress
  intro _ s hs
  refine safe_seq (safe_stageAll_batch ?_ hs) ?_
  · exact hplann.sublist.nodup (validateManifest_eq_ok hval).2
  intro staged s hs
  rw [List.nil_append] at hs
  -- the one step that a reader of the registry sees
  have hpub : ∀ {v : Unit} {s'}, s.Done (.replaceLocked staged) v s' →
      Progress cfg backup conflict before.store s'.store ∧
        Committed cfg backup conflict before.store report s'.store := by
    rintro v s' ⟨nonce, -, hexec, -⟩
    obtain ⟨store, hstore, heq⟩ := Result.map_eq_ok.1 hexec
    obtain ⟨-, rfl⟩ := Prod.mk.inj heq
    have hcom : Committed cfg backup conflict before.store report s'.store :=
      ⟨state, changes, _, hstate, ⟨times, entries, hval, hplan⟩,
        hs.completed hval hplann hstore⟩
    refine ⟨⟨?_, .inr ⟨report, hcom⟩⟩, hcom⟩
    intro state' hstate' id account hacc
    rw [hstate] at hstate'
    cases hstate'
    rw [(Store.replaceLocked_eq_ok hstore).2]
    exact hs.kept id account hacc
  refine safe_seq (Q := fun _ s => Progress cfg backup conflict before.store s.store ∧
    Committed cfg backup conflict before.store report s.store) (safe_store hs.progress nofun ?_) ?_
  · intro a s' h
    cases a with
    | ok v => exact hpub h
    | error e =>
      rcases h with rfl | ⟨v, h⟩
      · exact hs.progress
      · exact (hpub h).1
  intro _ s hs
  exact hs

theorem Progress.refl (store : Store) : Progress cfg backup conflict store store :=
  ⟨fun _ _ _ _ _ => rfl, .inl rfl⟩

theorem committed_of_nil (hstate : before.store.stateLocked = .ok state)
    (hval : validateManifest cfg times backup = .ok entries)
    (hplan : planImport state entries conflict false = .ok (report, [])) :
    Committed cfg backup conflict before.store report before.store := by
  have hplann := planImport_eq_ok hplan
  refine ⟨state, [], state, hstate, ⟨times, entries, hval, hplan⟩,
    hstate, rfl, rfl, fun _ _ => rfl, ?_, fun summary hsum =>
      (hplann.inactive summary hsum).symm⟩
  intro summary hsum
  obtain ⟨change, hchange, -⟩ := (hplann.listed summary).1 hsum
  cases hchange

theorem safe_importLocked_batch (hval : validateManifest cfg times backup = .ok entries) :
    (importLocked entries conflict).run.Safe
      (transferSemantics answers fun s => Progress cfg backup conflict before.store s.store)
      (Prog.Outcome (fun report s => Progress cfg backup conflict before.store s.store ∧
          Committed cfg backup conflict before.store report s.store)
        fun s => Progress cfg backup conflict before.store s.store) before := by
  have hstart : Progress cfg backup conflict before.store before.store := .refl before.store
  refine safe_seq (Q := fun _ s => before = s) (safe_store hstart nofun ?_) ?_
  · intro a s h
    cases h.lockExclusive
    cases a with
    | ok v => rfl
    | error e => exact hstart
  rintro _ _ rfl
  refine safe_seq
    (Q := fun state s => before = s ∧ before.store.stateLocked = .ok state)
    (safe_store hstart nofun ?_) ?_
  · intro a s h
    obtain ⟨rfl, hstate⟩ := h.stateLocked
    cases a with
    | ok state => exact ⟨rfl, hstate state rfl⟩
    | error e => exact hstart
  rintro state _ ⟨rfl, hstate⟩
  refine safe_then (safe_lift hstart fun x hplan => ?_)
  rcases x with ⟨report, changes⟩
  split_ifs with hnil
  · cases hnil
    exact ⟨hstart, committed_of_nil hstate hval hplan⟩
  · exact safe_commitChanges_batch hstate hval hplan

theorem safe_previewImport_batch (hval : validateManifest cfg times backup = .ok entries) :
    (previewImport entries conflict).run.Safe (transferSemantics answers fun _ => True)
      (Prog.Outcome (fun report _ => ∃ state changes, before.store.stateLocked = .ok state ∧
          PlannedFrom cfg backup conflict true state report changes) fun _ => True) before := by
  refine safe_seq (Q := fun state _ => before.store.stateLocked = .ok state)
    (safe_orFail ⟨trivial, ?_⟩) ?_
  · intro a s h
    obtain ⟨rfl, hstate⟩ := Stores.Crash.stateLocked h
    cases a with
    | ok state => exact hstate state rfl
    | error e => exact trivial
  intro state s hstate
  refine safe_seq
    (Q := fun plan _ => planImport state entries conflict true = .ok plan)
    (safe_lift trivial fun plan h => h) ?_
  rintro ⟨report, changes⟩ s hplan
  exact ⟨state, changes, hstate, times, entries, hval, hplan⟩

theorem safe_importAccounts_of_validated {I : Stores → Prop} {Q : ImportReport → Stores → Prop}
    (cfg : Config) (passphrase : String) (conflict : ConflictPolicy) (dryRun : Bool)
    (backup : Manifest) (hI : I before)
    (h : ∀ times entries, validateManifest cfg times backup = .ok entries →
      (if dryRun then previewImport entries conflict else importLocked entries conflict).run.Safe
        (transferSemantics (fun c => Opens backup (.transfer c)) I) (Prog.Outcome Q I) before) :
    (importAccounts cfg passphrase conflict dryRun).run.Safe
      (transferSemantics (fun c => Opens backup (.transfer c)) I) (Prog.Outcome Q I) before := by
  refine safe_then (safe_lift hI fun _ _ => ?_)
  refine safe_seq (Q := fun manifest s => before = s ∧ backup = manifest)
    (safe_orFail ⟨hI, ?_⟩) ?_
  · rintro a _ ⟨rfl, hopens⟩
    cases a with
    | ok manifest => exact ⟨rfl, (hopens manifest rfl).symm⟩
    | error e => exact hI
  rintro _ _ ⟨rfl, rfl⟩
  refine safe_seq (Q := fun _ s => before = s)
    (safe_liftProg ⟨hI, ?_⟩) ?_
  · rintro times _ ⟨rfl, -⟩
    rfl
  rintro times _ rfl
  refine safe_then (safe_lift hI fun entries hval => ?_)
  exact h times entries hval

end

end CodexMarathon.Transfer

namespace CodexMarathon

open Transfer Prog

variable [Externals]

def DiskCall.Quiet : DiskCall → Prop
  | .file _ c => c.quiet = true
  | .orphan _ => False
  | _ => True

def SystemCall.Quiet : SystemCall → Prop
  | .disk c => c.Quiet
  | _ => True

theorem SystemCall.Effect.eq_of_quiet {answers : (c : SystemCall) → c.Ans → Prop} {c : SystemCall}
    {d d' : Disk} {a : c.Ans} (h : c.Effect answers d a d') (hc : c.Quiet) : d' = d := by
  cases c with
  | disk c =>
    cases c with
    | file dir c =>
      obtain ⟨v, heffect, rfl⟩ := h
      rw [heffect.eq_of_quiet hc, Function.update_eq_self]
    | orphan name => exact hc.elim
    | random => exact h.1
    | lock => exact h
    | stamp => exact h
  | _ => exact h.1

theorem eq_of_quiet {α : Type} {answers : (c : SystemCall) → c.Ans → Prop} {p : SystemProg α}
    {d : Disk} {y : SystemProg α × Disk}
    (h : p.Safe ⟨fun c _ => c.Quiet, SystemCall.Effect answers⟩ (fun _ _ => True) d)
    (hsteps : Relation.ReflTransGen (Prog.Step (SystemCall.Effect answers)) (p, d) y) :
    y.2 = d := by
  induction hsteps with
  | refl => rfl
  | tail hsteps hstep ih =>
    obtain ⟨hrel⟩ := hstep
    exact (hrel.eq_of_quiet (Prog.Safe.steps (x := (p, d)) h hsteps).1).trans ih

omit [Externals] in
theorem OnDisk.quiet_loadUnlocked {rel : (c : DiskCall) → Disk → c.Ans → Disk → Prop} (d : Disk) :
    OnDisk.loadUnlocked.run.Safe ⟨fun c _ => c.Quiet, rel⟩ (fun _ _ => True) d := by
  have hfile : ∀ {dir : Dir} {c : Files.Call dir.Contents} (d : Disk), c.quiet = true →
      (file dir c).run.Safe ⟨fun c _ => c.Quiet, rel⟩
        (Prog.Outcome (fun _ _ => True) fun _ => True) d := by
    intro dir c d hc
    refine safe_orFail ⟨hc, ?_⟩
    rintro (e | v) d' - <;> exact trivial
  have hopen : (openRegular .state registryName).run.Safe ⟨fun c _ => c.Quiet, rel⟩
      (Prog.Outcome (fun _ _ => True) fun _ => True) d := by
    refine safe_seq (hfile d rfl) fun _ d _ => ?_
    refine safe_seq (Q := fun _ _ => True) ?_ fun _ d _ => hfile d rfl
    exact safe_seq (hfile d rfl) fun _ d _ =>
      safe_lift trivial fun _ _ => trivial
  have hload := safe_seq (f := fun contents => liftM (CodexMarathon.loadUnlocked contents))
    hopen fun _ d _ => safe_lift trivial fun _ _ => trivial
  exact hload.mono fun _ _ _ => trivial

def Transfer.TransferCall.ReadsOnly : TransferCall → Prop
  | .store _ => False
  | _ => True

theorem Transfer.TransferCall.quiet_onSystem {rel : (c : SystemCall) → Disk → c.Ans → Disk → Prop}
    {c : TransferCall} (hc : c.ReadsOnly) (d : Disk) :
    c.onSystem.Safe ⟨fun c _ => c.Quiet, rel⟩ (fun _ _ => True) d := by
  cases c with
  | store c => exact hc.elim
  | previewState =>
    exact safe_onSystem (fun _ _ h => h)
      (fun _ _ _ _ h => h) (OnDisk.quiet_loadUnlocked d)
  | _ => exact ⟨trivial, fun _ _ _ => trivial⟩

namespace Transfer

theorem readsOnly_importAccounts (cfg : Config) (passphrase : String) (conflict : ConflictPolicy) :
    (importAccounts cfg passphrase conflict true).run.Safe
      (⟨fun c _ => c.ReadsOnly, fun _ _ _ _ => True⟩ :
        Prog.Semantics TransferCall TransferCall.Ans Unit)
      (Prog.Outcome (fun _ _ => True) fun _ => True) () := by
  have hanswer : ∀ {ε α : Type} (a : Except ε α),
      Prog.Outcome (fun _ _ => True) (fun _ => True) a () := by
    rintro _ _ (e | a) <;> exact trivial
  refine safe_seq (Q := fun _ _ => True)
    (safe_lift trivial fun _ _ => trivial) fun _ _ _ => ?_
  refine safe_seq
    (safe_orFail ⟨trivial, fun a _ _ => hanswer a⟩) fun _ _ _ => ?_
  refine safe_seq
    (safe_liftProg ⟨trivial, fun _ _ _ => trivial⟩) fun _ _ _ => ?_
  refine safe_seq (Q := fun _ _ => True)
    (safe_lift trivial fun _ _ => trivial) fun entries _ _ => ?_
  change (previewImport entries conflict).run.Safe _ _ ()
  refine safe_seq
    (safe_orFail ⟨trivial, fun a _ _ => hanswer a⟩) fun _ _ _ => ?_
  exact safe_seq (Q := fun _ _ => True)
    (safe_lift trivial fun _ _ => trivial) fun _ _ _ => trivial

theorem quiet_importOnSystem {rel : (c : SystemCall) → Disk → c.Ans → Disk → Prop} (cfg : Config)
    (passphrase : String) (conflict : ConflictPolicy) (d : Disk) :
    (importOnSystem cfg passphrase conflict true).Safe ⟨fun c _ => c.Quiet, rel⟩
      (fun _ _ => True) d := by
  have h := readsOnly_importAccounts cfg passphrase conflict
  refine Prog.Safe.subst (R := fun _ => ()) (fun _ _ _ => trivial)
    (fun _ _ _ => trivial) ?_ (h.mono fun _ _ _ => trivial)
  intro c d hc _
  exact TransferCall.quiet_onSystem hc d

theorem safe_importAccounts_batch (cfg : Config) (passphrase : String) (conflict : ConflictPolicy)
    (backup : Manifest) (d : Disk) : (importOnSystem cfg passphrase conflict false).Safe
      (systemSemantics (Opens backup) fun s => Progress cfg backup conflict d.stores.store s.store)
      (fun r d' => Prog.Outcome
        (fun report s => Progress cfg backup conflict d.stores.store s.store ∧
          Committed cfg backup conflict d.stores.store report s.store)
        (fun s => Progress cfg backup conflict d.stores.store s.store) r d'.stores) d := by
  refine safe_transferOnSystem ?_ (safe_importAccounts_of_validated cfg passphrase conflict false
    backup (.refl d.stores.store) fun _ _ hval => safe_importLocked_batch hval)
  rintro (e | report) s h
  · exact h
  · exact h.1

theorem safe_importAccounts_dryRun (cfg : Config) (passphrase : String) (conflict : ConflictPolicy)
    (backup : Manifest) (d : Disk) : (importOnSystem cfg passphrase conflict true).Safe
      (systemSemantics (Opens backup) fun _ => True) (fun r d' => Prog.Outcome
        (fun report _ => ∃ state changes, d.stores.store.stateLocked = .ok state ∧
          PlannedFrom cfg backup conflict true state report changes)
        (fun _ => True) r d'.stores) d :=
  safe_transferOnSystem (fun _ _ _ => trivial) (safe_importAccounts_of_validated cfg passphrase
    conflict true backup trivial fun _ _ hval => safe_previewImport_batch hval)

theorem PlannedFrom.lists_eq {cfg : Config} {backup : Manifest} {conflict : ConflictPolicy}
    {dryRun dryRun' : Bool} {state : RegistryState} {report report' : ImportReport}
    {changes changes' : List (AccountRecord × AuthSnapshot)}
    (h : PlannedFrom cfg backup conflict dryRun state report changes)
    (h' : PlannedFrom cfg backup conflict dryRun' state report' changes') :
    report.lists = report'.lists := by
  obtain ⟨times, entries, hval, hplan⟩ := h
  obtain ⟨times', entries', hval', hplan'⟩ := h'
  -- the names are those of the backup, whatever the clock says
  have hnames : ∀ {times entries}, validateManifest cfg times backup = .ok entries →
      backup.accounts.map (fun account => (account.id, account.aliasName)) =
        entries.map fun e => (e.1.id, e.1.aliasName) := fun h =>
    Archived.map_eq (fun h => by rw [h.id, h.aliasName]) (validateManifest_eq_ok h).1
  have hlists := planImport_lists state conflict dryRun dryRun'
    ((hnames hval).symm.trans (hnames hval'))
  rw [hplan, hplan'] at hlists
  exact Except.ok.inj hlists

/-- **An import is one batch.** At every point the accounts from before load what they did, and the
registry is the one from before or the planned one; a success leaves the latter. A dry run leaves
the disk, and reports the same lists. -/
theorem import_one_batch (cfg : Config) (passphrase : String) (conflict : ConflictPolicy)
    (backup : Manifest) (d : Disk) :
    (∀ p d', Reaches backup (importOnSystem cfg passphrase conflict false, d) (p, d') →
      Progress cfg backup conflict d.stores.store d'.stores.store ∧
      ∀ report, p = .ret (.ok report) →
        Committed cfg backup conflict d.stores.store report d'.stores.store) ∧
    ∀ p d', Reaches backup (importOnSystem cfg passphrase conflict true, d) (p, d') →
      d' = d ∧ ∀ report, p = .ret (.ok report) →
        ∀ e e' report', e.stores.store.registry = d.stores.store.registry →
          Reaches backup (importOnSystem cfg passphrase conflict false, e)
            (.ret (.ok report'), e') →
          report.imported = report'.imported ∧ report.replaced = report'.replaced ∧
            report.skipped = report'.skipped := by
  refine ⟨?_, ?_⟩
  · intro p d' hrun
    have hsafe := hrun.safe (safe_importAccounts_batch cfg passphrase conflict backup d)
    refine ⟨hsafe.grants (I := fun d' : Disk =>
      Progress cfg backup conflict d.stores.store d'.stores.store) ?_ ?_, ?_⟩
    · intro c d' h
      cases c with
      | disk c => exact h.1
      | _ => exact h
    · rintro (e | report) d' h
      · exact h
      · exact h.1
    · rintro report rfl
      exact hsafe.2
  · intro p d' hrun
    refine ⟨eq_of_quiet (quiet_importOnSystem cfg passphrase conflict d) hrun, ?_⟩
    rintro report rfl e e' report' hreg hrun'
    have hdry := hrun.safe (safe_importAccounts_dryRun cfg passphrase conflict backup d)
    have hreal := hrun'.safe (safe_importAccounts_batch cfg passphrase conflict backup e)
    obtain ⟨state, changes, hstate, hplan⟩ := hdry
    obtain ⟨-, state', changes', published, hstate', hplan', -⟩ := hreal
    -- both runs read the same registry
    have heq : state' = state := by
      rw [Store.stateLocked, hreg, ← Store.stateLocked, hstate] at hstate'
      exact (Except.ok.inj hstate').symm
    cases heq
    have hlists := hplan.lists_eq hplan'
    simpa [ImportReport.lists] using hlists

end Transfer

end CodexMarathon
