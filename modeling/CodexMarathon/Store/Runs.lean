/-
**Every run keeps registry and vault together.**

The operations that write the stores live in three crates.  Here they run on one disk, in any
order and number, and any of them may fail or be stopped between any two calls; what they are
answered by the native runtime, by the daemon and by the user's backup is arbitrary.
-/

import CodexMarathon.Executor.Program
import CodexMarathon.Service.Operations
import CodexMarathon.Store.Consistency
import CodexMarathon.Transfer.Import

namespace CodexMarathon

open Auth Transfer Result Prog Stores Stores.Crash RegistryState

variable [Externals]

variable {f : DomainError → MarathonServiceError} {account : AccountRecord} {id : String}
  {snapshot : AuthSnapshot} {ε : Type} {current : Option String}

def StoreCall.CollectsOnDisk (c : StoreCall) (s : Stores) : Prop :=
  ∀ state, c = .collectOrphansLocked state → s.store.stateLocked = .ok state

def ServiceCall.Answerable (issued : String → Prop) : (c : ServiceCall) → c.Ans → Prop
  | .auth .authCached, cached => ∀ auth id, cached = some auth → auth.getAccountId = some id → issued id
  | _, _ => True

section Semantics

variable (issued : String → Prop) (base : String → Option Bytes)

def serviceSemantics : Semantics ServiceCall ServiceCall.Ans Stores where
  pre
    | .store c, s => s.Intact base ∧ c.CollectsOnDisk s
    | _, s => s.Intact base
  rel
    | .store c, s, a, s' => s.Crash c a s'
    | c, s, a, s' => s' = s ∧ c.Answerable issued a

def executorSemantics : Semantics ExecutorCall ExecutorCall.Ans Stores where
  pre
    | .store c, s => s.Intact base ∧ c.CollectsOnDisk s
    | _, s => s.Intact base
  rel
    | .store c, s, a, s' => s.Crash c a s'
    | _, s, _, s' => s' = s

end Semantics

/-- `I` is an invariant of the stores; `answers` constrains the other calls. -/
def transferSemantics (answers : (c : TransferCall) → c.Ans → Prop) (I : Stores → Prop) :
    Semantics TransferCall TransferCall.Ans Stores where
  pre
    | .store c, s => I s ∧ c.CollectsOnDisk s
    | _, s => I s
  rel
    | .store c, s, a, s' => s.Crash c a s'
    | .previewState, s, a, s' => s.Crash .stateLocked a s'
    | c, s, a, s' => s' = s ∧ answers c a

/-- Nothing that was referred to is lost, whether the operation succeeds or not. -/
abbrev Kept {ε α : Type} (base : String → Option Bytes) : Except ε α → Stores → Prop :=
  Prog.Outcome (fun _ => Stores.Intact base) (Stores.Intact base)

variable {issued : String → Prop} {base : String → Option Bytes} {s : Stores}

namespace Stores

variable {s' : Stores} {disk state : RegistryState}

theorem outcome_lockExclusive {a : StoreCall.lockExclusive.Ans} (hs : s.Intact base)
    (h : s.Crash .lockExclusive a s') :
    Prog.Outcome (fun _ s => s.Intact base) (Intact base) a s' := by
  cases h.lockExclusive
  cases a <;> exact hs

theorem outcome_stateLocked {a : StoreCall.stateLocked.Ans} (hs : s.Intact base)
    (h : s.Crash .stateLocked a s') :
    Prog.Outcome (fun state s => s.Staged base state state) (Intact base) a s' := by
  obtain ⟨rfl, hstate⟩ := h.stateLocked
  cases a with
  | ok state => exact staged_of_stateLocked hs (hstate state rfl)
  | error e => exact hs

theorem outcome_collect {a : (StoreCall.collectOrphansLocked disk).Ans}
    (hs : s.Staged base disk disk) (h : s.Crash (.collectOrphansLocked disk) a s') :
    Prog.Outcome (fun _ s => s.Staged base disk disk) (Intact base) a s' := by
  have hstaged := Crash.staged_collect hs h
  cases a with
  | ok v => exact hstaged
  | error e => exact hstaged.intact

theorem outcome_saveFresh {a : (StoreCall.saveFreshLocked snapshot).Ans}
    (hid : snapshot.embeddedAccountId = none ∨ snapshot.embeddedAccountId = some id)
    (hs : s.Staged base disk state) (h : s.Crash (.saveFreshLocked snapshot) a s') :
    Prog.Outcome (fun key s => ∀ record : AccountRecord,
      s.Staged base disk (state.insert id { record with credentialRef := key })) (Intact base) a s' := by
  obtain ⟨hintact, hstaged⟩ := Crash.staged_saveFresh hid hs h
  cases a with
  | ok key => exact hstaged key rfl
  | error e => exact hintact

theorem outcome_of_intact {α : Type} {a : Except ε α} (h : s.Intact base) :
    Prog.Outcome (fun _ => Intact base) (Intact base) a s := by
  cases a <;> exact h

end Stores

/-! ### The service -/

namespace Service

theorem safe_store {c : StoreCall} {Q : c.Val → Stores → Prop} (hs : s.Intact base)
    (hc : c.CollectsOnDisk s)
    (h : ∀ a s', s.Crash c a s' → Prog.Outcome Q (Stores.Intact base) a s') :
    (store c f).run.Safe (serviceSemantics issued base) (Prog.Outcome Q (Stores.Intact base)) s :=
  safe_orFail ⟨⟨hs, hc⟩, h⟩

theorem safe_lockAndRead (hs : s.Intact base) :
    (lockAndRead f).run.Safe (serviceSemantics issued base)
      (Prog.Outcome (fun state s => s.Staged base state state) (Stores.Intact base)) s := by
  refine safe_seq
    (safe_store hs nofun fun _ _ h => outcome_lockExclusive hs h) ?_
  intro _ s hs
  exact safe_store hs nofun fun _ _ h => outcome_stateLocked hs h

theorem embedded_of_sourceDocument {snapshot : AuthTransitionSnapshot} {document : AuthSnapshot}
    (h : sourceDocument id snapshot = .ok document) :
    document.embeddedAccountId = none ∨ document.embeddedAccountId = some id := by
  obtain ⟨bytes, -, h⟩ := bind_eq_ok.1 h
  exact (AuthSnapshot.fromBytes_eq_ok (mapError_eq_ok.1 h)).2 id rfl

omit [Externals] in
theorem savedUnder_credentialRefOf (state : RegistryState) (id : String) :
    SavedUnder state id (credentialRefOf state id) := by
  unfold credentialRefOf
  cases h : state.get? id with
  | none => exact .inr ⟨h, rfl⟩
  | some account => exact .inl ⟨account, h, rfl⟩

section Quiet

variable {α : Type} {P : Stores → Prop}

theorem safe_quiet {c : ServiceCall} {k : c.Ans → α} {Q : α → Stores → Prop}
    (hc : ∀ x, c ≠ .store x) (hs : s.Intact base) (hQ : ∀ a, c.Answerable issued a → Q (k a) s) :
    (Prog.call c fun a => .ret (k a)).Safe (serviceSemantics issued base) Q s := by
  cases c with
  | store x => exact absurd rfl (hc x)
  | _ =>
    refine ⟨hs, ?_⟩
    rintro a _ ⟨rfl, ha⟩
    exact hQ a ha

theorem safe_ask {c : ServiceCall} {k : c.Ans → α} (hc : ∀ x, c ≠ .store x) (hP : P s)
    (hs : s.Intact base) :
    (liftM (Prog.call c fun a => .ret (k a) : ServiceProg α) : ServiceM α).run.Safe
      (serviceSemantics issued base) (Prog.Outcome (fun _ => P) (Stores.Intact base)) s :=
  safe_liftProg (safe_quiet hc hs fun _ _ => hP)

theorem safe_check {x : Except MarathonServiceError α} (hP : P s) (hs : s.Intact base) :
    (liftM x : ServiceM α).run.Safe (serviceSemantics issued base)
      (Prog.Outcome (fun a s => P s ∧ x = .ok a) (Stores.Intact base)) s :=
  safe_lift hs fun _ h => ⟨hP, h⟩

variable {disk state : RegistryState}

theorem staged_snapshotForTransition (hs : s.Staged base disk state) :
    (snapshotForTransition id).run.Safe (serviceSemantics issued base)
      (Prog.Outcome (fun _ s => s.Staged base disk state) (Stores.Intact base)) s := by
  refine safe_quiet nofun hs.intact ?_
  rintro (e | snapshot) -
  · exact hs.intact
  · exact hs

theorem staged_ask {c : ServiceCall} {k : c.Ans → α} (hc : ∀ x, c ≠ .store x)
    (hs : s.Staged base disk state) :
    (liftM (Prog.call c fun a => .ret (k a) : ServiceProg α) : ServiceM α).run.Safe
      (serviceSemantics issued base)
      (Prog.Outcome (fun _ s => s.Staged base disk state) (Stores.Intact base)) s :=
  safe_ask hc hs hs.intact

theorem staged_check {x : Except MarathonServiceError α} (hs : s.Staged base disk state) :
    (liftM x : ServiceM α).run.Safe (serviceSemantics issued base)
      (Prog.Outcome (fun a s => s.Staged base disk state ∧ x = .ok a) (Stores.Intact base)) s :=
  safe_check hs hs.intact

end Quiet

theorem safe_captureSource (hissued : ∀ id, issued id → ¬ Stores.SelfReferring id)
    {state : RegistryState} (hid : issued id) (hs : s.Staged base state state) :
    (captureSource state id).run.Safe (serviceSemantics issued base)
      (Prog.Outcome (fun _ s => s.Staged base state state) (Stores.Intact base)) s := by
  refine safe_seq (staged_snapshotForTransition hs) ?_
  intro snapshot s hs
  refine safe_seq (staged_check hs) ?_
  rintro document s ⟨hs, hdoc⟩
  refine safe_store hs.intact nofun ?_
  intro a s' h
  have hstaged := staged_saveLocked hs (savedUnder_credentialRefOf state id)
    (hissued id hid) (embedded_of_sourceDocument hdoc) h
  cases a with
  | ok v => exact hstaged
  | error e => exact hstaged.intact

theorem safe_loadTarget (hs : s.Intact base) :
    (loadTarget account).run.Safe (serviceSemantics issued base) (Kept base) s := by
  refine safe_seq (Q := fun _ => Stores.Intact base) (safe_store hs nofun ?_) ?_
  · intro a _ h
    cases h.loadLocked
    cases a <;> exact hs
  intro snapshot s hs
  exact safe_lift hs fun _ _ => hs

theorem safe_setActive (hs : s.Intact base) :
    (store (.setActiveLocked id) fun _ => .persistence).run.Safe (serviceSemantics issued base)
      (Kept base) s :=
  safe_store hs nofun fun _ _ h => outcome_of_intact (intact_setActive hs h)

theorem safe_adopt {auth : AuthTransitionSnapshot} (hs : s.Intact base) :
    (adopt current account auth).run.Safe (serviceSemantics issued base) (Kept base) s := by
  refine safe_seq (safe_quiet nofun hs fun _ _ => outcome_of_intact hs) ?_
  intro status s hs
  refine safe_seq (safe_check hs hs) ?_
  rintro changed s ⟨hs, -⟩
  refine safe_seq (safe_ask nofun hs hs) ?_
  intro cached s hs
  refine safe_seq (safe_check hs hs) ?_
  rintro ⟨⟩ s ⟨hs, -⟩
  refine safe_seq (safe_ask nofun hs hs) ?_
  intro _ s hs
  refine safe_seq (safe_setActive hs) ?_
  intro _ s hs
  cases changed
  · exact safe_ask nofun hs hs
  · exact safe_ask nofun hs hs

theorem safe_transition (hissued : ∀ id, issued id → ¬ Stores.SelfReferring id)
    {state : RegistryState} {turns : ℕ} (hcur : ∀ id, current = some id → issued id)
    (hs : s.Staged base state state) :
    (transition state turns current account).run.Safe (serviceSemantics issued base)
      (Kept base) s := by
  have hcap : (current.forM (captureSource state) : ServiceM PUnit).run.Safe
      (serviceSemantics issued base) (Kept base) s := by
    cases current with
    | none => exact hs.intact
    | some id =>
      refine (safe_captureSource hissued (hcur id rfl) hs).mono ?_
      intro r s h
      exact h.mono (fun _ h => h.intact) fun h => h
  refine safe_seq hcap ?_
  intro _ s hs
  refine safe_seq (safe_loadTarget hs) ?_
  intro auth s hs
  refine safe_seq (safe_adopt hs) ?_
  intro generation s hs
  exact hs

theorem switchPhases_intact (hissued : ∀ id, issued id → ¬ Stores.SelfReferring id) :
    SwitchPhases (serviceSemantics issued base) (fun state s => s.Staged base state state)
      (fun state cached s => s.Staged base state state ∧
        ∀ auth id, cached = some auth → auth.getAccountId = some id → issued id)
      (fun _ => Stores.Intact base) (Stores.Intact base) where
  turns _ _ hs := staged_ask nofun hs
  generation _ _ hs := staged_ask nofun hs
  cached _ _ hs := safe_liftProg (safe_quiet nofun hs.intact fun _ h => ⟨hs, h⟩)
  unresolved _ _ hs := hs.intact
  unnamed _ _ _ hs := hs.1.intact
  refused _ _ _ hs _ := hs.intact
  reactivate := by
    rintro state cached account turns generation s ⟨hs, -⟩ -
    exact safe_seq (safe_setActive hs.intact) fun _ s hs => hs
  transition := by
    rintro state cached current account turns s ⟨hs, hcached⟩ hcur -
    refine safe_transition hissued ?_ hs
    rintro id rfl
    cases cached with
    | none => cases hcur
    | some auth =>
      obtain ⟨id', hid', heq⟩ := map_eq_ok.1 hcur
      cases heq
      exact hcached auth id rfl (okOr_eq_ok.1 hid')

/-! ### Importing, checkpointing and enabling -/

theorem safe_replace {disk state : RegistryState} (hs : s.Staged base disk state) :
    (store (.replaceLocked state) f).run.Safe (serviceSemantics issued base) (Kept base) s :=
  safe_store hs.intact nofun fun _ _ h =>
    outcome_of_intact (intact_replace hs h)

theorem safe_collect {state : RegistryState} (hs : s.Staged base state state) :
    (store (.collectOrphansLocked state) f).run.Safe (serviceSemantics issued base)
      (Prog.Outcome (fun _ s => s.Staged base state state) (Stores.Intact base)) s := by
  refine safe_store hs.intact ?_ fun _ _ h => outcome_collect hs h
  rintro _ ⟨⟩
  exact hs.stateLocked

theorem safe_saveFresh {disk state : RegistryState}
    (hid : snapshot.embeddedAccountId = none ∨ snapshot.embeddedAccountId = some id)
    (hs : s.Staged base disk state) :
    (store (.saveFreshLocked snapshot) f).run.Safe (serviceSemantics issued base)
      (Prog.Outcome (fun key s => ∀ record : AccountRecord,
        s.Staged base disk (state.insert id { record with credentialRef := key }))
        (Stores.Intact base)) s :=
  safe_store hs.intact nofun fun _ _ h => outcome_saveFresh hid hs h

theorem safe_importCurrent (aliasName : String) (hs : s.Intact base) :
    (importCurrent aliasName).run.Safe (serviceSemantics issued base) (Kept base) s := by
  refine safe_seq (safe_lockAndRead hs) ?_
  intro state s hs
  refine safe_seq (staged_ask nofun hs) ?_
  intro cached s hs
  refine safe_seq (staged_check hs) ?_
  rintro id s ⟨hs, -⟩
  refine safe_seq (staged_ask nofun hs) ?_
  intro created s hs
  refine safe_seq (staged_check hs) ?_
  rintro validated s ⟨hs, -⟩
  refine safe_seq (staged_check hs) ?_
  rintro ⟨⟩ s ⟨hs, -⟩
  refine safe_seq (staged_snapshotForTransition hs) ?_
  intro native s hs
  refine safe_seq (staged_check hs) ?_
  rintro document s ⟨hs, hdoc⟩
  refine safe_seq (safe_collect hs) ?_
  intro _ s hs
  refine safe_seq (safe_saveFresh (embedded_of_sourceDocument hdoc) hs) ?_
  intro credentialRef s hs
  refine safe_seq (safe_ask (P := fun s => ∀ record : AccountRecord,
    s.Staged base state (state.insert id { record with credentialRef })) nofun hs
    (hs validated).intact) ?_
  intro updatedAt s hs
  have hstaged := hs
    { (state.get? id).getD validated with
      aliasName := validated.aliasName
      credentialHealth := .healthy
      updatedAt }
  exact safe_seq (safe_replace (hstaged.of_accounts rfl)) fun _ _ hs => hs

theorem safe_checkpointCurrent (expectedAccountId : String) (expectedAuthGeneration : UInt64)
    (hs : s.Intact base) : (checkpointCurrent expectedAccountId expectedAuthGeneration).run.Safe
      (serviceSemantics issued base) (Kept base) s := by
  refine safe_seq (safe_ask nofun hs hs) ?_
  intro generation s hs
  refine safe_seq (safe_ask nofun hs hs) ?_
  intro cached s hs
  refine safe_seq (safe_check hs hs) ?_
  rintro ⟨⟩ s ⟨hs, -⟩
  refine safe_seq (safe_lockAndRead hs) ?_
  intro state s hs
  refine safe_seq (staged_check hs) ?_
  rintro account s ⟨hs, -⟩
  refine safe_seq (safe_collect hs) ?_
  intro _ s hs
  refine safe_seq (staged_snapshotForTransition hs) ?_
  intro native s hs
  refine safe_seq (staged_check hs) ?_
  rintro document s ⟨hs, hdoc⟩
  refine safe_seq (staged_check hs) ?_
  rintro ⟨⟩ s ⟨hs, -⟩
  refine safe_seq (safe_saveFresh (embedded_of_sourceDocument hdoc) hs) ?_
  intro credentialRef s hs
  exact safe_seq (safe_replace (hs account)) fun _ _ hs => hs

end Service

namespace Executor

theorem safe_store {c : StoreCall} {code : String} {Q : c.Val → Stores → Prop} (hs : s.Intact base)
    (hc : c.CollectsOnDisk s)
    (h : ∀ a s', s.Crash c a s' → Prog.Outcome Q (Stores.Intact base) a s') :
    (store c code).run.Safe (executorSemantics base) (Prog.Outcome Q (Stores.Intact base)) s :=
  safe_orFail ⟨⟨hs, hc⟩, h⟩

theorem safe_publishAuth {state : RegistryState}
    (hid : snapshot.embeddedAccountId = none ∨ snapshot.embeddedAccountId = some id)
    (hs : s.Staged base state state) :
    (publishAuth id snapshot state account).run.Safe (executorSemantics base) (Kept base) s := by
  refine safe_seq
    (safe_store hs.intact nofun fun _ _ h => outcome_saveFresh hid hs h) ?_
  intro credentialRef s hs
  have hstaged := hs account
  exact safe_store hstaged.intact nofun fun _ _ h =>
    outcome_of_intact (intact_replace hstaged h)

theorem safe_persistAuth (id : String) (hs : s.Intact base) :
    (persistAuth id).run.Safe (executorSemantics base) (Kept base) s := by
  refine safe_seq (Q := fun _ => Stores.Intact base) (safe_orFail ⟨hs, ?_⟩) ?_
  · rintro a _ rfl
    exact outcome_of_intact hs
  intro updated s hs
  refine safe_seq
    (Q := fun snapshot s => s.Intact base ∧ authDocument id updated = .ok snapshot)
    (safe_lift hs fun _ h => ⟨hs, h⟩) ?_
  rintro snapshot s ⟨hs, hsnap⟩
  refine safe_seq
    (safe_store hs nofun fun _ _ h => outcome_stateLocked hs h) ?_
  intro state s hs
  refine safe_then (safe_lift hs.intact fun account _ => ?_)
  refine safe_seq (Q := fun _ s => s.Staged base state state)
    (safe_liftProg ⟨⟨hs.intact, nofun⟩, ?_⟩) ?_
  · intro current s' h
    rw [loadLocked h]
    exact hs
  intro current s hs
  split_ifs
  · exact hs.intact
  · exact safe_publishAuth (authDocument_eq_ok hsnap).2 hs

end Executor

namespace Transfer

variable {answers : (c : TransferCall) → c.Ans → Prop}

theorem safe_store {I : Stores → Prop} {c : StoreCall} {f : DomainError → TransferError}
    {Q : c.Val → Stores → Prop} (hs : I s) (hc : c.CollectsOnDisk s)
    (h : ∀ a s', s.Crash c a s' → Prog.Outcome Q I a s') :
    (orFail (call (.store c)) f).run.Safe (transferSemantics answers I) (Prog.Outcome Q I) s :=
  safe_orFail ⟨⟨hs, hc⟩, h⟩

theorem safe_stageAll {disk state : RegistryState} {changes : List (AccountRecord × AuthSnapshot)}
    (hchan : ∀ entry ∈ changes, Named entry) (hs : s.Staged base disk state) :
    (stageAll changes state).run.Safe (transferSemantics answers (Stores.Intact base))
      (Prog.Outcome (fun staged s => s.Staged base disk staged) (Stores.Intact base)) s := by
  induction changes generalizing state s with
  | nil => exact hs
  | cons entry changes ih =>
    obtain ⟨hnamed, hchan⟩ := List.forall_mem_cons.1 hchan
    refine safe_seq
      (safe_store hs.intact nofun fun _ _ h => outcome_saveFresh (.inr hnamed) hs h) ?_
    intro credentialRef s hs
    exact ih hchan (hs entry.1)

theorem safe_commitChanges {state : RegistryState} {report : ImportReport}
    {changes : List (AccountRecord × AuthSnapshot)} (hchan : ∀ entry ∈ changes, Named entry)
    (hs : s.Staged base state state) :
    (commitChanges state report changes).run.Safe (transferSemantics answers (Stores.Intact base))
      (Kept base) s := by
  have hcol : StoreCall.CollectsOnDisk (.collectOrphansLocked state) s := by
    rintro _ ⟨⟩
    exact hs.stateLocked
  refine safe_seq
    (safe_store hs.intact hcol fun _ _ h => outcome_collect hs h) ?_
  intro _ s hs
  refine safe_seq (safe_stageAll hchan hs) ?_
  intro staged s hs
  refine safe_seq (safe_store hs.intact nofun fun _ _ h =>
    outcome_of_intact (intact_replace hs h)) ?_
  intro _ s hs
  exact hs

theorem safe_importLocked {entries : List (AccountRecord × AuthSnapshot)}
    {conflict : ConflictPolicy} (hent : ∀ entry ∈ entries, Named entry) (hs : s.Intact base) :
    (importLocked entries conflict).run.Safe (transferSemantics answers (Stores.Intact base))
      (Kept base) s := by
  refine safe_seq
    (safe_store hs nofun fun _ _ h => outcome_lockExclusive hs h) ?_
  intro _ s hs
  refine safe_seq
    (safe_store hs nofun fun _ _ h => outcome_stateLocked hs h) ?_
  intro state s hs
  refine safe_seq
    (Q := fun plan s => s.Staged base state state ∧ ∀ entry ∈ plan.2, Named entry)
    (safe_lift hs.intact fun plan h => ⟨hs, (planImport_eq_ok h).named hent⟩) ?_
  rintro plan s ⟨hs, hchan⟩
  split_ifs
  · exact hs.intact
  · exact safe_commitChanges hchan hs

theorem safe_previewImport {entries : List (AccountRecord × AuthSnapshot)}
    {conflict : ConflictPolicy} (hs : s.Intact base) :
    (previewImport entries conflict).run.Safe (transferSemantics answers (Stores.Intact base))
      (Kept base) s := by
  refine safe_seq (Q := fun _ => Stores.Intact base) (safe_orFail ⟨hs, ?_⟩) ?_
  · intro a s' h
    rw [(stateLocked h).1]
    exact outcome_of_intact hs
  intro state s hs
  refine safe_then (safe_lift hs fun plan _ => ?_)
  exact hs

theorem safe_importAccounts (cfg : Config) (passphrase : String) (conflict : ConflictPolicy)
    (dryRun : Bool) (hs : s.Intact base) :
    (importAccounts cfg passphrase conflict dryRun).run.Safe (transferSemantics answers (Stores.Intact base))
      (Kept base) s := by
  refine safe_then (safe_lift hs fun _ _ => ?_)
  refine safe_seq (Q := fun _ => Stores.Intact base) (safe_orFail ⟨hs, ?_⟩) ?_
  · rintro a _ ⟨rfl, -⟩
    exact outcome_of_intact hs
  intro manifest s hs
  refine safe_seq (Q := fun _ => Stores.Intact base)
    (safe_liftProg ⟨hs, ?_⟩) ?_
  · rintro times _ ⟨rfl, -⟩
    exact hs
  intro times s hs
  refine safe_seq
    (Q := fun entries s => s.Intact base ∧ ∀ entry ∈ entries, Named entry)
    (safe_lift hs fun _ h => ⟨hs, named_of_validateManifest h⟩) ?_
  rintro entries s ⟨hs, hent⟩
  cases dryRun
  · exact safe_importLocked hent hs
  · exact safe_previewImport hs

end Transfer

/-! ### On the disk -/

inductive SystemCall
  | disk (c : DiskCall)
  | service (c : ServiceCall)
  | executor (c : ExecutorCall)
  | transfer (c : TransferCall)

abbrev SystemCall.Ans : SystemCall → Type
  | .disk c => c.Ans
  | .service c => c.Ans
  | .executor c => c.Ans
  | .transfer c => c.Ans

abbrev SystemProg (α : Type) : Type := Prog SystemCall SystemCall.Ans α

def SystemCall.Effect (answers : (c : SystemCall) → c.Ans → Prop) :
    (c : SystemCall) → Disk → c.Ans → Disk → Prop
  | .disk c, d, a, d' => c.Effect d a d'
  | c, d, a, d' => d' = d ∧ answers c a

def SystemCall.Issues (issued : String → Prop) : (c : SystemCall) → c.Ans → Prop
  | .service c, a => c.Answerable issued a
  | _, _ => True

def onSystem {α : Type} (p : Prog DiskCall DiskCall.Ans α) : SystemProg α :=
  p.subst fun c => Prog.perform (.disk c)

def ServiceCall.onSystem : (c : ServiceCall) → SystemProg c.Ans
  | .store c => CodexMarathon.onSystem c.onDisk
  | c => Prog.perform (SystemCall.service c)

def ExecutorCall.onSystem : (c : ExecutorCall) → SystemProg c.Ans
  | .store c => CodexMarathon.onSystem c.onDisk
  | c => Prog.perform (SystemCall.executor c)

def Transfer.TransferCall.onSystem : (c : TransferCall) → SystemProg c.Ans
  | .store c => CodexMarathon.onSystem c.onDisk
  | .previewState => CodexMarathon.onSystem OnDisk.loadUnlocked.run
  | c => Prog.perform (SystemCall.transfer c)

inductive Operation
  | importCurrent (aliasName : String)
  | switch (target : String)
  | checkpointCurrent (expectedAccountId : String) (expectedAuthGeneration : UInt64)
  | importAccounts (cfg : Config) (passphrase : String) (conflict : ConflictPolicy) (dryRun : Bool)
  | persistAuth (id : String)
  | setEnabled (enabled : Bool)
  | setActiveLocked (id : String)

def Operation.program : Operation → SystemProg Unit
  | .importCurrent aliasName =>
    (Service.importCurrent aliasName).run.subst ServiceCall.onSystem >>= fun _ => pure ()
  | .switch target => (Service.switch target).run.subst ServiceCall.onSystem >>= fun _ => pure ()
  | .checkpointCurrent id generation =>
    (Service.checkpointCurrent id generation).run.subst ServiceCall.onSystem >>= fun _ => pure ()
  | .importAccounts cfg passphrase conflict dryRun =>
    (Transfer.importAccounts cfg passphrase conflict dryRun).run.subst TransferCall.onSystem >>=
      fun _ => pure ()
  | .persistAuth id =>
    (Executor.persistAuth id).run.subst ExecutorCall.onSystem >>= fun _ => pure ()
  | .setEnabled enabled =>
    (Service.setEnabled enabled).run.subst ServiceCall.onSystem >>= fun _ => pure ()
  | .setActiveLocked id => onSystem (StoreCall.setActiveLocked id).onDisk >>= fun _ => pure ()

/-- The disk is `d'` now, and `p` is left of the last operation. The next one starts when that is
done or stopped. -/
inductive Execution (issued : String → Prop) (d : Disk) : SystemProg Unit → Disk → Prop
  | init : Execution issued d (.ret ()) d
  | start {p : SystemProg Unit} {d' : Disk} (op : Operation) (h : Execution issued d p d') :
      Execution issued d op.program d'
  | step {c : SystemCall} {k : c.Ans → SystemProg Unit} {a : c.Ans} {d' d'' : Disk}
      (h : Execution issued d (.call c k) d')
      (heffect : c.Effect (SystemCall.Issues issued) d' a d'') :
      Execution issued d (k a) d''

def SystemCall.Pre (I : Stores → Prop) : SystemCall → Disk → Prop
  | .disk c, d => I d.stores ∧ c.Allowed d.stores
  | _, d => I d.stores

def systemSemantics (answers : (c : SystemCall) → c.Ans → Prop) (I : Stores → Prop) :
    Semantics SystemCall SystemCall.Ans Disk :=
  ⟨SystemCall.Pre I, SystemCall.Effect answers⟩

section OnSystem

variable {I : Stores → Prop} {α : Type} {d : Disk} {answers : (c : SystemCall) → c.Ans → Prop}

theorem safe_onSystem {M : Semantics DiskCall DiskCall.Ans Disk}
    {N : Semantics SystemCall SystemCall.Ans Disk} {p : Prog DiskCall DiskCall.Ans α}
    {Q : α → Disk → Prop} (hpre : ∀ c d, M.pre c d → N.pre (.disk c) d)
    (hrel : ∀ c d a d', N.rel (.disk c) d a d' → M.rel c d a d') (h : p.Safe M Q d) :
    (onSystem p).Safe N Q d := by
  induction p generalizing d with
  | ret a => exact h
  | call c k ih =>
    exact ⟨hpre c d h.1, fun a d' heffect => ih a (h.2 a d' (hrel c d a d' heffect))⟩

theorem safe_diskOnSystem {p : Prog DiskCall DiskCall.Ans α} {Q : α → Disk → Prop}
    (h : p.Safe (diskSemantics I) Q d) : (onSystem p).Safe (systemSemantics answers I) Q d :=
  safe_onSystem (fun _ _ h => h) (fun _ _ _ _ h => h) h

theorem safe_serviceOnSystem {p : ServiceProg α}
    (h : p.Safe (serviceSemantics issued base) (fun _ => Stores.Intact base) d.stores) :
    (p.subst ServiceCall.onSystem).Safe (systemSemantics (SystemCall.Issues issued) (Stores.Intact base))
      (fun _ d => d.stores.Intact base) d := by
  refine Prog.Safe.subst ?_ (fun _ _ h => h) ?_ h
  · intro c s h
    cases c with
    | store c => exact h.1
    | _ => exact h
  · intro c d hpre hI
    cases c with
    | store c => exact safe_diskOnSystem (c.safe_onDisk hpre.2 hI)
    | _ =>
      refine ⟨hpre, ?_⟩
      rintro a _ ⟨rfl, h⟩
      exact ⟨rfl, h⟩

theorem safe_executorOnSystem {p : ExecutorProg α}
    (h : p.Safe (executorSemantics base) (fun _ => Stores.Intact base) d.stores) :
    (p.subst ExecutorCall.onSystem).Safe (systemSemantics (SystemCall.Issues issued) (Stores.Intact base))
      (fun _ d => d.stores.Intact base) d := by
  refine Prog.Safe.subst ?_ (fun _ _ h => h) ?_ h
  · intro c s h
    cases c with
    | store c => exact h.1
    | _ => exact h
  · intro c d hpre hI
    cases c with
    | store c => exact safe_diskOnSystem (c.safe_onDisk hpre.2 hI)
    | _ =>
      refine ⟨hpre, ?_⟩
      rintro a _ ⟨rfl, -⟩
      rfl

theorem safe_transferOnSystem {p : Prog TransferCall TransferCall.Ans α} {Q : α → Stores → Prop}
    (hQ : ∀ a s, Q a s → I s)
    (h : p.Safe (transferSemantics (fun c => answers (.transfer c)) I) Q d.stores) :
    (p.subst TransferCall.onSystem).Safe (systemSemantics answers I) (fun a d => Q a d.stores) d := by
  refine Prog.Safe.subst ?_ hQ ?_ h
  · intro c s h
    cases c with
    | store c => exact h.1
    | _ => exact h
  · intro c d hpre hI
    cases c with
    | store c => exact safe_diskOnSystem (c.safe_onDisk hpre.2 hI)
    | previewState => exact safe_diskOnSystem (StoreCall.safe_onDisk .stateLocked nofun hI)
    | _ =>
      refine ⟨hpre, ?_⟩
      rintro a _ ⟨rfl, h⟩
      exact ⟨rfl, h⟩

end OnSystem

/-! ### All runs -/

theorem safe_discard {α : Type} {M : Semantics SystemCall SystemCall.Ans Disk}
    {p : SystemProg (Except ε α)} {d : Disk} {J : Disk → Prop} (h : p.Safe M (fun _ => J) d) :
    (p >>= fun _ => pure ()).Safe M (fun _ => J) d := by
  rw [safe_bind]
  exact h

omit [Externals] in
theorem safe_of_outcome {Op : Type} {Ans : Op → Type} {α : Type} {P : Stores → Prop}
    {M : Semantics Op Ans Stores} {p : Prog Op Ans (Except ε α)}
    (h : p.Safe M (Prog.Outcome (fun _ => P) P) s) : p.Safe M (fun _ => P) s := by
  refine h.mono ?_
  rintro (e | a) s h <;> exact h

theorem Operation.safe_program (hissued : ∀ id, issued id → ¬ Stores.SelfReferring id)
    (op : Operation) {d : Disk} (hd : d.stores.Intact base) :
    op.program.Safe (systemSemantics (SystemCall.Issues issued) (Stores.Intact base))
      (fun _ d => d.stores.Intact base) d := by
  cases op with
  | importCurrent aliasName =>
    exact safe_discard (safe_serviceOnSystem
      (safe_of_outcome (Service.safe_importCurrent aliasName hd)))
  | switch target =>
    exact safe_discard (safe_serviceOnSystem
      (safe_of_outcome (Service.safe_switch_of_phases
      (Service.switchPhases_intact hissued) (Service.safe_lockAndRead hd))))
  | checkpointCurrent id generation =>
    exact safe_discard (safe_serviceOnSystem
      (safe_of_outcome (Service.safe_checkpointCurrent id generation hd)))
  | importAccounts cfg passphrase conflict dryRun =>
    exact safe_discard (safe_transferOnSystem (fun _ _ h => h)
      (safe_of_outcome (Transfer.safe_importAccounts cfg passphrase conflict dryRun hd)))
  | persistAuth id =>
    exact safe_discard (safe_executorOnSystem
      (safe_of_outcome (Executor.safe_persistAuth id hd)))
  | setEnabled enabled =>
    exact safe_discard (safe_serviceOnSystem
      (safe_of_outcome (safe_seq (Service.safe_store hd nofun fun _ _ h =>
        outcome_of_intact (intact_setEnabled hd h)) fun _ _ hs => hs)))
  | setActiveLocked id =>
    refine safe_discard (safe_diskOnSystem ?_)
    refine (StoreCall.safe_onDisk (.setActiveLocked id) nofun fun a s' h =>
      intact_setActive hd h).mono ?_
    intro a d' h
    exact intact_setActive hd h

theorem Execution.safe (hissued : ∀ id, issued id → ¬ Stores.SelfReferring id) {d d' : Disk}
    {p : SystemProg Unit} (hd : d.stores.Intact base) (h : Execution issued d p d') :
    p.Safe (systemSemantics (SystemCall.Issues issued) (Stores.Intact base)) (fun _ d => d.stores.Intact base) d' := by
  induction h with
  | init => exact hd
  | start op _ ih =>
    refine op.safe_program hissued
      (ih.grants (I := fun d : Disk => d.stores.Intact base) ?_ fun _ _ h => h)
    intro c d h
    cases c with
    | disk c => exact h.1
    | _ => exact h
  | step _ heffect ih => exact ih.2 _ _ heffect

def Disk.forget (d : Disk) : Disk :=
  Function.update d .vault { d .vault with placed := [] }

omit [Externals] in
theorem Disk.stores_forget (d : Disk) : d.forget.stores = ⟨d.stores.store, []⟩ := by
  simp [Disk.forget, Disk.stores]

theorem Stores.Intact.yields {bytes : Bytes} (h : s.Intact base) (hbytes : base id = some bytes) :
    ∃ bytes', s.store.yields id = some bytes' ∧ (bytes' = bytes ∨ s.WroteFor id bytes') := by
  obtain ⟨state, hstate, hserves⟩ := h
  obtain ⟨account, hacc, snapshot, hload, hsnap⟩ := hserves.keeps id bytes hbytes
  refine ⟨snapshot.bytes, ?_, hsnap⟩
  exact Store.yields_eq_some_iff.2 ⟨state, account, snapshot, hstate, hacc, hload, rfl⟩

def Disk.sample : Disk
  | .state =>
    { entries := Function.update (fun _ => none) registryName
        (some (.file { size := 1, document := some .sample }))
      placed := [] }
  | .vault =>
    { entries := Function.update (fun _ => none) (pathFor "b")
        (some (.file (asciiBytes "b" ++ 0 :: asciiBytes "1")))
      placed := [] }

omit [Externals] in
theorem RegistryState.separate_sample : sample.Separate := by
  have hget : ∀ id account, sample.get? id = some account → account.effectiveRef = id := by
    intro id account h
    have hid := get?_id (show sample.keysMatch = true by decide) h
    have hmem := mem_records_of_get? h
    have hempty : ∀ account ∈ sample.records, account.effectiveRef = account.id := by
      decide
    rw [hempty account hmem, hid]
  refine ⟨fun id account h => .inl (hget id account h), ?_⟩
  intro id id' account account' h h' heq
  rw [← hget id account h, ← hget id' account' h', heq]

end CodexMarathon
