/-
**The account operations of the service.**

`import_current`, `switch`, `checkpoint_current` and `set_enabled` of `MarathonService`, as programs
over its calls.  The transition mutex that every one of them holds makes each a single transaction
of the process; the state lock makes it one among processes.
-/

import CodexMarathon.Lib.Hoare
import CodexMarathon.Service.World

namespace CodexMarathon

open Auth

variable [Externals]

inductive MarathonSwitchOutcome
  | committed
  | deferred
  | rejected
deriving DecidableEq, Repr

structure MarathonSwitchResponse where
  accountId : Option String
  outcome : MarathonSwitchOutcome
  authGeneration : UInt64
  activeTurnCount : ℕ
  reason : Option String
deriving DecidableEq

structure MarathonImportResponse where
  accountId : String
  aliasName : String
  active : Bool
  replaced : Bool
deriving DecidableEq

structure MarathonCheckpointResponse where
  accountId : String
  authGeneration : UInt64
deriving DecidableEq

/-! ### Admission and target -/

def switchAdmission (enabled : Bool) (activeTurnCount : ℕ) :
    Option (MarathonSwitchOutcome × String) :=
  if !enabled then some (.rejected, "Marathon is disabled")
  else if activeTurnCount ≠ 0 then
    some (.deferred, "wait for active turns to finish before switching accounts")
  else none

/-- `resolve_target`: an account id, or else an alias that only one account has. -/
def resolveTarget (state : RegistryState) (target : String) :
    Except MarathonServiceError AccountRecord :=
  if isBlank target then .error .accountNotFound
  else
    match state.get? target with
    | some account => .ok account
    | none =>
      match state.records.filter (fun account => account.aliasName = target) with
      | [account] => .ok account
      | [] => .error .accountNotFound
      | _ => .error .ambiguousAlias

def currentAccountId : Option CodexAuth → Except MarathonServiceError (Option String)
  | none => .ok none
  | some auth => (Result.okOr auth.getAccountId .authenticationRequired).map some

def credentialRefOf (state : RegistryState) (id : String) : String :=
  ((state.get? id).map (·.effectiveRef)).getD id

def sourceDocument (id : String) (snapshot : AuthTransitionSnapshot) :
    Except MarathonServiceError AuthSnapshot := do
  let bytes ← Result.okOr (Externals.encodeAuth snapshot.authDotJson) .nativeTransition
  (AuthSnapshot.fromBytes (some id) bytes).mapError fun _ => .nativeTransition

def targetSnapshot (id : String) (snapshot : AuthSnapshot) :
    Except MarathonServiceError AuthTransitionSnapshot := do
  let doc ← Result.okOr (Externals.decodeAuth snapshot.bytes) .nativeTransition
  let auth ← (AuthTransitionSnapshot.fromAuthDotJson doc).mapError fun _ => .nativeTransition
  Result.require (auth.accountId = id) .nativeTransition
  pure auth

omit [Externals] in
theorem currentAccountId_eq_ok_some {cached : Option CodexAuth} {id : String} :
    currentAccountId cached = .ok (some id) ↔ cached.bind (·.getAccountId) = some id := by
  cases cached with
  | none => simp [currentAccountId]
  | some auth =>
    cases hid : auth.getAccountId <;> simp [currentAccountId, Result.okOr, hid, Except.map]

theorem targetSnapshot_eq_ok {id : String} {document : AuthSnapshot}
    {auth : AuthTransitionSnapshot} (h : targetSnapshot id document = .ok auth) :
    auth.accountId = id := by
  obtain ⟨doc, -, h⟩ := Result.bind_eq_ok.1 h
  obtain ⟨snapshot, -, h⟩ := Result.bind_eq_ok.1 h
  obtain ⟨⟨⟩, hid, h⟩ := Result.bind_eq_ok.1 h
  cases h
  exact Result.require_eq_ok.1 hid

def reloadedChanged : AuthReloadStatus → Except MarathonServiceError Bool
  | .reloaded changed => .ok changed
  | .failed => .error .nativeTransition

omit [Externals] in
@[simp] theorem reloadedChanged_reloaded (changed : Bool) :
    reloadedChanged (.reloaded changed) = .ok changed := rfl

namespace Service

def lockAndRead (error : DomainError → MarathonServiceError) : ServiceM RegistryState := do
  store .lockExclusive fun _ => .persistence
  store .stateLocked error

/-! ### Switching -/

/-- The current credentials are saved over the vault entry of their account. -/
def captureSource (state : RegistryState) (id : String) : ServiceM Unit := do
  let snapshot ← snapshotForTransition id
  let document ← sourceDocument id snapshot
  store (.saveLocked (credentialRefOf state id) document) fun _ => .persistence

def loadTarget (account : AccountRecord) : ServiceM AuthTransitionSnapshot := do
  let snapshot ← store (.loadLocked account.effectiveRef) fun
    | .snapshotNotFound => .credentialsUnavailable
    | _ => .persistence
  targetSnapshot account.id snapshot

def adopt (current : Option String) (account : AccountRecord) (auth : AuthTransitionSnapshot) :
    ServiceM UInt64 := do
  let status ← install current auth
  let changed ← reloadedChanged status
  let cached ← authCached
  (Result.require (cached.bind (·.getAccountId) = some account.id) .nativeTransition :
    Except MarathonServiceError Unit)
  invalidateModelTransportCaches
  store (.setActiveLocked account.id) fun _ => .persistence
  if changed then advanceAuthGeneration else authGeneration

def reactivate (turns : ℕ) (generation : UInt64) (account : AccountRecord) :
    ServiceM MarathonSwitchResponse := do
  store (.setActiveLocked account.id) fun _ => .persistence
  pure
    { accountId := some account.id, outcome := .committed, authGeneration := generation
      activeTurnCount := turns, reason := some "account is already active" }

def transition (state : RegistryState) (turns : ℕ) (current : Option String)
    (account : AccountRecord) : ServiceM MarathonSwitchResponse := do
  current.forM (captureSource state)
  let auth ← loadTarget account
  let generation ← adopt current account auth
  pure
    { accountId := some account.id, outcome := .committed, authGeneration := generation
      activeTurnCount := turns, reason := none }

def switchAdmitted (state : RegistryState) (turns : ℕ) (generation : UInt64) (target : String) :
    ServiceM MarathonSwitchResponse := do
  let account ← resolveTarget state target
  let cached ← authCached
  let current ← currentAccountId cached
  if current = some account.id then reactivate turns generation account
  else transition state turns current account

def switch (target : String) : ServiceM MarathonSwitchResponse := do
  let state ← lockAndRead fun _ => .stateUnavailable
  let turns ← activeTurnCount
  let generation ← authGeneration
  match switchAdmission state.enabled turns with
  | some (outcome, reason) =>
    pure
      { accountId := none, outcome, authGeneration := generation, activeTurnCount := turns
        reason := some reason }
  | none => switchAdmitted state turns generation target

def importCurrent (aliasName : String) : ServiceM MarathonImportResponse := do
  let state ← lockAndRead fun _ => .stateUnavailable
  let cached ← authCached
  let id ← (Result.okOr (cached.bind (·.getAccountId)) .authenticationRequired :
    Except MarathonServiceError String)
  let created ← now
  let validated ← ((AccountRecord.new id aliasName created).mapError fun _ => .invalidAlias :
    Except MarathonServiceError AccountRecord)
  (Result.require
    (!state.records.any fun other => other.id ≠ id && other.aliasName = aliasName)
    .aliasConflict : Except MarathonServiceError Unit)
  let native ← snapshotForTransition id
  let document ← sourceDocument id native
  store (.collectOrphansLocked state) fun _ => .persistence
  let credentialRef ← store (.saveFreshLocked document) fun _ => .persistence
  let updatedAt ← now
  let account :=
    { (state.get? id).getD validated with
      aliasName := validated.aliasName
      credentialHealth := .healthy
      credentialRef
      updatedAt }
  store (.replaceLocked { state.insert id account with activeAccountId := id })
    fun _ => .persistence
  pure
    { accountId := id, aliasName := account.aliasName, active := true
      replaced := (state.get? id).isSome }

def checkpointCurrent (expectedAccountId : String) (expectedAuthGeneration : UInt64) :
    ServiceM MarathonCheckpointResponse := do
  let generation ← authGeneration
  let cached ← authCached
  (Result.require
    (generation = expectedAuthGeneration ∧ cached.bind (·.getAccountId) = some expectedAccountId)
    .nativeTransition : Except MarathonServiceError Unit)
  let state ← lockAndRead fun _ => .persistence
  let account ← (Result.okOr (state.get? expectedAccountId) .accountNotFound :
    Except MarathonServiceError AccountRecord)
  store (.collectOrphansLocked state) fun _ => .persistence
  let native ← snapshotForTransition expectedAccountId
  let document ← sourceDocument expectedAccountId native
  (Result.require (document.embeddedAccountId = some expectedAccountId) .nativeTransition :
    Except MarathonServiceError Unit)
  let credentialRef ← store (.saveFreshLocked document) fun _ => .persistence
  store (.replaceLocked (state.insert expectedAccountId { account with credentialRef }))
    fun _ => .persistence
  pure { accountId := expectedAccountId, authGeneration := generation }

def setEnabled (enabled : Bool) : ServiceM Bool := do
  store (.setEnabled enabled) fun _ => .persistence
  pure enabled

section Rule

open Prog

variable {σ : Type} {M : Semantics ServiceCall ServiceCall.Ans σ} {S : RegistryState → σ → Prop}
  {C : RegistryState → Option CodexAuth → σ → Prop} {Q : MarathonSwitchResponse → σ → Prop}
  {E : σ → Prop}

/-- What has to be proved of the phases for the postconditions `Q` and `E`: `S` holds once the
registry is read, `C` once the native credentials are looked at. -/
structure SwitchPhases (M : Semantics ServiceCall ServiceCall.Ans σ) (S : RegistryState → σ → Prop)
    (C : RegistryState → Option CodexAuth → σ → Prop) (Q : MarathonSwitchResponse → σ → Prop)
    (E : σ → Prop) : Prop where
  turns : ∀ state s, S state s →
    (liftM activeTurnCount : ServiceM ℕ).run.Safe M (Outcome (fun _ => S state) E) s
  generation : ∀ state s, S state s →
    (liftM authGeneration : ServiceM UInt64).run.Safe M (Outcome (fun _ => S state) E) s
  cached : ∀ state s, S state s →
    (liftM authCached : ServiceM (Option CodexAuth)).run.Safe M (Outcome (C state) E) s
  unresolved : ∀ state s, S state s → E s
  unnamed : ∀ state cached s, C state cached s → E s
  refused : ∀ state s r, S state s → r.outcome ≠ .committed → Q r s
  reactivate : ∀ state cached account turns generation s, C state cached s →
    currentAccountId cached = .ok (some account.id) →
    (reactivate turns generation account).run.Safe M (Outcome Q E) s
  transition : ∀ state cached current account turns s, C state cached s →
    currentAccountId cached = .ok current → current ≠ some account.id →
    (transition state turns current account).run.Safe M (Outcome Q E) s

structure TargetPhases (M : Semantics ServiceCall ServiceCall.Ans σ) (target : String)
    (S : RegistryState → σ → Prop) (C : RegistryState → Option CodexAuth → σ → Prop)
    (Q : MarathonSwitchResponse → σ → Prop) (E : σ → Prop) : Prop where
  turns : ∀ state s, S state s →
    (liftM activeTurnCount : ServiceM ℕ).run.Safe M (Outcome (fun _ => S state) E) s
  generation : ∀ state s, S state s →
    (liftM authGeneration : ServiceM UInt64).run.Safe M (Outcome (fun _ => S state) E) s
  cached : ∀ state s, S state s →
    (liftM authCached : ServiceM (Option CodexAuth)).run.Safe M (Outcome (C state) E) s
  unresolved : ∀ state s, S state s → E s
  unnamed : ∀ state cached s, C state cached s → E s
  refused : ∀ state s r, S state s → r.outcome ≠ .committed → Q r s
  reactivate : ∀ state cached account turns generation s, C state cached s →
    resolveTarget state target = .ok account → currentAccountId cached = .ok (some account.id) →
    (reactivate turns generation account).run.Safe M (Outcome Q E) s
  transition : ∀ state cached current account turns s, C state cached s →
    resolveTarget state target = .ok account → currentAccountId cached = .ok current →
    current ≠ some account.id →
    (transition state turns current account).run.Safe M (Outcome Q E) s

theorem SwitchPhases.forTarget (h : SwitchPhases M S C Q E) (target : String) :
    TargetPhases M target S C Q E :=
  { h with
    reactivate := fun state cached account turns generation s hs _ =>
      h.reactivate state cached account turns generation s hs
    transition := fun state cached current account turns s hs _ =>
      h.transition state cached current account turns s hs }

variable {target : String}

theorem safe_switchAdmitted_of_phases {state : RegistryState} {turns : ℕ} {generation : UInt64} (h : TargetPhases M target S C Q E) {p : ServiceM MarathonSwitchResponse}
    (hp : switchAdmitted state turns generation target = p) {s : σ} (hs : S state s) :
    p.run.Safe M (Outcome Q E) s := by
  subst hp
  unfold switchAdmitted
  have hres := h.transition state
  have hactive := h.reactivate state
  -- the rules would run the comparison of names otherwise
  generalize resolveTarget state target = resolved at hres hactive ⊢
  refine safe_seq (Q := fun account s => S state s ∧ resolved = .ok account)
    (safe_lift (h.unresolved state s hs) fun _ hacc => ⟨hs, hacc⟩) ?_
  rintro account s ⟨hs, hacc⟩
  refine safe_seq (h.cached state s hs) ?_
  intro cached s hs
  refine safe_seq
    (Q := fun current s => C state cached s ∧ currentAccountId cached = .ok current)
    (safe_lift (h.unnamed state cached s hs) fun _ hcur => ⟨hs, hcur⟩) ?_
  rintro current s ⟨hs, hcur⟩
  by_cases heq : current = some account.id
  · rw [if_pos heq]
    exact hactive cached account turns generation s hs hacc (heq ▸ hcur)
  · rw [if_neg heq]
    exact hres cached current account turns s hs hacc hcur heq

omit [Externals] in
theorem switchAdmission_ne_committed {enabled : Bool} {turns : ℕ} {outcome : MarathonSwitchOutcome}
    {reason : String} (h : switchAdmission enabled turns = some (outcome, reason)) :
    outcome ≠ .committed := by
  unfold switchAdmission at h
  split_ifs at h <;> cases h <;> decide

theorem safe_switch_of_targetPhases (h : TargetPhases M target S C Q E) {s : σ}
    (hread : (lockAndRead fun _ => .stateUnavailable).run.Safe M (Outcome S E) s) :
    (switch target).run.Safe M (Outcome Q E) s := by
  refine safe_seq hread ?_
  intro state s hs
  refine safe_seq (h.turns state s hs) ?_
  intro turns s hs
  refine safe_seq (h.generation state s hs) ?_
  intro generation s hs
  change (match switchAdmission state.enabled turns with
    | some (outcome, reason) => pure _
    | none => switchAdmitted state turns generation target : ServiceM _).run.Safe M _ s
  generalize hp : switchAdmitted state turns generation target = p
  cases hadm : switchAdmission state.enabled turns with
  | some refusal =>
    obtain ⟨outcome, reason⟩ := refusal
    exact h.refused state s _ hs (switchAdmission_ne_committed hadm)
  | none => exact safe_switchAdmitted_of_phases h hp hs

theorem safe_switch_of_phases (h : SwitchPhases M S C Q E) {s : σ}
    (hread : (lockAndRead fun _ => .stateUnavailable).run.Safe M (Outcome S E) s) :
    (switch target).run.Safe M (Outcome Q E) s :=
  safe_switch_of_targetPhases (h.forTarget target) hread

end Rule

end Service

end CodexMarathon
