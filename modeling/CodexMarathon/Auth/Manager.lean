/-
**The native authentication manager.**

`AuthManager` caches the credentials of one process and shares a storage backend with others.  An
account transition reads a snapshot, installs one over the credentials of a known source or on a
process that has none, and reloads from storage.
-/

import CodexMarathon.Auth.Data
import CodexMarathon.Lib.Result

namespace CodexMarathon

open Result

namespace Auth

inductive ForcedLoginMethod
  | api
  | chatgpt
deriving DecidableEq, Repr

inductive AuthCredentialsStoreMode
  | file
  | keyring
  | auto
  | ephemeral
deriving DecidableEq, Repr

structure AuthConfig where
  authCredentialsStoreMode : AuthCredentialsStoreMode
  hasExternalAuth : Bool
  allowedLoginMethods : List ForcedLoginMethod
  forcedChatgptWorkspaceId : Option (List String)
  effectiveChatgptWorkspaces : Option (List String)
  enableCodexApiKeyEnv : Bool
  codexApiKeyEnv : Option String
  codexAccessTokenEnv : Option String
  ephemeralStorage : Except IoError (Option AuthDotJson)
  createDefaultAuthClient : Except IoError Unit
  managedRefreshFileLock : Except IoError Unit
  storageSave : Except IoError Unit
  agentIdentityRecord : String → Except IoError AgentIdentityAuthRecord
  agentIdentityAuth : AgentIdentityStorage → Except IoError AgentIdentityAuthRecord
  personalAccessTokenAuth : String → Except IoError PersonalAccessTokenAuth

def authModeIsAllowed (allowed : Option (List ForcedLoginMethod)) (mode : AuthMode) : Bool :=
  let method : ForcedLoginMethod := if mode.usesCodexBackend then .chatgpt else .api
  allowed.all (fun methods => decide (method ∈ methods))

def validateAuthRestrictions (allowed : Option (List ForcedLoginMethod))
    (expectedWorkspaces : Option (List String)) (auth : CodexAuth) : Except String Unit :=
  if !authModeIsAllowed allowed auth.authMode then
    if (allowed.getD []).contains .api then .error "API key login is required"
    else .error "ChatGPT login is required"
  else
    match expectedWorkspaces, auth with
    | none, _ | some _, .apiKey _ | some _, .bedrockApiKey _ | some _, .bedrockAccessKeys _ =>
      .ok ()
    | some expected, auth =>
      let actual := auth.getAccountId.or (auth.getTokenData.bind (·.idToken.chatgptAccountId))
      if actual.any (fun workspace => decide (workspace ∈ expected)) then .ok ()
      else
        .error ("Login is restricted to workspace(s) " ++ ", ".intercalate expected
          ++ ", but current credentials belong to " ++ actual.getD "unknown")

def ensureAuthWorkspaceAllowed (expected : Option (List String)) (accountId : String) :
    Except IoError Unit :=
  match expected with
  | none => .ok ()
  | some ids =>
    if accountId ∈ ids then .ok ()
    else
      .error ⟨.permissionDenied,
        "Login is restricted to workspace id(s) " ++ ", ".intercalate ids ++ "."⟩

def ensureAgentIdentityWorkspaceAllowed (cfg : AuthConfig) (expected : Option (List String)) :
    AgentIdentityStorage → Except IoError Unit
  | .jwt jwt =>
    match expected with
    | none => .ok ()
    | some ids => do
        let record ← cfg.agentIdentityRecord jwt
        ensureAuthWorkspaceAllowed (some ids) record.accountId
  | .record record => ensureAuthWorkspaceAllowed expected record.accountId

/-! ### Loading credentials -/

def CodexAuth.fromAuthDotJson (cfg : AuthConfig) (auth : AuthDotJson) : Except IoError CodexAuth :=
  match auth.resolvedMode with
  | .apiKey =>
    match auth.openaiApiKey with
    | none => .error ⟨.other, "API key auth is missing a key."⟩
    | some key => .ok (.apiKey key)
  | .agentIdentity =>
    match auth.agentIdentity with
    | none => .error ⟨.other, "agent identity auth is missing agent identity auth material."⟩
    | some identity => (cfg.agentIdentityAuth identity).map .agentIdentity
  | .personalAccessToken =>
    match auth.personalAccessToken with
    | none => .error ⟨.other, "personal access token auth is missing a personal access token."⟩
    | some token => (cfg.personalAccessTokenAuth token).map .personalAccessToken
  | .bedrockApiKey =>
    match auth.bedrockApiKey with
    | none => .error ⟨.other, "Bedrock API key auth is missing a Bedrock API key."⟩
    | some key => .ok (.bedrockApiKey key)
  | .bedrockAccessKeys =>
    match auth.bedrockAccessKeys with
    | none => .error ⟨.other, "Bedrock access keys auth is missing AWS access keys."⟩
    | some keys => .ok (.bedrockAccessKeys keys)
  | .headers => .error ⟨.other, "externally provided auth cannot be loaded from auth storage."⟩
  | .chatgpt => cfg.createDefaultAuthClient.map fun _ => .chatgpt (some auth)
  | .chatgptAuthTokens => cfg.createDefaultAuthClient.map fun _ => .chatgptAuthTokens (some auth)

def ensureStoredIdentityAllowed (cfg : AuthConfig) (forced : Option (List String))
    (auth : AuthDotJson) : Except IoError Unit :=
  match auth.agentIdentity with
  | some identity => ensureAgentIdentityWorkspaceAllowed cfg forced identity
  | none => .ok ()

def ensureLoadedTokenAllowed (forced : Option (List String)) : CodexAuth → Except IoError Unit
  | .personalAccessToken token => ensureAuthWorkspaceAllowed forced token.chatgptAccountId
  | _ => .ok ()

/-- The part of `load_auth` that the in-memory and the persistent store share. -/
def loadStored (cfg : AuthConfig) (forced : Option (List String)) (auth : AuthDotJson) :
    Except IoError (Option CodexAuth) := do
  ensureStoredIdentityAllowed cfg forced auth
  let loaded ← CodexAuth.fromAuthDotJson cfg auth
  ensureLoadedTokenAllowed forced loaded
  pure (some loaded)

/-- A personal access token starts with `at-`, anything else is an agent identity. -/
def loadAccessToken (cfg : AuthConfig) (forced : Option (List String)) (token : String) :
    Except IoError (Option CodexAuth) :=
  if token.startsWith "at-" then do
    let auth ← cfg.personalAccessTokenAuth token
    ensureAuthWorkspaceAllowed forced auth.chatgptAccountId
    pure (some (.personalAccessToken auth))
  else do
    let record ← cfg.agentIdentityRecord token
    ensureAuthWorkspaceAllowed forced record.accountId
    let auth ← cfg.agentIdentityAuth (.jwt token)
    pure (some (.agentIdentity auth))

/-- `load_auth`: the API key of the environment, the in-memory store, the access token, and last the
persistent store. -/
def loadAuth (cfg : AuthConfig) (allowed : Option (List ForcedLoginMethod))
    (forced : Option (List String)) (storage : Except IoError (Option AuthDotJson)) :
    Except IoError (Option CodexAuth) :=
  let apiKey :=
    if cfg.enableCodexApiKeyEnv && authModeIsAllowed allowed .apiKey then cfg.codexApiKeyEnv
    else none
  match apiKey with
  | some key => .ok (some (.apiKey key))
  | none => do
      match (← cfg.ephemeralStorage).filter (fun auth => authModeIsAllowed allowed auth.resolvedMode)
        with
      | some auth => loadStored cfg forced auth
      | none =>
        let token := if authModeIsAllowed allowed .agentIdentity then cfg.codexAccessTokenEnv
          else none
        match token with
        | some token => loadAccessToken cfg forced token
        | none =>
          if cfg.authCredentialsStoreMode = .ephemeral then pure none
          else
            match (← storage).filter
              (fun auth => authModeIsAllowed allowed auth.resolvedMode) with
            | none => pure none
            | some auth => loadStored cfg forced auth

variable {auth : CodexAuth} {s : AuthTransitionSnapshot} {source : Option String}
  {forced : Option (List String)}

theorem loadAccessToken_ne_none {cfg : AuthConfig} {token : String} :
    loadAccessToken cfg forced token ≠ .ok none := by
  intro h
  unfold loadAccessToken at h
  split at h
  · obtain ⟨auth, -, h⟩ := bind_eq_ok.1 h
    have h := ok_of_bind h
    cases h
  · obtain ⟨record, -, h⟩ := bind_eq_ok.1 h
    have h := ok_of_bind h
    obtain ⟨auth, -, h⟩ := bind_eq_ok.1 h
    cases h

theorem storage_of_loadAuth_none {cfg : AuthConfig} {storage : Except IoError (Option AuthDotJson)}
    (hmode : cfg.authCredentialsStoreMode ≠ .ephemeral)
    (h : loadAuth cfg none forced storage = .ok none) : storage = .ok none := by
  have hne : ∀ {auth : AuthDotJson}, loadStored cfg forced auth ≠ .ok none := by
    intro auth h
    obtain ⟨loaded, -, h⟩ := bind_eq_ok.1 (ok_of_bind h)
    cases ok_of_bind h
  unfold loadAuth at h
  simp only at h
  split at h
  · cases h
  obtain ⟨ephemeral, -, h⟩ := bind_eq_ok.1 h
  split at h
  · exact absurd h hne
  split at h
  · exact absurd h loadAccessToken_ne_none
  rw [if_neg hmode] at h
  obtain ⟨stored, hstored, h⟩ := bind_eq_ok.1 h
  split at h
  · rename_i hfilter
    rw [hstored]
    cases stored with
    | none => rfl
    | some auth => simp [Option.filter, authModeIsAllowed] at hfilter
  · exact absurd h hne

/-! ### The manager -/

/-- `AuthChangeState`: revisions published to the consumers of this manager. -/
structure AuthChangeState where
  generation : UInt64
  ownerGeneration : UInt64
deriving DecidableEq, Repr

inductive RefreshTokenFailedReason
  | expired
  | exhausted
  | revoked
  | other
deriving DecidableEq, Repr

structure RefreshTokenFailedError where
  reason : RefreshTokenFailedReason
  message : String
deriving DecidableEq

structure AuthScopedRefreshFailure where
  auth : CodexAuth
  error : RefreshTokenFailedError
deriving DecidableEq

structure CachedAuth where
  auth : Option CodexAuth
  permanentRefreshFailure : Option AuthScopedRefreshFailure
deriving DecidableEq

structure NetworkPolicyState where
  revision : UInt64
  account : UInt64
  policy : Option String
deriving DecidableEq, Repr

def NetworkPolicyState.invalidate (state : NetworkPolicyState) : NetworkPolicyState :=
  { revision := state.revision + 1, account := state.account + 1, policy := none }

inductive AuthReloadStatus
  | reloaded (changed : Bool)
  | failed
deriving DecidableEq, Repr

/-- The manager of one process, and what the shared storage holds. -/
structure AuthManager where
  inner : CachedAuth
  authChange : UInt64
  authChangeState : AuthChangeState
  networkPolicy : Option NetworkPolicyState
  storage : Except IoError (Option AuthDotJson)

namespace AuthManager

variable (cfg : AuthConfig) (m : AuthManager)

def authCached : Option CodexAuth := m.inner.auth

def cachedAccount : Option String := m.authCached.bind (·.getAccountId)

def storedAccount : Option String :=
  match m.storage with
  | .ok (some auth) => (managedTransitionAccountId auth).toOption
  | _ => none

def setCachedAuth (new : Option CodexAuth) : Bool × AuthManager :=
  let changed := !authsEqualForRefresh m.authCached new
  let ownerChanged := changed && !sameOwner m.authCached new
  (changed,
    { m with
      inner :=
        { auth := new
          permanentRefreshFailure := if changed then none else m.inner.permanentRefreshFailure }
      authChange := if changed then m.authChange + 1 else m.authChange
      authChangeState :=
        { generation :=
            if changed then m.authChangeState.generation + 1 else m.authChangeState.generation
          ownerGeneration :=
            if ownerChanged then m.authChangeState.ownerGeneration + 1
            else m.authChangeState.ownerGeneration }
      networkPolicy :=
        if ownerChanged then m.networkPolicy.map (·.invalidate) else m.networkPolicy })

/-- `set_cached_auth_after_transition` leaves the published `AuthChangeState` and the network policy
alone. -/
def setCachedAuthAfterTransition (new : CodexAuth) : Bool × AuthManager :=
  let changed := !authsEqualForRefresh m.authCached (some new)
  (changed,
    { m with
      inner :=
        { auth := some new
          permanentRefreshFailure := if changed then none else m.inner.permanentRefreshFailure }
      authChange := if changed then m.authChange + 1 else m.authChange })

def loadAuthFromStorage : Except IoError (Option CodexAuth) :=
  loadAuth cfg none cfg.forcedChatgptWorkspaceId m.storage

def reloadWithStatus : AuthReloadStatus × AuthManager :=
  match m.loadAuthFromStorage cfg with
  | .error _ => (.failed, m)
  | .ok new => (.reloaded (m.setCachedAuth new).1, (m.setCachedAuth new).2)

/-! ### Transitions -/

def ensureTransitionStorage : Except IoError Unit :=
  if cfg.authCredentialsStoreMode = .ephemeral then
    .error ⟨.unsupported, "auth transitions require persistent managed auth storage"⟩
  else if cfg.hasExternalAuth then
    .error ⟨.unsupported, "auth transitions do not support externally managed auth"⟩
  else .ok ()

def validateTransitionPolicy (auth : CodexAuth) : Except IoError Unit :=
  (validateAuthRestrictions (some cfg.allowedLoginMethods) cfg.effectiveChatgptWorkspaces
    auth).mapError fun _ =>
      ⟨.permissionDenied, "auth snapshot violates the configured authentication policy"⟩

def requireManagedChatgpt : CodexAuth → Except IoError Unit
  | .chatgpt _ => .ok ()
  | auth => .error (unsupportedMode auth.apiAuthMode)

/-- The refresh file lock is taken only for managed ChatGPT credentials. -/
def acquireRefreshFileLock : Except IoError Unit :=
  match m.authCached with
  | some (.chatgpt _) => if cfg.hasExternalAuth then .ok () else cfg.managedRefreshFileLock
  | _ => .ok ()

def currentTransitionSource : Except IoError String :=
  match m.authCached with
  | none => .error ⟨.notFound, "no managed auth is active for transition"⟩
  | some auth => do
      requireManagedChatgpt auth
      validateTransitionPolicy cfg auth
      transitionAccountId auth.getAccountId

def authFromTransitionSnapshot (snapshot : AuthTransitionSnapshot) : Except IoError CodexAuth := do
  let auth ← (CodexAuth.fromAuthDotJson cfg snapshot.authDotJson).mapError fun _ =>
    ⟨.invalidData, "auth snapshot could not be loaded by the native provider"⟩
  requireManagedChatgpt auth
  validateTransitionPolicy cfg auth
  pure auth

def checkTransitionSource (expected : String) : Except IoError AuthTransitionSnapshot := do
  m.acquireRefreshFileLock cfg
  ensureTransitionStorage cfg
  let current ← m.currentTransitionSource cfg
  Result.require (current = expected)
    ⟨.permissionDenied, "active auth identity does not match the expected transition source"⟩
  let stored ← m.storage
  let stored ← Result.okOr stored ⟨.notFound, "managed auth is not persisted"⟩
  let snapshot ← AuthTransitionSnapshot.fromAuthDotJson stored
  Result.require (snapshot.accountId = expected)
    ⟨.permissionDenied, "persisted auth identity does not match the expected transition source"⟩
  pure snapshot

def snapshotForTransition (expected : String) : Except IoError AuthTransitionSnapshot := do
  let snapshot ← m.checkTransitionSource cfg expected
  let _ ← authFromTransitionSnapshot cfg snapshot
  pure snapshot

/-- The end of both installs: the snapshot is validated and saved, then cached. -/
def saveAndCache (snapshot : AuthTransitionSnapshot) :
    Except IoError (AuthReloadStatus × AuthManager) := do
  let candidate ← authFromTransitionSnapshot cfg snapshot
  cfg.storageSave.mapError fun _ => ⟨.other, "managed auth snapshot could not be persisted"⟩
  let saved := { m with storage := .ok (some snapshot.authDotJson) }
  let (changed, installed) := saved.setCachedAuthAfterTransition candidate
  pure (.reloaded changed, installed)

def installSnapshotForTransition (snapshot : AuthTransitionSnapshot) (expectedSource : String) :
    Except IoError (AuthReloadStatus × AuthManager) := do
  let _ ← m.checkTransitionSource cfg expectedSource
  m.saveAndCache cfg snapshot

def installSnapshotForBootstrap (snapshot : AuthTransitionSnapshot) :
    Except IoError (AuthReloadStatus × AuthManager) := do
  m.acquireRefreshFileLock cfg
  ensureTransitionStorage cfg
  Result.require (m.authCached = none) ⟨.permissionDenied, "native auth is already active"⟩
  let available ← m.loadAuthFromStorage cfg
  Result.require (available = none) ⟨.permissionDenied, "native auth is already available"⟩
  m.saveAndCache cfg snapshot

def install (source : Option String) (snapshot : AuthTransitionSnapshot) :
    Except IoError (AuthReloadStatus × AuthManager) :=
  match source with
  | some source => m.installSnapshotForTransition cfg snapshot source
  | none => m.installSnapshotForBootstrap cfg snapshot

/-! ### What a successful operation has checked -/

variable {cfg : AuthConfig} {m m' : AuthManager} {r : AuthReloadStatus × AuthManager}
  {status : AuthReloadStatus}

theorem requireManagedChatgpt_eq_ok (h : requireManagedChatgpt auth = .ok ()) :
    ∃ doc, auth = .chatgpt doc := by
  cases auth with
  | chatgpt doc => exact ⟨doc, rfl⟩
  | _ => cases h

theorem currentTransitionSource_eq_ok {id : String} (h : m.currentTransitionSource cfg = .ok id) :
    (∃ doc, m.authCached = some (.chatgpt doc)) ∧ m.cachedAccount = some id := by
  unfold currentTransitionSource at h
  split at h
  · cases h
  rename_i auth hauth
  obtain ⟨⟨⟩, hman, h⟩ := bind_eq_ok.1 h
  have h := ok_of_bind h
  obtain ⟨doc, rfl⟩ := requireManagedChatgpt_eq_ok hman
  refine ⟨⟨doc, hauth⟩, ?_⟩
  simpa [cachedAccount, hauth] using transitionAccountId_eq_ok h

theorem authFromTransitionSnapshot_eq_ok (h : authFromTransitionSnapshot cfg s = .ok auth) :
    auth = .chatgpt (some s.authDotJson) := by
  obtain ⟨loaded, hload, h⟩ := bind_eq_ok.1 h
  have h := ok_of_bind h
  have h := ok_of_bind h
  cases h
  rw [mapError_eq_ok, CodexAuth.fromAuthDotJson,
    (managedTransitionAccountId_eq_ok s.accountId_eq).1] at hload
  obtain ⟨-, -, hload⟩ := map_eq_ok.1 hload
  exact hload.symm

/-- **The source of a transition**: cached managed credentials of the expected account, which
storage names as well. -/
theorem checkTransitionSource_eq_ok {expected : String}
    (h : m.checkTransitionSource cfg expected = .ok s) :
    m.storage = .ok (some s.authDotJson) ∧ s.accountId = expected ∧
      m.cachedAccount = some expected ∧ ∃ doc, m.authCached = some (.chatgpt doc) := by
  have h := ok_of_bind h
  have h := ok_of_bind h
  obtain ⟨current, hcur, h⟩ := bind_eq_ok.1 h
  obtain ⟨⟨⟩, hexp, h⟩ := bind_eq_ok.1 h
  obtain ⟨stored, hstored, h⟩ := bind_eq_ok.1 h
  obtain ⟨doc, hdoc, h⟩ := bind_eq_ok.1 h
  obtain ⟨snapshot, hsnap, h⟩ := bind_eq_ok.1 h
  obtain ⟨⟨⟩, hid, h⟩ := bind_eq_ok.1 h
  cases h
  rw [require_eq_ok] at hexp hid
  rw [okOr_eq_ok] at hdoc
  obtain ⟨hchat, hcached⟩ := currentTransitionSource_eq_ok hcur
  have hs := AuthTransitionSnapshot.fromAuthDotJson_eq_ok hsnap
  exact ⟨by rw [hstored, hdoc, hs], hid, hexp ▸ hcached, hchat⟩

theorem snapshotForTransition_eq_ok {expected : String}
    (h : m.snapshotForTransition cfg expected = .ok s) :
    m.storage = .ok (some s.authDotJson) ∧ s.accountId = expected ∧
      m.cachedAccount = some expected := by
  obtain ⟨snapshot, hsource, h⟩ := bind_eq_ok.1 h
  obtain ⟨-, -, h⟩ := bind_eq_ok.1 h
  cases h
  obtain ⟨hstor, hid, hcached, -⟩ := checkTransitionSource_eq_ok hsource
  exact ⟨hstor, hid, hcached⟩

theorem saveAndCache_eq_ok (h : m.saveAndCache cfg s = .ok (status, m')) :
    status = .reloaded (!authsEqualForRefresh m.authCached (some (.chatgpt (some s.authDotJson)))) ∧
      m' = (setCachedAuthAfterTransition { m with storage := .ok (some s.authDotJson) }
        (.chatgpt (some s.authDotJson))).2 := by
  obtain ⟨candidate, hcan, h⟩ := bind_eq_ok.1 h
  have h := ok_of_bind h
  cases authFromTransitionSnapshot_eq_ok hcan
  cases h
  exact ⟨rfl, rfl⟩

theorem storedAccount_of_installSnapshotForTransition {source : String}
    (h : m.installSnapshotForTransition cfg s source = .ok r) : m.storedAccount = some source := by
  obtain ⟨snapshot, hsource, -⟩ := bind_eq_ok.1 h
  obtain ⟨hstor, hid, -, -⟩ := checkTransitionSource_eq_ok hsource
  simp [storedAccount, hstor, snapshot.accountId_eq, hid, Except.toOption]

theorem loadAuthFromStorage_of_installSnapshotForBootstrap
    (h : m.installSnapshotForBootstrap cfg s = .ok r) : m.loadAuthFromStorage cfg = .ok none := by
  have h := ok_of_bind h
  have h := ok_of_bind h
  have h := ok_of_bind h
  obtain ⟨available, havail, h⟩ := bind_eq_ok.1 h
  obtain ⟨⟨⟩, hnone, -⟩ := bind_eq_ok.1 h
  rw [require_eq_ok] at hnone
  rw [havail, hnone]

theorem installSnapshotForBootstrap_eq_ok (h : m.installSnapshotForBootstrap cfg s = .ok r) :
    m.authCached = none ∧ m.storage = .ok none ∧ m.saveAndCache cfg s = .ok r := by
  have h := ok_of_bind h
  obtain ⟨⟨⟩, hper, h⟩ := bind_eq_ok.1 h
  obtain ⟨⟨⟩, hcached, h⟩ := bind_eq_ok.1 h
  obtain ⟨available, havail, h⟩ := bind_eq_ok.1 h
  obtain ⟨⟨⟩, hnone, h⟩ := bind_eq_ok.1 h
  rw [require_eq_ok] at hcached hnone
  exact ⟨hcached, storage_of_loadAuth_none
    (fun hmode => by simp [ensureTransitionStorage, hmode] at hper) (hnone ▸ havail), h⟩

theorem install_eq_ok (h : m.install cfg source s = .ok (status, m')) :
    status = .reloaded (!authsEqualForRefresh m.authCached (some (.chatgpt (some s.authDotJson)))) ∧
      m' = (setCachedAuthAfterTransition { m with storage := .ok (some s.authDotJson) }
        (.chatgpt (some s.authDotJson))).2 := by
  cases source with
  | some source =>
    obtain ⟨-, -, h⟩ := bind_eq_ok.1 h
    exact saveAndCache_eq_ok h
  | none => exact saveAndCache_eq_ok (installSnapshotForBootstrap_eq_ok h).2.2

theorem storedAccount_of_install (h : m.install cfg source s = .ok (status, m')) :
    m'.storedAccount = some s.accountId := by
  rw [(install_eq_ok h).2]
  simp [storedAccount, setCachedAuthAfterTransition, s.accountId_eq, Except.toOption]

theorem cachedAccount_of_install (h : m.install cfg source s = .ok (status, m')) :
    m'.cachedAccount = s.authDotJson.tokens.bind (·.accountId) := by
  rw [(install_eq_ok h).2]
  rfl

end AuthManager

def AuthConfig.sample : AuthConfig where
  authCredentialsStoreMode := .file
  hasExternalAuth := false
  allowedLoginMethods := [.api, .chatgpt]
  forcedChatgptWorkspaceId := none
  effectiveChatgptWorkspaces := none
  enableCodexApiKeyEnv := false
  codexApiKeyEnv := none
  codexAccessTokenEnv := none
  ephemeralStorage := .ok none
  createDefaultAuthClient := .ok ()
  managedRefreshFileLock := .ok ()
  storageSave := .ok ()
  agentIdentityRecord := fun _ => .error ⟨.other, "no agent identity"⟩
  agentIdentityAuth := fun _ => .error ⟨.other, "no agent identity"⟩
  personalAccessTokenAuth := fun _ => .error ⟨.other, "no personal access token"⟩

def AuthManager.sample (doc : AuthDotJson) : AuthManager where
  inner := { auth := some (.chatgpt (some doc)), permanentRefreshFailure := none }
  authChange := 0
  authChangeState := { generation := 0, ownerGeneration := 0 }
  networkPolicy := none
  storage := .ok (some doc)

end Auth

end CodexMarathon
