/-
**The executor of banked resets.**

The account daemon decides when a reset credit is to be used, but holds no credentials; an executor
claims the jobs, opens the credentials of their accounts and sends the requests to the provider.
Its code is a program over the calls it makes.
-/

import CodexMarathon.Expiry.Store
import CodexMarathon.Lib.Hoare
import CodexMarathon.Service.World

namespace CodexMarathon

open Auth Expiry

variable [Externals]

/-! ### Calls -/

structure ExpiryStatus where
  codexHome : Option String
  effectiveEnabled : Bool
deriving DecidableEq, Repr

structure NativeConfig where
  chatgptBaseUrl : String
deriving DecidableEq, Repr

structure Client where
  baseUrl : String
  auth : CodexAuth
deriving DecidableEq

inductive RequestFailure
  | timeout
  | unauthorized
  | rateLimited
  | failed
deriving DecidableEq, Repr

def RequestFailure.code : RequestFailure → String
  | .timeout => "provider_timeout"
  | .unauthorized => "provider_unauthorized"
  | .rateLimited => "provider_rate_limited"
  | .failed => "provider_failed"

structure RateLimitResetCreditDetails where
  id : String
  resetType : String
  status : String
  expiresAt : Option String
deriving DecidableEq, Repr

inductive ConsumeRateLimitResetCreditCode
  | reset
  | nothingToReset
  | noCredit
  | alreadyRedeemed
deriving DecidableEq, Repr

/-- `get_rate_limits_with_reset_credits`: the account it is about and the limits. -/
structure RateLimitsResponse where
  accountId : Option String
  rateLimits : Json

inductive Timed (α : Type)
  | timeout
  | answered (a : α)

inductive ExecutorCall
  | expiryStatus
  | expiryHeartbeat
  | expiryClaim
  | expiryObserve (observation : ExpiryObservation)
  | expiryComplete (completion : ExpiryCompletion)
  | canonicalize (path : String)
  | previewState
  | store (c : StoreCall)
  | nativeConfig
  | tempdir
  | saveAuth (auth : AuthDotJson)
  | openManager (active : Bool)
  | authCached
  | auth
  | refreshToken
  | snapshotForTransition (expected : String)
  | listCredits (client : Client)
  | consumeCredit (client : Client) (idempotencyKey creditId : String)
  | getRateLimits (client : Client)
  | upsertQuota (accountId : String) (limits : Json) (observedAt : DateTime)
  | now
  | instant
  | deadline
  | sleep

abbrev ExecutorCall.Ans : ExecutorCall → Type
  | .expiryStatus => Except Unit ExpiryStatus
  | .expiryHeartbeat => Except Unit Unit
  | .expiryClaim => Except Unit (Option ExpiryJob)
  | .expiryObserve _ => Except Unit Unit
  | .expiryComplete _ => Except Unit Unit
  | .canonicalize _ => Option String
  | .previewState => Except DomainError RegistryState
  | .store c => c.Ans
  | .nativeConfig => Except Unit NativeConfig
  | .tempdir => Except IoError Unit
  | .saveAuth _ => Except IoError Unit
  | .openManager _ => Timed (Except IoError Unit)
  | .authCached => Option CodexAuth
  | .auth => Timed (Option CodexAuth)
  | .refreshToken => Timed (Except Unit Unit)
  | .snapshotForTransition _ => Except IoError AuthTransitionSnapshot
  | .listCredits _ => Except RequestFailure (List RateLimitResetCreditDetails)
  | .consumeCredit _ _ _ => Except RequestFailure ConsumeRateLimitResetCreditCode
  | .getRateLimits _ => Except RequestFailure RateLimitsResponse
  | .upsertQuota _ _ _ => Except Unit Unit
  | .now => DateTime
  | .instant => ℕ
  | .deadline => Bool
  | .sleep => Unit

abbrev ExecutorProg (α : Type) : Type := Prog ExecutorCall ExecutorCall.Ans α

abbrev ExecutorM (α : Type) : Type := ExceptT String (Prog ExecutorCall ExecutorCall.Ans) α

namespace Executor

structure Config where
  codexHome : String
  parseFromRfc3339 : String → Option DateTime

inductive CreditAction
  | submit
  | alreadyRedeemed
deriving DecidableEq, Repr

def creditActionOf (job : ExpiryJob) : Option ExpiryCredit → Except String CreditAction
  | some credit =>
    if credit.status = "redeemed" then .ok .alreadyRedeemed
    else if credit.status = "available"
        ∧ credit.expiresAt.map (·.timestampMillis) = some job.expiresAt.timestampMillis then
      .ok .submit
    else .error "credit_ineligible"
  | none => if 1 < job.attempt then .ok .submit else .error "credit_detail_unavailable"

def creditAction (credits : List ExpiryCredit) (job : ExpiryJob) (now : DateTime) :
    Except String CreditAction :=
  if ¬ now < job.expiresAt then .error "credit_expired"
  else creditActionOf job (credits.find? fun credit => credit.creditId = job.creditId)

def mapCredit (cfg : Config) (credit : RateLimitResetCreditDetails) : ExpiryCredit where
  creditId := credit.id
  status := if credit.resetType = "codex_rate_limits" then credit.status else "unknown"
  expiresAt := credit.expiresAt.bind cfg.parseFromRfc3339

def mapOutcome : ConsumeRateLimitResetCreditCode → ExpiryOutcome
  | .reset => .reset
  | .alreadyRedeemed => .alreadyRedeemed
  | .noCredit => .noCredit
  | .nothingToReset => .nothingToReset

def requireIdentity (observed : Option String) (expected : String) : Except String Unit :=
  Result.require (observed = some expected) "auth_identity_mismatch"

def snapshotIdentity (auth : AuthDotJson) : Option String :=
  auth.tokens.bind fun tokens => tokens.accountId.or tokens.idToken.chatgptAccountId

def call (c : ExecutorCall) : ExecutorProg c.Ans := Prog.perform c

def store (c : StoreCall) (code : String) : ExecutorM c.Val :=
  Prog.orFail (call (.store c)) fun _ : DomainError => code

def answered {α : Type} (code : String) : Timed α → Except String α
  | .timeout => .error code
  | .answered a => .ok a

def request {α : Type} (p : ExecutorProg (Except RequestFailure α)) : ExecutorM α :=
  Prog.orFail p RequestFailure.code

def canonical : Option String → ExecutorProg (Option String)
  | none => pure none
  | some path => call (.canonicalize path)

variable (cfg : Config)

/-- `enabled`: the daemon is asked first, and must be the one of this home. -/
def enabled : ExecutorM Bool := do
  let status ← Prog.orFail (call .expiryStatus) fun _ : Unit => "daemon_unavailable"
  let daemonHome ← canonical status.codexHome
  let expectedHome ← canonical (some cfg.codexHome)
  (Result.require (daemonHome.isSome ∧ daemonHome = expectedHome) "daemon_home_mismatch" :
    Except String Unit)
  pure status.effectiveEnabled

def requireEnabled : ExecutorM Unit := do
  let isEnabled ← enabled cfg
  (Result.require (isEnabled = true) "disabled" : Except String Unit)

def publishAuth (id : String) (snapshot : AuthSnapshot) (state : RegistryState)
    (account : AccountRecord) : ExecutorM Unit := do
  let credentialRef ← store (.saveFreshLocked snapshot) "vault_save_failed"
  store (.replaceLocked (state.insert id { account with credentialRef })) "registry_save_failed"

def authDocument (id : String) (updated : AuthTransitionSnapshot) :
    Except String AuthSnapshot := do
  requireIdentity (snapshotIdentity updated.authDotJson) id
  let bytes ← Result.okOr (Externals.encodeAuth updated.authDotJson) "auth_snapshot_failed"
  (AuthSnapshot.fromBytes (some id) bytes).mapError fun _ => "auth_identity_mismatch"

theorem authDocument_eq_ok {id : String} {updated : AuthTransitionSnapshot} {snapshot : AuthSnapshot}
    (h : authDocument id updated = .ok snapshot) :
    Externals.encodeAuth updated.authDotJson = some snapshot.bytes ∧
      (snapshot.embeddedAccountId = none ∨ snapshot.embeddedAccountId = some id) := by
  obtain ⟨bytes, hbytes, h⟩ := Result.bind_eq_ok.1 (Result.ok_of_bind h)
  obtain ⟨rfl, hid⟩ := AuthSnapshot.fromBytes_eq_ok (Result.mapError_eq_ok.1 h)
  exact ⟨Result.okOr_eq_ok.1 hbytes, hid id rfl⟩

/-- `persist_auth`: nothing is published that the vault has already. -/
def persistAuth (id : String) : ExecutorM Unit := do
  let updated ← Prog.orFail (call (.snapshotForTransition id)) fun _ : IoError =>
    "auth_snapshot_unavailable"
  let snapshot ← authDocument id updated
  let state ← store .stateLocked "registry_unavailable"
  let account ← (Result.okOr (state.get? id) "account_removed" : Except String AccountRecord)
  let current : Except DomainError AuthSnapshot ← call (.store (.loadLocked account.effectiveRef))
  if current.toOption = some snapshot then pure () else publishAuth id snapshot state account

/-- The end of `recover_unauthorized`: a client from the refreshed credentials. -/
def clientFromCache (native : NativeConfig) (id : String) : ExecutorM Client := do
  let cached ← call .authCached
  let auth ← (Result.okOr cached "authentication_required" : Except String CodexAuth)
  requireIdentity auth.getAccountId id
  pure { baseUrl := native.chatgptBaseUrl, auth }

def recoverUnauthorized (native : NativeConfig) (id : String) : ExecutorM Client := do
  requireEnabled cfg
  let refreshed ← call .refreshToken
  let refreshed ← answered "auth_refresh_timeout" refreshed
  (refreshed.mapError fun _ => "auth_refresh_failed" : Except String Unit)
  persistAuth id
  clientFromCache native id

def stageInactive (account : AccountRecord) (id : String) : ExecutorM Unit := do
  let snapshot ← store (.loadLocked account.effectiveRef) "vault_unavailable"
  let auth ← (Result.okOr (Externals.decodeAuth snapshot.bytes) "invalid_auth" :
    Except String AuthDotJson)
  requireIdentity (snapshotIdentity auth) id
  Prog.orFail (call .tempdir) fun _ : IoError => "isolated_home_failed"
  Prog.orFail (call (.saveAuth auth)) fun _ : IoError => "auth_stage_failed"

def openAuth (active : Bool) (id : String) : ExecutorM CodexAuth := do
  let opened ← call (.openManager active)
  let opened ← answered "auth_timeout" opened
  (opened.mapError fun _ => "native_auth_unavailable" : Except String Unit)
  let cached ← call .authCached
  requireIdentity (cached.bind (·.getAccountId)) id
  let auth ← call .auth
  let auth ← answered "auth_timeout" auth
  let auth ← (Result.okOr auth "authentication_required" : Except String CodexAuth)
  requireIdentity auth.getAccountId id
  (Result.require (auth.apiAuthMode.usesCodexBackend = true) "unsupported_auth" :
    Except String Unit)
  pure auth

def refreshQuota (id : String) (client : Client) : ExecutorM Unit := do
  let response ← request (call (.getRateLimits client))
  (Result.require (response.accountId.all (· = id)) "auth_identity_mismatch" : Except String Unit)
  let now ← call .now
  Prog.orFail (call (.upsertQuota id response.rateLimits now)) fun _ : Unit => "quota_save_failed"

/-- The inventory, and the client it was read with: a request that is refused as unauthorized is
repeated once, after a refresh. -/
def listCredits (native : NativeConfig) (id : String) (client : Client) :
    ExecutorM (List RateLimitResetCreditDetails × Client) := do
  let result : Except RequestFailure (List RateLimitResetCreditDetails) ←
    call (.listCredits client)
  match result with
  | .error .unauthorized => do
      let client ← recoverUnauthorized cfg native id
      let inventory ← request (call (.listCredits client))
      pure (inventory, client)
  | .error failure => throw failure.code
  | .ok inventory => pure (inventory, client)

def consumeCredit (native : NativeConfig) (id : String) (client : Client) (job : ExpiryJob) :
    ExecutorM ConsumeRateLimitResetCreditCode := do
  let result : Except RequestFailure ConsumeRateLimitResetCreditCode ←
    call (.consumeCredit client job.idempotencyKey job.creditId)
  match result with
  | .error .unauthorized => do
      let client ← recoverUnauthorized cfg native id
      requireEnabled cfg
      request (call (.consumeCredit client job.idempotencyKey job.creditId))
  | .error failure => throw failure.code
  | .ok code => pure code

def submitJob (native : NativeConfig) (id : String) (client : Client) (job : ExpiryJob) :
    CreditAction → ExecutorM ExpiryOutcome
  | .alreadyRedeemed => pure .alreadyRedeemed
  | .submit => do
      requireEnabled cfg
      let code ← consumeCredit cfg native id client job
      pure (mapOutcome code)

/-- What follows the inventory: the observation, and the job if there is one. -/
def observeAndSubmit (native : NativeConfig) (id : String) (job : Option ExpiryJob)
    (client : Client) (credits : List ExpiryCredit) : ExecutorM ExpiryOutcome := do
  requireEnabled cfg
  let observedAt ← call .now
  Prog.orFail (call (.expiryObserve { accountId := id, observedAt, credits := some credits }))
    fun _ : Unit => "observation_failed"
  match job with
  | none => pure .retry
  | some job => do
      let now ← call .now
      let action ← creditAction credits job now
      submitJob cfg native id client job action

def refreshQuotaIf (refresh : Bool) (id : String) (client : Client) : ExecutorProg Unit := do
  if refresh then
    let _ ← (refreshQuota id client).run
    pure ()
  else pure ()

def stage (state : RegistryState) (account : AccountRecord) (id : String) : ExecutorM Unit :=
  if state.activeAccountId = id then pure () else stageInactive account id

def accountOperation (id : String) (job : Option ExpiryJob) (refresh : Bool) :
    ExecutorM ExpiryOutcome := do
  requireEnabled cfg
  store .lockExclusive "state_busy"
  let state ← store .stateLocked "registry_unavailable"
  (Result.require (state.enabled = true) "disabled" : Except String Unit)
  let account ← (Result.okOr (state.get? id) "account_removed" : Except String AccountRecord)
  let native ← Prog.orFail (call .nativeConfig) fun _ : Unit => "native_config_unavailable"
  stage state account id
  let auth ← openAuth (state.activeAccountId = id) id
  persistAuth id
  let client : Client := { baseUrl := native.chatgptBaseUrl, auth }
  refreshQuotaIf refresh id client
  let (inventory, client) ← listCredits cfg native id client
  observeAndSubmit cfg native id job client (inventory.map (mapCredit cfg))

/-! ### The loop -/

def timeout {α : Type} (p : ExecutorM α) : ExecutorProg (Option (Except String α)) :=
  Prog.cut .deadline id p.run

def completionOf : Option (Except String ExpiryOutcome) → ExpiryOutcome × Option String
  | some (.ok outcome) => (outcome, none)
  | some (.error code) => (.retry, some code)
  | none => (.retry, some "operation_timeout")

def publish (job : ExpiryJob) (outcome : ExpiryOutcome) (diagnosticCode : Option String) :
    ExecutorProg Unit := do
  let reachable ← (enabled cfg).run
  match reachable with
  | .ok _ => do
      let _ ← call (.expiryComplete
        { jobId := job.jobId, leaseToken := job.leaseToken, outcome, diagnosticCode })
      pure ()
  | .error _ => pure ()

def refreshesQuota : ExpiryOutcome → Bool
  | .reset | .alreadyRedeemed | .noCredit => true
  | .retry | .nothingToReset => false

def runJob (job : ExpiryJob) : ExecutorProg Unit := do
  let result ← timeout (accountOperation cfg job.accountId (some job) false)
  publish cfg job (completionOf result).1 (completionOf result).2
  if refreshesQuota (completionOf result).1 then do
    let _ ← timeout (accountOperation cfg job.accountId none true)
    pure ()
  else pure ()

def processJob : ExecutorProg Unit := do
  let isEnabled ← (enabled cfg).run
  match isEnabled with
  | .ok true => do
      let claimed ← call .expiryClaim
      match claimed with
      | .ok (some job) => runJob cfg job
      | _ => pure ()
  | _ => pure ()

abbrev Due : Type := String → Option ℕ

def inventoryInterval : ℕ := 30

def discover (id : String) (due : Due) : ExecutorProg Due := do
  let now ← call .instant
  if (due id).all (· ≤ now) then do
    let started ← call .instant
    let _ ← call .expiryHeartbeat
    let _ ← timeout (accountOperation cfg id none false)
    processJob cfg
    pure (Function.update due id (some (started + inventoryInterval)))
  else pure due

def discoverAll : List String → Due → ExecutorProg Due
  | [], due => pure due
  | id :: ids, due => do
      let due ← discover cfg id due
      discoverAll ids due

def survey (due : Due) : ExecutorProg Due := do
  let previewed : Except DomainError RegistryState ← call .previewState
  match previewed with
  | .ok state => do
      let due ← discoverAll cfg (state.records.map (·.id)) due
      pure fun id => if (state.get? id).isSome then due id else none
  | .error _ => pure due

def work (due : Due) : ExecutorProg Due := do
  let isEnabled ← (enabled cfg).run
  match isEnabled with
  | .ok true => do
      let due ← survey cfg due
      processJob cfg
      let _ ← call .sleep
      pure due
  | _ => do
      let _ ← call .sleep
      pure due

def round (due : Due) : ExecutorProg Due := do
  let reachable ← (enabled cfg).run
  match reachable with
  | .ok _ => do
      let _ ← call .expiryHeartbeat
      work cfg due
  | .error _ => do
      let _ ← call .sleep
      pure due

def run : ℕ → Due → ExecutorProg Unit
  | 0, _ => pure ()
  | rounds + 1, due => do
      let due ← round cfg due
      run rounds due

end Executor

end CodexMarathon
