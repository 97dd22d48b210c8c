/-
**The wire types of the runtime adapter.**

The controller prepares, commits and cancels an account transition and releases parked recoveries;
the runtime reports what happens in events.  Rate-limit contents are passed through as JSON.
-/

import CodexMarathon.Store.Vault

namespace CodexMarathon

open Result

namespace Adapter

@[ext]
structure AuthTransitionParams where
  transitionId : String
  targetAccountId : String
  expectedGeneration : UInt64
deriving DecidableEq

def AuthTransitionParams.validate (params : AuthTransitionParams) : Except String Unit := do
  Result.require (!isBlank params.transitionId) "transition_id is required"
  Result.require (!isBlank params.targetAccountId) "target_account_id is required"
  Result.require (params.expectedGeneration ≠ 0) "expected_generation must be greater than zero"

structure CancelAuthTransitionParams where
  transitionId : String
  expectedGeneration : UInt64
  reason : Option String
deriving DecidableEq

def CancelAuthTransitionParams.validate (params : CancelAuthTransitionParams) :
    Except String Unit := do
  Result.require (!isBlank params.transitionId) "transition_id is required"
  Result.require (params.expectedGeneration ≠ 0) "expected_generation must be greater than zero"
  Result.require (params.reason.all (!isBlank ·)) "reason must not be empty when supplied"

inductive TransitionOutcome
  | committed
  | rejected
  | uncertain
deriving DecidableEq, Repr

structure TransitionResult where
  transitionId : String
  runtimeId : String
  expectedGeneration : Option UInt64
  authGeneration : UInt64
  outcome : TransitionOutcome
  accountId : Option String
  errorCode : Option String
  errorMessage : Option String
deriving DecidableEq

inductive RecoveryPhase
  | parked
  | released
  | started
  | completed
deriving DecidableEq, Repr

structure RecoveryState where
  recoveryId : String
  threadId : Option String
  turnId : Option String
  sourceAccountId : Option String
  transitionId : Option String
  targetAccountId : Option String
  expectedGeneration : Option UInt64
  phase : RecoveryPhase
deriving DecidableEq

def RecoveryState.parked (recoveryId : String) : RecoveryState where
  recoveryId
  threadId := none
  turnId := none
  sourceAccountId := none
  transitionId := none
  targetAccountId := none
  expectedGeneration := none
  phase := .parked

structure RecoveryReleaseParams where
  recoveryId : String
  threadId : Option String
  transitionId : String
  expectedGeneration : UInt64
deriving DecidableEq

def RecoveryReleaseParams.validate (params : RecoveryReleaseParams) : Except String Unit := do
  Result.require (!isBlank params.recoveryId) "recovery_id is required"
  Result.require (!isBlank params.transitionId) "transition_id is required"
  Result.require (params.expectedGeneration ≠ 0) "expected_generation must be greater than zero"

inductive RecoveryReleaseOutcome
  | released
  | alreadyReleased
  | rejected
  | uncertain
deriving DecidableEq, Repr

structure RecoveryReleaseResult where
  recoveryId : String
  threadId : Option String
  outcome : RecoveryReleaseOutcome
  errorCode : Option String
  errorMessage : Option String
deriving DecidableEq

/-- What the native runtime observes of its own recoveries. -/
inductive RecoveryLifecycleEvent
  | parked (recoveryId reason : String) (threadId turnId sourceAccountId : Option String)
  | started (recoveryId : String) (threadId turnId : Option String)
  | completed (recoveryId outcome : String) (errorCode threadId turnId : Option String)
deriving DecidableEq

def checkVersions (positive duplicated : String) : List UInt32 → List UInt32 → Except String Unit
  | _, [] => .ok ()
  | seen, version :: versions => do
      Result.require (version ≠ 0) positive
      Result.require (version ∉ seen) (duplicated ++ " " ++ toString version ++ " is duplicated")
      checkVersions positive duplicated (version :: seen) versions

def validateVersions (versions : List UInt32) : Except String Unit := do
  Result.require (!versions.isEmpty) "protocol_versions must not be empty"
  checkVersions "protocol versions must be positive" "protocol version" [] versions

structure VersionNegotiationParams where
  supportedVersions : List UInt32
deriving DecidableEq

def VersionNegotiationParams.validate (params : VersionNegotiationParams) : Except String Unit := do
  Result.require (!params.supportedVersions.isEmpty) "supported_versions must not be empty"
  checkVersions "supported_versions must be positive" "supported version" []
    params.supportedVersions

structure VersionNegotiationResult where
  protocolVersion : UInt32
  serverVersions : List UInt32
deriving DecidableEq

/-! ### Accounts -/

structure NativeLoginParams where
  accountId : Option String
  aliasName : Option String
  overwrite : Bool

def NativeLoginParams.validate (params : NativeLoginParams) : Except String Unit := do
  Result.require (params.accountId.all (!isBlank ·)) "account_id must not be empty when supplied"
  Result.require (params.aliasName.all (!isBlank ·)) "alias must not be empty when supplied"

def isObject : Json → Bool
  | .object _ => true
  | _ => false

structure NativeLoginResult where
  accountId : String
  aliasName : Option String
  authJson : Json
  metadata : List (String × String)

def NativeLoginResult.validate (result : NativeLoginResult) : Except String Unit := do
  Result.require (!isBlank result.accountId) "native login returned an empty account_id"
  Result.require (isObject result.authJson) "native login returned a non-object auth_json"

structure NativeAuthSnapshotResult where
  accountId : String
  authJson : Json

def NativeAuthSnapshotResult.validate (result : NativeAuthSnapshotResult) :
    Except String Unit := do
  Result.require (!isBlank result.accountId) "native auth snapshot returned an empty account_id"
  Result.require (isObject result.authJson) "native auth snapshot returned a non-object auth_json"

structure NativeRefreshParams where
  accountId : String
  authJson : Json

def NativeRefreshParams.validate (params : NativeRefreshParams) : Except String Unit := do
  Result.require (!isBlank params.accountId) "account_id is required"
  Result.require (isObject params.authJson) "auth_json must be an object"

structure NativeRefreshResult where
  accessToken : Option String
  idToken : Option String
  refreshToken : Option String
  accountId : Option String

def NativeRefreshResult.validateFor (result : NativeRefreshResult) (requestedAccountId : String) :
    Except String Unit := do
  Result.require (!isBlank requestedAccountId) "account_id is required"
  Result.require (result.accessToken.isSome || result.idToken.isSome || result.refreshToken.isSome)
    "native refresh returned no token fields"
  Result.require (result.accountId.all (· = requestedAccountId))
    "native refresh returned a different account_id"

/-! ### Events -/

inductive EventType
  | runtimeReady
  | rateLimitsSnapshot
  | rateLimitsUpdated
  | turnStarted
  | turnCompleted
  | safeBoundaryReached
  | authReloadStarted
  | authReloadSucceeded
  | authReloadFailed
  | identityChanged
  | recoveryParked
  | recoveryStarted
  | recoveryCompleted
deriving DecidableEq, Repr

namespace EventType

def text : EventType → String
  | runtimeReady => "runtime_ready"
  | rateLimitsSnapshot => "rate_limits_snapshot"
  | rateLimitsUpdated => "rate_limits_updated"
  | turnStarted => "turn_started"
  | turnCompleted => "turn_completed"
  | safeBoundaryReached => "safe_boundary_reached"
  | authReloadStarted => "auth_reload_started"
  | authReloadSucceeded => "auth_reload_succeeded"
  | authReloadFailed => "auth_reload_failed"
  | identityChanged => "identity_changed"
  | recoveryParked => "recovery_parked"
  | recoveryStarted => "recovery_started"
  | recoveryCompleted => "recovery_completed"

def requiresTransitionId : EventType → Bool
  | safeBoundaryReached | authReloadStarted | authReloadSucceeded | authReloadFailed
  | identityChanged => true
  | _ => false

def required : EventType → List String
  | runtimeReady => ["protocol_version", "account_id"]
  | rateLimitsSnapshot => ["account_id", "rateLimits", "rateLimitsByLimitId"]
  | rateLimitsUpdated => ["account_id", "rateLimits"]
  | turnStarted => ["turn_id"]
  | turnCompleted => ["turn_id", "outcome"]
  | safeBoundaryReached => ["reason"]
  | authReloadStarted => ["target_account_id"]
  | authReloadSucceeded => ["account_id", "changed"]
  | authReloadFailed => ["error_code", "error_message"]
  | identityChanged => ["previous_account_id", "account_id"]
  | recoveryParked => ["recovery_id", "reason"]
  | recoveryStarted => ["recovery_id"]
  | recoveryCompleted => ["recovery_id", "outcome"]

end EventType

inductive EventPayload
  | runtimeReady (protocolVersion : UInt32) (accountId : Option String) (capabilities : List String)
  | rateLimitsSnapshot (accountId : Option String) (rateLimits : Json)
      (rateLimitsByLimitId : Option Json)
  | rateLimitsUpdated (accountId : Option String) (rateLimits : Json)
  | turnStarted (turnId : String) (threadId : Option String)
  | turnCompleted (turnId : String) (threadId : Option String) (outcome : String)
      (errorCode : Option String)
  | safeBoundaryReached (reason : String) (turnId : Option String)
  | authReloadStarted (targetAccountId : String)
  | authReloadSucceeded (accountId previousAccountId : Option String) (changed : Bool)
  | authReloadFailed (errorCode errorMessage : String)
  | identityChanged (previousAccountId accountId : Option String)
  | recoveryParked (recoveryId reason : String) (threadId turnId sourceAccountId : Option String)
  | recoveryStarted (recoveryId : String) (threadId turnId : Option String)
  | recoveryCompleted (recoveryId outcome : String) (errorCode threadId turnId : Option String)

namespace EventPayload

def optional {α : Type} (name : String) : Option α → List String
  | some _ => [name]
  | none => []

def fields : EventPayload → List String
  | runtimeReady _ _ capabilities =>
    ["protocol_version", "account_id"] ++ if capabilities.isEmpty then [] else ["capabilities"]
  | rateLimitsSnapshot .. => ["account_id", "rateLimits", "rateLimitsByLimitId"]
  | rateLimitsUpdated .. => ["account_id", "rateLimits"]
  | turnStarted .. => ["turn_id", "thread_id"]
  | turnCompleted _ _ _ errorCode =>
    ["turn_id", "thread_id", "outcome"] ++ optional "error_code" errorCode
  | safeBoundaryReached .. => ["reason", "turn_id"]
  | authReloadStarted _ => ["target_account_id"]
  | authReloadSucceeded .. => ["account_id", "previous_account_id", "changed"]
  | authReloadFailed .. => ["error_code", "error_message"]
  | identityChanged .. => ["previous_account_id", "account_id"]
  | recoveryParked _ _ threadId turnId sourceAccountId =>
    ["recovery_id", "reason"] ++ optional "thread_id" threadId ++ optional "turn_id" turnId
      ++ optional "source_account_id" sourceAccountId
  | recoveryStarted _ threadId turnId =>
    ["recovery_id"] ++ optional "thread_id" threadId ++ optional "turn_id" turnId
  | recoveryCompleted _ _ errorCode threadId turnId =>
    ["recovery_id", "outcome"] ++ optional "error_code" errorCode
      ++ optional "thread_id" threadId ++ optional "turn_id" turnId

def eventType : EventPayload → EventType
  | runtimeReady .. => .runtimeReady
  | rateLimitsSnapshot .. => .rateLimitsSnapshot
  | rateLimitsUpdated .. => .rateLimitsUpdated
  | turnStarted .. => .turnStarted
  | turnCompleted .. => .turnCompleted
  | safeBoundaryReached .. => .safeBoundaryReached
  | authReloadStarted _ => .authReloadStarted
  | authReloadSucceeded .. => .authReloadSucceeded
  | authReloadFailed .. => .authReloadFailed
  | identityChanged .. => .identityChanged
  | recoveryParked .. => .recoveryParked
  | recoveryStarted .. => .recoveryStarted
  | recoveryCompleted .. => .recoveryCompleted

theorem required_subset_fields (payload : EventPayload) :
    payload.eventType.required ⊆ payload.fields := by
  cases payload <;> simp [eventType, EventType.required, fields]

end EventPayload

structure EventBase where
  eventType : EventType
  occurredAt : UInt64
  runtimeId : String
  authGeneration : UInt64
  transitionId : Option String
deriving DecidableEq

def EventBase.validate (base : EventBase) : Except String Unit := do
  Result.require (!isBlank base.eventType.text) "event_type is required"
  Result.require (!isBlank base.runtimeId) "runtime_id is required"
  Result.require (!(base.eventType.requiresTransitionId && base.transitionId.all isBlank))
    ("event " ++ base.eventType.text ++ " requires transition_id")

structure RuntimeEvent where
  base : EventBase
  payload : EventPayload

namespace RuntimeEvent

def requireField (event : RuntimeEvent) (field : String) : Except String Unit :=
  Result.require (field ∈ event.payload.fields)
    ("event " ++ event.base.eventType.text ++ " is missing " ++ field)

def validate (event : RuntimeEvent) : Except String Unit := do
  event.base.validate
  event.base.eventType.required.forM event.requireField

theorem isBlank_text (eventType : EventType) : isBlank eventType.text = false := by
  cases eventType <;> decide

theorem validate_mk {base : EventBase} {payload : EventPayload}
    (htype : base.eventType = payload.eventType) (hrun : isBlank base.runtimeId = false)
    (htran : base.eventType.requiresTransitionId = true →
      ∃ id, base.transitionId = some id ∧ isBlank id = false) :
    validate ⟨base, payload⟩ = .ok () := by
  refine bind_eq_ok.2 ⟨(), ?_, ?_⟩
  · refine bind_eq_ok.2 ⟨(), require_eq_ok.2 (by simp [isBlank_text]), ?_⟩
    refine bind_eq_ok.2 ⟨(), require_eq_ok.2 (by simp [hrun]), ?_⟩
    refine require_eq_ok.2 ?_
    cases hreq : base.eventType.requiresTransitionId with
    | false => rfl
    | true =>
      obtain ⟨id, hid, hblank⟩ := htran hreq
      simp [hid, hblank]
  · refine forM_eq_ok.2 fun field hfield => require_eq_ok.2 ?_
    rw [htype] at hfield
    exact payload.required_subset_fields hfield

end RuntimeEvent

end Adapter

end CodexMarathon
