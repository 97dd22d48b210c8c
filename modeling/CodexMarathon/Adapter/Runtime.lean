/-
**The runtime adapter.**

The adapter stands between a controller and the native runtime.  It keeps the identity it has last
adopted, at most one prepared transition, the recoveries it has heard of and the events it has to
send.  What the native runtime answers is an argument of each operation.

A method that fails keeps what it has changed before.  The runtime id of an adapter is not blank and
a pending transition has passed its check: both are fields.
-/

import CodexMarathon.Adapter.Protocol
import CodexMarathon.Lib.Machine
import CodexMarathon.Lib.Stateful

namespace CodexMarathon.Adapter

structure BackendError where
  code : String
  message : String
deriving DecidableEq

structure BackendIdentity where
  accountId : Option String
  authMode : Option String
deriving DecidableEq

structure BackendReload where
  identity : BackendIdentity
  changed : Bool
deriving DecidableEq

structure BackendRateLimits where
  rateLimits : Json
  rateLimitsByLimitId : Option Json

/-- What the backend and the clock answer, and how an account is printed. -/
structure Answers where
  activeTurnCount : UInt32
  reloadAuthAndInvalidate : Except BackendError BackendReload
  readRateLimits : Except BackendError BackendRateLimits
  loginAccount : Except BackendError NativeLoginResult
  readAuthSnapshot : Except BackendError NativeAuthSnapshotResult
  refreshAccount : Except BackendError NativeRefreshResult
  drainRecoveryEvents : List RecoveryLifecycleEvent
  releaseRecovery : Except BackendError RecoveryReleaseResult
  now : ℕ → UInt64
  debugAccount : Option String → String

inductive BackendCall
  | activeTurnCount (count : UInt32)
  | reloadAuthAndInvalidate
  | releaseRecovery (params : RecoveryReleaseParams)
  | loginAccount
  | readAuthSnapshot
  | refreshAccount (accountId : String)
deriving DecidableEq

inductive AdapterError
  | invalidParams (message : String)
  | protocol (message : String)
  | backend (error : BackendError)
deriving DecidableEq

/-! ### The adapter -/

structure RuntimeIdentity where
  runtimeId : String
  accountId : Option String
  authGeneration : UInt64
  runtimeId_ne : isBlank runtimeId = false
deriving DecidableEq

structure PendingState where
  params : AuthTransitionParams
  commitRequested : Bool
  safeBoundaryEmitted : Bool
  valid : params.validate = .ok ()
deriving DecidableEq

/-- `RuntimeAdapter`, without its backend; `backendCalls` are the calls made to it. -/
structure RuntimeAdapter where
  identity : RuntimeIdentity
  pending : Option PendingState
  protocolVersions : List UInt32
  negotiatedVersion : Option UInt32
  capabilities : List String
  lastActiveTurnCount : UInt32
  events : List RuntimeEvent
  seenRecoveryEvents : List (EventType × String)
  recoveries : AList fun _ : String => RecoveryState
  releaseResults : AList fun _ : String => RecoveryReleaseResult
  backendCalls : List BackendCall

structure AdapterConfig where
  protocolVersions : List UInt32
  initialAuthGeneration : UInt64
  capabilities : List String

/-- `with_config`, for a backend that observes `account` and `turns`. -/
def withConfig (config : AdapterConfig) (runtimeId : String) (account : Option String)
    (turns : UInt32) : Except AdapterError RuntimeAdapter :=
  if h : isBlank runtimeId = false then do
    (validateVersions config.protocolVersions).mapError .protocol
    pure
      { identity :=
          { runtimeId, accountId := account, authGeneration := config.initialAuthGeneration
            runtimeId_ne := h }
        pending := none
        protocolVersions := config.protocolVersions
        negotiatedVersion := none
        capabilities := config.capabilities
        lastActiveTurnCount := turns
        events := []
        seenRecoveryEvents := []
        recoveries := ∅
        releaseResults := ∅
        backendCalls := [] }
  else .error (.protocol "runtime_id must not be empty")

theorem withConfig_eq_ok {config : AdapterConfig} {runtimeId : String} {account : Option String}
    {turns : UInt32} {s : RuntimeAdapter} (h : withConfig config runtimeId account turns = .ok s) :
    s.pending = none ∧ s.recoveries = ∅ := by
  unfold withConfig at h
  split_ifs at h
  obtain ⟨u, -, hpure⟩ := Result.bind_eq_ok.1 h
  cases hpure
  exact ⟨rfl, rfl⟩

abbrev AdapterM (α : Type) : Type := Stateful RuntimeAdapter AdapterError α

variable (a : Answers)

def checkParams {α : Type} (x : Except String α) : AdapterM α :=
  (x.mapError AdapterError.invalidParams : Except AdapterError α)

def checkProtocol {α : Type} (x : Except String α) : AdapterM α :=
  (x.mapError AdapterError.protocol : Except AdapterError α)

def fromBackend {α : Type} (x : Except BackendError α) : AdapterM α :=
  (x.mapError AdapterError.backend : Except AdapterError α)

def recordCall (call : BackendCall) : AdapterM Unit :=
  modify fun s => { s with backendCalls := s.backendCalls ++ [call] }

/-- `checked_add(1)` on the generation. -/
def nextGeneration (generation : UInt64) : Except String UInt64 :=
  if generation = 18446744073709551615 then .error "auth_generation overflow"
  else .ok (generation + 1)

def pushEvent (event : RuntimeEvent) : AdapterM Unit := do
  checkProtocol event.validate
  modify fun s => { s with events := s.events ++ [event] }

/-- `emit_event` with a base of the given generation and transition. -/
def emitEvent (generation : UInt64) (transitionId : Option String) (payload : EventPayload) :
    AdapterM Unit := do
  let s ← get
  pushEvent
    { base :=
        { eventType := payload.eventType, occurredAt := a.now s.events.length
          runtimeId := s.identity.runtimeId, authGeneration := generation, transitionId }
      payload }

def PendingState.markBoundary (transitionId : String) (pending : PendingState) : PendingState :=
  if pending.params.transitionId = transitionId then { pending with safeBoundaryEmitted := true }
  else pending

def emitBoundary (pending : PendingState) : AdapterM Bool := do
  let s ← get
  emitEvent a s.identity.authGeneration (some pending.params.transitionId)
    (.safeBoundaryReached "running_turn_count_zero" none)
  modify fun s => { s with pending := s.pending.map (·.markBoundary pending.params.transitionId) }
  pure true

def observeTurnCountValue (count : UInt32) : AdapterM Bool := do
  modify fun s => { s with lastActiveTurnCount := count }
  let s ← get
  match s.pending with
  | none => pure false
  | some pending =>
    if count ≠ 0 ∨ pending.safeBoundaryEmitted = true then pure false else emitBoundary a pending

def readTurnCount : AdapterM UInt32 := do
  recordCall (.activeTurnCount a.activeTurnCount)
  pure a.activeTurnCount

def observeTurnCount : AdapterM Bool := do
  let count ← readTurnCount a
  observeTurnCountValue a count

/-! ### Transitions -/

namespace RuntimeAdapter

def acceptedResult (s : RuntimeAdapter) (params : AuthTransitionParams) : TransitionResult where
  transitionId := params.transitionId
  runtimeId := s.identity.runtimeId
  expectedGeneration := some params.expectedGeneration
  authGeneration := s.identity.authGeneration
  outcome := .committed
  accountId := s.identity.accountId
  errorCode := none
  errorMessage := none

def rejectedResult (s : RuntimeAdapter) (transitionId : String) (expectedGeneration : UInt64)
    (code message : String) : TransitionResult where
  transitionId
  runtimeId := s.identity.runtimeId
  expectedGeneration := some expectedGeneration
  authGeneration := s.identity.authGeneration
  outcome := .rejected
  accountId := s.identity.accountId
  errorCode := some code
  errorMessage := some message

end RuntimeAdapter

def reject (params : AuthTransitionParams) (code message : String) : AdapterM TransitionResult := do
  let s ← get
  pure (s.rejectedResult params.transitionId params.expectedGeneration code message)

def register (params : AuthTransitionParams) (valid : params.validate = .ok ()) :
    AdapterM TransitionResult := do
  modify fun s =>
    { s with
      pending := some { params, commitRequested := false, safeBoundaryEmitted := false, valid } }
  let _ ← observeTurnCount a
  let s ← get
  pure (s.acceptedResult params)

def prepare (params : AuthTransitionParams) : AdapterM TransitionResult :=
  match h : params.validate with
  | .error message => throw (.invalidParams message)
  | .ok () => do
      let s ← get
      let expected ← checkProtocol (nextGeneration s.identity.authGeneration)
      if params.expectedGeneration ≠ expected then
        reject params "stale_generation"
          ("expected target generation " ++ toString params.expectedGeneration
            ++ ", current generation " ++ toString expected)
      else
        match s.pending with
        | some existing =>
          if existing.params = params then pure (s.acceptedResult params)
          else reject params "transition_in_progress" "another transition is already pending"
        | none => register a params h

def clearPending : AdapterM Unit := modify fun s => { s with pending := none }

def reloadFailed (params : AuthTransitionParams) (error : BackendError) :
    AdapterM TransitionResult := do
  let s ← get
  emitEvent a s.identity.authGeneration (some params.transitionId)
    (.authReloadFailed error.code error.message)
  clearPending
  reject params error.code error.message

def adopt (account : Option String) (generation : UInt64) : AdapterM Unit :=
  modify fun s =>
    { s with identity := { s.identity with accountId := account, authGeneration := generation } }

def reloadMismatched (params : AuthTransitionParams) (observed : Option String)
    (generation : UInt64) : AdapterM TransitionResult := do
  adopt observed generation
  let message := "native AuthManager observed account " ++ a.debugAccount observed ++ ", expected "
    ++ params.targetAccountId
  emitEvent a generation (some params.transitionId) (.authReloadFailed "identity_mismatch" message)
  clearPending
  reject params "identity_mismatch" message

def emitIdentityChanged (params : AuthTransitionParams) (previous account : Option String)
    (generation : UInt64) (changed : Bool) : AdapterM Unit :=
  if changed then
    emitEvent a generation (some params.transitionId) (.identityChanged previous account)
  else pure ()

def reloadSucceeded (params : AuthTransitionParams) (previous : Option String)
    (reload : BackendReload) (generation : UInt64) : AdapterM TransitionResult := do
  adopt reload.identity.accountId generation
  emitEvent a generation (some params.transitionId)
    (.authReloadSucceeded reload.identity.accountId previous reload.changed)
  emitIdentityChanged a params previous reload.identity.accountId generation reload.changed
  clearPending
  let s ← get
  pure
    { transitionId := params.transitionId, runtimeId := s.identity.runtimeId
      expectedGeneration := some params.expectedGeneration, authGeneration := generation
      outcome := .committed, accountId := s.identity.accountId, errorCode := none
      errorMessage := none }

def reloadedGeneration (generation : UInt64) (changed : Bool) : Except String UInt64 :=
  if changed then nextGeneration generation else .ok generation

def commitAtSafeBoundary (params : AuthTransitionParams) : AdapterM TransitionResult := do
  let s ← get
  emitEvent a s.identity.authGeneration (some params.transitionId)
    (.authReloadStarted params.targetAccountId)
  recordCall .reloadAuthAndInvalidate
  match a.reloadAuthAndInvalidate with
  | .error error => reloadFailed a params error
  | .ok reload => do
      let generation ← checkProtocol (reloadedGeneration s.identity.authGeneration reload.changed)
      if reload.identity.accountId ≠ some params.targetAccountId then
        reloadMismatched a params reload.identity.accountId generation
      else reloadSucceeded a params s.identity.accountId reload generation

def commitPending (params : AuthTransitionParams) : AdapterM TransitionResult := do
  modify fun s => { s with pending := s.pending.map ({ · with commitRequested := true }) }
  let count ← readTurnCount a
  let _ ← observeTurnCountValue a count
  if count ≠ 0 then
    reject params "safe_boundary_pending" "Codext still has a running turn; commit remains pending"
  else commitAtSafeBoundary a params

def commitMatching (existing params : AuthTransitionParams) : AdapterM TransitionResult := do
  let s ← get
  let expected ← checkProtocol (nextGeneration s.identity.authGeneration)
  if params.expectedGeneration ≠ expected
      ∨ params.expectedGeneration ≠ existing.expectedGeneration then
    reject params "stale_generation" "auth generation no longer matches the pending transition"
  else commitPending a params

def commitExisting (existing params : AuthTransitionParams) : AdapterM TransitionResult :=
  if existing.transitionId ≠ params.transitionId then
    reject params "transition_id_mismatch" "transition_id does not match the pending transition"
  else if existing.targetAccountId ≠ params.targetAccountId then
    reject params "transition_target_mismatch"
      "target_account_id does not match the pending transition"
  else commitMatching a existing params

def commit (params : AuthTransitionParams) : AdapterM TransitionResult := do
  checkParams params.validate
  let s ← get
  match s.pending with
  | none => reject params "no_pending_transition" "no matching prepared transition exists"
  | some existing => commitExisting a existing.params params

def rejectCancel (params : CancelAuthTransitionParams) (code message : String) :
    AdapterM TransitionResult := do
  let s ← get
  pure (s.rejectedResult params.transitionId params.expectedGeneration code message)

def cancel (params : CancelAuthTransitionParams) : AdapterM TransitionResult := do
  checkParams params.validate
  let s ← get
  match s.pending with
  | none => rejectCancel params "no_pending_transition" "no matching prepared transition exists"
  | some existing =>
    if existing.params.transitionId ≠ params.transitionId then
      rejectCancel params "transition_id_mismatch"
        "transition_id does not match the pending transition"
    else do
      let expected ← checkProtocol (nextGeneration s.identity.authGeneration)
      if existing.params.expectedGeneration ≠ params.expectedGeneration
          ∨ params.expectedGeneration ≠ expected then
        rejectCancel params "stale_generation"
          "auth generation no longer matches the pending transition"
      else do
        clearPending
        pure
          { transitionId := params.transitionId, runtimeId := s.identity.runtimeId
            expectedGeneration := some params.expectedGeneration
            authGeneration := s.identity.authGeneration, outcome := .committed
            accountId := s.identity.accountId, errorCode := none, errorMessage := none }

def forwardRateLimitsSnapshot (snapshot : BackendRateLimits) : AdapterM Unit := do
  let s ← get
  emitEvent a s.identity.authGeneration none
    (.rateLimitsSnapshot s.identity.accountId snapshot.rateLimits snapshot.rateLimitsByLimitId)

def readAndForwardRateLimits : AdapterM Unit := do
  let snapshot ← fromBackend a.readRateLimits
  forwardRateLimitsSnapshot a snapshot

def forwardRateLimitsUpdate (rateLimits : Json) : AdapterM Unit := do
  let s ← get
  emitEvent a s.identity.authGeneration none (.rateLimitsUpdated s.identity.accountId rateLimits)

def forwardTurnStarted (turnId : String) (threadId : Option String) : AdapterM Unit := do
  checkProtocol (Result.require (!isBlank turnId) "turn_id is required")
  let s ← get
  emitEvent a s.identity.authGeneration none (.turnStarted turnId threadId)

def forwardTurnCompleted (turnId : String) (threadId : Option String) (outcome : String)
    (errorCode : Option String) : AdapterM Unit := do
  checkProtocol (Result.require (!(isBlank turnId || isBlank outcome))
    "turn_id and outcome are required")
  let s ← get
  emitEvent a s.identity.authGeneration none (.turnCompleted turnId threadId outcome errorCode)

/-! ### Recoveries -/

/-- The first observation of its kind for a recovery is handled by `first`. -/
def onFirst (kind : EventType) (recoveryId : String) (first : AdapterM Unit) : AdapterM Bool := do
  let s ← get
  if (kind, recoveryId) ∈ s.seenRecoveryEvents then pure false
  else do
    modify fun s => { s with seenRecoveryEvents := (kind, recoveryId) :: s.seenRecoveryEvents }
    first
    pure true

def forwardRecoveryParked (recoveryId reason : String)
    (threadId turnId sourceAccountId : Option String) : AdapterM Bool := do
  checkProtocol (Result.require (!(isBlank recoveryId || isBlank reason))
    "recovery_id and reason are required")
  onFirst .recoveryParked recoveryId do
    modify fun s =>
      if (s.recoveries.lookup recoveryId).isSome then s
      else
        { s with
          recoveries := s.recoveries.insert recoveryId
            { RecoveryState.parked recoveryId with threadId, turnId, sourceAccountId } }
    let s ← get
    emitEvent a s.identity.authGeneration none
      (.recoveryParked recoveryId reason threadId turnId sourceAccountId)

def RecoveryState.advance (state : RecoveryState) (phase : RecoveryPhase)
    (threadId turnId : Option String) : RecoveryState :=
  { state with threadId := state.threadId.or threadId, turnId := state.turnId.or turnId, phase }

def advanceRecovery (recoveryId : String) (phase : RecoveryPhase) (threadId turnId : Option String)
    (payload : Option String → Option String → EventPayload) : AdapterM Unit := do
  let s ← get
  let state :=
    ((s.recoveries.lookup recoveryId).getD (.parked recoveryId)).advance phase threadId turnId
  modify fun s => { s with recoveries := s.recoveries.insert recoveryId state }
  emitEvent a (state.expectedGeneration.getD s.identity.authGeneration) state.transitionId
    (payload (threadId.or state.threadId) (turnId.or state.turnId))

def forwardRecoveryStarted (recoveryId : String) (threadId turnId : Option String) :
    AdapterM Bool := do
  checkProtocol (Result.require (!isBlank recoveryId) "recovery_id is required")
  onFirst .recoveryStarted recoveryId
    (advanceRecovery a recoveryId .started threadId turnId (.recoveryStarted recoveryId))

def forwardRecoveryCompleted (recoveryId outcome : String)
    (errorCode threadId turnId : Option String) : AdapterM Bool := do
  checkProtocol (Result.require (!(isBlank recoveryId || isBlank outcome))
    "recovery_id and outcome are required")
  onFirst .recoveryCompleted recoveryId
    (advanceRecovery a recoveryId .completed threadId turnId
      (.recoveryCompleted recoveryId outcome errorCode))

def forwardRecovery : RecoveryLifecycleEvent → AdapterM Bool
  | .parked recoveryId reason threadId turnId sourceAccountId =>
    forwardRecoveryParked a recoveryId reason threadId turnId sourceAccountId
  | .started recoveryId threadId turnId => forwardRecoveryStarted a recoveryId threadId turnId
  | .completed recoveryId outcome errorCode threadId turnId =>
    forwardRecoveryCompleted a recoveryId outcome errorCode threadId turnId

def forwardRecoveries : List RecoveryLifecycleEvent → AdapterM ℕ
  | [] => pure 0
  | event :: events => do
      let accepted ← forwardRecovery a event
      let forwarded ← forwardRecoveries events
      pure (accepted.toNat + forwarded)

def drainNativeRecoveryEvents : AdapterM ℕ := forwardRecoveries a a.drainRecoveryEvents

def releaseRejected (params : RecoveryReleaseParams) (code message : String) :
    RecoveryReleaseResult where
  recoveryId := params.recoveryId
  threadId := params.threadId
  outcome := .rejected
  errorCode := some code
  errorMessage := some message

def rememberRelease (recoveryId : String) (result : RecoveryReleaseResult) : AdapterM Unit :=
  modify fun s => { s with releaseResults := s.releaseResults.insert recoveryId result }

def RecoveryState.release (params : RecoveryReleaseParams) (state : RecoveryState) : RecoveryState :=
  { state with
    phase := .released
    transitionId := some params.transitionId
    expectedGeneration := some params.expectedGeneration }

def completeRelease (params : RecoveryReleaseParams) (existing : RecoveryState)
    (result : RecoveryReleaseResult) : RecoveryReleaseResult :=
  { result with
    recoveryId := if result.recoveryId.isEmpty then params.recoveryId else result.recoveryId
    threadId := result.threadId.or existing.threadId }

def recordRelease (params : RecoveryReleaseParams) (result : RecoveryReleaseResult) :
    AdapterM Unit :=
  if result.outcome = .released ∨ result.outcome = .alreadyReleased then do
    modify fun s =>
      match s.recoveries.lookup params.recoveryId with
      | some state =>
        { s with recoveries := s.recoveries.insert params.recoveryId (state.release params) }
      | none => s
    rememberRelease params.recoveryId result
  else pure ()

def releaseParked (params : RecoveryReleaseParams) (existing : RecoveryState) :
    AdapterM RecoveryReleaseResult := do
  recordCall (.releaseRecovery params)
  let answer ← fromBackend a.releaseRecovery
  let result := completeRelease params existing answer
  checkProtocol (Result.require (result.recoveryId = params.recoveryId)
    "backend recovery release returned a different recovery_id")
  recordRelease params result
  pure result

def releaseExisting (params : RecoveryReleaseParams) (existing : RecoveryState) :
    AdapterM RecoveryReleaseResult :=
  if params.threadId.any fun threadId => existing.threadId.any (· ≠ threadId) then
    pure (releaseRejected params "thread_id_mismatch" "recovery belongs to a different Codex thread")
  else if existing.transitionId.any (· ≠ params.transitionId) then
    pure (releaseRejected params "transition_id_mismatch"
      "recovery is bound to a different transition")
  else
    match existing.phase with
    | .parked => releaseParked a params existing
    | _ => do
        let result : RecoveryReleaseResult :=
          { recoveryId := params.recoveryId, threadId := existing.threadId
            outcome := .alreadyReleased, errorCode := none, errorMessage := none }
        rememberRelease params.recoveryId result
        pure result

def releaseRecovery (params : RecoveryReleaseParams) : AdapterM RecoveryReleaseResult := do
  checkParams params.validate
  let s ← get
  match s.releaseResults.lookup params.recoveryId with
  | some previous => pure previous
  | none =>
    if params.expectedGeneration ≠ s.identity.authGeneration then
      pure (releaseRejected params "stale_generation"
        "runtime identity generation does not match the verified transition")
    else
      match s.recoveries.lookup params.recoveryId with
      | none => pure (releaseRejected params "recovery_not_found"
          "no native parked recovery exists for this ID")
      | some existing => releaseExisting a params existing

/-! ### Requests -/

def loginAccount (params : NativeLoginParams) : AdapterM NativeLoginResult := do
  checkParams params.validate
  recordCall .loginAccount
  let result ← fromBackend a.loginAccount
  checkProtocol result.validate
  pure result

def readAuthSnapshot : AdapterM NativeAuthSnapshotResult := do
  recordCall .readAuthSnapshot
  let result ← fromBackend a.readAuthSnapshot
  checkProtocol result.validate
  pure result

def refreshAccount (params : NativeRefreshParams) : AdapterM NativeRefreshResult := do
  checkParams params.validate
  recordCall (.refreshAccount params.accountId)
  let result ← fromBackend a.refreshAccount
  checkProtocol (result.validateFor params.accountId)
  pure result

def commonVersion (server client : List UInt32) : Option UInt32 :=
  (server.filter (· ∈ client)).max?

def negotiate (params : VersionNegotiationParams) : AdapterM VersionNegotiationResult := do
  checkParams params.validate
  let s ← get
  let version ← checkProtocol
    (Result.okOr (commonVersion s.protocolVersions params.supportedVersions)
      "no common protocol version")
  modify fun s => { s with negotiatedVersion := some version }
  emitEvent a s.identity.authGeneration none
    (.runtimeReady version s.identity.accountId s.capabilities)
  pure { protocolVersion := version, serverVersions := s.protocolVersions }

structure RuntimeState where
  identity : RuntimeIdentity
  activeTurnCount : UInt32
  pendingTransition : Option AuthTransitionParams
  recoveries : List RecoveryState

def runtimeState : AdapterM RuntimeState := do
  let count ← readTurnCount a
  let _ ← observeTurnCountValue a count
  let s ← get
  pure
    { identity := s.identity, activeTurnCount := count
      pendingTransition := s.pending.map (·.params)
      recoveries := s.recoveries.entries.map (·.2) }

inductive Request
  | negotiate (params : Except String VersionNegotiationParams)
  | getRuntimeState (empty : Bool)
  | getIdentity (empty : Bool)
  | getAuthGeneration (empty : Bool)
  | loginAccount (params : Except String NativeLoginParams)
  | readAuthSnapshot (empty : Bool)
  | refreshAccount (params : Except String NativeRefreshParams)
  | releaseRecovery (params : Except String RecoveryReleaseParams)
  | prepareAuthTransition (params : Except String AuthTransitionParams)
  | commitAuthTransition (params : Except String AuthTransitionParams)
  | cancelAuthTransition (params : Except String CancelAuthTransitionParams)
  | unknown (method : String)

inductive Reply
  | negotiated (result : VersionNegotiationResult)
  | runtimeState (state : RuntimeState)
  | identity (identity : RuntimeIdentity)
  | authGeneration (generation : UInt64)
  | login (result : NativeLoginResult)
  | authSnapshot (result : NativeAuthSnapshotResult)
  | refreshed (result : NativeRefreshResult)
  | release (result : RecoveryReleaseResult)
  | transition (result : TransitionResult)

def requireEmptyParams (empty : Bool) : AdapterM Unit :=
  checkParams (Result.require empty "params must be an empty object")

def dispatch : Request → AdapterM Reply
  | .negotiate params => do
      let params ← checkParams params
      return .negotiated (← Adapter.negotiate a params)
  | .getRuntimeState empty => do
      requireEmptyParams empty
      return .runtimeState (← Adapter.runtimeState a)
  | .getIdentity empty => do
      requireEmptyParams empty
      let s ← get
      return .identity s.identity
  | .getAuthGeneration empty => do
      requireEmptyParams empty
      let s ← get
      return .authGeneration s.identity.authGeneration
  | .loginAccount params => do
      let params ← checkParams params
      return .login (← Adapter.loginAccount a params)
  | .readAuthSnapshot empty => do
      requireEmptyParams empty
      return .authSnapshot (← Adapter.readAuthSnapshot a)
  | .refreshAccount params => do
      let params ← checkParams params
      return .refreshed (← Adapter.refreshAccount a params)
  | .releaseRecovery params => do
      let params ← checkParams params
      return .release (← Adapter.releaseRecovery a params)
  | .prepareAuthTransition params => do
      let params ← checkParams params
      return .transition (← prepare a params)
  | .commitAuthTransition params => do
      let params ← checkParams params
      return .transition (← commit a params)
  | .cancelAuthTransition params => do
      let params ← checkParams params
      return .transition (← cancel params)
  | .unknown method => throw (.protocol ("method not found: " ++ method))

def Request.method : Request → String
  | .negotiate _ => "protocol/negotiate"
  | .getRuntimeState _ => "runtime/state/read"
  | .getIdentity _ => "runtime/identity/read"
  | .getAuthGeneration _ => "runtime/authGeneration/read"
  | .loginAccount _ => "account/login"
  | .readAuthSnapshot _ => "account/authSnapshot/read"
  | .refreshAccount _ => "account/refresh"
  | .releaseRecovery _ => "recovery/release"
  | .prepareAuthTransition _ => "auth/transition/prepare"
  | .commitAuthTransition _ => "auth/transition/commit"
  | .cancelAuthTransition _ => "auth/transition/cancel"
  | .unknown method => method

def Request.isNegotiate : Request → Bool
  | .negotiate _ => true
  | _ => false

structure RpcRequest where
  jsonrpc : String
  paramsAreObject : Bool
  request : Request

def RpcRequest.validate (r : RpcRequest) : Except String Unit := do
  Result.require (r.jsonrpc = "2.0") "jsonrpc must be 2.0"
  Result.require (!isBlank r.request.method) "method is required"
  Result.require r.paramsAreObject "params must be an object"

structure RpcError where
  code : ℤ
  message : String
deriving DecidableEq

def rpcError : AdapterError → RpcError
  | .invalidParams message => ⟨-32602, message⟩
  | .protocol message =>
    if "method not found:".toList <+: message.toList then ⟨-32601, message⟩
    else ⟨-32000, message⟩
  | .backend error => ⟨-32603, error.message⟩

def admitRequest (s : RuntimeAdapter) (r : RpcRequest) : Except RpcError Unit := do
  r.validate.mapError (⟨-32600, ·⟩)
  Result.require (s.negotiatedVersion.isSome ∨ r.request.isNegotiate = true)
    ⟨-32000, "protocol/negotiate must be the first request"⟩
  Result.require (¬ (s.negotiatedVersion.isSome ∧ r.request.isNegotiate = true))
    ⟨-32600, "protocol has already been negotiated"⟩

def handleRequest (s : RuntimeAdapter) (r : RpcRequest) : Except RpcError Reply × RuntimeAdapter :=
  match admitRequest s r with
  | .error error => (.error error, s)
  | .ok () => (((dispatch a r.request).exec s).1.mapError rpcError, ((dispatch a r.request).exec s).2)

/-- Requests, native observations, and what the owner of the adapter calls. -/
inductive AdapterOp
  | request (request : RpcRequest)
  | runtimeState
  | prepare (params : AuthTransitionParams)
  | commit (params : AuthTransitionParams)
  | cancel (params : CancelAuthTransitionParams)
  | observeTurnCount
  | observeTurnCountValue (count : UInt32)
  | forwardRateLimitsSnapshot (snapshot : BackendRateLimits)
  | readAndForwardRateLimits
  | forwardRateLimitsUpdate (rateLimits : Json)
  | forwardTurnStarted (turnId : String) (threadId : Option String)
  | forwardTurnCompleted (turnId : String) (threadId : Option String) (outcome : String)
      (errorCode : Option String)
  | forwardRecovery (event : RecoveryLifecycleEvent)
  | drainNativeRecoveryEvents
  | releaseRecovery (params : RecoveryReleaseParams)
  | drainEvents
  | resetConnection

inductive AdapterAnswer
  | reply (reply : Except RpcError Reply)
  | runtimeState (state : Except AdapterError RuntimeState)
  | transition (result : Except AdapterError TransitionResult)
  | release (result : Except AdapterError RecoveryReleaseResult)
  | observed (forwarded : Except AdapterError Bool)
  | drained (forwarded : Except AdapterError ℕ)
  | forwarded (result : Except AdapterError Unit)
  | events (events : List RuntimeEvent)
  | reset

def step (s : RuntimeAdapter) (i : AdapterOp × Answers) : RuntimeAdapter × AdapterAnswer :=
  let a := i.2
  match i.1 with
  | .request r => ((handleRequest a s r).2, .reply (handleRequest a s r).1)
  | .runtimeState =>
    (((runtimeState a).exec s).2, .runtimeState ((runtimeState a).exec s).1)
  | .prepare params => (((prepare a params).exec s).2, .transition ((prepare a params).exec s).1)
  | .commit params => (((commit a params).exec s).2, .transition ((commit a params).exec s).1)
  | .cancel params => (((cancel params).exec s).2, .transition ((cancel params).exec s).1)
  | .observeTurnCount =>
    let r := (observeTurnCount a).exec s
    (r.2, .observed r.1)
  | .observeTurnCountValue count =>
    let r := (observeTurnCountValue a count).exec s
    (r.2, .observed r.1)
  | .forwardRateLimitsSnapshot snapshot =>
    let r := (forwardRateLimitsSnapshot a snapshot).exec s
    (r.2, .forwarded r.1)
  | .readAndForwardRateLimits =>
    let r := (readAndForwardRateLimits a).exec s
    (r.2, .forwarded r.1)
  | .forwardRateLimitsUpdate rateLimits =>
    let r := (forwardRateLimitsUpdate a rateLimits).exec s
    (r.2, .forwarded r.1)
  | .forwardTurnStarted turnId threadId =>
    let r := (forwardTurnStarted a turnId threadId).exec s
    (r.2, .forwarded r.1)
  | .forwardTurnCompleted turnId threadId outcome errorCode =>
    let r := (forwardTurnCompleted a turnId threadId outcome errorCode).exec s
    (r.2, .forwarded r.1)
  | .forwardRecovery event =>
    let r := (forwardRecovery a event).exec s
    (r.2, .observed r.1)
  | .drainNativeRecoveryEvents =>
    let r := (drainNativeRecoveryEvents a).exec s
    (r.2, .drained r.1)
  | .releaseRecovery params =>
    let r := (releaseRecovery a params).exec s
    (r.2, .release r.1)
  | .drainEvents => ({ s with events := [] }, .events s.events)
  | .resetConnection => ({ s with negotiatedVersion := none }, .reset)

def machine : Machine RuntimeAdapter (AdapterOp × Answers) AdapterAnswer := ⟨step⟩

section Checks

open Stateful

variable {α : Type} {x : Except String α} {y : α}

theorem exec_checkParams (h : x = .ok y) (s : RuntimeAdapter) :
    exec (checkParams x) s = (.ok y, s) := by
  rw [h]
  rfl

theorem exec_checkProtocol (h : x = .ok y) (s : RuntimeAdapter) :
    exec (checkProtocol x) s = (.ok y, s) := by
  rw [h]
  rfl

theorem exec_readTurnCount (a : Answers) (s : RuntimeAdapter) : exec (readTurnCount a) s =
      (.ok a.activeTurnCount,
        { s with backendCalls := s.backendCalls ++ [.activeTurnCount a.activeTurnCount] }) := rfl

end Checks

def Answers.sample (account : Option String) (changed : Bool) : Answers where
  activeTurnCount := 0
  reloadAuthAndInvalidate := .ok { identity := { accountId := account, authMode := none }, changed }
  readRateLimits := .error ⟨"backend_not_configured", "rate-limit read is not wired to Codext"⟩
  loginAccount := .error ⟨"backend_not_configured", "account login is not wired to Codex"⟩
  readAuthSnapshot := .error ⟨"backend_not_configured", "auth snapshot read is not wired to Codex"⟩
  refreshAccount := .error ⟨"backend_not_configured", "account refresh is not wired to Codex"⟩
  drainRecoveryEvents := []
  releaseRecovery := .error ⟨"backend_not_configured", "recovery release is not wired to Codex"⟩
  now := fun _ => 0
  debugAccount := fun account => account.getD "None"

def RuntimeAdapter.sample : RuntimeAdapter where
  identity := { runtimeId := "runtime", accountId := some "a", authGeneration := 1
                runtimeId_ne := by decide }
  pending := none
  protocolVersions := [1]
  negotiatedVersion := none
  capabilities := []
  lastActiveTurnCount := 0
  events := []
  seenRecoveryEvents := []
  recoveries := ∅
  releaseResults := ∅
  backendCalls := []

def AuthTransitionParams.sample : AuthTransitionParams where
  transitionId := "t"
  targetAccountId := "b"
  expectedGeneration := 2

def AdapterOp.commitCall (s : RuntimeAdapter) : AdapterOp → Option AuthTransitionParams
  | .commit params => some params
  | .request r =>
    match admitRequest s r, r.request with
    | .ok (), .commitAuthTransition (.ok params) => some params
    | _, _ => none
  | _ => none

theorem step_of_commitCall {s : RuntimeAdapter} {op : AdapterOp} {a : Answers}
    {params : AuthTransitionParams} (h : op.commitCall s = some params) :
    (step s (op, a)).1 = ((commit a params).exec s).2 := by
  cases op with
  | commit params' =>
    cases h
    rfl
  | request r =>
    simp only [AdapterOp.commitCall] at h
    split at h
    · rename_i hadm hreq
      cases h
      have hdis : ((dispatch a r.request).exec s).2 = ((commit a params).exec s).2 := by
        rw [hreq, dispatch, Stateful.exec_bind_ok (exec_checkParams rfl s),
          Stateful.exec_bind_pure_snd]
      change (handleRequest a s r).2 = _
      rw [handleRequest, hadm, ← hdis]
    · cases h
  | _ => cases h

end CodexMarathon.Adapter
