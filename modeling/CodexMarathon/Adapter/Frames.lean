/-
**What most operations of the adapter leave alone.**

A few operations write the state of transitions and the tables of recoveries.  All others emit
events, note the number of running turns or ask about credentials.  A relation that holds across
these small changes holds across each of these operations, which is proved here once.
-/

import CodexMarathon.Adapter.Runtime

namespace CodexMarathon.Adapter

open Stateful Keeps

variable {a : Answers} {R : RuntimeAdapter → RuntimeAdapter → Prop}

/-! ### Small changes -/

def EventType.IsBoundary : EventType → Prop
  | .safeBoundaryReached => True
  | _ => False

section Events

variable [Std.Refl R] [IsTrans RuntimeAdapter R]

theorem keeps_emitEvent_of_type {payload : EventPayload}
    (hevent : ∀ s event, event.base.eventType = payload.eventType →
      R s { s with events := s.events ++ [event] })
    (generation : UInt64) (transitionId : Option String) :
    Keeps R (emitEvent a generation transitionId payload) :=
  keeps_get.bind fun _ => (keeps_liftExcept _).bind fun _ => keeps_modify fun s => hevent s _ rfl

theorem keeps_emitEvent (hevent : ∀ s event, R s { s with events := s.events ++ [event] })
    (generation : UInt64) (transitionId : Option String) (payload : EventPayload) :
    Keeps R (emitEvent a generation transitionId payload) :=
  keeps_emitEvent_of_type (fun s event _ => hevent s event) generation transitionId

theorem keeps_observeTurnCountValue
    (hevent : ∀ s event, R s { s with events := s.events ++ [event] })
    (hcount : ∀ s count, R s { s with lastActiveTurnCount := count })
    (hboun : ∀ s id, R s { s with pending := s.pending.map (·.markBoundary id) })
    (count : UInt32) : Keeps R (observeTurnCountValue a count) := by
  refine bind (keeps_modify fun s => hcount s _) fun _ => keeps_get.bind fun s => ?_
  cases s.pending with
  | none => exact keeps_pure _
  | some pending =>
    change Keeps R (if _ then _ else _)
    split_ifs
    · exact keeps_pure _
    · refine keeps_get.bind fun s => (keeps_emitEvent hevent _ _ _).bind fun _ => ?_
      exact bind (keeps_modify fun s => hboun s _) fun _ => keeps_pure _

theorem keeps_negotiate (hevent : ∀ s event, ¬ event.base.eventType.IsBoundary →
      R s { s with events := s.events ++ [event] })
    (hver : ∀ s version, R s { s with negotiatedVersion := version })
    (params : VersionNegotiationParams) : Keeps R (negotiate a params) := by
  refine (keeps_liftExcept _).bind fun _ => keeps_get.bind fun s => ?_
  refine (keeps_liftExcept _).bind fun version => ?_
  refine bind (keeps_modify fun s => hver s _) fun _ => bind ?_ fun _ => keeps_pure _
  refine keeps_emitEvent_of_type ?_ _ _
  intro s event htype
  exact hevent s event (htype ▸ id)

theorem keeps_onFirst (hseen : ∀ s seen, R s { s with seenRecoveryEvents := seen })
    {kind : EventType} {id : String} {first : AdapterM Unit} (h : Keeps R first) :
    Keeps R (onFirst kind id first) := by
  refine keeps_get.bind fun s => ?_
  split_ifs
  · exact keeps_pure _
  · refine bind (keeps_modify fun s => hseen s _) fun _ => ?_
    exact h.bind fun _ => keeps_pure _

end Events

def BackendCall.IsQuiet : BackendCall → Prop
  | .reloadAuthAndInvalidate | .releaseRecovery _ => False
  | _ => True

/-- `R` holds across the changes that every operation may make. -/
structure Quiet (R : RuntimeAdapter → RuntimeAdapter → Prop) : Prop where
  events : ∀ s events, R s { s with events }
  count : ∀ s count, R s { s with lastActiveTurnCount := count }
  boundary : ∀ s id, R s { s with pending := s.pending.map (·.markBoundary id) }
  version : ∀ s version, R s { s with negotiatedVersion := version }
  calls : ∀ s call, call.IsQuiet → R s { s with backendCalls := s.backendCalls ++ [call] }

structure Routine (R : RuntimeAdapter → RuntimeAdapter → Prop) : Prop where
  event : ∀ s event, R s { s with events := s.events ++ [event] }
  count : ∀ s count, R s { s with lastActiveTurnCount := count }
  boundary : ∀ s id, R s { s with pending := s.pending.map (·.markBoundary id) }
  version : ∀ s version, R s { s with negotiatedVersion := version }
  calls : ∀ s call, call.IsQuiet → R s { s with backendCalls := s.backendCalls ++ [call] }

theorem Quiet.routine (hR : Quiet R) : Routine R where
  event s _ := hR.events s _
  count := hR.count
  boundary := hR.boundary
  version := hR.version
  calls := hR.calls

def BackendCall.IsCount : BackendCall → Prop
  | .activeTurnCount _ => True
  | _ => False

/-- `R` holds across the changes of operations that do not observe the turn count. -/
structure Reporting (R : RuntimeAdapter → RuntimeAdapter → Prop) : Prop where
  event : ∀ s event, ¬ event.base.eventType.IsBoundary →
    R s { s with events := s.events ++ [event] }
  version : ∀ s version, R s { s with negotiatedVersion := version }
  calls : ∀ s call, call.IsQuiet → ¬ call.IsCount →
    R s { s with backendCalls := s.backendCalls ++ [call] }

theorem Routine.reporting (hR : Routine R) : Reporting R where
  event s event _ := hR.event s event
  version := hR.version
  calls s call h _ := hR.calls s call h

def Request.IsQuiet : Request → Prop
  | .releaseRecovery _ | .prepareAuthTransition _ | .commitAuthTransition _
  | .cancelAuthTransition _ => False
  | _ => True

def AdapterOp.IsQuiet : AdapterOp → Prop
  | .request _ | .prepare _ | .commit _ | .cancel _ | .forwardRecovery _
  | .drainNativeRecoveryEvents | .releaseRecovery _ => False
  | _ => True

namespace Reporting

variable [Std.Refl R] [IsTrans RuntimeAdapter R] (hR : Reporting R)

include hR

theorem emitEvent {payload : EventPayload} (h : ¬ payload.eventType.IsBoundary) (generation : UInt64)
    (transitionId : Option String) : Keeps R (emitEvent a generation transitionId payload) :=
  keeps_emitEvent_of_type (fun s event heq => hR.event s event (heq ▸ h)) generation transitionId

omit [Std.Refl R] [IsTrans RuntimeAdapter R] in
theorem recordCall (call : BackendCall) (hquiet : call.IsQuiet) (hcount : ¬ call.IsCount) :
    Keeps R (recordCall call) :=
  keeps_modify fun s => hR.calls s call hquiet hcount

theorem forwardRateLimitsSnapshot (snapshot : BackendRateLimits) :
    Keeps R (forwardRateLimitsSnapshot a snapshot) :=
  keeps_get.bind fun _ => hR.emitEvent id _ _

theorem readAndForwardRateLimits : Keeps R (readAndForwardRateLimits a) :=
  (keeps_liftExcept _).bind fun _ => hR.forwardRateLimitsSnapshot _

theorem forwardRateLimitsUpdate (rateLimits : Json) :
    Keeps R (forwardRateLimitsUpdate a rateLimits) :=
  keeps_get.bind fun _ => hR.emitEvent id _ _

theorem forwardTurnStarted (turnId : String) (threadId : Option String) :
    Keeps R (forwardTurnStarted a turnId threadId) :=
  (keeps_liftExcept _).bind fun _ => keeps_get.bind fun _ => hR.emitEvent id _ _

theorem forwardTurnCompleted (turnId : String) (threadId : Option String) (outcome : String)
    (errorCode : Option String) :
    Keeps R (forwardTurnCompleted a turnId threadId outcome errorCode) :=
  (keeps_liftExcept _).bind fun _ => keeps_get.bind fun _ => hR.emitEvent id _ _

theorem negotiate (params : VersionNegotiationParams) : Keeps R (negotiate a params) :=
  keeps_negotiate hR.event hR.version params

theorem loginAccount (params : NativeLoginParams) : Keeps R (loginAccount a params) := by
  refine (keeps_liftExcept _).bind fun _ => (hR.recordCall .loginAccount trivial id).bind fun _ => ?_
  exact (keeps_liftExcept _).bind fun _ => (keeps_liftExcept _).bind fun _ => keeps_pure _

theorem readAuthSnapshot : Keeps R (readAuthSnapshot a) := by
  refine (hR.recordCall .readAuthSnapshot trivial id).bind fun _ => ?_
  exact (keeps_liftExcept _).bind fun _ => (keeps_liftExcept _).bind fun _ => keeps_pure _

theorem refreshAccount (params : NativeRefreshParams) : Keeps R (refreshAccount a params) := by
  refine (keeps_liftExcept _).bind fun _ =>
    (hR.recordCall (.refreshAccount _) trivial id).bind fun _ => ?_
  exact (keeps_liftExcept _).bind fun _ => (keeps_liftExcept _).bind fun _ => keeps_pure _

theorem dispatch {request : Request} (h : request.IsQuiet)
    (hstate : ∀ empty, request ≠ .getRuntimeState empty) : Keeps R (dispatch a request) := by
  cases request with
  | negotiate params =>
    exact (keeps_liftExcept _).bind fun _ => (hR.negotiate _).bind fun _ => keeps_pure _
  | getRuntimeState empty => exact absurd rfl (hstate empty)
  | getIdentity empty =>
    exact (keeps_liftExcept _).bind fun _ => keeps_get.bind fun _ => keeps_pure _
  | getAuthGeneration empty =>
    exact (keeps_liftExcept _).bind fun _ => keeps_get.bind fun _ => keeps_pure _
  | loginAccount params =>
    exact (keeps_liftExcept _).bind fun _ => (hR.loginAccount _).bind fun _ => keeps_pure _
  | readAuthSnapshot empty =>
    exact (keeps_liftExcept _).bind fun _ => hR.readAuthSnapshot.bind fun _ => keeps_pure _
  | refreshAccount params =>
    exact (keeps_liftExcept _).bind fun _ => (hR.refreshAccount _).bind fun _ => keeps_pure _
  | unknown method => exact keeps_throw _
  | _ => exact absurd h id

end Reporting

namespace Routine

variable [Std.Refl R] [IsTrans RuntimeAdapter R] (hR : Routine R)

include hR

omit [Std.Refl R] [IsTrans RuntimeAdapter R] in
theorem recordCall (call : BackendCall) (h : call.IsQuiet) : Keeps R (recordCall call) :=
  keeps_modify fun s => hR.calls s call h

theorem observeTurnCountValue (count : UInt32) : Keeps R (observeTurnCountValue a count) :=
  keeps_observeTurnCountValue hR.event hR.count hR.boundary count

theorem readTurnCount : Keeps R (readTurnCount a) :=
  (hR.recordCall (.activeTurnCount _) trivial).bind fun _ => keeps_pure _

theorem observeTurnCount : Keeps R (observeTurnCount a) :=
  hR.readTurnCount.bind fun count => hR.observeTurnCountValue count

theorem runtimeState : Keeps R (runtimeState a) := by
  refine hR.readTurnCount.bind fun count => ?_
  exact (hR.observeTurnCountValue _).bind fun _ => keeps_get.bind fun _ => keeps_pure _

theorem dispatch {request : Request} (h : request.IsQuiet) : Keeps R (dispatch a request) := by
  by_cases hstate : ∃ empty, request = .getRuntimeState empty
  · obtain ⟨empty, rfl⟩ := hstate
    exact (keeps_liftExcept _).bind fun _ => hR.runtimeState.bind fun _ => keeps_pure _
  · exact hR.reporting.dispatch h (not_exists.1 hstate)

theorem step {op : AdapterOp} (h : op.IsQuiet) (hqueue : op ≠ .drainEvents) (s : RuntimeAdapter)
    (a : Answers) : R s (step s (op, a)).1 := by
  cases op with
  | runtimeState =>
    simp only [Adapter.step]
    exact hR.runtimeState s
  | observeTurnCount =>
    simp only [Adapter.step]
    exact hR.observeTurnCount s
  | observeTurnCountValue count =>
    simp only [Adapter.step]
    exact hR.observeTurnCountValue count s
  | forwardRateLimitsSnapshot snapshot =>
    simp only [Adapter.step]
    exact hR.reporting.forwardRateLimitsSnapshot snapshot s
  | readAndForwardRateLimits =>
    simp only [Adapter.step]
    exact hR.reporting.readAndForwardRateLimits s
  | forwardRateLimitsUpdate rateLimits =>
    simp only [Adapter.step]
    exact hR.reporting.forwardRateLimitsUpdate rateLimits s
  | forwardTurnStarted turnId threadId =>
    simp only [Adapter.step]
    exact hR.reporting.forwardTurnStarted turnId threadId s
  | forwardTurnCompleted turnId threadId outcome errorCode =>
    simp only [Adapter.step]
    exact hR.reporting.forwardTurnCompleted turnId threadId outcome errorCode s
  | drainEvents => exact absurd rfl hqueue
  | resetConnection => exact hR.version s _
  | _ => exact absurd h id

end Routine

theorem Quiet.step [Std.Refl R] [IsTrans RuntimeAdapter R] (hR : Quiet R) {op : AdapterOp}
    (h : op.IsQuiet) (s : RuntimeAdapter) (a : Answers) : R s (step s (op, a)).1 := by
  by_cases hqueue : op = .drainEvents
  · subst hqueue
    exact hR.events s _
  · exact hR.routine.step h hqueue s a

/-! ### Transitions -/

structure Transitional (R : RuntimeAdapter → RuntimeAdapter → Prop) : Prop extends Routine R where
  pending : ∀ s pending, R s { s with pending := pending }
  identity : ∀ s identity, R s { s with identity := identity }
  reload : ∀ s, R s { s with backendCalls := s.backendCalls ++ [.reloadAuthAndInvalidate] }

structure Settling (R : RuntimeAdapter → RuntimeAdapter → Prop) : Prop extends Reporting R where
  cleared : ∀ s, R s { s with pending := none }
  identity : ∀ s identity, R s { s with identity := identity }
  reload : ∀ s, R s { s with backendCalls := s.backendCalls ++ [.reloadAuthAndInvalidate] }

theorem Transitional.settling (hR : Transitional R) : Settling R where
  toReporting := hR.toRoutine.reporting
  cleared s := hR.pending s none
  identity := hR.identity
  reload := hR.reload

section Rejections

variable [Std.Refl R] [IsTrans RuntimeAdapter R]

theorem keeps_reject (params : AuthTransitionParams) (code message : String) :
    Keeps R (reject params code message) := keeps_get.bind fun _ => keeps_pure _

theorem keeps_rejectCancel (params : CancelAuthTransitionParams) (code message : String) :
    Keeps R (rejectCancel params code message) := keeps_get.bind fun _ => keeps_pure _

end Rejections

namespace Settling

variable [Std.Refl R] [IsTrans RuntimeAdapter R] (hR : Settling R)

include hR

omit [Std.Refl R] [IsTrans RuntimeAdapter R] in
theorem clearPending : Keeps R clearPending := keeps_modify fun s => hR.cleared s

omit [Std.Refl R] [IsTrans RuntimeAdapter R] in
theorem adopt (account : Option String) (generation : UInt64) : Keeps R (adopt account generation) :=
  keeps_modify fun s => hR.identity s _

theorem commitAtSafeBoundary (params : AuthTransitionParams) :
    Keeps R (commitAtSafeBoundary a params) := by
  refine keeps_get.bind fun s => (hR.emitEvent id _ _).bind fun _ => ?_
  refine bind (keeps_modify fun s => hR.reload s) fun _ => ?_
  cases a.reloadAuthAndInvalidate with
  | error error =>
    refine keeps_get.bind fun _ => (hR.emitEvent id _ _).bind fun _ => ?_
    exact hR.clearPending.bind fun _ => keeps_reject _ _ _
  | ok reload =>
    refine (keeps_liftExcept _).bind fun generation => ?_
    split_ifs
    · refine (hR.adopt _ _).bind fun _ => (hR.emitEvent id _ _).bind fun _ => ?_
      exact hR.clearPending.bind fun _ => keeps_reject _ _ _
    · refine (hR.adopt _ _).bind fun _ => (hR.emitEvent id _ _).bind fun _ => ?_
      refine bind ?_ fun _ => hR.clearPending.bind fun _ =>
        keeps_get.bind fun _ => keeps_pure _
      unfold emitIdentityChanged
      split_ifs
      · exact hR.emitEvent id _ _
      · exact keeps_pure _

theorem cancel (params : CancelAuthTransitionParams) : Keeps R (cancel params) := by
  refine (keeps_liftExcept _).bind fun _ => keeps_get.bind fun s => ?_
  cases s.pending with
  | none => exact keeps_rejectCancel _ _ _
  | some existing =>
    change Keeps R (if _ then _ else _)
    split_ifs
    · exact keeps_rejectCancel _ _ _
    refine (keeps_liftExcept _).bind fun expected => ?_
    split_ifs
    · exact keeps_rejectCancel _ _ _
    · exact hR.clearPending.bind fun _ => keeps_pure _

end Settling

namespace Transitional

variable [Std.Refl R] [IsTrans RuntimeAdapter R] (hR : Transitional R)

include hR

theorem prepare (params : AuthTransitionParams) : Keeps R (prepare a params) := by
  unfold Adapter.prepare
  split
  · exact keeps_throw _
  refine keeps_get.bind fun s => (keeps_liftExcept _).bind fun expected => ?_
  split_ifs
  · exact keeps_reject _ _ _
  cases s.pending with
  | some existing =>
    change Keeps R (if _ then _ else _)
    split_ifs
    · exact keeps_pure _
    · exact keeps_reject _ _ _
  | none =>
    refine bind (keeps_modify fun s => hR.pending s _) fun _ => ?_
    exact hR.observeTurnCount.bind fun _ => keeps_get.bind fun _ => keeps_pure _

theorem commit (params : AuthTransitionParams) : Keeps R (commit a params) := by
  refine (keeps_liftExcept _).bind fun _ => keeps_get.bind fun s => ?_
  cases s.pending with
  | none => exact keeps_reject _ _ _
  | some existing =>
    change Keeps R (commitExisting a existing.params params)
    unfold commitExisting
    split_ifs
    · exact keeps_reject _ _ _
    · exact keeps_reject _ _ _
    refine keeps_get.bind fun s => (keeps_liftExcept _).bind fun expected => ?_
    split_ifs
    · exact keeps_reject _ _ _
    refine bind (keeps_modify fun s => hR.pending s _) fun _ => ?_
    refine hR.readTurnCount.bind fun count => (hR.observeTurnCountValue _).bind fun _ => ?_
    split_ifs
    · exact keeps_reject _ _ _
    · exact hR.settling.commitAtSafeBoundary params

theorem dispatch {request : Request} (h : ∀ params, request ≠ .releaseRecovery params) :
    Keeps R (dispatch a request) := by
  cases request with
  | releaseRecovery params => exact absurd rfl (h params)
  | prepareAuthTransition params =>
    exact (keeps_liftExcept _).bind fun _ => (hR.prepare _).bind fun _ => keeps_pure _
  | commitAuthTransition params =>
    exact (keeps_liftExcept _).bind fun _ => (hR.commit _).bind fun _ => keeps_pure _
  | cancelAuthTransition params =>
    exact (keeps_liftExcept _).bind fun _ => (hR.settling.cancel _).bind fun _ => keeps_pure _
  | _ => exact hR.toRoutine.dispatch trivial

end Transitional

/-! ### Recoveries -/

structure Recounting (R : RuntimeAdapter → RuntimeAdapter → Prop) : Prop extends Reporting R where
  seen : ∀ s seen, R s { s with seenRecoveryEvents := seen }
  recoveries : ∀ s recoveries, R s { s with recoveries := recoveries }
  results : ∀ s results, R s { s with releaseResults := results }
  release : ∀ s params, R s { s with backendCalls := s.backendCalls ++ [.releaseRecovery params] }

structure Recovering (R : RuntimeAdapter → RuntimeAdapter → Prop) : Prop extends Routine R where
  seen : ∀ s seen, R s { s with seenRecoveryEvents := seen }
  recoveries : ∀ s recoveries, R s { s with recoveries := recoveries }
  results : ∀ s results, R s { s with releaseResults := results }
  release : ∀ s params, R s { s with backendCalls := s.backendCalls ++ [.releaseRecovery params] }

theorem Recovering.recounting (hR : Recovering R) : Recounting R where
  toReporting := hR.toRoutine.reporting
  seen := hR.seen
  recoveries := hR.recoveries
  results := hR.results
  release := hR.release

namespace Recounting

variable [Std.Refl R] [IsTrans RuntimeAdapter R] (hR : Recounting R)

include hR

theorem advanceRecovery {id : String} {phase : RecoveryPhase} {threadId turnId : Option String}
    {payload : Option String → Option String → EventPayload}
    (h : ∀ threadId turnId, ¬ (payload threadId turnId).eventType.IsBoundary) :
    Keeps R (advanceRecovery a id phase threadId turnId payload) := by
  refine keeps_get.bind fun s => ?_
  exact bind (keeps_modify fun s => hR.recoveries s _) fun _ => hR.emitEvent (h _ _) _ _

theorem forwardRecovery (event : RecoveryLifecycleEvent) : Keeps R (forwardRecovery a event) := by
  cases event with
  | parked recoveryId reason threadId turnId sourceAccountId =>
    refine (keeps_liftExcept _).bind fun _ => keeps_onFirst hR.seen ?_
    refine bind (keeps_modify fun s => ?_) fun _ =>
      keeps_get.bind fun _ => hR.emitEvent id _ _
    split_ifs
    · exact refl_of _ s
    · exact hR.recoveries s _
  | started id threadId turnId =>
    exact (keeps_liftExcept _).bind fun _ => keeps_onFirst hR.seen (hR.advanceRecovery fun _ _ h => h)
  | completed id outcome errorCode threadId turnId =>
    exact (keeps_liftExcept _).bind fun _ => keeps_onFirst hR.seen (hR.advanceRecovery fun _ _ h => h)

theorem forwardRecoveries : ∀ events : List RecoveryLifecycleEvent,
    Keeps R (forwardRecoveries a events)
  | [] => keeps_pure _
  | event :: events => by
      refine (hR.forwardRecovery event).bind fun _ => ?_
      exact (forwardRecoveries events).bind fun _ => keeps_pure _

theorem recordRelease (params : RecoveryReleaseParams) (result : RecoveryReleaseResult) :
    Keeps R (recordRelease params result) := by
  unfold Adapter.recordRelease
  split_ifs
  · refine bind (keeps_modify fun s => ?_) fun _ => keeps_modify fun s => hR.results s _
    split
    · exact hR.recoveries s _
    · exact refl_of _ s
  · exact keeps_pure _

theorem releaseExisting (params : RecoveryReleaseParams) (existing : RecoveryState) :
    Keeps R (releaseExisting a params existing) := by
  unfold Adapter.releaseExisting
  split_ifs
  · exact keeps_pure _
  · exact keeps_pure _
  split
  · refine bind (keeps_modify fun s => hR.release s params) fun _ => ?_
    refine (keeps_liftExcept _).bind fun _ => (keeps_liftExcept _).bind fun _ => ?_
    exact (hR.recordRelease _ _).bind fun _ => keeps_pure _
  · exact bind (keeps_modify fun s => hR.results s _) fun _ => keeps_pure _

theorem releaseRecovery (params : RecoveryReleaseParams) : Keeps R (releaseRecovery a params) := by
  refine (keeps_liftExcept _).bind fun _ => keeps_get.bind fun s => ?_
  cases s.releaseResults.lookup params.recoveryId with
  | some previous => exact keeps_pure _
  | none =>
    change Keeps R (if _ then _ else _)
    split_ifs
    · exact keeps_pure _
    cases s.recoveries.lookup params.recoveryId with
    | none => exact keeps_pure _
    | some existing => exact hR.releaseExisting params existing

end Recounting

namespace Recovering

variable [Std.Refl R] [IsTrans RuntimeAdapter R] (hR : Recovering R)

include hR

theorem forwardRecovery (event : RecoveryLifecycleEvent) : Keeps R (forwardRecovery a event) :=
  hR.recounting.forwardRecovery event

theorem forwardRecoveries (events : List RecoveryLifecycleEvent) : Keeps R (forwardRecoveries a events) :=
  hR.recounting.forwardRecoveries events

theorem releaseRecovery (params : RecoveryReleaseParams) : Keeps R (releaseRecovery a params) :=
  hR.recounting.releaseRecovery params

end Recovering

end CodexMarathon.Adapter
