/-
**The release bridge of the app-server.**

A release waits until the widget acknowledges its command, or until a timeout.  Releases of one
recovery share a command while somebody waits for it, and a success answers all later ones.
`release_async` holds the lock twice; each of these sections is one function here.
-/

import CodexMarathon.Adapter.Protocol

namespace CodexMarathon.Bridge

open Adapter

structure PendingRelease where
  threadId : Option String
  transitionId : String
  expectedGeneration : UInt64
  waiters : List UInt64
deriving DecidableEq

structure BridgeState where
  pending : AList fun _ : String => PendingRelease
  completed : AList fun _ : String => RecoveryReleaseResult
  nextWaiterId : UInt64

structure ReleaseCommand where
  recoveryId : String
  threadId : Option String
  transitionId : String
  expectedGeneration : UInt64
deriving DecidableEq

structure ReleaseAck where
  recoveryId : String
  threadId : Option String
  transitionId : String
  expectedGeneration : UInt64
  outcome : String
  errorCode : Option String
  errorMessage : Option String
deriving DecidableEq

def BridgeState.new : BridgeState := ⟨∅, ∅, 0⟩

def commandOf (params : RecoveryReleaseParams) : ReleaseCommand :=
  ⟨params.recoveryId, params.threadId, params.transitionId, params.expectedGeneration⟩

inductive Entered
  | answered (result : RecoveryReleaseResult)
  | waiting (waiterId : UInt64) (command : Option ReleaseCommand)
deriving DecidableEq

def PendingRelease.conflicts (pending : PendingRelease) (params : RecoveryReleaseParams) : Bool :=
  pending.threadId != params.threadId || pending.transitionId != params.transitionId
    || pending.expectedGeneration != params.expectedGeneration

def conflictResult (params : RecoveryReleaseParams) : RecoveryReleaseResult where
  recoveryId := params.recoveryId
  threadId := params.threadId
  outcome := .rejected
  errorCode := some "bridge_request_conflict"
  errorMessage := some "recovery id is already bound to a different transition"

def timeoutResult (params : RecoveryReleaseParams) : RecoveryReleaseResult where
  recoveryId := params.recoveryId
  threadId := params.threadId
  outcome := .uncertain
  errorCode := some "tui_ack_timeout"
  errorMessage := some "Codex TUI did not acknowledge the recovery release"

namespace BridgeState

def enter (b : BridgeState) (params : RecoveryReleaseParams) : Entered × BridgeState :=
  match b.completed.lookup params.recoveryId with
  | some result => (.answered result, b)
  | none =>
    let waiterId := b.nextWaiterId + 1
    match b.pending.lookup params.recoveryId with
    | some pending =>
      if pending.conflicts params then
        (.answered (conflictResult params), { b with nextWaiterId := waiterId })
      else
        -- the command is sent again only if nobody waits for it any more
        (.waiting waiterId
            (if pending.waiters.isEmpty then some (commandOf params) else none),
          { b with
            nextWaiterId := waiterId
            pending := b.pending.insert params.recoveryId
              { pending with waiters := pending.waiters ++ [waiterId] } })
    | none =>
      (.waiting waiterId (some (commandOf params)),
        { b with
          nextWaiterId := waiterId
          pending := b.pending.insert params.recoveryId
            ⟨params.threadId, params.transitionId, params.expectedGeneration, [waiterId]⟩ })

/-- `release_async` after a timeout: the waiter leaves, its request stays. -/
def expire (b : BridgeState) (params : RecoveryReleaseParams) (waiterId : UInt64) :
    RecoveryReleaseResult × BridgeState :=
  (timeoutResult params,
    match b.pending.lookup params.recoveryId with
    | some pending =>
      { b with
        pending := b.pending.insert params.recoveryId
          { pending with waiters := pending.waiters.filter (· ≠ waiterId) } }
    | none => b)

end BridgeState

def outcomeOf (text : String) : RecoveryReleaseOutcome :=
  if text = "released" then .released
  else if text = "already_released" then .alreadyReleased
  else if text = "uncertain" then .uncertain
  else .rejected

def ReleaseAck.result (ack : ReleaseAck) : RecoveryReleaseResult where
  recoveryId := ack.recoveryId
  threadId := ack.threadId
  outcome := outcomeOf ack.outcome
  errorCode := ack.errorCode
  errorMessage := ack.errorMessage

def PendingRelease.mismatches (pending : PendingRelease) (ack : ReleaseAck) : Bool :=
  pending.threadId != ack.threadId || pending.transitionId != ack.transitionId
    || pending.expectedGeneration != ack.expectedGeneration

/-- `resolve_release`: only a success is remembered. -/
def BridgeState.resolve (b : BridgeState) (ack : ReleaseAck) : List UInt64 × BridgeState :=
  match b.pending.lookup ack.recoveryId with
  | none => ([], b)
  | some pending =>
    if pending.mismatches ack then ([], b)
    else
      (pending.waiters,
        { b with
          pending := b.pending.erase ack.recoveryId
          completed :=
            if ack.result.outcome = .released ∨ ack.result.outcome = .alreadyReleased then
              b.completed.insert ack.recoveryId ack.result
            else b.completed })

namespace BridgeState

variable {b : BridgeState}

/-- **A success that was acknowledged answers every later release**, and no command is sent. -/
theorem enter_of_completed {params : RecoveryReleaseParams} {result : RecoveryReleaseResult}
    (h : b.completed.lookup params.recoveryId = some result) :
    b.enter params = (.answered result, b) := by
  rw [enter, h]

theorem enter_completed (params : RecoveryReleaseParams) :
    (b.enter params).2.completed = b.completed := by
  unfold enter
  cases b.completed.lookup params.recoveryId with
  | some result => rfl
  | none =>
    cases b.pending.lookup params.recoveryId with
    | none => rfl
    | some pending =>
      simp only
      split_ifs <;> rfl

theorem expire_completed (params : RecoveryReleaseParams) (waiterId : UInt64) :
    (b.expire params waiterId).2.completed = b.completed := by
  unfold expire
  cases b.pending.lookup params.recoveryId <;> rfl

end BridgeState

end CodexMarathon.Bridge
