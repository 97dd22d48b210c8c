/-
**The lifecycle events of the bridge.**

The widget reports that a recovery was parked, was started or completed, and the bridge queues these
reports for the native runtime.  A repeated report is dropped, and a full queue loses the oldest.
-/

import CodexMarathon.Adapter.Protocol
import CodexMarathon.Lib.Buffer
import CodexMarathon.Lib.Machine
import Mathlib.Data.List.Induction
import Mathlib.Data.List.TakeWhile

namespace CodexMarathon.Bridge

open Adapter

structure LifecycleNotification where
  eventType : String
  recoveryId : String
  threadId : Option String
  turnId : Option String
  sourceAccountId : Option String
  reason : Option String
  outcome : Option String
  errorCode : Option String
deriving DecidableEq

/-- `observe_lifecycle_event` before it takes the lock; `none` if the notification is ignored. -/
def LifecycleNotification.event (n : LifecycleNotification) : Option RecoveryLifecycleEvent :=
  let recoveryId := trim n.recoveryId
  if recoveryId.isEmpty then none
  else if trim n.eventType = "recovery_parked" then
    (n.reason.filter (!isBlank ·)).map fun reason =>
      .parked recoveryId reason n.threadId n.turnId n.sourceAccountId
  else if trim n.eventType = "recovery_started" then
    some (.started recoveryId n.threadId n.turnId)
  else if trim n.eventType = "recovery_completed" then
    (n.outcome.filter (!isBlank ·)).map fun outcome =>
      .completed recoveryId outcome n.errorCode n.threadId n.turnId
  else none

def LifecycleNotification.key (n : LifecycleNotification) : String × String :=
  (trim n.eventType, trim n.recoveryId)

def lifecycleKey : RecoveryLifecycleEvent → String × String
  | .parked recoveryId .. => ("recovery_parked", recoveryId)
  | .started recoveryId .. => ("recovery_started", recoveryId)
  | .completed recoveryId .. => ("recovery_completed", recoveryId)

theorem LifecycleNotification.key_of_event {n : LifecycleNotification} {e : RecoveryLifecycleEvent}
    (h : n.event = some e) : n.key = lifecycleKey e := by
  simp only [event] at h
  split at h
  · cases h
  split at h
  · rename_i htype
    obtain ⟨reason, -, rfl⟩ := Option.map_eq_some_iff.1 h
    simp [key, lifecycleKey, htype]
  split at h
  · rename_i htype
    cases h
    simp [key, lifecycleKey, htype]
  split at h
  · rename_i htype
    obtain ⟨outcome, -, rfl⟩ := Option.map_eq_some_iff.1 h
    simp [key, lifecycleKey, htype]
  · cases h

/-! ### The queue -/

structure LifecycleEventState where
  events : List RecoveryLifecycleEvent
  seen : List (String × String)

def LifecycleEventState.new : LifecycleEventState := ⟨[], []⟩

def maxLifecycleEvents : ℕ := 1024

def LifecycleEventState.observe (st : LifecycleEventState) (n : LifecycleNotification) :
    LifecycleEventState :=
  match n.event with
  | none => st
  | some e =>
    if n.key ∈ st.seen then st
    else ⟨Buffer.push maxLifecycleEvents st.events e, n.key :: st.seen⟩

def LifecycleEventState.drain (st : LifecycleEventState) :
    List RecoveryLifecycleEvent × LifecycleEventState :=
  (st.events, { st with events := [] })

inductive LifecycleOp
  | observe (n : LifecycleNotification)
  | drain

def lifecycleStep (st : LifecycleEventState) :
    LifecycleOp → LifecycleEventState × List RecoveryLifecycleEvent
  | .observe n => (st.observe n, [])
  | .drain => (st.drain.2, st.drain.1)

def lifecycle : Machine LifecycleEventState LifecycleOp (List RecoveryLifecycleEvent) :=
  ⟨lifecycleStep⟩

@[simp] theorem lifecycle_observe (st : LifecycleEventState) (n : LifecycleNotification) :
    lifecycle.step st (.observe n) = (st.observe n, []) := by
  simp only [lifecycle, lifecycleStep]

@[simp] theorem lifecycle_drain (st : LifecycleEventState) :
    lifecycle.step st .drain = (st.drain.2, st.drain.1) := by
  simp only [lifecycle, lifecycleStep]

def LifecycleOp.event : LifecycleOp → Option RecoveryLifecycleEvent
  | .observe n => n.event
  | .drain => none

def LifecycleOp.isObserve : LifecycleOp → Bool
  | .observe _ => true
  | .drain => false

def accepted (ops : List LifecycleOp) : List RecoveryLifecycleEvent :=
  Buffer.firsts lifecycleKey (ops.filterMap LifecycleOp.event)

def drained (ops : List LifecycleOp) : List RecoveryLifecycleEvent :=
  (lifecycle.history .new ops).flatMap Prod.snd

/-! ### What the queue holds -/

structure LifecycleEventState.Holds (st : LifecycleEventState) (ops : List LifecycleOp)
    (settled recent : List RecoveryLifecycleEvent) : Prop where
  seen : ∀ k, k ∈ st.seen ↔ k ∈ (ops.filterMap LifecycleOp.event).map lifecycleKey
  accepted : accepted ops = settled ++ recent
  events : st.events = Buffer.last maxLifecycleEvents recent

section Holds

variable {st : LifecycleEventState} {ops : List LifecycleOp}
  {settled recent : List RecoveryLifecycleEvent}

theorem holds_new : LifecycleEventState.new.Holds [] [] [] :=
  ⟨fun _ => Iff.rfl, rfl, Buffer.last_nil.symm⟩

theorem accepted_concat (ops : List LifecycleOp) (op : LifecycleOp) : accepted (ops ++ [op]) =
      match op.event with
      | none => accepted ops
      | some e =>
        if lifecycleKey e ∈ (ops.filterMap LifecycleOp.event).map lifecycleKey then accepted ops
        else accepted ops ++ [e] := by
  rw [accepted, List.filterMap_append]
  cases h : op.event with
  | none => simp [h, accepted]
  | some e =>
    have hone : [op].filterMap LifecycleOp.event = [e] := by simp [h]
    rw [hone, Buffer.firsts_concat]
    simp only [accepted]
    split_ifs <;> rfl

theorem LifecycleEventState.Holds.observe (h : st.Holds ops settled recent)
    (n : LifecycleNotification) :
    ∃ new, (st.observe n).Holds (ops ++ [.observe n]) settled (recent ++ new) := by
  cases hevent : n.event with
  | none =>
    have hsame : (ops ++ [LifecycleOp.observe n]).filterMap LifecycleOp.event =
        ops.filterMap LifecycleOp.event := by
      simp [LifecycleOp.event, hevent]
    refine ⟨[], ?_⟩
    rw [LifecycleEventState.observe, hevent, List.append_nil]
    exact ⟨by rw [hsame]; exact h.seen, by rw [Bridge.accepted, hsame]; exact h.accepted, h.events⟩
  | some e =>
    have hkey := LifecycleNotification.key_of_event hevent
    have hmore : (ops ++ [LifecycleOp.observe n]).filterMap LifecycleOp.event =
        ops.filterMap LifecycleOp.event ++ [e] := by
      simp [LifecycleOp.event, hevent]
    have hacc := accepted_concat ops (.observe n)
    simp only [LifecycleOp.event, hevent, ← h.seen, ← hkey] at hacc
    simp only [LifecycleEventState.observe, hevent]
    by_cases hseen : n.key ∈ st.seen
    · refine ⟨[], ?_⟩
      rw [if_pos hseen, List.append_nil]
      rw [if_pos hseen] at hacc
      refine ⟨fun k => ?_, hacc.trans h.accepted, h.events⟩
      rw [hmore, List.map_append, List.mem_append, ← h.seen]
      refine ⟨.inl, fun hk => hk.elim id fun hk => ?_⟩
      rw [List.map_singleton, List.mem_singleton] at hk
      rwa [hk, ← hkey]
    · refine ⟨[e], ?_⟩
      rw [if_neg hseen]
      rw [if_neg hseen] at hacc
      refine ⟨fun k => ?_, ?_, ?_⟩
      · rw [hmore, List.map_append, List.mem_append, ← h.seen, List.mem_cons, List.map_singleton,
          List.mem_singleton, hkey, or_comm]
      · rw [hacc, h.accepted, List.append_assoc]
      · rw [h.events]
        exact Buffer.push_last (by decide) recent e

theorem LifecycleEventState.Holds.drain (h : st.Holds ops settled recent) :
    st.drain.2.Holds (ops ++ [.drain]) (settled ++ recent) [] := by
  have hsame : (ops ++ [LifecycleOp.drain]).filterMap LifecycleOp.event =
      ops.filterMap LifecycleOp.event := by
    simp [LifecycleOp.event]
  exact ⟨by rw [hsame]; exact h.seen,
    by rw [Bridge.accepted, hsame, List.append_nil]; exact h.accepted, Buffer.last_nil.symm⟩

theorem drained_append (ops more : List LifecycleOp) : drained (ops ++ more) =
      drained ops ++ (lifecycle.history (lifecycle.run .new ops) more).flatMap Prod.snd := by
  rw [drained, Machine.history_append, List.flatMap_append, drained]

theorem holds_run (ops : List LifecycleOp) :
    ∃ settled recent, (lifecycle.run .new ops).Holds ops settled recent ∧
      (drained ops).Sublist settled := by
  induction ops using List.reverseRecOn with
  | nil => exact ⟨[], [], holds_new, List.Sublist.refl _⟩
  | append_singleton ops op ih =>
    obtain ⟨settled, recent, hholds, hdrain⟩ := ih
    rw [Machine.run_concat, drained_append]
    cases op with
    | observe n =>
      obtain ⟨new, hnew⟩ := hholds.observe n
      simp only [lifecycle_observe]
      refine ⟨settled, recent ++ new, hnew, ?_⟩
      simpa using hdrain
    | drain =>
      simp only [lifecycle_drain]
      refine ⟨settled ++ recent, [], hholds.drain, ?_⟩
      have hbatch : (lifecycle.history (lifecycle.run .new ops) [.drain]).flatMap Prod.snd =
          Buffer.last maxLifecycleEvents recent := by
        rw [← hholds.events]
        simp [LifecycleEventState.drain]
      rw [hbatch]
      exact hdrain.append Buffer.last_sublist

theorem holds_observations {mid : List LifecycleOp} (hmid : ∀ op ∈ mid, op.isObserve = true)
    (h : st.Holds ops settled recent) :
    ∃ new, (lifecycle.run st mid).Holds (ops ++ mid) settled (recent ++ new) := by
  induction mid generalizing st ops recent with
  | nil => exact ⟨[], by simpa using h⟩
  | cons op mid ih =>
    rw [List.forall_mem_cons] at hmid
    cases op with
    | drain => cases hmid.1
    | observe n =>
      obtain ⟨new, hnew⟩ := h.observe n
      obtain ⟨new', hnew'⟩ := ih hmid.2 hnew
      rw [List.append_assoc, List.append_assoc] at hnew'
      simp only [Machine.run_cons, lifecycle_observe]
      exact ⟨new ++ new', hnew'⟩

theorem LifecycleEventState.Holds.observe_first (h : st.Holds ops settled recent)
    {n : LifecycleNotification} {e : RecoveryLifecycleEvent} (hevent : n.event = some e)
    (hfirst : ∀ e' ∈ ops.filterMap LifecycleOp.event, lifecycleKey e' ≠ lifecycleKey e) :
    (st.observe n).Holds (ops ++ [.observe n]) settled (recent ++ [e]) := by
  have hnew : lifecycleKey e ∉ (ops.filterMap LifecycleOp.event).map lifecycleKey := by
    rw [List.mem_map]
    rintro ⟨e', he', hkey⟩
    exact hfirst e' he' hkey
  have hacc := accepted_concat ops (.observe n)
  simp only [LifecycleOp.event, hevent, if_neg hnew] at hacc
  obtain ⟨new, hholds⟩ := h.observe n
  -- what is accepted tells which report was added
  have hsplit := hacc.symm.trans hholds.accepted
  rw [h.accepted, List.append_assoc] at hsplit
  rw [← List.append_cancel_left hsplit] at hholds
  exact hholds

end Holds

/-- **What becomes of the reports**: each first well formed one is drained once and in order, or
still queued, or was followed by 1024 accepted ones before the next drain. -/
theorem observations_drained (ops : List LifecycleOp) :
    (drained ops).Sublist (accepted ops) ∧ ((drained ops).map lifecycleKey).Nodup ∧
      (lifecycle.run .new ops).events.length ≤ 1024 ∧
      ∀ pre n post e, ops = pre ++ .observe n :: post → n.event = some e →
        (∀ e' ∈ pre.filterMap LifecycleOp.event, lifecycleKey e' ≠ lifecycleKey e) →
        e ∈ drained ops ∨ e ∈ (lifecycle.run .new ops).events ∨
          (accepted (pre ++ [.observe n])).length + 1024 ≤
            (accepted (pre ++ .observe n :: post.takeWhile LifecycleOp.isObserve)).length := by
  obtain ⟨settled, recent, hholds, hdrai⟩ := holds_run ops
  have hsub : (drained ops).Sublist (accepted ops) := by
    rw [hholds.accepted]
    exact hdrai.trans (List.sublist_append_left ..)
  refine ⟨hsub, Buffer.nodup_map_firsts.sublist (hsub.map lifecycleKey), ?_, ?_⟩
  · rw [hholds.events]
    exact Buffer.length_last_le (n := maxLifecycleEvents)
  · intro pre n post e hops hevent hfirst
    obtain ⟨settled, recent, hpre, -⟩ := holds_run pre
    have hobs := hpre.observe_first hevent hfirst
    have hmid : ∀ op ∈ post.takeWhile LifecycleOp.isObserve, op.isObserve = true :=
      fun op hop => List.mem_takeWhile_imp hop
    obtain ⟨new, hlater⟩ := holds_observations hmid hobs
    have hstate : lifecycle.run (LifecycleEventState.observe (lifecycle.run .new pre) n)
        (post.takeWhile LifecycleOp.isObserve) =
          lifecycle.run .new (pre ++ .observe n :: post.takeWhile LifecycleOp.isObserve) := by
      rw [Machine.run_append, Machine.run_cons, lifecycle_observe]
    rw [hstate] at hlater
    have hevents := hlater.events
    rw [List.append_assoc, List.singleton_append] at hevents
    rcases Buffer.mem_last recent new e (n := maxLifecycleEvents) with hmem | hmany
    · rw [← hevents] at hmem
      -- the report is queued at the next drain, or at the end
      have hsplit : ops = (pre ++ .observe n :: post.takeWhile LifecycleOp.isObserve) ++
          post.dropWhile LifecycleOp.isObserve := by
        rw [hops, List.append_assoc, List.cons_append, List.takeWhile_append_dropWhile]
      cases hrest : post.dropWhile LifecycleOp.isObserve with
      | nil =>
        rw [hrest, List.append_nil] at hsplit
        rw [hsplit]
        exact .inr (.inl hmem)
      | cons op rest =>
        have hdrain : op = .drain := by
          have hnot := List.head?_dropWhile_not LifecycleOp.isObserve post
          rw [hrest] at hnot
          cases op with
          | drain => rfl
          | observe n => simp [LifecycleOp.isObserve] at hnot
        rw [hsplit, hrest, drained_append, hdrain, Machine.history_cons, lifecycle_drain]
        exact .inl (List.mem_append_right _ (List.mem_append_left _ hmem))
    · refine .inr (.inr ?_)
      have hlen := congrArg List.length hlater.accepted
      have hlen' := congrArg List.length hobs.accepted
      simp only [List.length_append, List.append_assoc, List.singleton_append, List.length_cons,
        List.length_nil] at hlen hlen'
      rw [hlen, hlen']
      simp only [maxLifecycleEvents] at hmany
      omega

end CodexMarathon.Bridge
