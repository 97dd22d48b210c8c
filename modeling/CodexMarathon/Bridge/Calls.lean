/-
**Releases that wait for an acknowledgement.**

Any number of releases run at the same time.  Each takes the lock of the bridge to find an answer or
a place among the waiters, perhaps sends the command, and waits for its mailbox, the receiver of its
channel, with a timeout.  Acknowledgements come in between.
-/

import CodexMarathon.Bridge.Release
import CodexMarathon.Lib.Machine
import Mathlib.Data.List.Induction

namespace CodexMarathon.Bridge

open Adapter BridgeState

/-! ### Releases under way -/

/-- Nothing was sent, a result was sent, or the sender was dropped. -/
inductive Mailbox
  | empty
  | delivered (result : RecoveryReleaseResult)
  | closed
deriving DecidableEq

/-- A release among the waiters; `command` is what it has still to send. -/
structure Waiting where
  params : RecoveryReleaseParams
  waiterId : UInt64
  command : Option ReleaseCommand
  mailbox : Mailbox
deriving DecidableEq

/-- `expired`: the timeout is over, and the place is not left yet. -/
inductive CallState
  | waiting (w : Waiting)
  | expired (params : RecoveryReleaseParams) (waiterId : UInt64)
  | returned (params : RecoveryReleaseParams) (result : RecoveryReleaseResult)
deriving DecidableEq

structure Calls where
  bridge : BridgeState
  call : ℕ → Option CallState

def Calls.new : Calls := ⟨.new, fun _ => none⟩

/-- `poll` is a turn of the wait, where `elapsed` says whether the timeout is over. -/
inductive CallOp
  | release (c : ℕ) (params : RecoveryReleaseParams)
  | send (c : ℕ)
  | poll (c : ℕ) (elapsed : Bool)
  | leave (c : ℕ)
  | ack (ack : ReleaseAck)

inductive CallAnswer
  | entered (entered : Entered)
  | sent (command : ReleaseCommand)
  | nothing
deriving DecidableEq

def Entered.call (params : RecoveryReleaseParams) : Entered → CallState
  | .answered result => .returned params result
  | .waiting waiterId command => .waiting ⟨params, waiterId, command, .empty⟩

/-- The wait for the channel, which is looked at before the clock. -/
def Waiting.poll (w : Waiting) (elapsed : Bool) : CallState :=
  match w.mailbox, elapsed with
  | .delivered result, _ => .returned w.params result
  | .closed, _ => .expired w.params w.waiterId
  | .empty, true => .expired w.params w.waiterId
  | .empty, false => .waiting w

def CallState.deliver (recoveryId : String) (p : UInt64 → Bool) (mailbox : Mailbox) :
    CallState → CallState
  | .waiting w =>
    if w.mailbox = .empty ∧ w.params.recoveryId = recoveryId ∧ p w.waiterId = true then
      .waiting { w with mailbox := mailbox }
    else .waiting w
  | call => call

def Calls.deliver (s : Calls) (recoveryId : String) (p : UInt64 → Bool) (mailbox : Mailbox) :
    ℕ → Option CallState :=
  fun c => (s.call c).map (CallState.deliver recoveryId p mailbox)

def callStep (s : Calls) : CallOp → Calls × CallAnswer
  | .release c params =>
    match s.call c with
    | some _ => (s, .nothing)
    | none =>
      let (entered, bridge) := s.bridge.enter params
      (⟨bridge, Function.update s.call c (some (entered.call params))⟩, .entered entered)
  | .send c =>
    match s.call c with
    | some (.waiting w) =>
      match w.command with
      | some command =>
        ({ s with
            call := Function.update s.call c (some (.waiting { w with command := none })) },
          .sent command)
      | none => (s, .nothing)
    | _ => (s, .nothing)
  | .poll c elapsed =>
    match s.call c with
    | some (.waiting w) =>
      if w.command = none then
        ({ s with call := Function.update s.call c (some (w.poll elapsed)) }, .nothing)
      else (s, .nothing)
    | _ => (s, .nothing)
  | .leave c =>
    match s.call c with
    | some (.expired params waiterId) =>
      let (result, bridge) := s.bridge.expire params waiterId
      -- `retain` drops every sender with the id of the waiter
      (⟨bridge, Function.update (s.deliver params.recoveryId (· = waiterId) .closed) c
        (some (.returned params result))⟩, .nothing)
    | _ => (s, .nothing)
  | .ack ack =>
    let (waiters, bridge) := s.bridge.resolve ack
    (⟨bridge, s.deliver ack.recoveryId (waiters.contains ·) (.delivered ack.result)⟩, .nothing)

def calls : Machine Calls CallOp CallAnswer := ⟨callStep⟩

def BridgeState.Accepts (b : BridgeState) (ack : ReleaseAck) : Prop :=
  ∃ pending, b.pending.lookup ack.recoveryId = some pending ∧ pending.mismatches ack = false

structure ReleaseAck.Matches (ack : ReleaseAck) (params : RecoveryReleaseParams) : Prop where
  recoveryId : ack.recoveryId = params.recoveryId
  threadId : ack.threadId = params.threadId
  transitionId : ack.transitionId = params.transitionId
  expectedGeneration : ack.expectedGeneration = params.expectedGeneration

def Successful (result : RecoveryReleaseResult) : Prop :=
  result.outcome = .released ∨ result.outcome = .alreadyReleased

variable {call : CallState}

theorem BridgeState.resolve_of_not_accepts {b : BridgeState} {ack : ReleaseAck}
    (h : ¬ b.Accepts ack) : b.resolve ack = ([], b) := by
  unfold resolve
  cases hpen : b.pending.lookup ack.recoveryId with
  | none => rfl
  | some pending =>
    cases hmis : pending.mismatches ack with
    | true => simp [hmis]
    | false => exact absurd ⟨pending, hpen, hmis⟩ h

theorem PendingRelease.matches_of {pending : PendingRelease} {ack : ReleaseAck}
    {params : RecoveryReleaseParams} (hid : params.recoveryId = ack.recoveryId)
    (hack : pending.mismatches ack = false) (hparams : pending.conflicts params = false) :
    ack.Matches params := by
  simp only [PendingRelease.mismatches, PendingRelease.conflicts, Bool.or_eq_false_iff, bne_eq_false_iff_eq]
    at hack hparams
  exact ⟨hid.symm, hack.1.1.symm.trans hparams.1.1, hack.1.2.symm.trans hparams.1.2,
    hack.2.symm.trans hparams.2⟩

/-! ### What holds of a release -/

def BridgeState.Registers (b : BridgeState) (w : Waiting) : Prop :=
  ∃ pending, b.pending.lookup w.params.recoveryId = some pending ∧
    pending.conflicts w.params = false ∧ w.waiterId ∈ pending.waiters

def Acknowledged (acks : List ReleaseAck) (params : RecoveryReleaseParams)
    (result : RecoveryReleaseResult) : Prop :=
  ∃ ack ∈ acks, ack.Matches params ∧ result = ack.result

/-- A success that was remembered, a conflict, a timeout, or the result of an acknowledgement for
the request. -/
def Explained (acks : List ReleaseAck) (b : BridgeState) (params : RecoveryReleaseParams)
    (result : RecoveryReleaseResult) : Prop :=
  b.completed.lookup params.recoveryId = some result ∨ result = conflictResult params ∨
    result = timeoutResult params ∨ Acknowledged acks params result

def CallState.Fits (acks : List ReleaseAck) (b : BridgeState) : CallState → Prop
  | .waiting w =>
    (w.mailbox = .empty → b.Registers w) ∧
      ∀ result, w.mailbox = .delivered result → Acknowledged acks w.params result
  | .expired .. => True
  | .returned params result => Explained acks b params result

structure Consistent (acks : List ReleaseAck) (s : Calls) : Prop where
  exclusive : ∀ id, (s.bridge.completed.lookup id).isSome = true →
    s.bridge.pending.lookup id = none
  remembered : ∀ id result, s.bridge.completed.lookup id = some result →
    Successful result ∧ ∃ ack ∈ acks, ack.recoveryId = id ∧ result = ack.result
  fits : ∀ c call, s.call c = some call → call.Fits acks s.bridge

theorem consistent_new : Consistent [] .new where
  exclusive := fun _ _ => rfl
  remembered := fun _ _ h => absurd h (by simp [Calls.new, new])
  fits := nofun

structure BridgeState.Keeps (b b' : BridgeState) : Prop where
  registers : ∀ w, b.Registers w → b'.Registers w
  completed : ∀ id result, b.completed.lookup id = some result →
    b'.completed.lookup id = some result

section Fits

variable {acks : List ReleaseAck} {b b' : BridgeState} {s : Calls}

theorem Explained.keeps {params : RecoveryReleaseParams} {result : RecoveryReleaseResult}
    (hcom : ∀ id result, b.completed.lookup id = some result → b'.completed.lookup id = some result)
    (h : Explained acks b params result) : Explained acks b' params result :=
  h.imp_left (hcom _ _)

theorem CallState.Fits.keeps (hb : b.Keeps b') (h : call.Fits acks b) : call.Fits acks b' := by
  cases call with
  | waiting w => exact ⟨fun hempty => hb.registers w (h.1 hempty), h.2⟩
  | expired => trivial
  | returned params result => exact Explained.keeps hb.completed h

theorem Acknowledged.mono {params : RecoveryReleaseParams} {result : RecoveryReleaseResult}
    (ack : ReleaseAck) (h : Acknowledged acks params result) :
    Acknowledged (acks ++ [ack]) params result := by
  obtain ⟨ack', hack', hmatch⟩ := h
  exact ⟨ack', List.mem_append_left _ hack', hmatch⟩

theorem Explained.mono {params : RecoveryReleaseParams} {result : RecoveryReleaseResult}
    (ack : ReleaseAck) (h : Explained acks b params result) :
    Explained (acks ++ [ack]) b params result :=
  h.imp_right (Or.imp_right (Or.imp_right (Acknowledged.mono ack)))

theorem CallState.Fits.mono (ack : ReleaseAck) (h : call.Fits acks b) :
    call.Fits (acks ++ [ack]) b := by
  cases call with
  | waiting w => exact ⟨h.1, fun result hresult => (h.2 result hresult).mono ack⟩
  | expired => trivial
  | returned params result => exact Explained.mono ack h

theorem eq_of_update {f : ℕ → Option CallState} {c c' : ℕ} {call' : CallState}
    (h : Function.update f c (some call) c' = some call') : call' = call ∨ f c' = some call' := by
  by_cases hc : c' = c
  · subst hc
    rw [Function.update_self] at h
    exact .inl (Option.some.inj h).symm
  · rw [Function.update_of_ne hc] at h
    exact .inr h

theorem Consistent.update (h : Consistent acks s) (c : ℕ) (hcall : call.Fits acks s.bridge) :
    Consistent acks { s with call := Function.update s.call c (some call) } where
  exclusive := h.exclusive
  remembered := h.remembered
  fits := by
    intro c' call' hcall'
    rcases eq_of_update hcall' with rfl | hold
    · exact hcall
    · exact h.fits c' call' hold

end Fits

section Sections

variable {acks : List ReleaseAck} {b : BridgeState} {s : Calls}

theorem BridgeState.enter_cases (b : BridgeState) (params : RecoveryReleaseParams) :
    (∃ result, b.completed.lookup params.recoveryId = some result ∧
        b.enter params = (.answered result, b)) ∨
      (b.completed.lookup params.recoveryId = none ∧ ∃ pending,
        b.pending.lookup params.recoveryId = some pending ∧ pending.conflicts params = true ∧
        b.enter params = (.answered (conflictResult params),
          { b with nextWaiterId := b.nextWaiterId + 1 })) ∨
      (b.completed.lookup params.recoveryId = none ∧ ∃ pending command,
        (b.pending.lookup params.recoveryId = some pending ∨
          b.pending.lookup params.recoveryId = none ∧
            pending = ⟨params.threadId, params.transitionId, params.expectedGeneration, []⟩) ∧
        pending.conflicts params = false ∧
        b.enter params = (.waiting (b.nextWaiterId + 1) command,
          { b with
            nextWaiterId := b.nextWaiterId + 1
            pending := b.pending.insert params.recoveryId
              { pending with waiters := pending.waiters ++ [b.nextWaiterId + 1] } })) := by
  unfold enter
  cases hcom : b.completed.lookup params.recoveryId with
  | some result => exact .inl ⟨result, rfl, rfl⟩
  | none =>
    right
    cases hpen : b.pending.lookup params.recoveryId with
    | none =>
      refine .inr ⟨rfl, ⟨params.threadId, params.transitionId, params.expectedGeneration, []⟩,
        some (commandOf params), .inr ⟨rfl, rfl⟩, ?_, rfl⟩
      simp [PendingRelease.conflicts]
    | some pending =>
      cases hcon : pending.conflicts params with
      | true => exact .inl ⟨rfl, pending, rfl, hcon, by simp [hcon]⟩
      | false => exact .inr ⟨rfl, pending, _, .inl rfl, hcon, by simp [hcon]; rfl⟩

theorem BridgeState.keeps_enter (b : BridgeState) (params : RecoveryReleaseParams) :
    b.Keeps (b.enter params).2 := by
  refine ⟨fun w hw => ?_, fun id result h => by rwa [enter_completed]⟩
  rcases b.enter_cases params with ⟨result, -, henter⟩ | ⟨-, pending, -, -, henter⟩ |
    ⟨-, pending, command, hpen, -, henter⟩ <;> rw [henter]
  · exact hw
  · exact hw
  · obtain ⟨pending', hlookup, hcon, hmem⟩ := hw
    by_cases hid : w.params.recoveryId = params.recoveryId
    · rw [hid] at hlookup
      rcases hpen with hpen | ⟨hnone, -⟩
      · obtain rfl : pending' = pending := Option.some.inj (hlookup.symm.trans hpen)
        refine ⟨{ pending' with waiters := pending'.waiters ++ [b.nextWaiterId + 1] }, ?_, hcon,
          List.mem_append_left _ hmem⟩
        rw [hid, AList.lookup_insert]
      · rw [hnone] at hlookup
        cases hlookup
    · exact ⟨pending', by rw [AList.lookup_insert_ne hid]; exact hlookup, hcon, hmem⟩

theorem fits_enter (b : BridgeState) (params : RecoveryReleaseParams) :
    ((b.enter params).1.call params).Fits acks (b.enter params).2 := by
  rcases b.enter_cases params with ⟨result, hcom, henter⟩ | ⟨-, pending, -, -, henter⟩ |
    ⟨-, pending, command, -, hcon, henter⟩ <;> rw [henter]
  · exact .inl hcom
  · exact .inr (.inl rfl)
  · refine ⟨fun _ => ⟨_, AList.lookup_insert _, hcon, ?_⟩, nofun⟩
    exact List.mem_append_right _ List.mem_cons_self

theorem Consistent.release (h : Consistent acks s) (c : ℕ) (params : RecoveryReleaseParams) :
    Consistent acks ⟨(s.bridge.enter params).2,
      Function.update s.call c (some ((s.bridge.enter params).1.call params))⟩ where
  exclusive := by
    intro id hid
    rw [enter_completed] at hid
    rcases s.bridge.enter_cases params with ⟨result, -, henter⟩ | ⟨-, pending, -, -, henter⟩ |
      ⟨hnone, pending, command, -, -, henter⟩ <;> rw [henter]
    · exact h.exclusive id hid
    · exact h.exclusive id hid
    · have hne : id ≠ params.recoveryId := by
        rintro rfl
        rw [hnone] at hid
        cases hid
      rw [AList.lookup_insert_ne hne]
      exact h.exclusive id hid
  remembered := by
    intro id result hresult
    rw [enter_completed] at hresult
    exact h.remembered id result hresult
  fits := by
    intro c' call' hcall'
    rcases eq_of_update hcall' with rfl | hold
    · exact fits_enter s.bridge params
    · exact (h.fits c' call' hold).keeps (s.bridge.keeps_enter params)

theorem BridgeState.expire_pending (b : BridgeState) (params : RecoveryReleaseParams)
    (waiterId : UInt64) (id : String) : (b.expire params waiterId).2.pending.lookup id =
      if id = params.recoveryId then
        (b.pending.lookup id).map fun pending =>
          { pending with waiters := pending.waiters.filter (· ≠ waiterId) }
      else b.pending.lookup id := by
  unfold expire
  by_cases hid : id = params.recoveryId
  · subst hid
    cases hpen : b.pending.lookup params.recoveryId with
    | none => simp [hpen]
    | some pending => simp
  · cases hpen : b.pending.lookup params.recoveryId with
    | none => simp [hid]
    | some pending => simp [hid, AList.lookup_insert_ne hid]

theorem fits_leave {params : RecoveryReleaseParams} {waiterId : UInt64} (h : call.Fits acks b) :
    (call.deliver params.recoveryId (· = waiterId) .closed).Fits acks
      (b.expire params waiterId).2 := by
  cases call with
  | expired => trivial
  | returned params' result =>
    exact Explained.keeps (fun id result h => by rwa [expire_completed]) h
  | waiting w =>
    simp only [CallState.deliver]
    split
    · exact ⟨nofun, nofun⟩
    · rename_i hother
      refine ⟨fun hempty => ?_, h.2⟩
      obtain ⟨pending, hlookup, hcon, hmem⟩ := h.1 hempty
      rw [BridgeState.Registers, expire_pending, hlookup]
      by_cases hid : w.params.recoveryId = params.recoveryId
      · have hne : w.waiterId ≠ waiterId := fun heq =>
          hother ⟨hempty, hid, decide_eq_true heq⟩
        rw [if_pos hid]
        exact ⟨_, rfl, hcon, List.mem_filter.2 ⟨hmem, decide_eq_true hne⟩⟩
      · rw [if_neg hid]
        exact ⟨pending, rfl, hcon, hmem⟩

theorem Consistent.leave (h : Consistent acks s) (c : ℕ) (params : RecoveryReleaseParams)
    (waiterId : UInt64) : Consistent acks ⟨(s.bridge.expire params waiterId).2,
      Function.update (s.deliver params.recoveryId (· = waiterId) .closed) c
        (some (.returned params (timeoutResult params)))⟩ where
  exclusive := by
    intro id hid
    rw [expire_completed] at hid
    rw [expire_pending, h.exclusive id hid]
    split <;> rfl
  remembered := by
    intro id result hresult
    rw [expire_completed] at hresult
    exact h.remembered id result hresult
  fits := by
    intro c' call' hcall'
    rcases eq_of_update hcall' with rfl | hold
    · exact .inr (.inr (.inl rfl))
    · obtain ⟨call, hcall, rfl⟩ := Option.map_eq_some_iff.1 hold
      exact fits_leave (h.fits c' call hcall)

end Sections

section Acks

variable {acks : List ReleaseAck} {b : BridgeState} {s : Calls} {ack : ReleaseAck}

theorem BridgeState.resolve_of_accepts {pending : PendingRelease}
    (hlookup : b.pending.lookup ack.recoveryId = some pending)
    (hmatch : pending.mismatches ack = false) :
    b.resolve ack = (pending.waiters,
      { b with
        pending := b.pending.erase ack.recoveryId
        completed :=
          if ack.result.outcome = .released ∨ ack.result.outcome = .alreadyReleased then
            b.completed.insert ack.recoveryId ack.result
          else b.completed }) := by
  simp [resolve, hlookup, hmatch]

theorem Consistent.completed_resolve (h : Consistent acks s) {id : String}
    {result : RecoveryReleaseResult} (hresult : s.bridge.completed.lookup id = some result) :
    (s.bridge.resolve ack).2.completed.lookup id = some result := by
  by_cases hacc : s.bridge.Accepts ack
  · obtain ⟨pending, hlookup, hmatch⟩ := hacc
    rw [resolve_of_accepts hlookup hmatch]
    have hne : id ≠ ack.recoveryId := by
      rintro rfl
      have hnone := h.exclusive ack.recoveryId (by rw [hresult]; rfl)
      rw [hnone] at hlookup
      cases hlookup
    simp only
    split
    · rw [AList.lookup_insert_ne hne]
      exact hresult
    · exact hresult
  · rw [resolve_of_not_accepts hacc]
    exact hresult

theorem Consistent.deliver_resolve (h : Consistent acks s) (hacc : s.bridge.Accepts ack) (c : ℕ) :
    s.deliver ack.recoveryId ((s.bridge.resolve ack).1.contains ·) (.delivered ack.result) c =
      (s.call c).map (CallState.deliver ack.recoveryId (fun _ => true) (.delivered ack.result)) := by
  obtain ⟨pending, hlookup, hmatch⟩ := hacc
  rw [resolve_of_accepts hlookup hmatch]
  unfold Calls.deliver
  cases hcall : s.call c with
  | none => rfl
  | some call =>
    cases call with
    | expired => rfl
    | returned => rfl
    | waiting w =>
      simp only [Option.map_some, CallState.deliver]
      by_cases hwait : w.mailbox = .empty ∧ w.params.recoveryId = ack.recoveryId
      · -- a waiting release has its place among the waiters
        obtain ⟨pending', hlookup', -, hmem⟩ := (h.fits c _ hcall).1 hwait.1
        rw [hwait.2, hlookup] at hlookup'
        obtain rfl := Option.some.inj hlookup'
        rw [if_pos ⟨hwait.1, hwait.2, List.contains_iff_mem.2 hmem⟩,
          if_pos ⟨hwait.1, hwait.2, trivial⟩]
      · rw [if_neg fun hall => hwait ⟨hall.1, hall.2.1⟩,
          if_neg fun hall => hwait ⟨hall.1, hall.2.1⟩]

theorem Consistent.fits_ack (h : Consistent acks s) (hacc : s.bridge.Accepts ack) {c : ℕ}
    (hcall : s.call c = some call) :
    (call.deliver ack.recoveryId (fun _ => true) (.delivered ack.result)).Fits (acks ++ [ack])
      (s.bridge.resolve ack).2 := by
  have hfits := h.fits c call hcall
  cases call with
  | expired => trivial
  | returned params result =>
    exact Explained.keeps (fun id result => h.completed_resolve) (Explained.mono ack hfits)
  | waiting w =>
    obtain ⟨pending, hlookup, hmatch⟩ := hacc
    simp only [CallState.deliver]
    split
    · rename_i hwait
      -- the pending entry of the acknowledgement is that of the release
      obtain ⟨pending', hlookup', hcon, -⟩ := hfits.1 hwait.1
      rw [hwait.2.1, hlookup] at hlookup'
      obtain rfl := Option.some.inj hlookup'
      refine ⟨nofun, fun result hresult => ?_⟩
      cases hresult
      exact ⟨ack, List.mem_append_right _ List.mem_cons_self,
        PendingRelease.matches_of hwait.2.1 hmatch hcon, rfl⟩
    · rename_i hother
      refine ⟨fun hempty => ?_, fun result hresult => (hfits.2 result hresult).mono ack⟩
      obtain ⟨pending', hlookup', hcon, hmem⟩ := hfits.1 hempty
      have hne : w.params.recoveryId ≠ ack.recoveryId := fun hid => hother ⟨hempty, hid, trivial⟩
      rw [resolve_of_accepts hlookup hmatch]
      exact ⟨pending', by rw [AList.lookup_erase_ne hne]; exact hlookup', hcon, hmem⟩

theorem Consistent.acknowledge (h : Consistent acks s) (hacc : s.bridge.Accepts ack) :
    Consistent (acks ++ [ack]) (calls.step s (.ack ack)).1 where
  exclusive := by
    intro id hid
    obtain ⟨pending, hlookup, hmatch⟩ := hacc
    simp only [calls, callStep, resolve_of_accepts hlookup hmatch] at hid ⊢
    by_cases hack : id = ack.recoveryId
    · rw [hack, AList.lookup_erase]
    · rw [AList.lookup_erase_ne hack]
      refine h.exclusive id ?_
      split at hid
      · rwa [AList.lookup_insert_ne hack] at hid
      · exact hid
  remembered := by
    intro id result hresult
    obtain ⟨pending, hlookup, hmatch⟩ := hacc
    simp only [calls, callStep, resolve_of_accepts hlookup hmatch] at hresult
    have hold : s.bridge.completed.lookup id = some result → Successful result ∧
        ∃ ack' ∈ acks ++ [ack], ack'.recoveryId = id ∧ result = ack'.result := by
      intro hresult
      obtain ⟨hsuc, ack', hack', heq⟩ := h.remembered id result hresult
      exact ⟨hsuc, ack', List.mem_append_left _ hack', heq⟩
    split at hresult
    · rename_i hsuc
      by_cases hack : id = ack.recoveryId
      · rw [hack, AList.lookup_insert] at hresult
        cases hresult
        exact ⟨hsuc, ack, List.mem_append_right _ List.mem_cons_self, hack.symm, rfl⟩
      · rw [AList.lookup_insert_ne hack] at hresult
        exact hold hresult
    · exact hold hresult
  fits := by
    intro c call' hcall'
    have hdel := h.deliver_resolve hacc c
    have hcall'' : s.deliver ack.recoveryId ((s.bridge.resolve ack).1.contains ·)
      (.delivered ack.result) c = some call' := hcall'
    rw [hdel] at hcall''
    obtain ⟨call, hcall, rfl⟩ := Option.map_eq_some_iff.1 hcall''
    exact h.fits_ack hacc hcall

theorem step_ack_of_not_accepts (hacc : ¬ s.bridge.Accepts ack) :
    (calls.step s (.ack ack)).1 = s := by
  simp only [calls, callStep, resolve_of_not_accepts hacc]
  have hcall : s.deliver ack.recoveryId (([] : List UInt64).contains ·) (.delivered ack.result) =
      s.call := by
    funext c
    unfold Calls.deliver
    cases s.call c with
    | none => rfl
    | some call => cases call <;> simp [CallState.deliver]
  rw [hcall]

theorem Consistent.mono (h : Consistent acks s) (ack : ReleaseAck) :
    Consistent (acks ++ [ack]) s where
  exclusive := h.exclusive
  remembered := by
    intro id result hresult
    obtain ⟨hsuc, ack', hack', heq⟩ := h.remembered id result hresult
    exact ⟨hsuc, ack', List.mem_append_left _ hack', heq⟩
  fits := fun c call hcall => (h.fits c call hcall).mono ack

end Acks

/-! ### Runs -/

def acksOf (ops : List CallOp) : List ReleaseAck :=
  ops.filterMap fun
    | .ack ack => some ack
    | _ => none

theorem Waiting.fits_poll {acks : List ReleaseAck} {b : BridgeState} {w : Waiting}
    (h : (CallState.waiting w).Fits acks b) (elapsed : Bool) : (w.poll elapsed).Fits acks b := by
  unfold Waiting.poll
  split
  · rename_i result hmail
    exact .inr (.inr (.inr (h.2 result hmail)))
  · trivial
  · trivial
  · exact h

theorem Consistent.step {ops : List CallOp} {s : Calls} (h : Consistent (acksOf ops) s)
    (op : CallOp) : Consistent (acksOf (ops ++ [op])) (calls.step s op).1 := by
  rw [acksOf, List.filterMap_append, ← acksOf]
  cases op with
  | release c params =>
    rw [show [_].filterMap _ = ([] : List ReleaseAck) from rfl, List.append_nil]
    simp only [calls, callStep]
    cases s.call c with
    | some call => exact h
    | none => exact h.release c params
  | send c =>
    rw [show [_].filterMap _ = ([] : List ReleaseAck) from rfl, List.append_nil]
    simp only [calls, callStep]
    split
    · rename_i w hcall
      split
      · obtain ⟨hreg, hdel⟩ := h.fits c _ hcall
        have hfits : (CallState.waiting { w with command := none }).Fits (acksOf ops) s.bridge :=
          ⟨hreg, hdel⟩
        exact h.update c hfits
      · exact h
    · exact h
  | poll c elapsed =>
    rw [show [_].filterMap _ = ([] : List ReleaseAck) from rfl, List.append_nil]
    simp only [calls, callStep]
    split
    · rename_i w hcall
      split
      · exact h.update c (Waiting.fits_poll (h.fits c _ hcall) elapsed)
      · exact h
    · exact h
  | leave c =>
    rw [show [_].filterMap _ = ([] : List ReleaseAck) from rfl, List.append_nil]
    simp only [calls, callStep]
    split
    · rename_i params waiterId hcall
      exact h.leave c params waiterId
    · exact h
  | ack ack =>
    change Consistent (acksOf ops ++ [ack]) _
    by_cases hacc : s.bridge.Accepts ack
    · exact h.acknowledge hacc
    · rw [step_ack_of_not_accepts hacc]
      exact h.mono ack

theorem consistent_run (ops : List CallOp) : Consistent (acksOf ops) (calls.run .new ops) := by
  have hnew : Consistent (acksOf []) .new := consistent_new
  simpa using Machine.invariant_inputs (I := fun ops s => Consistent (acksOf ops) s)
    (fun ops s op h => h.step op) ops hnew

def Calls.Resolved (s : Calls) (c : ℕ) (params : RecoveryReleaseParams)
    (result : RecoveryReleaseResult) : Prop :=
  s.call c = some (.returned params result) ∨
    ∃ w, s.call c = some (.waiting w) ∧ w.params = params ∧ w.mailbox = .delivered result

section Resolved

variable {s : Calls} {c : ℕ} {params : RecoveryReleaseParams} {result : RecoveryReleaseResult}

theorem Calls.Resolved.update (h : s.Resolved c params result) {c' : ℕ} (hc : c ≠ c')
    (b : BridgeState) :
    Calls.Resolved ⟨b, Function.update s.call c' (some call)⟩ c params result := by
  have hcall : Function.update s.call c' (some call) c = s.call c := Function.update_of_ne hc ..
  simp only [Calls.Resolved, hcall]
  exact h

theorem Calls.Resolved.deliver (h : s.Resolved c params result) (b : BridgeState)
    (recoveryId : String) (p : UInt64 → Bool) (mailbox : Mailbox) :
    Calls.Resolved ⟨b, s.deliver recoveryId p mailbox⟩ c params result := by
  rcases h with hret | ⟨w, hwait, hparams, hmail⟩
  · exact .inl (by simp only [Calls.deliver, hret]; rfl)
  · refine .inr ⟨w, ?_, hparams, hmail⟩
    simp [Calls.deliver, hwait, CallState.deliver, hmail]

theorem Calls.Resolved.step (h : s.Resolved c params result) (op : CallOp) :
    (calls.step s op).1.Resolved c params result := by
  have hne : ∀ {c' : ℕ}, s.call c' = none → c ≠ c' := by
    rintro c' hnone rfl
    rcases h with hret | ⟨w, hwait, -⟩
    · rw [hret] at hnone
      cases hnone
    · rw [hwait] at hnone
      cases hnone
  cases op with
  | release c' params' =>
    simp only [calls, callStep]
    cases hcall : s.call c' with
    | some call => exact h
    | none => exact h.update (hne hcall) _
  | send c' =>
    simp only [calls, callStep]
    split
    · rename_i w' hcall'
      split
      · by_cases hc : c = c'
        · subst hc
          rcases h with hret | ⟨w, hwait, hparams, hmail⟩
          · rw [hret] at hcall'
            cases hcall'
          · rw [hwait] at hcall'
            cases hcall'
            exact .inr ⟨_, Function.update_self .., hparams, hmail⟩
        · exact h.update hc _
      · exact h
    · exact h
  | poll c' elapsed =>
    simp only [calls, callStep]
    split
    · rename_i w' hcall'
      split
      · by_cases hc : c = c'
        · subst hc
          rcases h with hret | ⟨w, hwait, hparams, hmail⟩
          · rw [hret] at hcall'
            cases hcall'
          · rw [hwait] at hcall'
            cases hcall'
            refine .inl ?_
            simp only [Function.update_self, Waiting.poll, hmail, hparams]
        · exact h.update hc _
      · exact h
    · exact h
  | leave c' =>
    simp only [calls, callStep]
    split
    · rename_i params' waiterId hcall'
      have hc : c ≠ c' := by
        rintro rfl
        rcases h with hret | ⟨w, hwait, -⟩
        · rw [hret] at hcall'
          cases hcall'
        · rw [hwait] at hcall'
          cases hcall'
      exact (h.deliver s.bridge _ _ _).update hc _
    · exact h
  | ack ack => exact h.deliver _ _ _ _

end Resolved

theorem completed_run {ops : List CallOp} {id : String} {result : RecoveryReleaseResult}
    (h : (calls.run .new ops).bridge.completed.lookup id = some result) (more : List CallOp) :
    (calls.run (calls.run .new ops) more).bridge.completed.lookup id = some result := by
  induction more using List.reverseRecOn with
  | nil => exact h
  | append_singleton more op ih =>
    rw [Machine.run_concat]
    have hcon := consistent_run (ops ++ more)
    rw [Machine.run_append] at hcon
    cases op with
    | release c params =>
      simp only [calls, callStep]
      split
      · exact ih
      · simp only [enter_completed]
        exact ih
    | send c =>
      simp only [calls, callStep]
      split
      · split <;> exact ih
      · exact ih
    | poll c elapsed =>
      simp only [calls, callStep]
      split
      · split <;> exact ih
      · exact ih
    | leave c =>
      simp only [calls, callStep]
      split
      · simp only [expire_completed]
        exact ih
      · exact ih
    | ack ack => exact hcon.completed_resolve ih

end CodexMarathon.Bridge
