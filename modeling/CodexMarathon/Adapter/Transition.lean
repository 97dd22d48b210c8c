/-
**The pending transition and the generation.**

A transition is registered when there is none, for the generation that comes next; a cancellation
that names it removes it, and so does a commit that reaches the reload.  Everything else leaves the
identity and the pending transition alone.
-/

import CodexMarathon.Adapter.Commit
import CodexMarathon.Adapter.Recovery

namespace CodexMarathon.Adapter

open Stateful RuntimeAdapter

variable {a : Answers} {s s' : RuntimeAdapter}

variable {i : AdapterOp × Answers} {params : AuthTransitionParams}

def RuntimeAdapter.prepared (s : RuntimeAdapter) : Option AuthTransitionParams :=
  s.pending.map (·.params)

structure SameTransit (s s' : RuntimeAdapter) : Prop where
  identity : s'.identity = s.identity
  prepared : s'.prepared = s.prepared
  calls : ∃ calls, s'.backendCalls = s.backendCalls ++ calls ∧
    .reloadAuthAndInvalidate ∉ calls

theorem SameTransit.of_eq (hiden : s'.identity = s.identity)
    (hprep : s'.prepared = s.prepared) (hcalls : s'.backendCalls = s.backendCalls) :
    SameTransit s s' :=
  ⟨hiden, hprep, [], by simp [hcalls], by simp⟩

instance : Std.Refl SameTransit := ⟨fun _ => .of_eq rfl rfl rfl⟩

instance : IsTrans RuntimeAdapter SameTransit where
  trans s s' s'' h h' := by
    obtain ⟨calls, hcalls, hnot⟩ := h.calls
    obtain ⟨calls', hcalls', hnot'⟩ := h'.calls
    refine ⟨h'.identity.trans h.identity, h'.prepared.trans h.prepared, calls ++ calls', ?_, ?_⟩
    · rw [hcalls', hcalls, List.append_assoc]
    · rw [List.mem_append]
      exact not_or.2 ⟨hnot, hnot'⟩

@[simp] theorem PendingState.markBoundary_params (id : String) (pending : PendingState) :
    (pending.markBoundary id).params = pending.params := by
  unfold markBoundary
  split_ifs <;> rfl

theorem sameTransit_quiet : Quiet SameTransit where
  events _ _ := .of_eq rfl rfl rfl
  count _ _ := .of_eq rfl rfl rfl
  boundary s id := by
    refine .of_eq rfl ?_ rfl
    simp [prepared, Function.comp_def]
  version _ _ := .of_eq rfl rfl rfl
  calls s call h := by
    refine ⟨rfl, rfl, [call], rfl, ?_⟩
    intro hmem
    cases List.mem_singleton.1 hmem
    exact h

theorem sameTransit_recovering : Recovering SameTransit where
  toRoutine := sameTransit_quiet.routine
  seen _ _ := .of_eq rfl rfl rfl
  recoveries _ _ := .of_eq rfl rfl rfl
  results _ _ := .of_eq rfl rfl rfl
  release s params := ⟨rfl, rfl, [.releaseRecovery params], rfl, by simp⟩

structure Registers (s : RuntimeAdapter) (params : AuthTransitionParams) (s' : RuntimeAdapter) :
    Prop where
  free : s.prepared = none
  generation : nextGeneration s.identity.authGeneration = .ok params.expectedGeneration
  prepared : s'.prepared = some params
  identity : s'.identity = s.identity
  calls : ∃ calls, s'.backendCalls = s.backendCalls ++ calls ∧
    .reloadAuthAndInvalidate ∉ calls

theorem exec_prepare_cases (a : Answers) (s : RuntimeAdapter) (params : AuthTransitionParams) :
    (exec (prepare a params) s).2 = s ∨
      s.pending = none ∧ nextGeneration s.identity.authGeneration = .ok params.expectedGeneration ∧
        ∃ valid, (exec (prepare a params) s).2 = (exec (observeTurnCount a)
          { s with
            pending := some
              { params, commitRequested := false, safeBoundaryEmitted := false, valid } }).2 := by
  unfold prepare
  split
  · exact .inl rfl
  rename_i hvalid
  rw [exec_bind_ok (exec_get s)]
  cases hnext : nextGeneration s.identity.authGeneration with
  | error message => exact .inl rfl
  | ok expected =>
    rw [exec_bind_ok (exec_checkProtocol rfl s)]
    split_ifs with hstale
    · exact .inl rfl
    rw [not_not] at hstale
    cases hpen : s.pending with
    | some existing =>
      simp only
      split_ifs <;> exact .inl rfl
    | none =>
      refine .inr ⟨rfl, by rw [hstale], hvalid, ?_⟩
      simp only [register]
      rw [exec_bind_ok (exec_modify _ s), exec_bind]
      rcases exec (observeTurnCount a) _ with ⟨_ | _, _⟩ <;> rfl

theorem prepare_cases (a : Answers) (s : RuntimeAdapter) (params : AuthTransitionParams) :
    (exec (prepare a params) s).2 = s ∨ Registers s params (exec (prepare a params) s).2 := by
  rcases exec_prepare_cases a s params with hsame | ⟨hpen, hnext, hvalid, hrun⟩
  · exact .inl hsame
  · rw [hrun]
    have hkept := sameTransit_recovering.observeTurnCount (a := a)
      { s with
        pending := some
          { params, commitRequested := false, safeBoundaryEmitted := false, valid := hvalid } }
    exact .inr ⟨by simp [prepared, hpen], hnext, hkept.prepared, hkept.identity,
      hkept.calls⟩

structure Cancels (s : RuntimeAdapter) (params : CancelAuthTransitionParams) (s' : RuntimeAdapter) :
    Prop where
  named : ∃ p, s.prepared = some p ∧ params.transitionId = p.transitionId ∧
    params.expectedGeneration = p.expectedGeneration
  cleared : s'.prepared = none
  identity : s'.identity = s.identity
  calls : s'.backendCalls = s.backendCalls

theorem cancel_cases (s : RuntimeAdapter) (params : CancelAuthTransitionParams) :
    (exec (cancel params) s).2 = s ∨ Cancels s params (exec (cancel params) s).2 := by
  cases hvalid : params.validate with
  | error message =>
    refine .inl ?_
    rw [cancel, hvalid]
    rfl
  | ok u =>
    rw [cancel, exec_bind_ok (exec_checkParams hvalid s), exec_bind_ok (exec_get s)]
    cases hpen : s.pending with
    | none => exact .inl rfl
    | some existing =>
      simp only
      split_ifs with hid
      · exact .inl rfl
      rw [not_not] at hid
      cases hnext : nextGeneration s.identity.authGeneration with
      | error message => exact .inl rfl
      | ok expected =>
        rw [exec_bind_ok (exec_checkProtocol rfl s)]
        split_ifs with hstale
        · exact .inl rfl
        simp only [not_or, not_not] at hstale
        refine .inr ⟨⟨existing.params, ?_, hid.symm, hstale.1.symm⟩, rfl, rfl, rfl⟩
        rw [prepared, hpen, Option.map_some]

structure Reloaded (s : RuntimeAdapter) (a : Answers) (params : AuthTransitionParams)
    (s' : RuntimeAdapter) : Prop where
  reloads : Reloads s a params
  cleared : s'.prepared = none
  calls : s'.backendCalls = s.backendCalls ++ [.activeTurnCount 0, .reloadAuthAndInvalidate]
  generation : s'.identity.authGeneration = s.identity.authGeneration ∨
    (s'.identity.authGeneration = params.expectedGeneration ∧
      ∃ reload, a.reloadAuthAndInvalidate = .ok reload ∧ reload.changed = true)
  account : s'.identity.accountId = match a.reloadAuthAndInvalidate with
    | .error _ => s.identity.accountId
    | .ok reload => reload.identity.accountId

theorem reloaded_commit (hrel : Reloads s a params) :
    Reloaded s a params (exec (commit a params) s).2 := by
  obtain ⟨s₁, hiden, hcalls, hrun⟩ := commit_of_reloads hrel
  have hends : ∀ {s₂}, Ended s₁ s₂ → s₂.prepared = none ∧ s₂.backendCalls =
      s.backendCalls ++ [.activeTurnCount 0, .reloadAuthAndInvalidate] := by
    intro s₂ hended
    refine ⟨by rw [prepared, hended.cleared, Option.map_none], ?_⟩
    rw [hended.calls, hcalls, List.append_assoc]
    rfl
  rw [hrun]
  cases hreload : a.reloadAuthAndInvalidate with
  | error error =>
    obtain ⟨r, s₂, hrun₂, -, hsame, hended⟩ := exec_reload_error (s := s₁) hrel.valid hreload
    obtain ⟨hclear, hcalls₂⟩ := hends hended
    rw [hrun₂]
    exact ⟨hrel, hclear, hcalls₂, .inl (by rw [hsame, hiden]),
      by rw [hsame, hiden, hreload]⟩
  | ok reload =>
    obtain ⟨r, s₂, hrun₂, hacc, hgen, -, -, -, hended⟩ :=
      exec_reload_ok (s := s₁) hrel.valid (hiden ▸ hrel.generation) hreload
    obtain ⟨hclear, hcalls₂⟩ := hends hended
    rw [hrun₂]
    refine ⟨hrel, hclear, hcalls₂, ?_, by rw [hacc, hreload]⟩
    rw [hgen, adoptedGeneration, hiden]
    cases hchan : reload.changed with
    | false => exact .inl rfl
    | true => exact .inr ⟨rfl, reload, hreload, hchan⟩

theorem commit_transition (a : Answers) (s : RuntimeAdapter) (params : AuthTransitionParams) :
    SameTransit s (exec (commit a params) s).2 ∨
      Reloaded s a params (exec (commit a params) s).2 := by
  rcases commit_cases a s params with hrel | ⟨e, hrun, -⟩ | ⟨code, message, hrun, -⟩ | ⟨-, hrun⟩
  · exact .inr (reloaded_commit hrel)
  · rw [hrun]
    exact .inl (refl_of _ s)
  · rw [hrun]
    exact .inl (refl_of _ s)
  · rw [hrun]
    refine .inl ⟨rfl, ?_, [.activeTurnCount a.activeTurnCount], rfl, by simp⟩
    simp [prepared, waiting, Function.comp_def]

/-! ### Operations of the adapter -/

def AdapterOp.prepareCall (s : RuntimeAdapter) : AdapterOp → Option AuthTransitionParams
  | .prepare params => some params
  | .request r =>
    match admitRequest s r, r.request with
    | .ok (), .prepareAuthTransition (.ok params) => some params
    | _, _ => none
  | _ => none

theorem step_of_prepareCall (h : i.1.prepareCall s = some params) :
    (step s i).1 = (exec (prepare i.2 params) s).2 := by
  obtain ⟨op, a⟩ := i
  cases op with
  | prepare params' =>
    cases h
    rfl
  | request r =>
    simp only [AdapterOp.prepareCall] at h
    split at h
    · rename_i hadm hreq
      cases h
      have hdis : (exec (dispatch a r.request) s).2 = (exec (prepare a params) s).2 := by
        rw [hreq, dispatch, exec_bind_ok (exec_checkParams rfl s), exec_bind_pure_snd]
      change (handleRequest a s r).2 = _
      rw [handleRequest, hadm, ← hdis]
    · cases h
  | _ => cases h

def AdapterOp.cancelCall (s : RuntimeAdapter) : AdapterOp → Option CancelAuthTransitionParams
  | .cancel params => some params
  | .request r =>
    match admitRequest s r, r.request with
    | .ok (), .cancelAuthTransition (.ok params) => some params
    | _, _ => none
  | _ => none

inductive Transit (s : RuntimeAdapter) (i : AdapterOp × Answers) (s' : RuntimeAdapter) : Prop
  | same (h : SameTransit s s')
  | registers (params : AuthTransitionParams) (call : i.1.prepareCall s = some params)
      (h : Registers s params s')
  | cancels (params : CancelAuthTransitionParams) (call : i.1.cancelCall s = some params)
      (h : Cancels s params s')
  | reloaded (params : AuthTransitionParams) (call : i.1.commitCall s = some params)
      (h : Reloaded s i.2 params s')

theorem transit_prepare (h : i.1.prepareCall s = some params) :
    Transit s i (exec (prepare i.2 params) s).2 := by
  rcases prepare_cases i.2 s params with hsame | hreg
  · rw [hsame]
    exact .same (refl_of _ s)
  · exact .registers params h hreg

theorem transit_cancel {params : CancelAuthTransitionParams} (h : i.1.cancelCall s = some params) :
    Transit s i (exec (cancel params) s).2 := by
  rcases cancel_cases s params with hsame | hcan
  · rw [hsame]
    exact .same (refl_of _ s)
  · exact .cancels params h hcan

theorem transit_commit (h : i.1.commitCall s = some params) :
    Transit s i (exec (commit i.2 params) s).2 := by
  rcases commit_transition i.2 s params with hsame | hrel
  · exact .same hsame
  · exact .reloaded params h hrel

theorem transit_request (s : RuntimeAdapter) (r : RpcRequest) (a : Answers) :
    Transit s (.request r, a) (step s (.request r, a)).1 := by
  rcases step_request s r a with hsame | ⟨hacc, hstep⟩
  · rw [hsame]
    exact .same (refl_of _ s)
  rw [hstep]
  cases hreq : r.request with
  | prepareAuthTransition params =>
    cases params with
    | error message => exact .same (refl_of _ s)
    | ok params =>
      rw [dispatch, exec_bind_ok (exec_checkParams rfl s), exec_bind_pure_snd]
      exact transit_prepare (by simp only [AdapterOp.prepareCall, hacc, hreq])
  | commitAuthTransition params =>
    cases params with
    | error message => exact .same (refl_of _ s)
    | ok params =>
      rw [dispatch, exec_bind_ok (exec_checkParams rfl s), exec_bind_pure_snd]
      exact transit_commit (by simp only [AdapterOp.commitCall, hacc, hreq])
  | cancelAuthTransition params =>
    cases params with
    | error message => exact .same (refl_of _ s)
    | ok params =>
      rw [dispatch, exec_bind_ok (exec_checkParams rfl s), exec_bind_pure_snd]
      exact transit_cancel (by simp only [AdapterOp.cancelCall, hacc, hreq])
  | releaseRecovery params =>
    cases params with
    | error message => exact .same (refl_of _ s)
    | ok params =>
      rw [exec_dispatch_release]
      exact .same (sameTransit_recovering.releaseRecovery params s)
  | _ =>
    refine .same (sameTransit_recovering.dispatch ?_ s)
    exact trivial

/-- **What an operation does to the transition**: it registers one, cancels or commits the pending
one, or leaves it. -/
theorem step_transition (s : RuntimeAdapter) (i : AdapterOp × Answers) :
    Transit s i (step s i).1 := by
  obtain ⟨op, a⟩ := i
  cases op with
  | request r => exact transit_request s r a
  | prepare params =>
    simp only [step]
    exact transit_prepare rfl
  | commit params =>
    simp only [step]
    exact transit_commit rfl
  | cancel params =>
    simp only [step]
    exact transit_cancel rfl
  | forwardRecovery event =>
    simp only [step]
    exact .same (sameTransit_recovering.forwardRecovery event s)
  | drainNativeRecoveryEvents =>
    simp only [step]
    exact .same (sameTransit_recovering.forwardRecoveries _ s)
  | releaseRecovery params =>
    simp only [step]
    exact .same (sameTransit_recovering.releaseRecovery params s)
  | _ =>
    refine .same (sameTransit_quiet.step ?_ s a)
    exact trivial

/-! ### The generation and the pending transition -/

def newCalls (s : RuntimeAdapter) (i : AdapterOp × Answers) : List BackendCall :=
  (step s i).1.backendCalls.drop s.backendCalls.length

def ReachesReload (s : RuntimeAdapter) (i : AdapterOp × Answers) : Prop :=
  (∃ params, i.1.commitCall s = some params) ∧ .reloadAuthAndInvalidate ∈ newCalls s i

def Advances (s : RuntimeAdapter) (i : AdapterOp × Answers) : Prop :=
  (step s i).1.identity.authGeneration = s.identity.authGeneration ∨
    ((step s i).1.identity.authGeneration.toNat = s.identity.authGeneration.toNat + 1 ∧
      ReachesReload s i ∧
      ∃ reload, i.2.reloadAuthAndInvalidate = .ok reload ∧ reload.changed = true)

def CancelsNamed (s : RuntimeAdapter) (i : AdapterOp × Answers) (p : AuthTransitionParams) : Prop :=
  ∃ params, i.1.cancelCall s = some params ∧ params.transitionId = p.transitionId ∧
    params.expectedGeneration = p.expectedGeneration

/-- A pending transition is removed by a commit that reaches the reload or a cancellation that names
it. -/
def KeepsPrepared (s : RuntimeAdapter) (i : AdapterOp × Answers) : Prop :=
  ∀ p, s.prepared = some p → (step s i).1.prepared = some p ∨
    ((step s i).1.prepared = none ∧ (ReachesReload s i ∨ CancelsNamed s i p))

def NextGeneration (s : RuntimeAdapter) : Prop :=
  ∀ p, s.prepared = some p →
    p.expectedGeneration.toNat = s.identity.authGeneration.toNat + 1

theorem toNat_of_nextGeneration {generation next : UInt64}
    (h : nextGeneration generation = .ok next) : next.toNat = generation.toNat + 1 := by
  unfold nextGeneration at h
  split_ifs at h with hlast
  cases h
  have hlt := generation.toNat_lt
  have hne : generation.toNat ≠ 18446744073709551615 := fun heq => hlast (UInt64.toNat.inj heq)
  rw [UInt64.toNat_add, UInt64.toNat_one]
  omega

theorem Reloaded.reachesReload (hcall : i.1.commitCall s = some params)
    (h : Reloaded s i.2 params (step s i).1) : ReachesReload s i := by
  refine ⟨⟨params, hcall⟩, ?_⟩
  rw [newCalls, h.calls, List.drop_left]
  simp

theorem advances_step (s : RuntimeAdapter) (i : AdapterOp × Answers) : Advances s i := by
  cases step_transition s i with
  | same h => exact .inl (by rw [h.identity])
  | registers params hcall h => exact .inl (by rw [h.identity])
  | cancels params hcall h => exact .inl (by rw [h.identity])
  | reloaded params hcall h =>
    rcases h.generation with hsame | ⟨hnext, hchan⟩
    · exact .inl hsame
    · refine .inr ⟨?_, h.reachesReload hcall, hchan⟩
      rw [hnext, toNat_of_nextGeneration h.reloads.generation]

theorem keepsPrepared_step (s : RuntimeAdapter) (i : AdapterOp × Answers) : KeepsPrepared s i := by
  intro p hp
  cases step_transition s i with
  | same h => exact .inl (h.prepared.trans hp)
  | registers params hcall h => cases h.free.symm.trans hp
  | cancels params hcall h =>
    obtain ⟨p', hp', hid, hgen⟩ := h.named
    cases hp'.symm.trans hp
    exact .inr ⟨h.cleared, .inr ⟨params, hcall, hid, hgen⟩⟩
  | reloaded params hcall h => exact .inr ⟨h.cleared, .inl (h.reachesReload hcall)⟩

theorem nextGeneration_step (s : RuntimeAdapter) (i : AdapterOp × Answers)
    (h : NextGeneration s) : NextGeneration (step s i).1 := by
  intro p hp
  cases step_transition s i with
  | same hsame =>
    rw [hsame.identity]
    exact h p (hsame.prepared.symm.trans hp)
  | registers params hcall hreg =>
    cases hreg.prepared.symm.trans hp
    rw [hreg.identity]
    exact toNat_of_nextGeneration hreg.generation
  | cancels params hcall hcan => cases hcan.cleared.symm.trans hp
  | reloaded params hcall hrel => cases hrel.cleared.symm.trans hp

/-- **A pending transition is for the next generation, and both change only as they should.** -/
theorem generation_prepared {config : AdapterConfig} {runtimeId : String}
    {account : Option String} {turns : UInt32} {s₀ : RuntimeAdapter}
    (hnew : withConfig config runtimeId account turns = .ok s₀) (is : List (AdapterOp × Answers)) :
    NextGeneration (machine.run s₀ is) ∧
      ∀ i, Advances (machine.run s₀ is) i ∧ KeepsPrepared (machine.run s₀ is) i := by
  refine ⟨?_, fun i => ⟨advances_step _ i, keepsPrepared_step _ i⟩⟩
  refine Machine.invariant_run (M := machine) nextGeneration_step is ?_
  intro p hp
  rw [RuntimeAdapter.prepared, (withConfig_eq_ok hnew).1] at hp
  cases hp

theorem generation_prepared_sample : ∃ s₀, withConfig ⟨[1], 1, []⟩ "runtime" (some "a") 0 = .ok s₀ ∧
      (machine.run s₀ [(.prepare .sample, .sample none false)]).prepared = some .sample ∧
      NextGeneration (machine.run s₀ [(.prepare .sample, .sample none false)]) := by
  refine ⟨_, rfl, rfl, ?_⟩
  have hnew : withConfig ⟨[1], 1, []⟩ "runtime" (some "a") 0 = .ok _ := rfl
  exact (generation_prepared hnew [(.prepare .sample, .sample none false)]).1

/-! ### Releases under a transition -/

def CommitsWith (s : RuntimeAdapter) (i : AdapterOp × Answers) (t : String) (g : UInt64) : Prop :=
  ∃ params r, i.1.commitCall s = some params ∧ params.transitionId = t ∧
    (exec (commit i.2 params) s).1 = .ok r ∧ r.outcome = .committed ∧ r.authGeneration = g

def RuntimeAdapter.generation (s : RuntimeAdapter) : ℕ := s.identity.authGeneration.toNat

/-- A commit of `t` was answered with `Committed`, and the generation has not changed since. -/
def StillCommitted (s : RuntimeAdapter) (is : List (AdapterOp × Answers)) (t : String) : Prop :=
  ∃ is₁ i is₂, is = is₁ ++ i :: is₂ ∧ (∃ g, CommitsWith (machine.run s is₁) i t g) ∧
    machine.Each (fun s i => (step s i).1.generation = s.generation)
      (step (machine.run s is₁) i).1 is₂

theorem generation_le_step (s : RuntimeAdapter) (i : AdapterOp × Answers) :
    s.generation ≤ (step s i).1.generation := by
  rcases advances_step s i with hsame | ⟨hnext, -⟩
  · exact (congrArg UInt64.toNat hsame).ge
  · exact (Nat.le_succ _).trans hnext.ge

theorem CommitsWith.generation {t : String} {g : UInt64} (h : CommitsWith s i t g) :
    (step s i).1.identity.authGeneration = g := by
  obtain ⟨params, r, hcall, -, hanswer, hcom, rfl⟩ := h
  have hexec : exec (commit i.2 params) s = (.ok r, (exec (commit i.2 params) s).2) := by
    rw [← hanswer]
  obtain ⟨-, reload, -, -, -, hr, -, hgen⟩ := reloads_of_committed hexec hcom
  rw [step_of_commitCall hcall, hgen, hr]

def committedRun : List (AdapterOp × Answers) :=
  [(.prepare .sample, .sample none false), (.commit .sample, .sample (some "b") true), parkSample]

def RecoveryReleaseParams.committed : RecoveryReleaseParams :=
  { RecoveryReleaseParams.sample with expectedGeneration := 2 }

end CodexMarathon.Adapter
