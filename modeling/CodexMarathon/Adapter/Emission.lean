/-
**Every event of the adapter passes its check.**

`push_event` checks an event before it queues it, and every operation hands on the error of a check
that fails.  The texts of these errors begin like no other error of the adapter, and no operation
answers with one.
-/

import CodexMarathon.Adapter.Commit

namespace CodexMarathon.Adapter

open Stateful

variable {a : Answers} {s : RuntimeAdapter} {params : AuthTransitionParams} {α : Type}

/-! ### Errors of the check of an event -/

/-- How the messages of `RuntimeEvent::validate` begin. -/
def IsEventText (message : String) : Prop :=
  message.toList.take 2 = ['e', 'v'] ∨ message.toList.take 2 = ['r', 'u']
deriving Decidable

theorem isEventText_of_validate {event : RuntimeEvent} {message : String}
    (h : event.validate = .error message) : IsEventText message := by
  rcases Result.bind_eq_error.1 h with hbase | ⟨-, -, hfields⟩
  · simp only [EventBase.validate, Result.bind_eq_error, Result.require_eq_error] at hbase
    rcases hbase with ⟨-, rfl⟩ | ⟨_, -, ⟨-, rfl⟩ | ⟨_, -, -, rfl⟩⟩
    · decide
    · decide
    · exact .inl (by simp [String.toList_append])
  · obtain ⟨field, -, hfield⟩ := Result.forM_eq_error hfields
    obtain ⟨-, rfl⟩ := Result.require_eq_error.1 hfield
    exact .inl (by simp [String.toList_append])

def Emitted (e : AdapterError) : Prop := ∀ message, e = .protocol message → ¬ IsEventText message

theorem raises_checkParams (x : Except String α) : Raises Emitted (checkParams x) :=
  raises_liftExcept (by cases x <;> simp [Except.mapError, Emitted])

theorem raises_fromBackend (x : Except BackendError α) : Raises Emitted (fromBackend x) :=
  raises_liftExcept (by cases x <;> simp [Except.mapError, Emitted])

theorem raises_checkProtocol {x : Except String α}
    (h : ∀ message, x = .error message → ¬ IsEventText message) :
    Raises Emitted (checkProtocol x) :=
  raises_liftExcept (by cases x <;> simp_all [Except.mapError, Emitted])

theorem raises_require {c : Prop} [Decidable c] {message : String} (h : ¬ IsEventText message) :
    Raises Emitted (checkProtocol (Result.require c message)) :=
  raises_checkProtocol fun _ hm => (Result.require_eq_error.1 hm).2 ▸ h

theorem raises_emitEvent {payload : EventPayload}
    (h : payload.eventType.requiresTransitionId = false) (generation : UInt64)
    (transitionId : Option String) :
    Raises Emitted (emitEvent a generation transitionId payload) := by
  have hid : payload.eventType.requiresTransitionId = true →
      ∃ id, transitionId = some id ∧ isBlank id = false := by
    intro hreq
    cases h.symm.trans hreq
  refine raises_of_ok fun s => ?_
  obtain ⟨event, hrun⟩ := exec_emitEvent s hid
  exact ⟨_, _, hrun⟩

theorem observeTurnCount_eq_ok (a : Answers) (s : RuntimeAdapter) :
    ∃ b s', exec (observeTurnCount a) s = (.ok b, s') := by
  rw [observeTurnCount, exec_bind_ok (exec_readTurnCount a s)]
  obtain ⟨b, s', hrun, -⟩ := exec_observeTurnCountValue _ _
  exact ⟨b, s', hrun⟩

/-- The parameters are invalid, or there is no next generation. -/
def TransitionError (s : RuntimeAdapter) (valid : Except String Unit) (e : AdapterError) : Prop :=
  (∃ message, valid = .error message ∧ e = .invalidParams message) ∨
    s.identity.authGeneration = 18446744073709551615 ∧ e = .protocol "auth_generation overflow"

variable {valid : Except String Unit}

theorem TransitionError.emitted {e : AdapterError} (h : TransitionError s valid e) : Emitted e := by
  rintro message rfl
  obtain ⟨_, -, ⟨⟩⟩ | ⟨-, ⟨⟩⟩ := h
  decide

theorem transitionError_of_params (e : AdapterError)
    (h : valid.mapError .invalidParams = .error e) : TransitionError s valid e := by
  cases valid <;> cases h
  exact .inl ⟨_, rfl, rfl⟩

theorem transitionError_of_generation (e : AdapterError)
    (h : (nextGeneration s.identity.authGeneration).mapError .protocol = .error e) :
    TransitionError s valid e := by
  unfold nextGeneration at h
  split_ifs at h with hlast <;> cases h
  exact .inr ⟨hlast, rfl⟩

theorem prepare_failsCleanly (a : Answers) (s : RuntimeAdapter) (params : AuthTransitionParams) :
    FailsCleanly (TransitionError s params.validate) (prepare a params) s := by
  unfold prepare
  split
  · rename_i message hinvalid
    rintro e ⟨⟩
    exact ⟨.inl ⟨message, hinvalid, rfl⟩, rfl⟩
  refine .bind (exec_get s) nofun ?_
  rintro _ ⟨⟩
  refine .bind rfl transitionError_of_generation fun expected _ => ?_
  split_ifs
  · exact .of_ok rfl
  cases s.pending with
  | some existing =>
    simp only
    split_ifs <;> exact .of_ok rfl
  | none =>
    simp only [register]
    rw [FailsCleanly, exec_bind_ok (exec_modify _ s)]
    obtain ⟨b, s', hrun⟩ := observeTurnCount_eq_ok a _
    rw [exec_bind_ok hrun]
    rintro e ⟨⟩

theorem cancel_failsCleanly (s : RuntimeAdapter) (params : CancelAuthTransitionParams) :
    FailsCleanly (TransitionError s params.validate) (cancel params) s := by
  refine .bind rfl transitionError_of_params fun _ _ => .bind (exec_get s) nofun ?_
  rintro _ ⟨⟩
  cases s.pending with
  | none => exact .of_ok rfl
  | some existing =>
    simp only
    split_ifs
    · exact .of_ok rfl
    refine .bind rfl transitionError_of_generation fun expected _ => ?_
    split_ifs <;> exact .of_ok rfl

theorem exec_commitPending (hvalid : params.validate = .ok ())
    (hnext : nextGeneration s.identity.authGeneration = .ok params.expectedGeneration) :
    ∃ r s', exec (commitPending a params) s = (.ok r, s') := by
  by_cases hidle : a.activeTurnCount = 0
  · obtain ⟨b, s₁, hobs, hiden, -⟩ :=
      exec_observeTurnCountValue (a := a) (s.counting a) a.activeTurnCount
    rw [exec_commitPending_of_idle s hidle, hobs]
    cases hreload : a.reloadAuthAndInvalidate with
    | error error =>
      obtain ⟨r, s', hrun, -⟩ := exec_reload_error (s := s₁) hvalid hreload
      exact ⟨r, s', hrun⟩
    | ok reload =>
      obtain ⟨r, s', hrun, -⟩ := exec_reload_ok (s := s₁) hvalid (hiden ▸ hnext) hreload
      exact ⟨r, s', hrun⟩
  · exact ⟨_, _, exec_commitPending_of_busy s hidle⟩

theorem commit_failsCleanly (a : Answers) (s : RuntimeAdapter) (params : AuthTransitionParams) :
    FailsCleanly (TransitionError s params.validate) (commit a params) s := by
  refine .bind rfl transitionError_of_params fun _ hvalid => .bind (exec_get s) nofun ?_
  rintro _ ⟨⟩
  cases s.pending with
  | none => exact .of_ok rfl
  | some existing =>
    simp only [commitExisting]
    split_ifs
    · exact .of_ok rfl
    · exact .of_ok rfl
    refine .bind (exec_get s) nofun ?_
    rintro _ ⟨⟩
    refine .bind rfl transitionError_of_generation fun expected hnext => ?_
    split_ifs with hstale
    · exact .of_ok rfl
    simp only [not_or, not_not] at hstale
    obtain ⟨r, s', hrun⟩ := exec_commitPending (a := a) (Result.mapError_eq_ok.1 hvalid)
      (hstale.1 ▸ Result.mapError_eq_ok.1 hnext)
    exact .of_ok hrun

/-! ### The other operations -/

theorem raises_prepare (params : AuthTransitionParams) : Raises Emitted (prepare a params) :=
  fun s e he => (prepare_failsCleanly a s params e he).1.emitted

theorem raises_commit (params : AuthTransitionParams) : Raises Emitted (commit a params) :=
  fun s e he => (commit_failsCleanly a s params e he).1.emitted

theorem raises_cancel (params : CancelAuthTransitionParams) : Raises Emitted (cancel params) :=
  fun s e he => (cancel_failsCleanly s params e he).1.emitted

theorem raises_observeTurnCountValue (count : UInt32) :
    Raises Emitted (observeTurnCountValue a count) := by
  refine raises_of_ok fun s => ?_
  obtain ⟨b, s', hrun, -⟩ := exec_observeTurnCountValue s count
  exact ⟨b, s', hrun⟩

theorem raises_runtimeState : Raises Emitted (runtimeState a) :=
  (raises_of_ok fun s => ⟨_, _, exec_readTurnCount a s⟩).bind fun count =>
    (raises_observeTurnCountValue count).bind fun _ => raises_get.bind fun _ => raises_pure _

theorem raises_onFirst {first : AdapterM Unit} (h : Raises Emitted first) (kind : EventType)
    (recoveryId : String) : Raises Emitted (onFirst kind recoveryId first) := by
  refine raises_get.bind fun s => ?_
  split_ifs
  · exact raises_pure _
  · exact (raises_modify _).bind fun _ => h.bind fun _ => raises_pure _

theorem raises_advanceRecovery {payload : Option String → Option String → EventPayload}
    (h : ∀ threadId turnId, (payload threadId turnId).eventType.requiresTransitionId = false)
    (recoveryId : String) (phase : RecoveryPhase) (threadId turnId : Option String) :
    Raises Emitted (advanceRecovery a recoveryId phase threadId turnId payload) :=
  raises_get.bind fun _ => (raises_modify _).bind fun _ => raises_emitEvent (h _ _) _ _

theorem raises_forwardRecovery (event : RecoveryLifecycleEvent) :
    Raises Emitted (forwardRecovery a event) := by
  cases event with
  | parked =>
    exact (raises_require (by decide)).bind fun _ => raises_onFirst
      ((raises_modify _).bind fun _ => raises_get.bind fun _ => raises_emitEvent rfl _ _) _ _
  | started =>
    exact (raises_require (by decide)).bind fun _ =>
      raises_onFirst (raises_advanceRecovery (fun _ _ => rfl) _ _ _ _) _ _
  | completed =>
    exact (raises_require (by decide)).bind fun _ =>
      raises_onFirst (raises_advanceRecovery (fun _ _ => rfl) _ _ _ _) _ _

theorem raises_forwardRecoveries (events : List RecoveryLifecycleEvent) :
    Raises Emitted (forwardRecoveries a events) := by
  induction events with
  | nil => exact raises_pure _
  | cons event events ih =>
    exact (raises_forwardRecovery event).bind fun _ => ih.bind fun _ => raises_pure _

theorem raises_releaseRecovery (params : RecoveryReleaseParams) :
    Raises Emitted (releaseRecovery a params) := by
  refine (raises_checkParams _).bind fun _ => raises_get.bind fun s => ?_
  split
  · exact raises_pure _
  split_ifs
  · exact raises_pure _
  split
  · exact raises_pure _
  unfold releaseExisting
  split_ifs
  · exact raises_pure _
  · exact raises_pure _
  split
  · exact (raises_modify _).bind fun _ => (raises_fromBackend _).bind fun _ =>
      (raises_require (by decide)).bind fun _ =>
        Raises.bind (by
          unfold recordRelease
          split_ifs
          · exact (raises_modify _).bind fun _ => raises_modify _
          · exact raises_pure _) fun _ => raises_pure _
  · exact (raises_modify _).bind fun _ => raises_pure _

theorem raises_loginAccount (params : NativeLoginParams) :
    Raises Emitted (loginAccount a params) := by
  refine (raises_checkParams _).bind fun _ => (raises_modify _).bind fun _ =>
    (raises_fromBackend _).bind fun result => (raises_checkProtocol ?_).bind fun _ => raises_pure _
  intro message h
  simp only [NativeLoginResult.validate, Result.bind_eq_error, Result.require_eq_error] at h
  obtain ⟨-, rfl⟩ | ⟨_, -, -, rfl⟩ := h <;> decide

theorem raises_readAuthSnapshot : Raises Emitted (readAuthSnapshot a) := by
  refine (raises_modify _).bind fun _ => (raises_fromBackend _).bind fun result =>
    (raises_checkProtocol ?_).bind fun _ => raises_pure _
  intro message h
  simp only [NativeAuthSnapshotResult.validate, Result.bind_eq_error, Result.require_eq_error] at h
  obtain ⟨-, rfl⟩ | ⟨_, -, -, rfl⟩ := h <;> decide

theorem raises_refreshAccount (params : NativeRefreshParams) :
    Raises Emitted (refreshAccount a params) := by
  refine (raises_checkParams _).bind fun _ => (raises_modify _).bind fun _ =>
    (raises_fromBackend _).bind fun result => (raises_checkProtocol ?_).bind fun _ => raises_pure _
  intro message h
  simp only [NativeRefreshResult.validateFor, Result.bind_eq_error, Result.require_eq_error] at h
  obtain ⟨-, rfl⟩ | ⟨_, -, ⟨-, rfl⟩ | ⟨_, -, -, rfl⟩⟩ := h <;> decide

theorem raises_negotiate (params : VersionNegotiationParams) :
    Raises Emitted (negotiate a params) := by
  refine (raises_checkParams _).bind fun _ => raises_get.bind fun s =>
    (raises_checkProtocol ?_).bind fun _ => (raises_modify _).bind fun _ =>
      (raises_emitEvent rfl _ _).bind fun _ => raises_pure _
  intro message h
  cases hver : commonVersion s.protocolVersions params.supportedVersions <;>
    rw [hver] at h <;> cases h
  decide

theorem raises_call {β γ : Type} {p : β → AdapterM γ} (hp : ∀ b, Raises Emitted (p b))
    (x : Except String β) (f : γ → α) :
    Raises Emitted (do let b ← checkParams x; return f (← p b)) :=
  (raises_checkParams x).bind fun b => (hp b).bind fun _ => raises_pure _

theorem raises_dispatch (request : Request) : Raises Emitted (dispatch a request) := by
  cases request with
  | negotiate => exact raises_call raises_negotiate _ _
  | getRuntimeState => exact raises_call (fun _ => raises_runtimeState) _ _
  | getIdentity => exact raises_call (fun _ => raises_get) _ _
  | getAuthGeneration => exact raises_call (fun _ => raises_get) _ _
  | loginAccount => exact raises_call raises_loginAccount _ _
  | readAuthSnapshot => exact raises_call (fun _ => raises_readAuthSnapshot) _ _
  | refreshAccount => exact raises_call raises_refreshAccount _ _
  | releaseRecovery => exact raises_call raises_releaseRecovery _ _
  | prepareAuthTransition => exact raises_call raises_prepare _ _
  | commitAuthTransition => exact raises_call raises_commit _ _
  | cancelAuthTransition => exact raises_call raises_cancel _ _
  | unknown method =>
    rintro s e ⟨⟩ message ⟨⟩
    simp [IsEventText, String.toList_append]

def AdapterAnswer.Reports (message : String) : AdapterAnswer → Prop
  | .reply r => r = .error ⟨-32000, message⟩
  | .runtimeState r => r = .error (.protocol message)
  | .transition r => r = .error (.protocol message)
  | .release r => r = .error (.protocol message)
  | .observed r => r = .error (.protocol message)
  | .drained r => r = .error (.protocol message)
  | .forwarded r => r = .error (.protocol message)
  | .events _ | .reset => False

section Answers

variable {message : String} (h : IsEventText message)
include h

theorem exec_ne_eventError {p : AdapterM α} (hp : Raises Emitted p) (s : RuntimeAdapter) :
    (exec p s).1 ≠ .error (.protocol message) :=
  fun he => hp s _ he message rfl h

theorem handleRequest_ne_eventError (a : Answers) (s : RuntimeAdapter) (r : RpcRequest) :
    (handleRequest a s r).1 ≠ .error ⟨-32000, message⟩ := by
  intro he
  unfold handleRequest at he
  split at he
  · rename_i error hadmit
    cases he
    simp only [admitRequest, Result.bind_eq_error, Result.require_eq_error] at hadmit
    rcases hadmit with hvalid | ⟨_, -, ⟨-, heq⟩ | ⟨_, -, -, heq⟩⟩
    · cases hr : r.validate <;> simp [hr, Except.mapError] at hvalid
    · cases heq
      revert h
      decide
    · cases heq
  · have hne := exec_ne_eventError h (raises_dispatch (a := a) r.request) s
    rcases hrun : exec (dispatch a r.request) s with ⟨e | reply, s'⟩
    · rw [hrun] at he hne
      cases e with
      | invalidParams m => simp [Except.mapError, rpcError] at he
      | protocol m =>
        simp only [Except.mapError, rpcError] at he
        split_ifs at he <;> cases he
        exact hne rfl
      | backend e => simp [Except.mapError, rpcError] at he
    · rw [hrun] at he
      cases he

theorem step_not_reports (s : RuntimeAdapter) (i : AdapterOp × Answers) :
    ¬ (step s i).2.Reports message := by
  obtain ⟨op, a⟩ := i
  cases op with
  | request r => exact handleRequest_ne_eventError h a s r
  | runtimeState => exact exec_ne_eventError h raises_runtimeState s
  | prepare => exact exec_ne_eventError h (raises_prepare _) s
  | commit => exact exec_ne_eventError h (raises_commit _) s
  | cancel => exact exec_ne_eventError h (raises_cancel _) s
  | observeTurnCount => exact exec_ne_eventError h (raises_of_ok (observeTurnCount_eq_ok a)) s
  | observeTurnCountValue => exact exec_ne_eventError h (raises_observeTurnCountValue _) s
  | forwardRateLimitsSnapshot =>
    exact exec_ne_eventError h (raises_get.bind fun _ => raises_emitEvent rfl _ _) s
  | readAndForwardRateLimits =>
    exact exec_ne_eventError h ((raises_fromBackend _).bind fun _ =>
      raises_get.bind fun _ => raises_emitEvent rfl _ _) s
  | forwardRateLimitsUpdate =>
    exact exec_ne_eventError h (raises_get.bind fun _ => raises_emitEvent rfl _ _) s
  | forwardTurnStarted | forwardTurnCompleted =>
    exact exec_ne_eventError h ((raises_require (by decide)).bind fun _ =>
      raises_get.bind fun _ => raises_emitEvent rfl _ _) s
  | forwardRecovery => exact exec_ne_eventError h (raises_forwardRecovery _) s
  | drainNativeRecoveryEvents => exact exec_ne_eventError h (raises_forwardRecoveries _) s
  | releaseRecovery => exact exec_ne_eventError h (raises_releaseRecovery _) s
  | drainEvents | resetConnection => exact not_false

end Answers

/-- **No emission fails**: along every run of an adapter no answer is the error of an event's check.
A transition call fails only for invalid parameters or past the last generation, and then leaves the
adapter as it was. -/
theorem emissions_pass (s : RuntimeAdapter) (is : List (AdapterOp × Answers)) :
    (∀ e ∈ machine.history s is, ∀ (event : RuntimeEvent) (message : String),
      event.validate = .error message → ¬ e.2.Reports message) ∧
    (∀ (a : Answers) (params : AuthTransitionParams),
      FailsCleanly (TransitionError (machine.run s is) params.validate) (prepare a params)
          (machine.run s is) ∧
        FailsCleanly (TransitionError (machine.run s is) params.validate) (commit a params)
          (machine.run s is)) ∧ ∀ params : CancelAuthTransitionParams,
      FailsCleanly (TransitionError (machine.run s is) params.validate) (cancel params)
        (machine.run s is) := by
  refine ⟨?_, fun a params => ⟨prepare_failsCleanly a _ params, commit_failsCleanly a _ params⟩,
    fun params => cancel_failsCleanly _ params⟩
  induction is generalizing s with
  | nil => exact List.forall_mem_nil _
  | cons i is ih =>
    rw [Machine.history_cons, List.forall_mem_cons]
    exact ⟨fun _ _ hinvalid => step_not_reports (isEventText_of_validate hinvalid) s i, ih _⟩

end CodexMarathon.Adapter
