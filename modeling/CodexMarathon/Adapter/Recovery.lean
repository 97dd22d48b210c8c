/-
**Releases of parked recoveries.**

The adapter keeps two tables about recoveries: the phase that native observations and releases have
brought each of them to, and the result of the first release that succeeded.  The backend is asked
only for a recovery that is parked and has no result.
-/

import CodexMarathon.Adapter.Frames
import Mathlib.Data.List.Induction

namespace CodexMarathon.Adapter

open Stateful

variable {a : Answers} {s s' : RuntimeAdapter}

variable {i : AdapterOp × Answers} {result answer : RecoveryReleaseResult}
  {params : RecoveryReleaseParams} {id : String} {existing : RecoveryState}

structure SameBook (s s' : RuntimeAdapter) : Prop where
  recoveries : s'.recoveries = s.recoveries
  results : s'.releaseResults = s.releaseResults
  calls : ∃ calls, s'.backendCalls = s.backendCalls ++ calls ∧
    ∀ params, .releaseRecovery params ∉ calls

theorem SameBook.of_eq (hrec : s'.recoveries = s.recoveries)
    (hres : s'.releaseResults = s.releaseResults) (hcalls : s'.backendCalls = s.backendCalls) :
    SameBook s s' :=
  ⟨hrec, hres, [], by simp [hcalls], by simp⟩

instance : Std.Refl SameBook := ⟨fun _ => .of_eq rfl rfl rfl⟩

instance : IsTrans RuntimeAdapter SameBook where
  trans s s' s'' h h' := by
    obtain ⟨calls, hcalls, hnot⟩ := h.calls
    obtain ⟨calls', hcalls', hnot'⟩ := h'.calls
    refine ⟨h'.recoveries.trans h.recoveries, h'.results.trans h.results, calls ++ calls', ?_, ?_⟩
    · rw [hcalls', hcalls, List.append_assoc]
    · intro params hmem
      rcases List.mem_append.1 hmem with hmem | hmem
      · exact hnot params hmem
      · exact hnot' params hmem

theorem sameBook_quiet : Quiet SameBook where
  events _ _ := .of_eq rfl rfl rfl
  count _ _ := .of_eq rfl rfl rfl
  boundary _ _ := .of_eq rfl rfl rfl
  version _ _ := .of_eq rfl rfl rfl
  calls s call h := by
    refine ⟨rfl, rfl, [call], rfl, ?_⟩
    rintro params hmem
    cases List.mem_singleton.1 hmem
    exact h

theorem sameBook_transitional : Transitional SameBook where
  toRoutine := sameBook_quiet.routine
  pending _ _ := .of_eq rfl rfl rfl
  identity _ _ := .of_eq rfl rfl rfl
  reload s := ⟨rfl, rfl, [.reloadAuthAndInvalidate], rfl, by simp⟩

/-! ### Native observations -/

def RecoveryLifecycleEvent.Parks (id : String) : RecoveryLifecycleEvent → Prop
  | .parked recoveryId _ _ _ _ => recoveryId = id
  | _ => False

def ParkedIn (s : RuntimeAdapter) (id : String) : Prop :=
  ∃ state, s.recoveries.lookup id = some state ∧ state.phase = .parked

def PastParked (s : RuntimeAdapter) (id : String) : Prop :=
  ∃ state, s.recoveries.lookup id = some state ∧ state.phase ≠ .parked

/-- What has moved on is not parked again, and what is newly parked was observed to be. -/
structure Observed (events : List RecoveryLifecycleEvent) (s s' : RuntimeAdapter) : Prop where
  results : s'.releaseResults = s.releaseResults
  calls : s'.backendCalls = s.backendCalls
  past : ∀ id, PastParked s id → PastParked s' id
  parked : ∀ id, ParkedIn s' id → ParkedIn s id ∨ ∃ event ∈ events, event.Parks id

theorem Observed.of_eq {events : List RecoveryLifecycleEvent}
    (hres : s'.releaseResults = s.releaseResults) (hcalls : s'.backendCalls = s.backendCalls)
    (hrec : s'.recoveries = s.recoveries) : Observed events s s' where
  results := hres
  calls := hcalls
  past := by
    intro id h
    rwa [PastParked, hrec]
  parked := by
    intro id h
    rw [ParkedIn, hrec] at h
    exact .inl h

instance (events : List RecoveryLifecycleEvent) : Std.Refl (Observed events) :=
  ⟨fun _ => .of_eq rfl rfl rfl⟩

instance (events : List RecoveryLifecycleEvent) : IsTrans RuntimeAdapter (Observed events) where
  trans s s' s'' h h' := by
    refine ⟨h'.results.trans h.results, h'.calls.trans h.calls,
      fun id hpast => h'.past id (h.past id hpast), ?_⟩
    intro id hparked
    rcases h'.parked id hparked with hbefore | hobs
    · exact h.parked id hbefore
    · exact .inr hobs

theorem Observed.insert_past (events : List RecoveryLifecycleEvent) (id : String)
    {state : RecoveryState} (h : state.phase ≠ .parked) :
    Observed events s { s with recoveries := s.recoveries.insert id state } where
  results := rfl
  calls := rfl
  past := by
    rintro id' ⟨state', hstate', hpast⟩
    by_cases hid : id' = id
    · exact ⟨state, by rw [hid]; exact AList.lookup_insert _, h⟩
    · exact ⟨state', (AList.lookup_insert_ne hid).trans hstate', hpast⟩
  parked := by
    rintro id' ⟨state', hstate', hparked⟩
    by_cases hid : id' = id
    · rw [hid] at hstate'
      cases (AList.lookup_insert _).symm.trans hstate'
      exact absurd hparked h
    · exact .inl ⟨state', (AList.lookup_insert_ne hid).symm.trans hstate', hparked⟩

theorem Observed.insert_parked {events : List RecoveryLifecycleEvent} {state : RecoveryState}
    (hnew : s.recoveries.lookup id = none) (hobs : ∃ event ∈ events, event.Parks id) :
    Observed events s { s with recoveries := s.recoveries.insert id state } where
  results := rfl
  calls := rfl
  past := by
    rintro id' ⟨state', hstate', hpast⟩
    have hid : id' ≠ id := by
      rintro rfl
      cases hnew.symm.trans hstate'
    exact ⟨state', (AList.lookup_insert_ne hid).trans hstate', hpast⟩
  parked := by
    rintro id' ⟨state', hstate', hparked⟩
    by_cases hid : id' = id
    · exact .inr (hid ▸ hobs)
    · exact .inl ⟨state', (AList.lookup_insert_ne hid).symm.trans hstate', hparked⟩

section Observations

variable {events : List RecoveryLifecycleEvent}

theorem observed_emitEvent (generation : UInt64) (transitionId : Option String)
    (payload : EventPayload) :
    Keeps (Observed events) (emitEvent a generation transitionId payload) :=
  keeps_emitEvent (fun _ _ => .of_eq rfl rfl rfl) generation transitionId payload

theorem observed_advanceRecovery {phase : RecoveryPhase} {threadId turnId : Option String}
    {payload : Option String → Option String → EventPayload} (h : phase ≠ .parked) :
    Keeps (Observed events) (advanceRecovery a id phase threadId turnId payload) := by
  refine keeps_get.bind fun s => ?_
  refine Keeps.bind (keeps_modify fun _ => .insert_past events id h) fun _ => ?_
  exact observed_emitEvent _ _ _

theorem observed_forwardRecovery {event : RecoveryLifecycleEvent} (h : event ∈ events) :
    Keeps (Observed events) (forwardRecovery a event) := by
  cases event with
  | parked id reason threadId turnId sourceAccountId =>
    refine (keeps_liftExcept _).bind fun _ => keeps_onFirst (fun _ _ => .of_eq rfl rfl rfl) ?_
    refine Keeps.bind (keeps_modify fun s => ?_) fun _ =>
      keeps_get.bind fun _ => observed_emitEvent _ _ _
    split_ifs with hknown
    · exact refl_of _ s
    · exact .insert_parked (by simpa using hknown) ⟨_, h, rfl⟩
  | started id threadId turnId =>
    exact (keeps_liftExcept _).bind fun _ =>
      keeps_onFirst (fun _ _ => .of_eq rfl rfl rfl) (observed_advanceRecovery nofun)
  | completed id outcome errorCode threadId turnId =>
    exact (keeps_liftExcept _).bind fun _ =>
      keeps_onFirst (fun _ _ => .of_eq rfl rfl rfl) (observed_advanceRecovery nofun)

theorem observed_forwardRecoveries : ∀ {es : List RecoveryLifecycleEvent}, es ⊆ events →
    Keeps (Observed events) (forwardRecoveries a es)
  | [], _ => keeps_pure _
  | event :: es, h => by
      rw [List.cons_subset] at h
      refine (observed_forwardRecovery h.1).bind fun _ => ?_
      exact (observed_forwardRecoveries h.2).bind fun _ => keeps_pure _

end Observations

/-! ### The release -/

/-- What `release_recovery` has checked when it asks the backend. -/
structure Dispatchable (s : RuntimeAdapter) (params : RecoveryReleaseParams)
    (existing : RecoveryState) : Prop where
  valid : params.validate = .ok ()
  noResult : s.releaseResults.lookup params.recoveryId = none
  generation : params.expectedGeneration = s.identity.authGeneration
  known : s.recoveries.lookup params.recoveryId = some existing
  thread : ∀ threadId ∈ params.threadId, ∀ recorded ∈ existing.threadId, recorded = threadId
  transition : ∀ transitionId ∈ existing.transitionId, transitionId = params.transitionId
  parked : existing.phase = .parked

def RecoveryReleaseOutcome.IsRelease (outcome : RecoveryReleaseOutcome) : Prop :=
  outcome = .released ∨ outcome = .alreadyReleased

structure Frees (a : Answers) (id : String) (answer : RecoveryReleaseResult) : Prop where
  answered : a.releaseRecovery = .ok answer
  isRelease : answer.outcome.IsRelease
  sameId : answer.recoveryId.isEmpty = true ∨ answer.recoveryId = id

def RuntimeAdapter.asked (s : RuntimeAdapter) (params : RecoveryReleaseParams) : RuntimeAdapter :=
  { s with backendCalls := s.backendCalls ++ [.releaseRecovery params] }

theorem completeRelease_recoveryId_iff :
    (completeRelease params existing answer).recoveryId = params.recoveryId ↔
      answer.recoveryId.isEmpty = true ∨ answer.recoveryId = params.recoveryId := by
  unfold completeRelease
  by_cases hempty : answer.recoveryId.isEmpty = true <;> simp [hempty]

theorem exec_releaseParked_of_frees
    (hknown : s.recoveries.lookup params.recoveryId = some existing)
    (h : Frees a params.recoveryId answer) :
    exec (releaseParked a params existing) s =
      (.ok (completeRelease params existing answer),
        { s.asked params with
          recoveries := s.recoveries.insert params.recoveryId (existing.release params)
          releaseResults := s.releaseResults.insert params.recoveryId
            (completeRelease params existing answer) }) := by
  have hanswer : exec (fromBackend a.releaseRecovery) (s.asked params) =
      (.ok answer, s.asked params) := by
    rw [h.answered]
    rfl
  have hsame : (completeRelease params existing answer).recoveryId = params.recoveryId :=
    completeRelease_recoveryId_iff.2 h.sameId
  have hout : (completeRelease params existing answer).outcome = .released ∨
      (completeRelease params existing answer).outcome = .alreadyReleased := h.isRelease
  rw [releaseParked, recordCall, exec_bind_ok (exec_modify _ s)]
  change exec (fromBackend a.releaseRecovery >>= _) (s.asked params) = _
  rw [exec_bind_ok hanswer]
  simp only
  rw [exec_bind_ok (exec_checkProtocol (y := ()) (Result.require_eq_ok.2 hsame) _), recordRelease,
    if_pos hout]
  have hlookup : (s.asked params).recoveries.lookup params.recoveryId = some existing := hknown
  simp only [bind_assoc, exec_bind, exec_modify, rememberRelease, hlookup, exec_pure]
  rfl

theorem exec_releaseParked_of_not_frees (h : ∀ answer, ¬ Frees a params.recoveryId answer) :
    (exec (releaseParked a params existing) s).2 = s.asked params := by
  rw [releaseParked, recordCall, exec_bind_ok (exec_modify _ s)]
  change (exec (fromBackend a.releaseRecovery >>= _) (s.asked params)).2 = _
  cases hans : a.releaseRecovery with
  | error error => rfl
  | ok answer =>
    have hanswer : exec (fromBackend (.ok answer)) (s.asked params) =
        (.ok answer, s.asked params) := rfl
    rw [exec_bind_ok hanswer]
    simp only
    by_cases hsame : (completeRelease params existing answer).recoveryId = params.recoveryId
    · rw [exec_bind_ok (exec_checkProtocol (y := ()) (Result.require_eq_ok.2 hsame) _),
        recordRelease, if_neg]
      · rfl
      · intro hrel
        exact h answer ⟨hans, hrel, completeRelease_recoveryId_iff.1 hsame⟩
    · rw [exec_bind, Result.require, if_neg hsame]
      rfl

theorem observed_release (s : RuntimeAdapter) (params : RecoveryReleaseParams)
    (existing : RecoveryState) : Observed [] s
      { s with recoveries := s.recoveries.insert params.recoveryId (existing.release params) } :=
  .insert_past [] params.recoveryId nofun

/-- **What a request for a release does**: nothing; a result for a recovery that has moved on; or
the backend is asked. -/
theorem releaseRecovery_cases (a : Answers) (s : RuntimeAdapter) (params : RecoveryReleaseParams) :
    (exec (releaseRecovery a params) s).2 = s ∨
    (s.releaseResults.lookup params.recoveryId = none ∧ ∃ result,
      (exec (releaseRecovery a params) s).2 =
        { s with releaseResults := s.releaseResults.insert params.recoveryId result }) ∨
    ∃ existing, Dispatchable s params existing ∧
      exec (releaseRecovery a params) s = exec (releaseParked a params existing) s := by
  cases hvalid : params.validate with
  | error message =>
    refine .inl ?_
    rw [releaseRecovery, hvalid]
    rfl
  | ok u =>
    rw [releaseRecovery, exec_bind_ok (exec_checkParams hvalid s), exec_bind_ok (exec_get s)]
    cases hresult : s.releaseResults.lookup params.recoveryId with
    | some previous => exact .inl rfl
    | none =>
      simp only
      split_ifs with hgen
      · exact .inl rfl
      cases hknown : s.recoveries.lookup params.recoveryId with
      | none => exact .inl rfl
      | some existing =>
        simp only [releaseExisting]
        split_ifs with hthread htran
        · exact .inl rfl
        · exact .inl rfl
        cases hphase : existing.phase with
        | parked =>
          refine .inr (.inr ⟨existing, ⟨hvalid, hresult, not_not.1 hgen, hknown, ?_,
            ?_, hphase⟩, rfl⟩)
          · intro threadId hthreadId recorded hrec
            rw [Option.mem_def] at hthreadId hrec
            simpa [hthreadId, hrec] using hthread
          · intro transitionId htransitionId
            rw [Option.mem_def] at htransitionId
            simpa [htransitionId] using htran
        | _ => exact .inr (.inl ⟨trivial, _, rfl⟩)

def AdapterOp.releaseCall (s : RuntimeAdapter) : AdapterOp → Option RecoveryReleaseParams
  | .releaseRecovery params => some params
  | .request r =>
    match admitRequest s r, r.request with
    | .ok (), .releaseRecovery (.ok params) => some params
    | _, _ => none
  | _ => none

def Enters (i : AdapterOp × Answers) (event : RecoveryLifecycleEvent) : Prop :=
  i.1 = .forwardRecovery event ∨
    (i.1 = .drainNativeRecoveryEvents ∧ event ∈ i.2.drainRecoveryEvents)

theorem step_request (s : RuntimeAdapter) (r : RpcRequest) (a : Answers) :
    (step s (.request r, a)).1 = s ∨ (admitRequest s r = .ok () ∧
        (step s (.request r, a)).1 = (exec (dispatch a r.request) s).2) := by
  change (handleRequest a s r).2 = s ∨ (_ ∧ (handleRequest a s r).2 = _)
  unfold handleRequest
  cases admitRequest s r with
  | error error => exact .inl rfl
  | ok u => exact .inr ⟨rfl, rfl⟩

theorem exec_dispatch_release (params : RecoveryReleaseParams) :
    (exec (dispatch a (.releaseRecovery (.ok params))) s).2 =
      (exec (releaseRecovery a params) s).2 := by
  rw [dispatch, exec_bind_ok (exec_checkParams rfl s), exec_bind_pure_snd]

theorem step_book_request (s : RuntimeAdapter) (r : RpcRequest) (a : Answers) :
    SameBook s (step s (.request r, a)).1 ∨
    ∃ params, (AdapterOp.request r).releaseCall s = some params ∧
      (step s (.request r, a)).1 = (exec (releaseRecovery a params) s).2 := by
  rcases step_request s r a with hsame | ⟨hacc, hstep⟩
  · rw [hsame]
    exact .inl (refl_of _ s)
  rw [hstep]
  cases hreq : r.request with
  | releaseRecovery params =>
    cases params with
    | error message => exact .inl (refl_of _ s)
    | ok params =>
      refine .inr ⟨params, ?_, exec_dispatch_release params⟩
      simp only [AdapterOp.releaseCall, hacc, hreq]
  | _ => exact .inl (sameBook_transitional.dispatch (by simp) s)

/-- **What an operation does to the tables**: nothing, or it enters observations, or it does what
`release_recovery` does. -/
theorem step_book (s : RuntimeAdapter) (i : AdapterOp × Answers) : SameBook s (step s i).1 ∨
    (∃ events, (∀ event ∈ events, Enters i event) ∧ Observed events s (step s i).1) ∨
    ∃ params, i.1.releaseCall s = some params ∧
      (step s i).1 = (exec (releaseRecovery i.2 params) s).2 := by
  obtain ⟨op, a⟩ := i
  by_cases hreq : ∃ r, op = .request r
  · obtain ⟨r, rfl⟩ := hreq
    exact (step_book_request s r a).imp_right .inr
  cases op with
  | request r => exact absurd ⟨r, rfl⟩ hreq
  | prepare params =>
    simp only [step]
    exact .inl (sameBook_transitional.prepare params s)
  | commit params =>
    simp only [step]
    exact .inl (sameBook_transitional.commit params s)
  | cancel params =>
    simp only [step]
    exact .inl (sameBook_transitional.settling.cancel params s)
  | forwardRecovery event =>
    simp only [step]
    refine .inr (.inl ⟨[event], ?_, observed_forwardRecovery (List.mem_singleton_self _) s⟩)
    intro event' hevent'
    exact .inl (by rw [List.mem_singleton.1 hevent'])
  | drainNativeRecoveryEvents =>
    simp only [step]
    exact .inr (.inl ⟨a.drainRecoveryEvents, fun event hevent => .inr ⟨rfl, hevent⟩,
      observed_forwardRecoveries (List.Subset.refl _) s⟩)
  | releaseRecovery params => exact .inr (.inr ⟨params, rfl, by simp only [step]⟩)
  | _ =>
    refine .inl (sameBook_quiet.step ?_ s a)
    exact trivial

/-- Results stay as they are, and what has moved on is not parked again. -/
structure Evolves (s s' : RuntimeAdapter) : Prop where
  results : ∀ id result, s.releaseResults.lookup id = some result →
    s'.releaseResults.lookup id = some result
  past : ∀ id, PastParked s id → PastParked s' id

theorem lookup_insert_of_lookup {results : AList fun _ : String => RecoveryReleaseResult}
    {id' : String} {result' : RecoveryReleaseResult} (hnew : results.lookup id = none)
    (h : results.lookup id' = some result') :
    (results.insert id result).lookup id' = some result' := by
  have hid : id' ≠ id := by
    rintro rfl
    cases hnew.symm.trans h
  exact (AList.lookup_insert_ne hid).trans h

theorem SameBook.evolves (h : SameBook s s') : Evolves s s' where
  results := by
    intro id result hresult
    rwa [h.results]
  past := by
    intro id hpast
    rwa [PastParked, h.recoveries]

theorem evolves_releaseRecovery (a : Answers) (s : RuntimeAdapter)
    (params : RecoveryReleaseParams) : Evolves s (exec (releaseRecovery a params) s).2 := by
  rcases releaseRecovery_cases a s params with hsame | ⟨hnew, result, hresult⟩ |
    ⟨existing, hdis, hrun⟩
  · rw [hsame]
    exact SameBook.evolves (refl_of _ s)
  · rw [hresult]
    exact ⟨fun id result' h => lookup_insert_of_lookup hnew h, fun id h => h⟩
  · rw [hrun]
    by_cases hfrees : ∃ answer, Frees a params.recoveryId answer
    · obtain ⟨answer, hanswer⟩ := hfrees
      rw [exec_releaseParked_of_frees hdis.known hanswer]
      refine ⟨fun id result' h => lookup_insert_of_lookup hdis.noResult h, ?_⟩
      exact (observed_release s params existing).past
    · rw [exec_releaseParked_of_not_frees (not_exists.1 hfrees)]
      exact ⟨fun id result' h => h, fun id h => h⟩

theorem evolves_step (s : RuntimeAdapter) (i : AdapterOp × Answers) : Evolves s (step s i).1 := by
  rcases step_book s i with hsame | ⟨events, -, hobs⟩ | ⟨params, -, hstep⟩
  · exact hsame.evolves
  · refine ⟨?_, hobs.past⟩
    intro id result hresult
    rwa [hobs.results]
  · rw [hstep]
    exact evolves_releaseRecovery i.2 s params

theorem evolves_run (s : RuntimeAdapter) (is : List (AdapterOp × Answers)) :
    Evolves s (machine.run s is) where
  results := by
    intro id result hresult
    exact Machine.invariant_run

      (fun s i h => (evolves_step s i).results id result h) is hresult
  past := by
    intro id hpast
    exact Machine.invariant_run
      (fun s i h => (evolves_step s i).past id h) is hpast

/-! ### When the backend is asked -/

def MakesRelease (s : RuntimeAdapter) (i : AdapterOp × Answers) (params : RecoveryReleaseParams) :
    Prop :=
  .releaseRecovery params ∈ (step s i).1.backendCalls.drop s.backendCalls.length

instance (s : RuntimeAdapter) (i : AdapterOp × Answers) (params : RecoveryReleaseParams) :
    Decidable (MakesRelease s i params) :=
  inferInstanceAs (Decidable (_ ∈ _))

theorem exec_releaseParked_calls (params : RecoveryReleaseParams)
    (hknown : s.recoveries.lookup params.recoveryId = some existing) :
    (exec (releaseParked a params existing) s).2.backendCalls =
      s.backendCalls ++ [.releaseRecovery params] := by
  by_cases hfrees : ∃ answer, Frees a params.recoveryId answer
  · obtain ⟨answer, hanswer⟩ := hfrees
    rw [exec_releaseParked_of_frees hknown hanswer]
    rfl
  · rw [exec_releaseParked_of_not_frees (not_exists.1 hfrees)]
    rfl

theorem MakesRelease.dispatchable (h : MakesRelease s i params) :
    ∃ existing, Dispatchable s params existing ∧
      (step s i).1 = (exec (releaseParked i.2 params existing) s).2 ∧
      exec (releaseRecovery i.2 params) s = exec (releaseParked i.2 params existing) s := by
  unfold MakesRelease at h
  rcases step_book s i with hsame | ⟨events, -, hobs⟩ | ⟨params', -, hstep⟩
  · obtain ⟨calls, hcalls, hnot⟩ := hsame.calls
    rw [hcalls, List.drop_left] at h
    exact absurd h (hnot params)
  · rw [hobs.calls, List.drop_length] at h
    cases h
  · rw [hstep] at h
    rcases releaseRecovery_cases i.2 s params' with hsame | ⟨-, result, hresult⟩ |
      ⟨existing, hdis, hrun⟩
    · rw [hsame, List.drop_length] at h
      cases h
    · rw [hresult, List.drop_length] at h
      cases h
    · rw [hrun, exec_releaseParked_calls params' hdis.known, List.drop_left] at h
      cases List.mem_singleton.1 h
      exact ⟨existing, hdis, by rw [hstep, hrun], hrun⟩

theorem parkedIn_step (h : ParkedIn (step s i).1 id) :
    ParkedIn s id ∨ ∃ event, Enters i event ∧ event.Parks id := by
  rcases step_book s i with hsame | ⟨events, henters, hobs⟩ | ⟨params, -, hstep⟩
  · rw [ParkedIn, hsame.recoveries] at h
    exact .inl h
  · rcases hobs.parked id h with hbefore | ⟨event, hevent, hparks⟩
    · exact .inl hbefore
    · exact .inr ⟨event, henters event hevent, hparks⟩
  · refine .inl ?_
    rw [hstep] at h
    rcases releaseRecovery_cases i.2 s params with hsame | ⟨-, result, hresult⟩ |
      ⟨existing, hdis, hrun⟩
    · rwa [hsame] at h
    · rwa [hresult] at h
    · rw [hrun] at h
      by_cases hfrees : ∃ answer, Frees i.2 params.recoveryId answer
      · obtain ⟨answer, hanswer⟩ := hfrees
        rw [exec_releaseParked_of_frees hdis.known hanswer] at h
        rcases (observed_release s params existing).parked id h with hbefore | ⟨event, hevent, -⟩
        · exact hbefore
        · cases hevent
      · rwa [exec_releaseParked_of_not_frees (not_exists.1 hfrees)] at h

theorem parkedIn_run (hnew : s.recoveries = ∅) (is : List (AdapterOp × Answers))
    (h : ParkedIn (machine.run s is) id) : ∃ i ∈ is, ∃ event, Enters i event ∧ event.Parks id := by
  induction is using List.reverseRecOn with
  | nil =>
    obtain ⟨state, hstate, -⟩ := h
    rw [Machine.run_nil, hnew] at hstate
    cases hstate
  | append_singleton is i ih =>
    rw [Machine.run_append] at h
    rcases parkedIn_step h with hbefore | hobs
    · obtain ⟨j, hj, hobs⟩ := ih hbefore
      exact ⟨j, List.mem_append_left _ hj, hobs⟩
    · exact ⟨i, List.mem_append_right _ (List.mem_singleton_self i), hobs⟩

structure SettledWith (s : RuntimeAdapter) (id : String) (result : RecoveryReleaseResult) :
    Prop where
  notAsked : ∀ i params, params.recoveryId = id → ¬ MakesRelease s i params
  sameResult : ∀ a params, params.validate = .ok () → params.recoveryId = id →
    exec (releaseRecovery a params) s = (.ok result, s)
  pastParked : PastParked s id

theorem settledWith_of_result (hresult : s.releaseResults.lookup id = some result)
    (hpast : PastParked s id) : SettledWith s id result where
  notAsked := by
    rintro i params rfl hasked
    obtain ⟨existing, hdis, -⟩ := hasked.dispatchable
    cases hdis.noResult.symm.trans hresult
  sameResult := by
    rintro a params hvalid rfl
    rw [releaseRecovery, exec_bind_ok (exec_checkParams hvalid s), exec_bind_ok (exec_get s), hresult]
    rfl
  pastParked := hpast

/-- **Once the backend has released a recovery, its release is settled for the rest of the run.** -/
theorem settledWith_run (hasked : MakesRelease s i params)
    (hfrees : Frees i.2 params.recoveryId answer) :
    ∃ result, (exec (releaseRecovery i.2 params) s).1 = .ok result ∧
      result.outcome = answer.outcome ∧
      ∀ js, SettledWith (machine.run (step s i).1 js) params.recoveryId result := by
  obtain ⟨existing, hdis, hstep, hrun⟩ := hasked.dispatchable
  have hrel := exec_releaseParked_of_frees hdis.known hfrees
  refine ⟨completeRelease params existing answer, by rw [hrun, hrel], rfl, ?_⟩
  intro js
  have hevol := evolves_run (step s i).1 js
  rw [hstep, hrel] at hevol ⊢
  exact settledWith_of_result (hevol.results _ _ (AList.lookup_insert _))
    (hevol.past _ ⟨_, AList.lookup_insert _, nofun⟩)

/-- **The backend is asked for parked recoveries only, and no more after it has released one.** -/
theorem release_dispatched_once {config : AdapterConfig} {runtimeId : String}
    {account : Option String} {turns : UInt32} {s₀ : RuntimeAdapter}
    (hnew : withConfig config runtimeId account turns = .ok s₀) (is : List (AdapterOp × Answers))
    (i : AdapterOp × Answers) (params : RecoveryReleaseParams)
    (hasked : MakesRelease (machine.run s₀ is) i params) :
    (∃ existing, Dispatchable (machine.run s₀ is) params existing) ∧
    (∃ j ∈ is, ∃ event, Enters j event ∧ event.Parks params.recoveryId) ∧
    ∀ answer, Frees i.2 params.recoveryId answer →
      ∃ result, (exec (releaseRecovery i.2 params) (machine.run s₀ is)).1 = .ok result ∧
        result.outcome = answer.outcome ∧
        ∀ js, SettledWith (machine.run (step (machine.run s₀ is) i).1 js) params.recoveryId
          result := by
  obtain ⟨existing, hdis, -⟩ := hasked.dispatchable
  refine ⟨⟨existing, hdis⟩, ?_, fun answer hfrees => settledWith_run hasked hfrees⟩
  exact parkedIn_run (withConfig_eq_ok hnew).2 is ⟨existing, hdis.known, hdis.parked⟩

def RecoveryReleaseParams.sample : RecoveryReleaseParams where
  recoveryId := "r"
  threadId := some "thread"
  transitionId := "t"
  expectedGeneration := 1

def Answers.releasing : Answers :=
  { Answers.sample none false with
    releaseRecovery := .ok
      { recoveryId := "r", threadId := none, outcome := .released, errorCode := none
        errorMessage := none } }

def parkSample : AdapterOp × Answers :=
  (.forwardRecovery (.parked "r" "usage_limit_exceeded" (some "thread") none none), .releasing)

theorem frees_releasing :
    Frees .releasing "r"
      { recoveryId := "r", threadId := none, outcome := .released, errorCode := none
        errorMessage := none } :=
  ⟨rfl, .inl rfl, .inr rfl⟩

theorem release_dispatched_once_sample :
    ∃ s₀, withConfig ⟨[1], 1, []⟩ "runtime" (some "a") 0 = .ok s₀ ∧
      MakesRelease (machine.run s₀ [parkSample]) (.releaseRecovery .sample, .releasing) .sample ∧
      ∃ result, result.outcome = .released ∧
        ∀ js, SettledWith (machine.run (step (machine.run s₀ [parkSample])
          (.releaseRecovery .sample, .releasing)).1 js) "r" result := by
  refine ⟨_, rfl, by decide, ?_⟩
  have hnew : withConfig ⟨[1], 1, []⟩ "runtime" (some "a") 0 = .ok _ := rfl
  obtain ⟨-, -, hsett⟩ := release_dispatched_once hnew [parkSample]
    (.releaseRecovery .sample, .releasing) .sample (by decide)
  obtain ⟨result, -, hout, hset⟩ := hsett _ frees_releasing
  exact ⟨result, hout, hset⟩

def SameTransition (params request : RecoveryReleaseParams) : Prop :=
  request.transitionId = params.transitionId ∧
    request.expectedGeneration = params.expectedGeneration

instance (params request : RecoveryReleaseParams) : Decidable (SameTransition params request) :=
  inferInstanceAs (Decidable (_ ∧ _))

structure BoundTo (params request : RecoveryReleaseParams)
    (answer : Except AdapterError RecoveryReleaseResult) : Prop where
  released : ∀ result, answer = .ok result → result.outcome.IsRelease →
    SameTransition params request
  rejected : request.validate = .ok () → ¬ SameTransition params request →
    ∃ result, answer = .ok result ∧ result.outcome = .rejected

theorem exec_releaseRecovery_of_invalid (h : params.validate ≠ .ok ()) :
    ∃ e, exec (releaseRecovery a params) s = (.error e, s) := by
  cases hvalid : params.validate with
  | ok u => exact absurd hvalid h
  | error message =>
    refine ⟨.invalidParams message, ?_⟩
    rw [releaseRecovery, hvalid]
    rfl

/-- **A later request is held to the transition exactly when it names it.** -/
theorem release_bound_iff {s : RuntimeAdapter} {i : AdapterOp × Answers}
    {params : RecoveryReleaseParams} {answer : RecoveryReleaseResult}
    (hasked : MakesRelease s i params) (hfrees : Frees i.2 params.recoveryId answer)
    (js : List (AdapterOp × Answers)) (a : Answers) (request : RecoveryReleaseParams)
    (hid : request.recoveryId = params.recoveryId) : BoundTo params request
        (exec (releaseRecovery a request) (machine.run (step s i).1 js)).1 ↔
      (request.validate = .ok () → SameTransition params request) := by
  obtain ⟨result, -, hout, hset⟩ := settledWith_run hasked hfrees
  have hrel : result.outcome.IsRelease := by
    rw [hout]
    exact hfrees.isRelease
  constructor
  · intro hbound hvalid
    refine hbound.released result ?_ hrel
    rw [(hset js).sameResult a request hvalid hid]
  · intro hnames
    refine ⟨?_, fun hvalid hother => absurd (hnames hvalid) hother⟩
    intro result' hanswer _
    by_cases hvalid : request.validate = .ok ()
    · exact hnames hvalid
    · obtain ⟨e, herror⟩ := exec_releaseRecovery_of_invalid
        hvalid
      rw [herror] at hanswer
      cases hanswer

def parkedSample : RuntimeAdapter := machine.run .sample [parkSample]

theorem release_bound_repeated :
    MakesRelease parkedSample (.releaseRecovery .sample, .releasing) .sample ∧
      BoundTo .sample .sample (exec (releaseRecovery .releasing .sample)
        (machine.run (step parkedSample (.releaseRecovery .sample, .releasing)).1 [])).1 := by
  refine ⟨by decide, ?_⟩
  exact (release_bound_iff (by decide) frees_releasing [] .releasing .sample rfl).2
    fun _ => ⟨rfl, rfl⟩

theorem released_under_other_transition :
    let request : RecoveryReleaseParams :=
      { RecoveryReleaseParams.sample with transitionId := "other", expectedGeneration := 7 }
    MakesRelease parkedSample (.releaseRecovery .sample, .releasing) .sample ∧
      (∃ result, (exec (releaseRecovery .releasing request)
        (step parkedSample (.releaseRecovery .sample, .releasing)).1).1 = .ok result ∧
        result.outcome = .released) ∧
      ¬ SameTransition .sample request := by
  refine ⟨by decide, ⟨_, rfl, rfl⟩, by decide⟩

end CodexMarathon.Adapter
