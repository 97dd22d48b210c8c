/-
**The safe boundary of a transition.**

A prepared transition waits for the running turns to end.  The first time the adapter
learns that there is none, it reports that the safe boundary of the pending transition is reached; a
mark on the transition keeps it from doing so again.
-/

import CodexMarathon.Adapter.Transition

namespace CodexMarathon.Adapter

open Stateful

variable {a : Answers} {s s' s'' : RuntimeAdapter} {i : AdapterOp × Answers}

variable {b : Bool} {n : UInt32} {params : AuthTransitionParams}

/-! ### Turn counts and boundary events -/

def BackendCall.count? : BackendCall → Option UInt32
  | .activeTurnCount count => some count
  | _ => none

def AdapterOp.polled : AdapterOp → List UInt32
  | .observeTurnCountValue count => [count]
  | _ => []

def observed (s : RuntimeAdapter) (i : AdapterOp × Answers) : List UInt32 :=
  i.1.polled ++ (newCalls s i).filterMap BackendCall.count?

def SeesIdle (s : RuntimeAdapter) (i : AdapterOp × Answers) : Prop := 0 ∈ observed s i

instance (s : RuntimeAdapter) : DecidablePred (SeesIdle s) :=
  fun i => inferInstanceAs (Decidable (0 ∈ observed s i))

def emitted (s : RuntimeAdapter) (i : AdapterOp × Answers) : List RuntimeEvent :=
  match i.1 with
  | .drainEvents => []
  | _ => (step s i).1.events.drop s.events.length

def boundaries (t : String) (events : List RuntimeEvent) : List RuntimeEvent :=
  events.filter fun event =>
    event.base.eventType = .safeBoundaryReached ∧ event.base.transitionId = some t

def boundaryEvent (a : Answers) (s : RuntimeAdapter) (t : String) : RuntimeEvent where
  base :=
    { eventType := .safeBoundaryReached, occurredAt := a.now s.events.length
      runtimeId := s.identity.runtimeId, authGeneration := s.identity.authGeneration
      transitionId := some t }
  payload := .safeBoundaryReached "running_turn_count_zero" none

def RuntimeAdapter.mark (s : RuntimeAdapter) : Option (AuthTransitionParams × Bool) :=
  s.pending.map fun pending => (pending.params, pending.safeBoundaryEmitted)

def RuntimeAdapter.Reported (s : RuntimeAdapter) : Prop :=
  s.pending.any (·.safeBoundaryEmitted) = true

instance : DecidablePred RuntimeAdapter.Reported :=
  fun s => inferInstanceAs (Decidable (s.pending.any (·.safeBoundaryEmitted) = true))

theorem prepared_eq_map_mark (s : RuntimeAdapter) : s.prepared = s.mark.map (·.1) := by
  rw [RuntimeAdapter.mark, Option.map_map]
  rfl

theorem reported_iff {p : AuthTransitionParams} (h : s.mark = some (p, b)) :
    s.Reported ↔ b = true := by
  obtain ⟨pending, hpen, hpair⟩ := Option.map_eq_some_iff.1 h
  cases hpair
  rw [RuntimeAdapter.Reported, hpen, Option.any_some]

theorem exists_mark {p : AuthTransitionParams} (h : s.prepared = some p) :
    ∃ b, s.mark = some (p, b) := by
  rw [prepared_eq_map_mark] at h
  obtain ⟨⟨p', b⟩, hmark, rfl⟩ := Option.map_eq_some_iff.1 h
  exact ⟨b, hmark⟩

@[simp] theorem boundaries_boundaryEvent (a : Answers) (s : RuntimeAdapter) (t : String) :
    boundaries t [boundaryEvent a s t] = [boundaryEvent a s t] := by
  simp [boundaries, boundaryEvent]

theorem boundaries_eq_nil {t : String} {events : List RuntimeEvent}
    (h : ∀ event ∈ events, ¬ event.base.eventType.IsBoundary) : boundaries t events = [] := by
  refine List.filter_eq_nil_iff.2 fun event hmem hboun => h event hmem ?_
  rw [(of_decide_eq_true hboun).1]
  trivial

theorem boundaries_append (t : String) (events events' : List RuntimeEvent) :
    boundaries t (events ++ events') = boundaries t events ++ boundaries t events' :=
  List.filter_append _ _

theorem exec_emitBoundary (s : RuntimeAdapter) (pending : PendingState) :
    exec (emitBoundary a pending) s =
      (.ok true,
        { s with
          events := s.events ++ [boundaryEvent a s pending.params.transitionId]
          pending := s.pending.map (·.markBoundary pending.params.transitionId) }) := by
  have hevent : exec (emitEvent a s.identity.authGeneration (some pending.params.transitionId)
      (.safeBoundaryReached "running_turn_count_zero" none)) s =
        (.ok (), { s with
          events := s.events ++ [boundaryEvent a s pending.params.transitionId] }) := by
    rw [emitEvent, exec_bind_ok (exec_get s)]
    refine exec_pushEvent s (RuntimeEvent.validate_mk rfl s.identity.runtimeId_ne fun _ => ?_)
    exact ⟨_, rfl, AuthTransitionParams.transitionId_ne pending.valid⟩
  rw [emitBoundary, exec_bind_ok (exec_get s), exec_bind_ok hevent]
  rfl

def RuntimeAdapter.noting (s : RuntimeAdapter) (a : Answers) (n : UInt32) : RuntimeAdapter :=
  (exec (observeTurnCountValue a n) s).2

theorem calls_noting (s : RuntimeAdapter) (a : Answers) (n : UInt32) :
    (s.noting a n).backendCalls = s.backendCalls := by
  obtain ⟨b, s₁, hrun, hsame⟩ := exec_observeTurnCountValue (a := a) s n
  rw [RuntimeAdapter.noting, hrun]
  exact hsame.2

theorem noting_of_free (h : s.mark = none) :
    s.noting a n = { s with lastActiveTurnCount := n } := by
  rw [RuntimeAdapter.mark, Option.map_eq_none_iff] at h
  rw [RuntimeAdapter.noting, observeTurnCountValue, exec_bind_ok (exec_modify _ s),
    exec_bind_ok (exec_get _)]
  simp only [h]
  rfl

theorem noting_of_mark {p : AuthTransitionParams} (h : s.mark = some (p, b)) :
    (s.noting a n).mark = some (p, b || n == 0) ∧ (s.noting a n).events = s.events ++
        (if b = false ∧ n = 0 then [boundaryEvent a s p.transitionId] else []) := by
  obtain ⟨pending, hpen, hpair⟩ := Option.map_eq_some_iff.1 h
  cases hpair
  have hrun : s.noting a n =
      (exec (if n ≠ 0 ∨ pending.safeBoundaryEmitted = true then pure false
        else emitBoundary a pending) { s with lastActiveTurnCount := n }).2 := by
    rw [RuntimeAdapter.noting, observeTurnCountValue, exec_bind_ok (exec_modify _ s),
      exec_bind_ok (exec_get _)]
    simp only [hpen]
  rw [hrun]
  split_ifs with hquiet hfirst hfirst
  · rcases hquiet with hbusy | hrep
    · exact absurd hfirst.2 hbusy
    · exact absurd hfirst.1 (by simp [hrep])
  · refine ⟨?_, (List.append_nil _).symm⟩
    rcases hquiet with hbusy | hrep
    · simp [RuntimeAdapter.mark, exec_pure, hpen, hbusy]
    · simp [RuntimeAdapter.mark, exec_pure, hpen, hrep]
  · rw [exec_emitBoundary]
    refine ⟨?_, rfl⟩
    simp [RuntimeAdapter.mark, hpen, PendingState.markBoundary, hfirst.2]
  · simp only [not_or, not_not, Bool.not_eq_true] at hquiet
    exact absurd hquiet.symm hfirst

/-! ### What does not observe -/

/-- No turn count is asked for and no boundary is reported; a pending transition stays as it is, or
goes. -/
structure Unobserved (s s' : RuntimeAdapter) : Prop where
  events : ∃ events, s'.events = s.events ++ events ∧
    ∀ event ∈ events, ¬ event.base.eventType.IsBoundary
  calls : ∃ calls, s'.backendCalls = s.backendCalls ++ calls ∧ ∀ call ∈ calls, ¬ call.IsCount
  pending : s'.pending = s.pending ∨ s'.pending = none

theorem Unobserved.of_eq (hevents : s'.events = s.events)
    (hcalls : s'.backendCalls = s.backendCalls)
    (hpen : s'.pending = s.pending ∨ s'.pending = none) : Unobserved s s' :=
  ⟨⟨[], by simp [hevents], by simp⟩, ⟨[], by simp [hcalls], by simp⟩, hpen⟩

theorem Unobserved.of_call {call : BackendCall} (h : ¬ call.IsCount) (s : RuntimeAdapter) :
    Unobserved s { s with backendCalls := s.backendCalls ++ [call] } :=
  ⟨⟨[], by simp, by simp⟩, ⟨[call], rfl, by simpa using h⟩, .inl rfl⟩

instance : Std.Refl Unobserved := ⟨fun _ => .of_eq rfl rfl (.inl rfl)⟩

instance : IsTrans RuntimeAdapter Unobserved where
  trans s s' s'' h h' := by
    obtain ⟨events, hevents, hquiet⟩ := h.events
    obtain ⟨events', hevents', hquiet'⟩ := h'.events
    obtain ⟨calls, hcalls, hsilent⟩ := h.calls
    obtain ⟨calls', hcalls', hsilent'⟩ := h'.calls
    refine ⟨⟨events ++ events', ?_, ?_⟩, ⟨calls ++ calls', ?_, ?_⟩, ?_⟩
    · rw [hevents', hevents, List.append_assoc]
    · exact List.forall_mem_append.2 ⟨hquiet, hquiet'⟩
    · rw [hcalls', hcalls, List.append_assoc]
    · exact List.forall_mem_append.2 ⟨hsilent, hsilent'⟩
    · rcases h'.pending with hsame | hgone
      · rw [hsame]
        exact h.pending
      · exact .inr hgone

theorem unobserved_reporting : Reporting Unobserved where
  event s event h := ⟨⟨[event], rfl, by simpa using h⟩, ⟨[], by simp, by simp⟩, .inl rfl⟩
  version _ _ := .of_eq rfl rfl (.inl rfl)
  calls s _ _ h := .of_call h s

theorem unobserved_settling : Settling Unobserved where
  toReporting := unobserved_reporting
  cleared _ := .of_eq rfl rfl (.inr rfl)
  identity _ _ := .of_eq rfl rfl (.inl rfl)
  reload s := .of_call id s

theorem unobserved_recounting : Recounting Unobserved where
  toReporting := unobserved_reporting
  seen _ _ := .of_eq rfl rfl (.inl rfl)
  recoveries _ _ := .of_eq rfl rfl (.inl rfl)
  results _ _ := .of_eq rfl rfl (.inl rfl)
  release s _ := .of_call id s

theorem Unobserved.mark (h : Unobserved s s') : s'.mark = s.mark ∨ s'.mark = none := by
  unfold RuntimeAdapter.mark
  rcases h.pending with hsame | hgone
  · exact .inl (by rw [hsame])
  · exact .inr (by rw [hgone, Option.map_none])

theorem Unobserved.counts {calls : List BackendCall} (h : ∀ call ∈ calls, ¬ call.IsCount) :
    calls.filterMap BackendCall.count? = [] := by
  refine List.filterMap_eq_nil_iff.2 fun call hmem => ?_
  cases call with
  | activeTurnCount count => exact absurd trivial (h _ hmem)
  | _ => rfl

/-! ### Operations -/

/-- Nothing has been emitted yet, and at most a transition has been registered. -/
structure Opens (s s₁ : RuntimeAdapter) : Prop where
  events : s₁.events = s.events
  identity : s₁.identity = s.identity
  mark : s₁.mark = s.mark ∨ ∃ p, s.mark = none ∧ s₁.mark = some (p, false)

inductive Watched (s : RuntimeAdapter) (i : AdapterOp × Answers) (s' : RuntimeAdapter) : Prop
  | unobserved (polled : i.1.polled = []) (h : Unobserved s s')
  | observes (s₁ : RuntimeAdapter) (n : UInt32) (opens : Opens s s₁)
      (asked : i.1.polled = [n] ∧ s₁.backendCalls = s.backendCalls ∨
        i.1.polled = [] ∧ s₁.backendCalls = s.backendCalls ++ [.activeTurnCount n])
      (rest : Unobserved (s₁.noting i.2 n) s')

theorem watched_observeTurnCount {s₀ : RuntimeAdapter} (hpolled : i.1.polled = [])
    (hopens : Opens s s₀) (hcalls : s₀.backendCalls = s.backendCalls) :
    Watched s i (exec (observeTurnCount i.2) s₀).2 := by
  have hasks : Opens s { s₀ with
      backendCalls := s₀.backendCalls ++ [.activeTurnCount i.2.activeTurnCount] } :=
    ⟨hopens.events, hopens.identity, hopens.mark⟩
  rw [observeTurnCount, exec_bind_ok (exec_readTurnCount _ _)]
  exact .observes _ _ hasks (.inr ⟨hpolled, by rw [hcalls]⟩) (refl_of _ _)

theorem Opens.refl (s : RuntimeAdapter) : Opens s s := ⟨rfl, rfl, .inl rfl⟩

theorem watched_runtimeState (hpolled : i.1.polled = []) :
    Watched s i (exec (runtimeState i.2) s).2 := by
  have hrun : (exec (runtimeState i.2) s).2 = (exec (observeTurnCount i.2) s).2 := by
    rw [runtimeState, observeTurnCount, exec_bind_ok (exec_readTurnCount _ s),
      exec_bind_ok (exec_readTurnCount _ s)]
    obtain ⟨b, s₁, hobs, -⟩ := exec_observeTurnCountValue (a := i.2)
      { s with backendCalls := s.backendCalls ++ [.activeTurnCount i.2.activeTurnCount] }
      i.2.activeTurnCount
    rw [exec_bind_ok hobs, hobs]
    rfl
  rw [hrun]
  exact watched_observeTurnCount hpolled (.refl s) rfl

theorem watched_prepare (hpolled : i.1.polled = []) :
    Watched s i (exec (prepare i.2 params) s).2 := by
  rcases exec_prepare_cases i.2 s params with hsame | ⟨hfree, -, hvalid, hrun⟩
  · rw [hsame]
    exact .unobserved hpolled (refl_of _ s)
  · rw [hrun]
    refine watched_observeTurnCount hpolled ⟨rfl, rfl, .inr ⟨params, ?_, rfl⟩⟩ rfl
    rw [RuntimeAdapter.mark, hfree, Option.map_none]

theorem opens_counting (s : RuntimeAdapter) (a : Answers) : Opens s (s.counting a) := by
  refine ⟨rfl, rfl, .inl ?_⟩
  rw [RuntimeAdapter.mark, RuntimeAdapter.counting, Option.map_map]
  rfl

theorem watched_commit (hpolled : i.1.polled = []) :
    Watched s i (exec (commit i.2 params) s).2 := by
  rcases commit_cases i.2 s params with hrel | ⟨e, hrun, -⟩ | ⟨code, message, hrun, -⟩ |
    ⟨hwaits, hrun⟩
  · rw [exec_commit_of_reloads hrel, exec_commitPending_of_idle s hrel.idle]
    exact .observes _ _ (opens_counting s i.2) (.inr ⟨hpolled, rfl⟩)
      (unobserved_settling.commitAtSafeBoundary params _)
  · rw [hrun]
    exact .unobserved hpolled (refl_of _ s)
  · rw [hrun]
    exact .unobserved hpolled (refl_of _ s)
  · have hnoted : (s.counting i.2).noting i.2 i.2.activeTurnCount = s.waiting i.2 := by
      rw [RuntimeAdapter.noting, exec_observeTurnCountValue_of_busy _ hwaits.busy]
      rfl
    rw [hrun]
    exact .observes _ _ (opens_counting s i.2) (.inr ⟨hpolled, rfl⟩) (hnoted ▸ refl_of _ _)

theorem watched_request (s : RuntimeAdapter) (r : RpcRequest) (a : Answers) :
    Watched s (.request r, a) (step s (.request r, a)).1 := by
  rcases step_request s r a with hsame | ⟨-, hstep⟩
  · rw [hsame]
    exact .unobserved rfl (refl_of _ s)
  rw [hstep]
  cases r.request with
  | getRuntimeState empty =>
    cases empty with
    | false => exact .unobserved rfl (refl_of _ s)
    | true =>
      have hempty : exec (requireEmptyParams true) s = (.ok (), s) := exec_checkParams rfl s
      rw [dispatch, exec_bind_ok hempty, exec_bind_pure_snd]
      exact watched_runtimeState rfl
  | prepareAuthTransition params =>
    cases params with
    | error message => exact .unobserved rfl (refl_of _ s)
    | ok params =>
      rw [dispatch, exec_bind_ok (exec_checkParams rfl s), exec_bind_pure_snd]
      exact watched_prepare rfl
  | commitAuthTransition params =>
    cases params with
    | error message => exact .unobserved rfl (refl_of _ s)
    | ok params =>
      rw [dispatch, exec_bind_ok (exec_checkParams rfl s), exec_bind_pure_snd]
      exact watched_commit rfl
  | cancelAuthTransition params =>
    refine .unobserved rfl (Keeps.bind (keeps_liftExcept _) (fun params => ?_) s)
    exact (unobserved_settling.cancel params).bind fun _ => keeps_pure _
  | releaseRecovery params =>
    refine .unobserved rfl (Keeps.bind (keeps_liftExcept _) (fun params => ?_) s)
    exact (unobserved_recounting.releaseRecovery params).bind fun _ => keeps_pure _
  | _ =>
    refine .unobserved rfl (unobserved_reporting.dispatch ?_ ?_ s)
    · trivial
    · intro empty h
      cases h

theorem step_watched (s : RuntimeAdapter) (hqueue : i.1 ≠ .drainEvents) :
    Watched s i (step s i).1 := by
  obtain ⟨op, a⟩ := i
  cases op with
  | request r => exact watched_request s r a
  | runtimeState =>
    simp only [step]
    exact watched_runtimeState rfl
  | prepare params =>
    simp only [step]
    exact watched_prepare rfl
  | commit params =>
    simp only [step]
    exact watched_commit rfl
  | cancel params =>
    simp only [step]
    exact .unobserved rfl (unobserved_settling.cancel params s)
  | observeTurnCount =>
    simp only [step]
    exact watched_observeTurnCount rfl (.refl s) rfl
  | observeTurnCountValue count =>
    simp only [step]
    exact .observes s count (.refl s) (.inl ⟨rfl, rfl⟩) (refl_of _ _)
  | forwardRateLimitsSnapshot snapshot =>
    simp only [step]
    exact .unobserved rfl (unobserved_reporting.forwardRateLimitsSnapshot snapshot s)
  | readAndForwardRateLimits =>
    simp only [step]
    exact .unobserved rfl (unobserved_reporting.readAndForwardRateLimits s)
  | forwardRateLimitsUpdate rateLimits =>
    simp only [step]
    exact .unobserved rfl (unobserved_reporting.forwardRateLimitsUpdate rateLimits s)
  | forwardTurnStarted turnId threadId =>
    simp only [step]
    exact .unobserved rfl (unobserved_reporting.forwardTurnStarted turnId threadId s)
  | forwardTurnCompleted turnId threadId outcome errorCode =>
    simp only [step]
    exact .unobserved rfl
      (unobserved_reporting.forwardTurnCompleted turnId threadId outcome errorCode s)
  | forwardRecovery event =>
    simp only [step]
    exact .unobserved rfl (unobserved_recounting.forwardRecovery event s)
  | drainNativeRecoveryEvents =>
    simp only [step]
    exact .unobserved rfl (unobserved_recounting.forwardRecoveries _ s)
  | releaseRecovery params =>
    simp only [step]
    exact .unobserved rfl (unobserved_recounting.releaseRecovery params s)
  | drainEvents => exact absurd rfl hqueue
  | resetConnection => exact .unobserved rfl (unobserved_reporting.version s none)

theorem observed_of_calls {calls : List BackendCall}
    (h : (step s i).1.backendCalls = s.backendCalls ++ calls) :
    observed s i = i.1.polled ++ calls.filterMap BackendCall.count? := by
  rw [observed, newCalls, h, List.drop_left]

theorem emitted_of_events {events : List RuntimeEvent} (hqueue : i.1 ≠ .drainEvents)
    (h : (step s i).1.events = s.events ++ events) : emitted s i = events := by
  have hdrop : emitted s i = (step s i).1.events.drop s.events.length := by
    unfold emitted
    split
    · rename_i hop
      exact absurd hop hqueue
    · rfl
  rw [hdrop, h, List.drop_left]

theorem Unobserved.observed_eq_nil (hpolled : i.1.polled = []) (h : Unobserved s (step s i).1) :
    observed s i = [] := by
  obtain ⟨calls, hcalls, hsilent⟩ := h.calls
  rw [observed_of_calls hcalls, hpolled, Unobserved.counts hsilent, List.nil_append]

theorem Unobserved.observed_eq_singleton {s₁ : RuntimeAdapter}
    (hasked : i.1.polled = [n] ∧ s₁.backendCalls = s.backendCalls ∨ i.1.polled = [] ∧ s₁.backendCalls = s.backendCalls ++ [.activeTurnCount n])
    (h : Unobserved (s₁.noting i.2 n) (step s i).1) : observed s i = [n] := by
  obtain ⟨calls, hcalls, hsilent⟩ := h.calls
  rw [calls_noting] at hcalls
  rcases hasked with ⟨hpolled, hsame⟩ | ⟨hpolled, hcount⟩
  · rw [hsame] at hcalls
    rw [observed_of_calls hcalls, hpolled, Unobserved.counts hsilent, List.append_nil]
  · rw [hcount, List.append_assoc] at hcalls
    rw [observed_of_calls hcalls, hpolled, List.filterMap_append, Unobserved.counts hsilent]
    rfl

def Finds (s : RuntimeAdapter) (i : AdapterOp × Answers) (p : AuthTransitionParams) (b : Bool) :
    Prop :=
  s.mark = some (p, b) ∨ s.mark = none ∧ b = false ∧ (step s i).1.prepared = some p

theorem mark_of_prepared {p : AuthTransitionParams} {m : Option (AuthTransitionParams × Bool)}
    (h : s.prepared = some p) (hmark : s.mark = m ∨ s.mark = none) :
    s.mark = m ∧ m.map (·.1) = some p := by
  rw [prepared_eq_map_mark] at h
  rcases hmark with hsame | hgone
  · exact ⟨hsame, hsame ▸ h⟩
  · rw [hgone] at h
    cases h

theorem mark_of_finds {s₁ : RuntimeAdapter} {p : AuthTransitionParams} (h : Finds s i p b)
    (hopens : Opens s s₁) (hrest : Unobserved (s₁.noting i.2 n) (step s i).1) :
    s₁.mark = some (p, b) := by
  rcases h with hmark | ⟨hfree, rfl, hprep⟩
  · rcases hopens.mark with hsame | ⟨p', hnone, -⟩
    · exact hsame.trans hmark
    · cases hnone.symm.trans hmark
  · have hlater := (mark_of_prepared hprep hrest.mark).2
    rcases hopens.mark with hsame | ⟨p', -, hreg⟩
    · rw [noting_of_free (hsame.trans hfree)] at hlater
      cases (congrArg (Option.map (·.1)) (hsame.trans hfree)).symm.trans hlater
    · rw [(noting_of_mark hreg).1] at hlater
      cases hlater
      exact hreg

/-- **What an operation reports and marks**: the boundary, if it was not reported before and no turn
is observed to be running. -/
theorem boundary_step {p : AuthTransitionParams} (h : Finds s i p b) :
    boundaries p.transitionId (emitted s i) =
        (if b = false ∧ SeesIdle s i then [boundaryEvent i.2 s p.transitionId] else []) ∧
      ((step s i).1.prepared = some p →
        (step s i).1.mark = some (p, b || decide (SeesIdle s i))) := by
  by_cases hqueue : i.1 = .drainEvents
  · obtain ⟨op, a⟩ := i
    cases hqueue
    have hnone : ¬ SeesIdle s (.drainEvents, a) := by
      rw [SeesIdle, observed_of_calls (List.append_nil _).symm]
      exact List.not_mem_nil
    refine ⟨by simp [emitted, boundaries, hnone], fun hprep => ?_⟩
    rcases h with hmark | ⟨hfree, -⟩
    · rw [decide_eq_false hnone, Bool.or_false]
      exact hmark
    · rw [prepared_eq_map_mark] at hprep
      cases (congrArg (Option.map (·.1)) hfree).symm.trans hprep
  cases step_watched s hqueue with
  | unobserved hpolled hsame =>
    have hnone : ¬ SeesIdle s i := by
      rw [SeesIdle, hsame.observed_eq_nil hpolled]
      exact List.not_mem_nil
    obtain ⟨events, hevents, hquiet⟩ := hsame.events
    rw [emitted_of_events hqueue hevents, boundaries_eq_nil hquiet, decide_eq_false hnone,
      Bool.or_false]
    refine ⟨by simp [hnone], fun hprep => ?_⟩
    obtain ⟨hlater, hsome⟩ := mark_of_prepared hprep hsame.mark
    rcases h with hmark | ⟨hfree, -⟩
    · exact hlater.trans hmark
    · rw [hfree] at hsome
      cases hsome
  | observes s₁ n hopens hasked hrest =>
    have hsees : SeesIdle s i ↔ n = 0 := by
      rw [SeesIdle, hrest.observed_eq_singleton hasked, List.mem_singleton, eq_comm]
    obtain ⟨hnoted, hevents⟩ := noting_of_mark (a := i.2) (n := n) (mark_of_finds h hopens hrest)
    obtain ⟨events, hlater, hquiet⟩ := hrest.events
    have hsame : boundaryEvent i.2 s₁ p.transitionId = boundaryEvent i.2 s p.transitionId := by
      rw [boundaryEvent, boundaryEvent, hopens.events, hopens.identity]
    rw [hevents, hopens.events, List.append_assoc, hsame] at hlater
    rw [emitted_of_events hqueue hlater, boundaries_append, boundaries_eq_nil hquiet,
      List.append_nil]
    simp only [hsees]
    constructor
    · split_ifs
      · exact boundaries_boundaryEvent _ _ _
      · rfl
    · intro hprep
      rw [(mark_of_prepared hprep hrest.mark).1, hnoted]
      rfl

section Runs

variable {p : AuthTransitionParams}

theorem boundaries_step (h : s.prepared = some p) (i : AdapterOp × Answers) :
    boundaries p.transitionId (emitted s i) =
      if ¬ s.Reported ∧ SeesIdle s i then [boundaryEvent i.2 s p.transitionId] else [] := by
  obtain ⟨b, hmark⟩ := exists_mark h
  rw [(boundary_step (.inl hmark)).1]
  simp only [reported_iff hmark, Bool.not_eq_true]

theorem reported_step (h : s.prepared = some p) (i : AdapterOp × Answers)
    (hstays : (step s i).1.prepared = some p) :
    (step s i).1.Reported ↔ s.Reported ∨ SeesIdle s i := by
  obtain ⟨b, hmark⟩ := exists_mark h
  rw [reported_iff hmark, reported_iff ((boundary_step (.inl hmark)).2 hstays), Bool.or_eq_true,
    decide_eq_true_iff]

theorem emitted_of_prepareCall (h : s.prepared = some p) (hcall : i.1.prepareCall s = some params) :
    emitted s i = [] := by
  have hsame : (step s i).1 = s := by
    rw [step_of_prepareCall hcall]
    rcases exec_prepare_cases i.2 s params with hsame | ⟨hfree, -⟩
    · exact hsame
    · rw [RuntimeAdapter.prepared, hfree] at h
      cases h
  unfold emitted
  split
  · rfl
  · rw [hsame, List.drop_length]

/-- **The boundary of a pending transition is reported once, at the first observation of no running
turn**, in the generation that is current then. -/
theorem boundary_once {js : List (AdapterOp × Answers)} (hfree : s.prepared = none)
    (hopens : (step s i).1.prepared = some p)
    (hstays : machine.Each (fun s _ => s.prepared = some p) (step s i).1 js) :
    (boundaries p.transitionId (machine.collect emitted s (i :: js))).length =
        (if machine.Once SeesIdle s (i :: js) then 1 else 0) ∧
      (∀ before j after, i :: js = before ++ j :: after →
        boundaries p.transitionId (emitted (machine.run s before) j) =
          if ¬ machine.Once SeesIdle s before ∧ SeesIdle (machine.run s before) j then
            [boundaryEvent j.2 (machine.run s before) p.transitionId] else []) ∧
      ∀ before j after, js = before ++ j :: after →
        j.1.prepareCall (machine.run (step s i).1 before) = some p →
          emitted (machine.run (step s i).1 before) j = [] := by
  have hfinds : Finds s i p false := by
    refine .inr ⟨?_, rfl, hopens⟩
    rwa [prepared_eq_map_mark, Option.map_eq_none_iff] at hfree
  obtain ⟨hfirst, hmark⟩ := boundary_step hfinds
  have hrep : (step s i).1.Reported ↔ SeesIdle s i := by
    rw [reported_iff (hmark hopens), Bool.false_or, decide_eq_true_iff]
  have hset : ∀ s i, s.prepared = some p → (machine.step s i).1.prepared = some p →
      ((machine.step s i).1.Reported ↔ s.Reported ∨ SeesIdle s i) :=
    fun s i h hnext => reported_step h i hnext
  have hemit : ∀ s i, s.prepared = some p → boundaries p.transitionId (emitted s i) =
      if ¬ s.Reported ∧ SeesIdle s i then [boundaryEvent i.2 s p.transitionId] else [] :=
    fun s i h => boundaries_step h i
  have honce : ∀ js, machine.Once SeesIdle s (i :: js) ↔
      SeesIdle s i ∨ machine.Once SeesIdle (step s i).1 js := fun _ => Iff.rfl
  refine ⟨?_, ?_, ?_⟩
  · have hrest := Machine.length_collect_of_latch hset hemit hstays
    have hsplit : boundaries p.transitionId (machine.collect emitted s (i :: js)) =
        boundaries p.transitionId (emitted s i) ++
          machine.collect (fun s i => boundaries p.transitionId (emitted s i)) (step s i).1 js := by
      rw [boundaries, Machine.filter_collect]
      rfl
    rw [hsplit, List.length_append, hfirst, hrest]
    by_cases hidle : SeesIdle s i <;> simp [hrep, honce, hidle]
  · intro before j after hsplit
    cases before with
    | nil =>
      cases hsplit
      simpa [Machine.Once] using hfirst
    | cons i' before =>
      cases hsplit
      have hlater := Machine.emit_of_latch hset hemit hstays
      simp only [hrep, ← honce] at hlater
      exact hlater
  · intro before j after hsplit hcall
    subst hsplit
    exact emitted_of_prepareCall ((Machine.each_append before (j :: after)).1 hstays).2.1 hcall

end Runs

def prepareBusy : AdapterOp × Answers :=
  (.prepare .sample, { Answers.sample none false with activeTurnCount := 1 })

def boundaryRun : List (AdapterOp × Answers) :=
  [(.observeTurnCountValue 1, .sample none false), (.observeTurnCount, .sample none false),
    (.prepare .sample, .sample none false), (.drainEvents, .sample none false),
    (.runtimeState, .sample none false), (.commit .sample, .sample (some "b") true)]

theorem boundary_once_sample : RuntimeAdapter.sample.prepared = none ∧
      (step .sample prepareBusy).1.prepared = some .sample ∧
      machine.Each (fun s _ => s.prepared = some .sample) (step .sample prepareBusy).1 boundaryRun ∧
      (machine.run .sample (prepareBusy :: boundaryRun)).prepared = none ∧
      (boundaries "t" (machine.collect emitted .sample (prepareBusy :: boundaryRun))).length = 1 := by
  have hopens : (step .sample prepareBusy).1.prepared = some .sample := by decide
  have hstays : machine.Each (fun s _ => s.prepared = some .sample) (step .sample prepareBusy).1
      boundaryRun := by decide
  have hidle : machine.Once SeesIdle .sample (prepareBusy :: boundaryRun) := by decide
  refine ⟨rfl, hopens, hstays, by decide, ?_⟩
  exact (boundary_once rfl hopens hstays).1.trans (if_pos hidle)

end CodexMarathon.Adapter
