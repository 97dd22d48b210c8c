/-
**What a commit adopts, and what it reports.**

A commit that reaches its reload adopts the identity the reload observed, whatever it is.  It is
answered with `Committed` if that is the prepared account, and with `Rejected` if it is another
one; the generation advances only if the reload reports a change.
-/

import CodexMarathon.Adapter.Frames

namespace CodexMarathon.Adapter

open Stateful

variable {a : Answers} {s s' : RuntimeAdapter} {params : AuthTransitionParams}

theorem AuthTransitionParams.transitionId_ne (h : params.validate = .ok ()) :
    isBlank params.transitionId = false := by
  obtain ⟨⟨⟩, hid, -⟩ := Result.bind_eq_ok.1 h
  simpa using Result.require_eq_ok.1 hid

theorem exec_pushEvent {event : RuntimeEvent} (s : RuntimeAdapter) (h : event.validate = .ok ()) :
    exec (pushEvent event) s = (.ok (), { s with events := s.events ++ [event] }) := by
  rw [pushEvent, exec_bind_ok (exec_checkProtocol h s)]
  rfl

variable {generation : UInt64}

theorem exec_emitEvent (s : RuntimeAdapter) {transitionId : Option String} {payload : EventPayload}
    (h : payload.eventType.requiresTransitionId = true →
      ∃ id, transitionId = some id ∧ isBlank id = false) :
    ∃ event, exec (emitEvent a generation transitionId payload) s =
      (.ok (), { s with events := s.events ++ [event] }) := by
  unfold emitEvent
  rw [exec_bind_ok (exec_get s)]
  exact ⟨_, exec_pushEvent s (RuntimeEvent.validate_mk rfl s.identity.runtimeId_ne h)⟩

theorem exec_emitEvent_transition (s : RuntimeAdapter)
    {payload : EventPayload} (h : params.validate = .ok ()) :
    ∃ event, exec (emitEvent a generation (some params.transitionId) payload) s =
      (.ok (), { s with events := s.events ++ [event] }) :=
  exec_emitEvent s fun _ => ⟨_, rfl, AuthTransitionParams.transitionId_ne h⟩

def SameCalls (s s' : RuntimeAdapter) : Prop :=
  s'.identity = s.identity ∧ s'.backendCalls = s.backendCalls

instance : Std.Refl SameCalls := ⟨fun _ => ⟨rfl, rfl⟩⟩

instance : IsTrans RuntimeAdapter SameCalls :=
  ⟨fun _ _ _ h h' => ⟨h'.1.trans h.1, h'.2.trans h.2⟩⟩

theorem exec_reject (s : RuntimeAdapter) (code message : String) :
    exec (reject params code message) s =
      (.ok (s.rejectedResult params.transitionId params.expectedGeneration code message), s) := rfl

/-- The commit is of the pending transition and generation, and no turn is running. -/
structure Reloads (s : RuntimeAdapter) (a : Answers) (params : AuthTransitionParams) : Prop where
  valid : params.validate = .ok ()
  pending : s.pending.map (·.params) = some params
  generation : nextGeneration s.identity.authGeneration = .ok params.expectedGeneration
  idle : a.activeTurnCount = 0

structure Overflows (s : RuntimeAdapter) (params : AuthTransitionParams) : Prop where
  valid : params.validate = .ok ()
  pending : s.pending.map (fun p => (p.params.transitionId, p.params.targetAccountId)) =
    some (params.transitionId, params.targetAccountId)
  generation : ∀ g, nextGeneration s.identity.authGeneration ≠ .ok g

structure Waits (s : RuntimeAdapter) (a : Answers) (params : AuthTransitionParams) : Prop where
  valid : params.validate = .ok ()
  pending : s.pending.map (·.params) = some params
  generation : nextGeneration s.identity.authGeneration = .ok params.expectedGeneration
  busy : a.activeTurnCount ≠ 0

theorem not_overflows_of_nextGeneration {g : UInt64}
    (h : nextGeneration s.identity.authGeneration = .ok g) : ¬ Overflows s params :=
  fun hover => hover.generation g h

def RuntimeAdapter.rejection (s : RuntimeAdapter) (params : AuthTransitionParams)
    (code message : String) : TransitionResult :=
  s.rejectedResult params.transitionId params.expectedGeneration code message

def RuntimeAdapter.waiting (s : RuntimeAdapter) (a : Answers) : RuntimeAdapter :=
  { s with
    pending := s.pending.map ({ · with commitRequested := true })
    backendCalls := s.backendCalls ++ [.activeTurnCount a.activeTurnCount]
    lastActiveTurnCount := a.activeTurnCount }

theorem exec_observeTurnCountValue_of_busy (s : RuntimeAdapter) {count : UInt32} (h : count ≠ 0) :
    exec (observeTurnCountValue a count) s =
      (.ok false, { s with lastActiveTurnCount := count }) := by
  unfold observeTurnCountValue
  rw [exec_bind_ok (exec_modify _ s), exec_bind_ok (exec_get _)]
  cases hpen : s.pending with
  | none => rfl
  | some pending =>
    simp only
    rw [if_pos (.inl h)]
    rfl

theorem exec_commitPending_of_busy (s : RuntimeAdapter) (h : a.activeTurnCount ≠ 0) :
    exec (commitPending a params) s = (.ok (s.rejection params "safe_boundary_pending"
        "Codext still has a running turn; commit remains pending"), s.waiting a) := by
  rw [commitPending, exec_bind_ok (exec_modify _ s), exec_bind_ok (exec_readTurnCount a _),
    exec_bind_ok (exec_observeTurnCountValue_of_busy _ h), if_pos h]
  rfl

/-- **What a commit does**: it reaches the reload, is an error, is refused at once, or has to wait.
-/
theorem commit_cases (a : Answers) (s : RuntimeAdapter) (params : AuthTransitionParams) :
    Reloads s a params ∨ (∃ e, exec (commit a params) s = (.error e, s) ∧
      (params.validate = .ok () → Overflows s params)) ∨
    (∃ code message, exec (commit a params) s = (.ok (s.rejection params code message), s) ∧
      params.validate = .ok () ∧ ¬ Overflows s params) ∨
    (Waits s a params ∧ exec (commit a params) s = (.ok (s.rejection params "safe_boundary_pending"
        "Codext still has a running turn; commit remains pending"), s.waiting a)) := by
  cases hvalid : params.validate with
  | error message =>
    refine .inr (.inl ⟨.invalidParams message, ?_, nofun⟩)
    rw [commit, hvalid]
    rfl
  | ok u =>
    rw [commit, exec_bind_ok (exec_checkParams hvalid s), exec_bind_ok (exec_get s)]
    cases hpen : s.pending with
    | none =>
      refine .inr (.inr (.inl ⟨_, _, rfl, rfl, fun hover => ?_⟩))
      have hsome := hover.pending
      rw [hpen] at hsome
      cases hsome
    | some existing =>
      have hsame : Overflows s params → existing.params.transitionId = params.transitionId ∧
          existing.params.targetAccountId = params.targetAccountId := by
        intro hover
        have hsome := hover.pending
        rw [hpen] at hsome
        exact Prod.mk.inj (Option.some.inj hsome)
      simp only [commitExisting]
      split_ifs with hid htarget
      · exact .inr (.inr (.inl ⟨_, _, rfl, trivial, fun hover => hid (hsame hover).1⟩))
      · exact .inr (.inr (.inl ⟨_, _, rfl, trivial, fun hover =>
          htarget (hsame hover).2⟩))
      rw [not_not] at hid htarget
      rw [commitMatching, exec_bind_ok (exec_get s)]
      cases hnext : nextGeneration s.identity.authGeneration with
      | error message =>
        refine .inr (.inl ⟨.protocol message, rfl, fun _ => ⟨hvalid, ?_, by simp [hnext]⟩⟩)
        rw [hpen, Option.map_some, hid, htarget]
      | ok expected =>
        have hfits : ¬ Overflows s params := not_overflows_of_nextGeneration hnext
        rw [exec_bind_ok (exec_checkProtocol rfl _)]
        split_ifs with hstale
        · exact .inr (.inr (.inl ⟨_, _, rfl, trivial, hfits⟩))
        simp only [not_or, not_not] at hstale
        have hparams : (some existing).map (·.params) = some params := by
          rw [Option.map_some, AuthTransitionParams.ext hid htarget hstale.2.symm]
        rw [← hstale.1] at hnext
        -- only a running turn is left to keep the commit from reloading
        by_cases hidle : a.activeTurnCount = 0
        · exact .inl ⟨hvalid, by rw [hpen, hparams], hnext, hidle⟩
        · exact .inr (.inr (.inr ⟨⟨hvalid, by rw [hpen, hparams], hnext, hidle⟩,
            exec_commitPending_of_busy s hidle⟩))

/-- `p` leaves the identity alone and answers with a rejection or an error. -/
def Declines (p : AdapterM TransitionResult) (s : RuntimeAdapter) : Prop :=
  (exec p s).2.identity = s.identity ∧
    ∀ result, (exec p s).1 = .ok result → result.outcome = .rejected

theorem commit_of_not_reloads (h : ¬ Reloads s a params) : Declines (commit a params) s := by
  unfold Declines
  rcases commit_cases a s params with hrel | ⟨e, hrun, -⟩ | ⟨code, message, hrun, -⟩ | ⟨-, hrun⟩
  · exact absurd hrel h
  · rw [hrun]
    exact ⟨rfl, nofun⟩
  · rw [hrun]
    refine ⟨rfl, ?_⟩
    rintro result ⟨⟩
    rfl
  · rw [hrun]
    refine ⟨rfl, ?_⟩
    rintro result ⟨⟩
    rfl

theorem exec_observeTurnCountValue (s : RuntimeAdapter) (count : UInt32) :
    ∃ b s', exec (observeTurnCountValue a count) s = (.ok b, s') ∧ SameCalls s s' := by
  suffices h : ∃ b s', exec (observeTurnCountValue a count) s = (.ok b, s') by
    obtain ⟨b, s', hrun⟩ := h
    have hkeeps := keeps_observeTurnCountValue (R := SameCalls) (a := a) (fun _ _ => ⟨rfl, rfl⟩)
      (fun _ _ => ⟨rfl, rfl⟩) (fun _ _ => ⟨rfl, rfl⟩) count s
    rw [hrun] at hkeeps
    exact ⟨b, s', hrun, hkeeps⟩
  unfold observeTurnCountValue
  rw [exec_bind_ok (exec_modify _ s), exec_bind_ok (exec_get _)]
  cases hpen : s.pending with
  | none => exact ⟨_, _, exec_pure _ _⟩
  | some pending =>
    simp only
    split_ifs
    · exact ⟨_, _, exec_pure _ _⟩
    · unfold emitBoundary
      rw [exec_bind_ok (exec_get _)]
      obtain ⟨event, hevent⟩ := exec_emitEvent_transition _ pending.valid
      rw [exec_bind_ok hevent, exec_bind_ok (exec_modify _ _)]
      exact ⟨_, _, exec_pure _ _⟩

theorem exec_commit_of_reloads (h : Reloads s a params) :
    exec (commit a params) s = exec (commitPending a params) s := by
  obtain ⟨existing, hpen, rfl⟩ := Option.map_eq_some_iff.1 h.pending
  rw [commit, exec_bind_ok (exec_checkParams h.valid s), exec_bind_ok (exec_get s)]
  simp only [hpen]
  rw [commitExisting, if_neg (not_not.2 rfl), if_neg (not_not.2 rfl), commitMatching,
    exec_bind_ok (exec_get s), exec_bind_ok (exec_checkProtocol h.generation s), if_neg (by simp)]

def RuntimeAdapter.counting (s : RuntimeAdapter) (a : Answers) : RuntimeAdapter :=
  { s with
    pending := s.pending.map ({ · with commitRequested := true })
    backendCalls := s.backendCalls ++ [.activeTurnCount a.activeTurnCount] }

theorem exec_commitPending_of_idle (s : RuntimeAdapter) (h : a.activeTurnCount = 0) :
    exec (commitPending a params) s = exec (commitAtSafeBoundary a params)
      (exec (observeTurnCountValue a a.activeTurnCount) (s.counting a)).2 := by
  obtain ⟨b, s₁, hobs, -⟩ := exec_observeTurnCountValue (s.counting a) a.activeTurnCount
  have hcount : exec (readTurnCount a)
      { s with pending := s.pending.map ({ · with commitRequested := true }) } =
        (.ok a.activeTurnCount, s.counting a) := exec_readTurnCount a _
  rw [commitPending, exec_bind_ok (exec_modify _ s), exec_bind_ok hcount, exec_bind_ok hobs,
    if_neg (not_not.2 h), hobs]

theorem commit_of_reloads (h : Reloads s a params) :
    ∃ s₁, s₁.identity = s.identity ∧ s₁.backendCalls = s.backendCalls ++ [.activeTurnCount 0] ∧
      exec (commit a params) s = exec (commitAtSafeBoundary a params) s₁ := by
  obtain ⟨b, s₁, hobs, hiden, hcalls⟩ :=
    exec_observeTurnCountValue (s.counting a) a.activeTurnCount
  refine ⟨s₁, hiden, by rw [hcalls, RuntimeAdapter.counting, h.idle], ?_⟩
  rw [exec_commit_of_reloads h, exec_commitPending_of_idle s h.idle, hobs]

structure Ended (s s' : RuntimeAdapter) : Prop where
  cleared : s'.pending = none
  calls : s'.backendCalls = s.backendCalls ++ [.reloadAuthAndInvalidate]

theorem exec_reload_error {error : BackendError} (hvalid : params.validate = .ok ())
    (h : a.reloadAuthAndInvalidate = .error error) :
    ∃ r s', exec (commitAtSafeBoundary a params) s = (.ok r, s') ∧ r.outcome = .rejected ∧
      s'.identity = s.identity ∧ Ended s s' := by
  unfold commitAtSafeBoundary
  rw [exec_bind_ok (exec_get s)]
  obtain ⟨started, hstar⟩ := exec_emitEvent_transition s hvalid
  rw [exec_bind_ok hstar, recordCall, exec_bind_ok (exec_modify _ _)]
  simp only [h]
  unfold reloadFailed
  rw [exec_bind_ok (exec_get _)]
  obtain ⟨failed, hfailed⟩ := exec_emitEvent_transition _ hvalid
  rw [exec_bind_ok hfailed, clearPending, exec_bind_ok (exec_modify _ _), exec_reject]
  exact ⟨_, _, rfl, rfl, rfl, rfl, rfl⟩

theorem exec_emitIdentityChanged (s : RuntimeAdapter) {previous account : Option String} {changed : Bool} (hvalid : params.validate = .ok ()) :
    ∃ s', exec (emitIdentityChanged a params previous account generation changed) s =
      (.ok (), s') ∧ SameCalls s s' := by
  cases changed with
  | false => exact ⟨s, rfl, refl_of _ s⟩
  | true =>
    obtain ⟨event, hevent⟩ := exec_emitEvent_transition s hvalid
    exact ⟨_, hevent, rfl, rfl⟩

def adoptedGeneration (s : RuntimeAdapter) (params : AuthTransitionParams) (reload : BackendReload) :
    UInt64 :=
  if reload.changed then params.expectedGeneration else s.identity.authGeneration

/-- **A reload that succeeds is adopted**, and committed exactly when it observed the prepared
account. -/
theorem exec_reload_ok {reload : BackendReload} (hvalid : params.validate = .ok ())
    (hnext : nextGeneration s.identity.authGeneration = .ok params.expectedGeneration)
    (h : a.reloadAuthAndInvalidate = .ok reload) :
    ∃ r s', exec (commitAtSafeBoundary a params) s = (.ok r, s') ∧
      s'.identity.accountId = reload.identity.accountId ∧
      s'.identity.authGeneration = adoptedGeneration s params reload ∧
      r.accountId = reload.identity.accountId ∧
      r.authGeneration = adoptedGeneration s params reload ∧
      (r.outcome = if reload.identity.accountId = some params.targetAccountId then .committed
        else .rejected) ∧ Ended s s' := by
  have hgen : reloadedGeneration s.identity.authGeneration reload.changed =
      .ok (adoptedGeneration s params reload) := by
    unfold reloadedGeneration adoptedGeneration
    cases reload.changed <;> simp [hnext]
  unfold commitAtSafeBoundary
  rw [exec_bind_ok (exec_get s)]
  obtain ⟨started, hstar⟩ := exec_emitEvent_transition s hvalid
  rw [exec_bind_ok hstar, recordCall, exec_bind_ok (exec_modify _ _)]
  simp only [h, hgen]
  rw [exec_bind_ok (exec_checkProtocol rfl _)]
  by_cases htarget : reload.identity.accountId = some params.targetAccountId
  · rw [if_neg (not_not.2 htarget), reloadSucceeded, adopt, exec_bind_ok (exec_modify _ _)]
    obtain ⟨succeeded, hsuc⟩ := exec_emitEvent_transition _ hvalid
    obtain ⟨s₁, hchan, hiden, hcalls⟩ := exec_emitIdentityChanged _ hvalid
    rw [exec_bind_ok hsuc, exec_bind_ok hchan, clearPending,
      exec_bind_ok (exec_modify _ _), exec_bind_ok (exec_get _)]
    refine ⟨_, _, exec_pure _ _, ?_, ?_, ?_, rfl, (if_pos htarget).symm, rfl, hcalls⟩
    · exact congrArg RuntimeIdentity.accountId hiden
    · exact congrArg RuntimeIdentity.authGeneration hiden
    · exact congrArg RuntimeIdentity.accountId hiden
  · rw [if_pos htarget, reloadMismatched, adopt, exec_bind_ok (exec_modify _ _)]
    obtain ⟨failed, hfailed⟩ := exec_emitEvent_transition _ hvalid
    rw [exec_bind_ok hfailed, clearPending, exec_bind_ok (exec_modify _ _), exec_reject]
    exact ⟨_, _, rfl, rfl, rfl, rfl, rfl, (if_neg htarget).symm, rfl, rfl⟩

structure ReportsPrepared (prepared : AuthTransitionParams) (r : TransitionResult)
    (s' : RuntimeAdapter) : Prop where
  account : r.accountId = some prepared.targetAccountId
  generation : r.authGeneration = prepared.expectedGeneration
  identityAccount : s'.identity.accountId = some prepared.targetAccountId
  identityGeneration : s'.identity.authGeneration = prepared.expectedGeneration

theorem nextGeneration_ne {generation next : UInt64} (h : nextGeneration generation = .ok next) :
    generation ≠ next := by
  unfold nextGeneration at h
  split_ifs at h
  cases h
  intro hsame
  have : (1 : UInt64) = 0 := by simpa using hsame.symm
  exact absurd this (by decide)

theorem adoptedGeneration_eq_iff {reload : BackendReload}
    (h : nextGeneration s.identity.authGeneration = .ok params.expectedGeneration) :
    adoptedGeneration s params reload = params.expectedGeneration ↔ reload.changed = true := by
  unfold adoptedGeneration
  cases reload.changed with
  | true => simp
  | false => simpa using nextGeneration_ne h

theorem reloads_of_committed {r : TransitionResult} (h : exec (commit a params) s = (.ok r, s'))
    (hcom : r.outcome = .committed) :
    Reloads s a params ∧ ∃ reload, a.reloadAuthAndInvalidate = .ok reload ∧
      reload.identity.accountId = some params.targetAccountId ∧
      r.accountId = reload.identity.accountId ∧
      r.authGeneration = adoptedGeneration s params reload ∧
      s'.identity.accountId = reload.identity.accountId ∧
      s'.identity.authGeneration = adoptedGeneration s params reload := by
  have hrel : Reloads s a params := by
    by_contra hnot
    have hrej := (commit_of_not_reloads hnot).2 r (by rw [h])
    rw [hcom] at hrej
    cases hrej
  refine ⟨hrel, ?_⟩
  obtain ⟨s₁, hiden, -, hrun⟩ := commit_of_reloads hrel
  rw [h] at hrun
  cases hreload : a.reloadAuthAndInvalidate with
  | error error =>
    obtain ⟨r', s₂, hrun', hrej, -⟩ := exec_reload_error hrel.valid hreload
    cases hrun.trans hrun'
    rw [hcom] at hrej
    cases hrej
  | ok reload =>
    obtain ⟨r', s₂, hrun', hacc, hgen, hr, hr', hout, -⟩ :=
      exec_reload_ok hrel.valid (hiden ▸ hrel.generation) hreload
    cases hrun.trans hrun'
    have htarget : reload.identity.accountId = some params.targetAccountId := by
      by_contra hother
      rw [if_neg hother, hcom] at hout
      cases hout
    have hsame : adoptedGeneration s₁ params reload = adoptedGeneration s params reload := by
      rw [adoptedGeneration, adoptedGeneration, hiden]
    exact ⟨reload, rfl, htarget, hr, hr'.trans hsame, hacc, hgen.trans hsame⟩

/-- **A commit that is answered with `Committed` leaves the prepared account; the generation is the
prepared one exactly when the reload reported a change.** -/
theorem commit_reports_prepared_iff (s : RuntimeAdapter) (a : Answers)
    (params : AuthTransitionParams) {r : TransitionResult} {s' : RuntimeAdapter}
    (h : exec (commit a params) s = (.ok r, s')) (hcommitted : r.outcome = .committed) :
    ∃ pending, s.pending = some pending ∧ (ReportsPrepared pending.params r s' ↔
        ∃ reload, a.reloadAuthAndInvalidate = .ok reload ∧ reload.changed = true) := by
  obtain ⟨hrel, reload, hreload, htarget, hr, hr', hacc, hgen⟩ :=
    reloads_of_committed h hcommitted
  obtain ⟨pending, hpen, rfl⟩ := Option.map_eq_some_iff.1 hrel.pending
  refine ⟨pending, hpen, ?_⟩
  constructor
  · intro hrep
    refine ⟨reload, hreload, ?_⟩
    rw [← adoptedGeneration_eq_iff hrel.generation, ← hr', hrep.generation]
  · rintro ⟨reload', hreload', hchan⟩
    cases hreload.symm.trans hreload'
    have hexp := (adoptedGeneration_eq_iff hrel.generation).2 hchan
    exact ⟨hr.trans htarget, hr'.trans hexp, hacc.trans htarget,
      hgen.trans hexp⟩

def preparedSample : RuntimeAdapter :=
  machine.run .sample [(.prepare .sample, .sample none false)]

theorem commit_reports_prepared_changed : ∃ pending r s', preparedSample.pending = some pending ∧
      exec (commit (.sample (some "b") true) .sample) preparedSample = (.ok r, s') ∧
      r.outcome = .committed ∧ ReportsPrepared pending.params r s' := by
  obtain ⟨pending, hpen, hiff⟩ :=
    commit_reports_prepared_iff preparedSample (.sample (some "b") true) .sample rfl rfl
  exact ⟨pending, _, _, hpen, rfl, rfl, hiff.2 ⟨_, rfl, rfl⟩⟩

theorem commit_keeps_generation :
    ∃ r s', exec (commit (.sample (some "b") false) .sample) preparedSample = (.ok r, s') ∧
      r.outcome = .committed ∧ preparedSample.pending.map (·.params) = some .sample ∧
      r.expectedGeneration = some 2 ∧ r.authGeneration = 1 ∧ s'.identity.authGeneration = 1 ∧
      s'.identity.accountId = some "b" ∧ ¬ ReportsPrepared .sample r s' := by
  refine ⟨_, _, rfl, rfl, rfl, rfl, rfl, rfl, rfl, ?_⟩
  intro hrep
  exact absurd hrep.generation (by decide)

def Adopts (s : RuntimeAdapter) (a : Answers) (params : AuthTransitionParams) : Prop :=
  Reloads s a params ∧ ∃ reload, a.reloadAuthAndInvalidate = .ok reload ∧
    (reload.identity.accountId ≠ s.identity.accountId ∨ reload.changed = true)

structure Refused (s : RuntimeAdapter) (a : Answers) (params : AuthTransitionParams) : Prop where
  valid : params.validate = .ok ()
  representable : ¬ Overflows s params
  notObserved : Reloads s a params → ∀ reload, a.reloadAuthAndInvalidate = .ok reload →
    reload.identity.accountId ≠ some params.targetAccountId

def SameAccount (s s' : RuntimeAdapter) : Prop :=
  s'.identity.accountId = s.identity.accountId ∧
    s'.identity.authGeneration = s.identity.authGeneration

def IsRejected (r : Except AdapterError TransitionResult) : Prop :=
  ∃ result, r = .ok result ∧ result.outcome = .rejected

theorem commit_changes_iff : ¬ SameAccount s (exec (commit a params) s).2 ↔ Adopts s a params := by
  by_cases hrel : Reloads s a params
  swap
  · refine iff_of_false (not_not.2 ?_) fun h => hrel h.1
    have hiden := (commit_of_not_reloads hrel).1
    exact ⟨congrArg RuntimeIdentity.accountId hiden,
      congrArg RuntimeIdentity.authGeneration hiden⟩
  obtain ⟨s₁, hiden, -, hrun⟩ := commit_of_reloads hrel
  rw [hrun]
  cases hreload : a.reloadAuthAndInvalidate with
  | error error =>
    obtain ⟨r, s₂, hrun', -, hsame, -⟩ := exec_reload_error hrel.valid hreload
    rw [hrun']
    refine iff_of_false (not_not.2 ?_) ?_
    · rw [SameAccount, hsame, hiden]
      exact ⟨rfl, rfl⟩
    · rintro ⟨-, reload, h, -⟩
      rw [hreload] at h
      cases h
  | ok reload =>
    obtain ⟨r, s₂, hrun', hacc, hgen, -⟩ :=
      exec_reload_ok hrel.valid (hiden ▸ hrel.generation) hreload
    have hadop : adoptedGeneration s₁ params reload = s.identity.authGeneration ↔
        reload.changed = false := by
      unfold adoptedGeneration
      rw [hiden]
      cases reload.changed with
      | true => simpa using (nextGeneration_ne hrel.generation).symm
      | false => simp
    rw [hrun', SameAccount, hacc, hgen, hadop, Adopts]
    simp only [hrel, hreload, true_and, Except.ok.injEq, exists_eq_left', not_and_or,
      Bool.not_eq_false]

theorem commit_rejected_of_reloads (hrel : Reloads s a params) :
    IsRejected (exec (commit a params) s).1 ↔ ∀ reload, a.reloadAuthAndInvalidate = .ok reload →
      reload.identity.accountId ≠ some params.targetAccountId := by
  obtain ⟨s₁, hiden, -, hrun⟩ := commit_of_reloads hrel
  rw [hrun]
  cases hreload : a.reloadAuthAndInvalidate with
  | error error =>
    obtain ⟨r, s₂, hrun₂, hrej, -⟩ := exec_reload_error hrel.valid hreload
    rw [hrun₂]
    exact iff_of_true ⟨r, rfl, hrej⟩ nofun
  | ok reload =>
    obtain ⟨r, s₂, hrun₂, -, -, -, -, hout, -⟩ :=
      exec_reload_ok hrel.valid (hiden ▸ hrel.generation) hreload
    rw [hrun₂]
    constructor
    · rintro ⟨result, ⟨⟩, hrej⟩ reload' ⟨⟩ htarget
      rw [if_pos htarget, hrej] at hout
      cases hout
    · intro hother
      exact ⟨r, rfl, by rw [hout, if_neg (hother reload rfl)]⟩

theorem commit_rejected_iff : IsRejected (exec (commit a params) s).1 ↔ Refused s a params := by
  by_cases hrel : Reloads s a params
  · rw [commit_rejected_of_reloads hrel]
    constructor
    · intro hother
      exact ⟨hrel.valid, not_overflows_of_nextGeneration hrel.generation, fun _ => hother⟩
    · intro href
      exact href.notObserved hrel
  rcases commit_cases a s params with h | ⟨e, hrun, hover⟩ |
    ⟨code, message, hrun, hvalid, hfits⟩ | ⟨hwaits, hrun⟩
  · exact absurd h hrel
  · rw [hrun]
    refine iff_of_false ?_ fun href => href.representable (hover href.valid)
    rintro ⟨result, ⟨⟩, -⟩
  · rw [hrun]
    exact iff_of_true ⟨_, rfl, rfl⟩ ⟨hvalid, hfits, fun h => absurd h hrel⟩
  · rw [hrun]
    exact iff_of_true ⟨_, rfl, rfl⟩ ⟨hwaits.valid,
      not_overflows_of_nextGeneration hwaits.generation, fun h => absurd h hrel⟩

def KeepsAccount (s : RuntimeAdapter) (i : AdapterOp × Answers) : Prop := SameAccount s (step s i).1

/-- A commit that is answered with `Rejected` has adopted nothing, and neither has an earlier one
for the same transition, target and generation. -/
def RejectedAdoptsNothing (s : RuntimeAdapter) (is : List (AdapterOp × Answers)) : Prop :=
  ∀ is₁ i is₂ params, is = is₁ ++ i :: is₂ → i.1.commitCall (machine.run s is₁) = some params →
    IsRejected (exec (commit i.2 params) (machine.run s is₁)).1 →
      KeepsAccount (machine.run s is₁) i ∧
        ∀ is₀ j is', is₁ = is₀ ++ j :: is' → j.1.commitCall (machine.run s is₀) = some params →
          KeepsAccount (machine.run s is₀) j

/-- A commit that is refused does not adopt, and comes after none of the same transition, target and
generation that did. -/
def RefusedBeforeAdopting (s : RuntimeAdapter) (is : List (AdapterOp × Answers)) : Prop :=
  ∀ is₁ i is₂ params, is = is₁ ++ i :: is₂ → i.1.commitCall (machine.run s is₁) = some params →
    Refused (machine.run s is₁) i.2 params →
      ¬ Adopts (machine.run s is₁) i.2 params ∧
        ∀ is₀ j is', is₁ = is₀ ++ j :: is' → j.1.commitCall (machine.run s is₀) = some params →
          ¬ Adopts (machine.run s is₀) j.2 params

theorem keepsAccount_iff {i : AdapterOp × Answers} (h : i.1.commitCall s = some params) :
    KeepsAccount s i ↔ ¬ Adopts s i.2 params := by
  rw [KeepsAccount, step_of_commitCall h, ← commit_changes_iff, not_not]

/-- **Where a rejected commit means that nothing was adopted**: no reload observes a third account,
and nothing that was adopted is committed again in vain. -/
theorem rejected_adopts_nothing_iff (s : RuntimeAdapter) (is : List (AdapterOp × Answers)) :
    RejectedAdoptsNothing s is ↔ RefusedBeforeAdopting s is := by
  refine forall₄_congr fun is₁ i is₂ params => forall₂_congr fun _ hcall => ?_
  rw [commit_rejected_iff, keepsAccount_iff hcall]
  refine imp_congr_right fun _ => and_congr_right fun _ => ?_
  exact forall₃_congr fun is₀ j is' => forall₂_congr fun _ hcall' => keepsAccount_iff hcall'

theorem rejected_adopts_third_account : ¬ RejectedAdoptsNothing .sample
      [(.prepare .sample, .sample none false), (.commit .sample, .sample (some "c") true)] := by
  intro h
  obtain ⟨⟨hacc, -⟩, -⟩ := h [(.prepare .sample, .sample none false)]
    (.commit .sample, .sample (some "c") true) [] .sample rfl rfl ⟨_, rfl, rfl⟩
  exact absurd hacc (by decide)

end CodexMarathon.Adapter
