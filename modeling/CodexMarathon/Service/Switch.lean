/-
**A switch is not all-or-nothing.**

`switch` touches three places: the native credentials in storage and in the cache, and the active
account in the registry.  Up to the installation of the target's credentials every failure leaves
all three alone; the installation changes the first two, and what comes after it can still fail.
-/

import CodexMarathon.Service.Operations

namespace CodexMarathon

open Auth Result

variable [Externals]

namespace World

variable {w : World}

theorem run_store_cases (c : StoreCall) (hdraws : c.draws = 0)
    (g : DomainError → MarathonServiceError) : (∃ v s, w.storeResult c = .ok (v, s) ∧
        run (Service.store c g) w = (.ok v, { w with store := s })) ∨
      ((∀ r, w.storeResult c ≠ .ok r) ∧ ∃ e, run (Service.store c g) w = (.error e, w)) := by
  rw [run_store]
  unfold execStore
  cases h : w.storeResult c with
  | ok r => exact .inl ⟨r.1, r.2, rfl, by simp [hdraws, Except.mapError]⟩
  | error e => exact .inr ⟨by simp, g e, rfl⟩

theorem run_snapshot_cases (id : String) : (∃ snapshot, w.snapshotResult id = .ok snapshot ∧
        run (Service.snapshotForTransition id) w = (.ok snapshot, w)) ∨
      ((∀ snapshot, w.snapshotResult id ≠ .ok snapshot) ∧
        ∃ e, run (Service.snapshotForTransition id) w = (.error e, w)) := by
  have hrun : run (Service.snapshotForTransition id) w =
      ((w.snapshotResult id).mapError fun _ => .nativeTransition, w) :=
    Prog.run_orFail exec (Service.call (.auth (.snapshotForTransition id))) _ w
  rw [hrun]
  cases w.snapshotResult id with
  | ok snapshot => exact .inl ⟨snapshot, rfl, rfl⟩
  | error e => exact .inr ⟨by simp, .nativeTransition, rfl⟩

theorem run_install_cases (source : Option String) (snapshot : AuthTransitionSnapshot) :
    (∃ status m, w.installResult source snapshot = .ok (status, m) ∧
        run (Service.install source snapshot) w = (.ok status, { w with native := m })) ∨
      ((∀ r, w.installResult source snapshot ≠ .ok r) ∧
        ∃ e, run (Service.install source snapshot) w = (.error e, w)) := by
  have hrun : run (Service.install source snapshot) w =
      ((w.execAuth (.install source snapshot)).1.mapError fun _ => .nativeTransition,
        (w.execAuth (.install source snapshot)).2) :=
    Prog.run_orFail exec (Service.call (.auth (.install source snapshot))) _ w
  rw [hrun]
  simp only [execAuth]
  cases w.installResult source snapshot with
  | ok r => exact .inl ⟨r.1, r.2, rfl, rfl⟩
  | error e => exact .inr ⟨by simp, .nativeTransition, rfl⟩

end World

namespace Service

open World

variable {w : World} {state : RegistryState} {account : AccountRecord}
  {current : Option String} {auth : AuthTransitionSnapshot}

structure Ready (w : World) (target : String) (state : RegistryState) (account : AccountRecord) :
    Prop where
  lock : ∃ r, w.storeResult .lockExclusive = .ok r
  read : w.storeResult .stateLocked = .ok (state, w.store)
  admitted : switchAdmission state.enabled (min w.runningTurns 4294967295) = none
  target : resolveTarget state target = .ok account

/-- The credentials of the current account, if there is one, are saved; `s` is the store they leave.
-/
def Captured (w : World) (state : RegistryState) (current : Option String) (s : Store) : Prop :=
  match current with
  | none => s = w.store
  | some id =>
    ∃ snapshot document, w.snapshotResult id = .ok snapshot ∧
      sourceDocument id snapshot = .ok document ∧
      w.storeResult (.saveLocked (credentialRefOf state id) document) = .ok ((), s)

def Loads (w : World) (account : AccountRecord) (auth : AuthTransitionSnapshot) : Prop :=
  ∃ document s, w.storeResult (.loadLocked account.effectiveRef) = .ok (document, s) ∧
    targetSnapshot account.id document = .ok auth

variable {s : Store}

theorem run_capture_cases (state : RegistryState) (current : Option String) :
    (∃ s, Captured w state current s ∧
        World.run (current.forM (captureSource state)) w = (.ok (), { w with store := s })) ∨
      ((∀ s, ¬ Captured w state current s) ∧
        ∃ e, World.run (current.forM (captureSource state)) w = (.error e, w)) := by
  cases current with
  | none => exact .inl ⟨w.store, rfl, rfl⟩
  | some id =>
    change (∃ s, _ ∧ World.run (captureSource state id) w = _) ∨
      (_ ∧ ∃ e, World.run (captureSource state id) w = _)
    unfold captureSource
    rcases w.run_snapshot_cases id with ⟨snapshot, hsnap, hrun⟩ | ⟨hno, e, hrun⟩
    · rw [run_bind_ok hrun]
      cases hdoc : sourceDocument id snapshot with
      | error e =>
        refine .inr ⟨?_, e, ?_⟩
        · rintro s ⟨snapshot', document, hsnap', hdoc', -⟩
          rw [hsnap] at hsnap'
          cases hsnap'
          rw [hdoc] at hdoc'
          cases hdoc'
        · exact run_bind_error (run_liftExcept _)
      | ok document =>
        rw [run_bind_ok (run_liftExcept _)]
        rcases w.run_store_cases (.saveLocked (credentialRefOf state id) document) rfl
          (fun _ => .persistence) with ⟨⟨⟩, s, hsave, hrun⟩ | ⟨hno, e, hrun⟩
        · exact .inl ⟨s, ⟨snapshot, document, hsnap, hdoc, hsave⟩, hrun⟩
        · refine .inr ⟨?_, e, hrun⟩
          rintro s ⟨snapshot', document', hsnap', hdoc', hsave⟩
          rw [hsnap] at hsnap'
          cases hsnap'
          rw [hdoc] at hdoc'
          cases hdoc'
          exact hno _ hsave
    · refine .inr ⟨?_, e, run_bind_error hrun⟩
      rintro s ⟨snapshot, -, hsnap, -⟩
      exact hno snapshot hsnap

theorem run_loadTarget_cases (account : AccountRecord) :
    (∃ auth, Loads w account auth ∧ World.run (loadTarget account) w = (.ok auth, w)) ∨
      ((∀ auth, ¬ Loads w account auth) ∧
        ∃ e, World.run (loadTarget account) w = (.error e, w)) := by
  unfold loadTarget
  rcases w.run_store_cases (.loadLocked account.effectiveRef) rfl _
    with ⟨document, s, hload, hrun⟩ | ⟨hno, e, hrun⟩
  · rw [run_bind_ok hrun, run_liftExcept]
    obtain ⟨_, -, hpair⟩ := map_eq_ok.1 (faulty_eq_ok.1 hload).2
    cases hpair
    cases htarget : targetSnapshot account.id document with
    | ok auth => exact .inl ⟨auth, ⟨document, _, hload, htarget⟩, rfl⟩
    | error e =>
      refine .inr ⟨?_, e, rfl⟩
      rintro auth ⟨document', s', hload', htarget'⟩
      rw [hload] at hload'
      cases hload'
      rw [htarget] at htarget'
      cases htarget'
  · refine .inr ⟨?_, e, run_bind_error hrun⟩
    rintro auth ⟨document, s, hload, -⟩
    exact hno _ hload

variable {m : AuthManager}

theorem run_adopt_of_install {status : AuthReloadStatus}
    (account : AccountRecord) (h : w.installResult current auth = .ok (status, m)) :
    ∃ r w', World.run (adopt current account auth) w = (r, w') ∧ w'.native = m ∧
      ((∃ g s, r = .ok g ∧ m.cachedAccount = some account.id ∧
          w.storeResult (.setActiveLocked account.id) = .ok ((), s) ∧ w'.store = s) ∨
        ((∃ e, r = .error e) ∧ w'.store = w.store ∧ ¬ (m.cachedAccount = some account.id ∧
            ∃ s, w.storeResult (.setActiveLocked account.id) = .ok s))) := by
  obtain ⟨changed, rfl⟩ : ∃ changed, status = .reloaded changed :=
    ⟨_, (AuthManager.install_eq_ok (faulty_eq_ok.1 h).2).1⟩
  have hins : World.run (install current auth) w = (.ok (.reloaded changed), { w with native := m }) := by
    rcases w.run_install_cases current auth with ⟨status', m', h', hrun⟩ | ⟨hno, -⟩
    · rw [h] at h'
      cases h'
      exact hrun
    · exact absurd h (hno _)
  unfold adopt
  rw [run_bind_ok hins, reloadedChanged_reloaded, run_bind_ok (run_liftExcept _),
    run_bind_ok run_authCached]
  by_cases hcached : m.authCached.bind (·.getAccountId) = some account.id
  · -- the cache names the target: what is left is to write the registry
    rw [require, if_pos hcached, run_bind_ok (run_liftExcept _), run_bind_ok (a := ()) rfl]
    rcases World.run_store_cases (.setActiveLocked account.id) rfl (fun _ => .persistence)
      with ⟨⟨⟩, s, hset, hrun⟩ | ⟨hno, e, hrun⟩
    · rw [run_bind_ok hrun]
      cases changed with
      | true => exact ⟨_, _, rfl, rfl, .inl ⟨_, s, rfl, hcached, hset, rfl⟩⟩
      | false => exact ⟨_, _, run_authGeneration, rfl, .inl ⟨_, s, rfl, hcached, hset, rfl⟩⟩
    · refine ⟨_, _, run_bind_error hrun, rfl, .inr ⟨⟨e, rfl⟩, rfl, ?_⟩⟩
      rintro ⟨-, s, hset⟩
      exact hno s hset
  · exact ⟨_, { w with native := m },
      run_bind_error (by rw [run_liftExcept, require, if_neg hcached]), rfl,
      .inr ⟨⟨_, rfl⟩, rfl, fun h => hcached h.1⟩⟩

/-! ### All or nothing -/

def Committed (r : Except MarathonServiceError MarathonSwitchResponse) : Prop :=
  ∃ response, r = .ok response ∧ response.outcome = .committed

def resolvedTarget (w : World) (target : String) : Option String :=
  (w.store.stateLocked.toOption.bind fun state => (resolveTarget state target).toOption).map (·.id)

/-- If it answers `Committed`, the cached, the stored and the active account are the target, and
otherwise all three are as before. -/
def AllOrNothing (w : World) (target : String) : Prop :=
  (Committed (World.run (switch target) w).1 →
    ∃ id, resolvedTarget w target = some id ∧
      (World.run (switch target) w).2.cachedAccount = some id ∧
      (World.run (switch target) w).2.storedAccount = some id ∧
      (World.run (switch target) w).2.activeAccount = some id) ∧
  (¬ Committed (World.run (switch target) w).1 →
    (World.run (switch target) w).2.cachedAccount = w.cachedAccount ∧
      (World.run (switch target) w).2.storedAccount = w.storedAccount ∧
      (World.run (switch target) w).2.activeAccount = w.activeAccount)

/-- If the target is cached it is stored; if its credentials are installed, their document names it
and the registry can be written. -/
def SwitchSound (w : World) (target : String) : Prop :=
  ∀ state account current, Ready w target state account →
    currentAccountId w.native.authCached = .ok current →
    (current = some account.id →
      (∃ r, w.storeResult (.setActiveLocked account.id) = .ok r) →
        w.storedAccount = some account.id) ∧
    (current ≠ some account.id → ∀ s auth r, Captured w state current s →
      Loads { w with store := s } account auth → w.installResult current auth = .ok r →
        (auth.authDotJson.tokens.bind (·.accountId)) = some account.id ∧
          ∃ r, w.storeResult (.setActiveLocked account.id) = .ok r)

variable {target : String}

theorem allOrNothing_of_unchanged {w' : World}
    {r : Except MarathonServiceError MarathonSwitchResponse}
    (hrun : World.run (switch target) w = (r, w')) (hr : ¬ Committed r)
    (hnative : w'.native = w.native) (hreg : w'.store.registry = w.store.registry) :
    AllOrNothing w target := by
  unfold AllOrNothing
  rw [hrun]
  refine ⟨fun h => absurd h hr, fun _ => ?_⟩
  simp only [cachedAccount, storedAccount, activeAccount, Store.stateLocked, hnative, hreg,
    and_self]

omit [Externals] in
theorem not_committed_error (e : MarathonServiceError) : ¬ Committed (.error e) := by
  rintro ⟨response, h, -⟩
  cases h

theorem Captured.registry (h : Captured w state current s) : s.registry = w.store.registry := by
  cases current with
  | none =>
    cases h
    rfl
  | some id =>
    obtain ⟨snapshot, document, -, -, hsave⟩ := h
    obtain ⟨s', hsave', h⟩ := map_eq_ok.1 (faulty_eq_ok.1 hsave).2
    cases h
    rw [(Store.saveLocked_eq_ok hsave').2.2]

variable {id : String}

theorem storeResult_setActiveLocked : (∃ r, w.storeResult (.setActiveLocked id) = .ok r) ↔
      w.storeFault (.setActiveLocked id) = none ∧ ∃ s, w.store.setActiveLocked id = .ok s := by
  constructor
  · rintro ⟨r, h⟩
    obtain ⟨hfault, h⟩ := faulty_eq_ok.1 h
    obtain ⟨s, hs, -⟩ := map_eq_ok.1 h
    exact ⟨hfault, s, hs⟩
  · rintro ⟨hfault, s, hs⟩
    exact ⟨((), s), faulty_eq_ok.2 ⟨hfault, map_eq_ok.2 ⟨s, hs, rfl⟩⟩⟩

theorem setActiveLocked_ok_congr (hs : s.registry = w.store.registry) (id : String) :
    (∃ r, World.storeResult { w with store := s } (.setActiveLocked id) = .ok r) ↔
      ∃ r, w.storeResult (.setActiveLocked id) = .ok r := by
  rw [storeResult_setActiveLocked, storeResult_setActiveLocked]
  simp only [Store.setActiveLocked_ok_iff, hs]

theorem activeAccount_of_setActiveLocked {w' : World}
    (h : w.storeResult (.setActiveLocked id) = .ok ((), s)) (hw' : w'.store = s) :
    w'.activeAccount = some id := by
  obtain ⟨s', hset, h⟩ := map_eq_ok.1 (faulty_eq_ok.1 h).2
  cases h
  obtain ⟨state, -, hread, -⟩ := Store.setActiveLocked_eq_ok hset
  simp [World.activeAccount, hw', hread, Except.toOption]

theorem Ready.resolvedTarget (h : Ready w target state account) :
    resolvedTarget w target = some account.id := by
  obtain ⟨state', hstate, heq⟩ := map_eq_ok.1 (faulty_eq_ok.1 h.read).2
  cases heq
  simp [Service.resolvedTarget, hstate, h.target, Except.toOption]

/-! ### The runs of a switch -/

theorem Ready.unique {state' : RegistryState} {account' : AccountRecord}
    (h : Ready w target state account) (h' : Ready w target state' account') :
    state' = state ∧ account' = account := by
  have hread := h.read.symm.trans h'.read
  cases hread
  have htarget := h.target.symm.trans h'.target
  cases htarget
  exact ⟨rfl, rfl⟩

theorem Captured.unique {s s' : Store} (h : Captured w state current s)
    (h' : Captured w state current s') : s' = s := by
  cases current with
  | none => exact h'.trans h.symm
  | some id =>
    obtain ⟨snapshot, document, hsnap, hdoc, hsave⟩ := h
    obtain ⟨snapshot', document', hsnap', hdoc', hsave'⟩ := h'
    cases hsnap.symm.trans hsnap'
    cases hdoc.symm.trans hdoc'
    cases hsave.symm.trans hsave'
    rfl

theorem Loads.unique {auth' : AuthTransitionSnapshot} (h : Loads w account auth)
    (h' : Loads w account auth') : auth' = auth := by
  obtain ⟨document, s, hload, htarget⟩ := h
  obtain ⟨document', s', hload', htarget'⟩ := h'
  cases hload.symm.trans hload'
  cases htarget.symm.trans htarget'
  rfl

theorem run_lockAndRead_cases (w : World) (g : DomainError → MarathonServiceError) :
    (∃ state, (∃ r, w.storeResult .lockExclusive = .ok r) ∧
        w.storeResult .stateLocked = .ok (state, w.store) ∧
        World.run (lockAndRead g) w = (.ok state, w)) ∨
      ((∀ r, w.storeResult .lockExclusive = .ok r →
          ∀ state, w.storeResult .stateLocked ≠ .ok (state, w.store)) ∧
        ∃ e, World.run (lockAndRead g) w = (.error e, w)) := by
  unfold lockAndRead
  rcases w.run_store_cases .lockExclusive rfl (fun _ => .persistence)
    with ⟨⟨⟩, s, hlock, hrun⟩ | ⟨hno, e, hrun⟩
  · cases (faulty_eq_ok.1 hlock).2
    rw [run_bind_ok hrun]
    rcases w.run_store_cases .stateLocked rfl g with ⟨state, s, hread, hrun⟩ | ⟨hno, e, hrun⟩
    · obtain ⟨state', -, h⟩ := map_eq_ok.1 (faulty_eq_ok.1 hread).2
      cases h
      exact .inl ⟨state, ⟨_, hlock⟩, hread, hrun⟩
    · exact .inr ⟨fun _ _ state => hno (state, w.store), e, hrun⟩
  · exact .inr ⟨fun r hlock => absurd hlock (hno r), e, run_bind_error hrun⟩

def AfterInstall (w : World) (account : AccountRecord) (s : Store) (m : AuthManager)
    (r : Except MarathonServiceError MarathonSwitchResponse) (w' : World) : Prop :=
  w'.native = m ∧
    ((Committed r ∧ m.cachedAccount = some account.id ∧
        ∃ s', World.storeResult { w with store := s } (.setActiveLocked account.id) = .ok ((), s') ∧
          w'.store = s') ∨
      (¬ Committed r ∧ w'.store = s ∧
        ¬ (m.cachedAccount = some account.id ∧
          ∃ r, World.storeResult { w with store := s } (.setActiveLocked account.id) = .ok r)))

theorem run_transition_cases (w : World) (state : RegistryState) (turns : ℕ)
    (current : Option String) (account : AccountRecord) :
    (∃ e w', World.run (transition state turns current account) w = (.error e, w') ∧
        w'.native = w.native ∧ w'.store.registry = w.store.registry ∧
        ∀ s auth r, Captured w state current s → Loads { w with store := s } account auth →
          w.installResult current auth ≠ .ok r) ∨
      ∃ s auth status m, Captured w state current s ∧ Loads { w with store := s } account auth ∧
        w.installResult current auth = .ok (status, m) ∧
        ∃ r w', World.run (transition state turns current account) w = (r, w') ∧
          AfterInstall w account s m r w' := by
  unfold transition
  rcases run_capture_cases state current with ⟨s, hcap, hrun⟩ | ⟨hno, e, hrun⟩
  swap
  · exact .inl ⟨e, w, run_bind_error hrun, rfl, rfl, fun s _ _ h => absurd h (hno s)⟩
  rw [run_bind_ok hrun]
  have hreg := hcap.registry
  rcases run_loadTarget_cases account
    with ⟨auth, hloads, hrun⟩ | ⟨hno, e, hrun⟩
  swap
  · refine .inl ⟨e, _, run_bind_error hrun, rfl, hreg, ?_⟩
    intro s' auth r hcap' hloads
    cases hcap.unique hcap'
    exact absurd hloads (hno auth)
  rw [run_bind_ok hrun]
  rcases World.run_install_cases (w := { w with store := s }) current auth
    with ⟨status, m, hins, -⟩ | ⟨hno, e, hrun⟩
  · refine .inr ⟨s, auth, status, m, hcap, hloads, hins, ?_⟩
    obtain ⟨r, w', hrun, hnative, h⟩ := run_adopt_of_install account hins
    rcases h with ⟨g, s', rfl, hcached, hset, hs'⟩ | ⟨⟨e, rfl⟩, hs, hnot⟩
    · rw [run_bind_ok hrun]
      exact ⟨_, _, run_pure _, hnative, .inl ⟨⟨_, rfl, rfl⟩, hcached, s', hset, hs'⟩⟩
    · rw [run_bind_error hrun]
      exact ⟨_, _, rfl, hnative, .inr ⟨not_committed_error e, hs, hnot⟩⟩
  · refine .inl ⟨e, _, run_bind_error (run_bind_error hrun), rfl, hreg, ?_⟩
    intro s' auth' r hcap' hloads'
    cases hcap.unique hcap'
    cases hloads.unique hloads'
    exact hno r

/-- A switch that stops before it writes the registry or installs anything. -/
structure Stopped (w : World) (target : String) : Prop where
  run : ∃ r w', World.run (switch target) w = (r, w') ∧ ¬ Committed r ∧ w'.native = w.native ∧
    w'.store.registry = w.store.registry
  vacuous : ∀ state account current, Ready w target state account →
    currentAccountId w.native.authCached = .ok current →
    (current = some account.id → ∀ r, w.storeResult (.setActiveLocked account.id) ≠ .ok r) ∧
    (current ≠ some account.id → ∀ s auth r, Captured w state current s →
      Loads { w with store := s } account auth → w.installResult current auth ≠ .ok r)

structure Reactivated (w : World) (target : String) (state : RegistryState)
    (account : AccountRecord) : Prop where
  ready : Ready w target state account
  cached : currentAccountId w.native.authCached = .ok (some account.id)
  run : ∃ r s, Committed r ∧ w.storeResult (.setActiveLocked account.id) = .ok ((), s) ∧
    World.run (switch target) w = (r, { w with store := s })

structure Installed (w : World) (target : String) (state : RegistryState)
    (account : AccountRecord) (current : Option String) (auth : AuthTransitionSnapshot)
    (s : Store) (m : AuthManager) : Prop where
  ready : Ready w target state account
  cached : currentAccountId w.native.authCached = .ok current
  other : current ≠ some account.id
  captured : Captured w state current s
  loads : Loads { w with store := s } account auth
  install : ∃ status, w.installResult current auth = .ok (status, m)
  run : ∃ r w', World.run (switch target) w = (r, w') ∧ AfterInstall w account s m r w'

theorem Stopped.of_not_ready {r : Except MarathonServiceError MarathonSwitchResponse}
    (hrun : World.run (switch target) w = (r, w)) (hr : ¬ Committed r)
    (hnot : ∀ state account current, Ready w target state account →
      currentAccountId w.native.authCached ≠ .ok current) : Stopped w target where
  run := ⟨r, w, hrun, hr, rfl, rfl⟩
  vacuous := fun state account current hready hcached =>
    absurd hcached (hnot state account current hready)

theorem stopped_or_ready (w : World) (target : String) :
    Stopped w target ∨ ∃ state account current, Ready w target state account ∧
      currentAccountId w.native.authCached = .ok current ∧ World.run (switch target) w = World.run
        (if current = some account.id then
          reactivate (min w.runningTurns 4294967295) w.authGeneration account
        else transition state (min w.runningTurns 4294967295) current account) w := by
  rcases run_lockAndRead_cases w (fun _ => .stateUnavailable)
    with ⟨state, hlock, hread, hrun⟩ | ⟨hno, e, hrun⟩
  swap
  · refine .inl (.of_not_ready (run_bind_error hrun) (not_committed_error e) ?_)
    rintro state account current ⟨⟨r, hlock⟩, hread, -, -⟩
    exact absurd hread (hno r hlock state)
  have hentered (hadm : switchAdmission state.enabled (min w.runningTurns 4294967295) = none) :
      World.run (switch target) w = World.run
        (switchAdmitted state (min w.runningTurns 4294967295) w.authGeneration target) w := by
    unfold switch
    rw [run_bind_ok hrun, run_bind_ok run_activeTurnCount, run_bind_ok run_authGeneration,
      hadm]
  -- a state that was read is the one any admitted switch reads
  have hstate {state' : RegistryState} {account : AccountRecord}
      (hready : Ready w target state' account) : state' = state := by
    cases hread.symm.trans hready.read
    rfl
  cases hadm : switchAdmission state.enabled (min w.runningTurns 4294967295) with
  | some refusal =>
    obtain ⟨outcome, reason⟩ := refusal
    obtain ⟨response, href, hout⟩ : ∃ response,
        World.run (switch target) w = (.ok response, w) ∧ response.outcome = outcome := by
      unfold switch
      rw [run_bind_ok hrun, run_bind_ok run_activeTurnCount, run_bind_ok run_authGeneration,
        hadm]
      exact ⟨_, run_pure _, rfl⟩
    refine .inl (.of_not_ready href ?_ ?_)
    · rintro ⟨_, h, hcom⟩
      cases h
      exact switchAdmission_ne_committed hadm (hout ▸ hcom)
    · intro state' account current hready
      cases hstate hready
      cases hadm.symm.trans hready.admitted
  | none =>
    specialize hentered hadm
    unfold switchAdmitted at hentered
    cases htarget : resolveTarget state target with
    | error e =>
      refine .inl (.of_not_ready (hentered.trans ?_) (not_committed_error e) ?_)
      · rw [htarget]
        exact run_bind_error (run_liftExcept _)
      · intro state' account current hready
        cases hstate hready
        cases htarget.symm.trans hready.target
    | ok account =>
      rw [htarget, run_bind_ok (run_liftExcept _), run_bind_ok run_authCached] at hentered
      cases hcached : currentAccountId w.native.authCached with
      | error e =>
        refine .inl (.of_not_ready (hentered.trans ?_) (not_committed_error e) ?_)
        · rw [hcached]
          exact run_bind_error (run_liftExcept _)
        · intro state' account current hready h
          cases hcached.symm.trans h
      | ok current =>
        rw [hcached, run_bind_ok (run_liftExcept _)] at hentered
        exact .inr ⟨state, account, current, ⟨hlock, hread, hadm, htarget⟩, rfl,
          hentered⟩

theorem run_switch_cases (w : World) (target : String) :
    Stopped w target ∨ (∃ state account, Reactivated w target state account) ∨
      ∃ state account current auth s m, Installed w target state account current auth s m := by
  rcases stopped_or_ready w target with hstop | ⟨state, account, current, hready, hcached, hrun⟩
  · exact .inl hstop
  -- the operations the condition speaks of are those of this run
  have hvac
      (hset : current = some account.id → ∀ r, w.storeResult (.setActiveLocked account.id) ≠ .ok r)
      (hins : current ≠ some account.id → ∀ s auth r, Captured w state current s →
        Loads { w with store := s } account auth → w.installResult current auth ≠ .ok r)
      (hrun : ∃ r w', World.run (switch target) w = (r, w') ∧ ¬ Committed r ∧
        w'.native = w.native ∧ w'.store.registry = w.store.registry) : Stopped w target := by
    refine ⟨hrun, ?_⟩
    intro state' account' current' hready' hcached'
    obtain ⟨rfl, rfl⟩ := hready.unique hready'
    cases hcached.symm.trans hcached'
    exact ⟨hset, hins⟩
  by_cases hactive : current = some account.id
  · rw [if_pos hactive] at hrun
    unfold reactivate at hrun
    rcases w.run_store_cases (.setActiveLocked account.id) rfl (fun _ => .persistence)
      with ⟨⟨⟩, s, hset, hstore⟩ | ⟨hno, e, hstore⟩
    · rw [run_bind_ok hstore, run_pure] at hrun
      exact .inr (.inl ⟨state, account, hready, hactive ▸ hcached, _, s, ⟨_, rfl, rfl⟩, hset, hrun⟩)
    · exact .inl (hvac (fun _ => hno) (absurd hactive)
        ⟨_, w, hrun.trans (run_bind_error hstore), not_committed_error e, rfl, rfl⟩)
  · rw [if_neg hactive] at hrun
    rcases run_transition_cases w state _ current account with
      ⟨e, w', htran, hnative, hreg, hno⟩ |
      ⟨s, auth, status, m, hcap, hloads, hins, r, w', htran, hafter⟩
    · exact .inl (hvac (fun h => absurd h hactive) (fun _ => hno)
        ⟨_, w', hrun.trans htran, not_committed_error e, hnative, hreg⟩)
    · exact .inr (.inr ⟨state, account, current, auth, s, m, hready, hcached, hactive, hcap,
        hloads, ⟨status, hins⟩, r, w', hrun.trans htran, hafter⟩)

variable {r : AuthReloadStatus × AuthManager}

theorem storedAccount_ne_of_install
    (h : w.installResult current auth = .ok r) (hother : current ≠ some id) :
    w.storedAccount ≠ some id := by
  have hins := (faulty_eq_ok.1 h).2
  cases current with
  | none =>
    obtain ⟨-, hstor, -⟩ := AuthManager.installSnapshotForBootstrap_eq_ok hins
    simp [World.storedAccount, AuthManager.storedAccount, hstor]
  | some source =>
    have hsource := AuthManager.storedAccount_of_installSnapshotForTransition hins
    intro hstored
    exact hother (hsource.symm.trans hstored)

theorem Loads.accountId (h : Loads w account auth) : auth.accountId = account.id := by
  obtain ⟨document, -, -, htarget⟩ := h
  exact targetSnapshot_eq_ok htarget

theorem Installed.switchSound_iff (h : Installed w target state account current auth s m) :
    SwitchSound w target ↔ m.cachedAccount = some account.id ∧
        ∃ r, World.storeResult { w with store := s } (.setActiveLocked account.id) = .ok r := by
  obtain ⟨status, hins⟩ := h.install
  rw [setActiveLocked_ok_congr h.captured.registry, AuthManager.cachedAccount_of_install (faulty_eq_ok.1 hins).2]
  constructor
  · intro hsound
    exact (hsound state account current h.ready h.cached).2 h.other s auth _ h.captured h.loads
      hins
  · intro hcon state' account' current' hready' hcached'
    obtain ⟨rfl, rfl⟩ := h.ready.unique hready'
    cases h.cached.symm.trans hcached'
    refine ⟨fun hactive => absurd hactive h.other, ?_⟩
    intro _ s' auth' r hcap' hloads' _
    cases h.captured.unique hcap'
    cases h.loads.unique hloads'
    exact hcon

theorem Reactivated.switchSound_iff (h : Reactivated w target state account) :
    SwitchSound w target ↔ w.storedAccount = some account.id := by
  obtain ⟨-, s, -, hset, -⟩ := h.run
  constructor
  · intro hsound
    exact (hsound state account _ h.ready h.cached).1 rfl ⟨_, hset⟩
  · intro hstored state' account' current' hready' hcached'
    obtain ⟨rfl, rfl⟩ := h.ready.unique hready'
    cases h.cached.symm.trans hcached'
    exact ⟨fun _ _ => hstored, fun hother => absurd rfl hother⟩

theorem cachedAccount_of_currentAccountId
    (h : currentAccountId w.native.authCached = .ok (some id)) : w.cachedAccount = some id :=
  currentAccountId_eq_ok_some.1 h

theorem Reactivated.allOrNothing_iff (h : Reactivated w target state account) :
    AllOrNothing w target ↔ w.storedAccount = some account.id := by
  obtain ⟨r, s, hr, hset, hrun⟩ := h.run
  have hcached : w.cachedAccount = some account.id := cachedAccount_of_currentAccountId h.cached
  have hactive : World.activeAccount { w with store := s } = some account.id :=
    activeAccount_of_setActiveLocked hset rfl
  unfold AllOrNothing
  rw [hrun, h.ready.resolvedTarget]
  constructor
  · rintro ⟨hall, -⟩
    obtain ⟨id, hid, -, hstored, -⟩ := hall hr
    cases hid
    exact hstored
  · intro hstored
    exact ⟨fun _ => ⟨account.id, rfl, hcached, hstored, hactive⟩, fun hnot => absurd hr hnot⟩

theorem Installed.allOrNothing_iff (h : Installed w target state account current auth s m) :
    AllOrNothing w target ↔ m.cachedAccount = some account.id ∧
        ∃ r, World.storeResult { w with store := s } (.setActiveLocked account.id) = .ok r := by
  obtain ⟨status, hins⟩ := h.install
  have hstored : m.storedAccount = some account.id :=
    h.loads.accountId ▸ AuthManager.storedAccount_of_install (faulty_eq_ok.1 hins).2
  obtain ⟨r, w', hrun, hnative, hafter⟩ := h.run
  unfold AllOrNothing
  rw [hrun, h.ready.resolvedTarget]
  rcases hafter with ⟨hr, hcached, s', hset, hstore⟩ | ⟨hr, -, hnot⟩
  · refine iff_of_true ⟨fun _ => ⟨account.id, rfl, ?_, ?_, ?_⟩, fun hnot => absurd hr hnot⟩
      ⟨hcached, _, hset⟩
    · rw [World.cachedAccount, hnative, hcached]
    · rw [World.storedAccount, hnative, hstored]
    · exact activeAccount_of_setActiveLocked hset hstore
  · -- the switch failed with the target's credentials in storage, where they were not before
    refine iff_of_false ?_ hnot
    rintro ⟨-, hnoth⟩
    obtain ⟨-, hunc, -⟩ := hnoth hr
    rw [World.storedAccount, hnative, hstored] at hunc
    exact storedAccount_ne_of_install hins h.other hunc.symm

/-- **A switch is all-or-nothing exactly when nothing fails after the installation**; to the account
that is cached already, exactly when that is also the stored one. -/
theorem switch_allOrNothing_iff (w : World) (target : String) :
    AllOrNothing w target ↔ SwitchSound w target := by
  rcases run_switch_cases w target with hstop | ⟨state, account, hactive⟩ |
    ⟨state, account, current, auth, s, m, hins⟩
  · obtain ⟨r, w', hrun, hr, hnative, hreg⟩ := hstop.run
    refine iff_of_true (allOrNothing_of_unchanged hrun hr hnative hreg) ?_
    intro state account current hready hcached
    obtain ⟨hset, hinst⟩ := hstop.vacuous state account current hready hcached
    exact ⟨fun h ⟨r, hr⟩ => absurd hr (hset h r),
      fun h s auth r hcap hloads hr => absurd hr (hinst h s auth r hcap hloads)⟩
  · rw [hactive.allOrNothing_iff, hactive.switchSound_iff]
  · rw [hins.allOrNothing_iff, hins.switchSound_iff]

def fullDisk : @World .sample :=
  letI := Externals.sample
  { World.sample with
    storeFault := fun
      | .setActiveLocked _ => some (.io ⟨.other, "No space left on device"⟩)
      | _ => none }

omit [Externals] in
/-- A switch to `b` that cannot mark `b` active fails with `b` installed, while the registry still
names `a`. -/
theorem switch_fails_installed :
    letI := Externals.sample
    (World.run (switch "b") fullDisk).1 = .error .persistence ∧
      fullDisk.cachedAccount = some "a" ∧ fullDisk.storedAccount = some "a" ∧
      (World.run (switch "b") fullDisk).2.cachedAccount = some "b" ∧
      (World.run (switch "b") fullDisk).2.storedAccount = some "b" ∧
      (World.run (switch "b") fullDisk).2.activeAccount = some "a" ∧
      ¬ AllOrNothing fullDisk "b" := by
  let := Externals.sample
  have herror : (World.run (switch "b") fullDisk).1 = .error .persistence := by decide
  have hstored : (World.run (switch "b") fullDisk).2.storedAccount = some "b" := by decide
  refine ⟨herror, by decide, by decide, by decide, hstored, by decide, ?_⟩
  rintro ⟨-, hnot⟩
  obtain ⟨-, hunc, -⟩ := hnot (herror ▸ not_committed_error _)
  rw [hstored] at hunc
  exact absurd hunc (by decide)

end Service

end CodexMarathon
