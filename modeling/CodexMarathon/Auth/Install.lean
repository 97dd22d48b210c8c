/-
**The statements of an account transition.**

`AuthManager.installSnapshotForTransition` and its companions give the outcome of an operation as a
value.  Here the same operations are sequences of statements on the manager, in the order of the
source; a statement that fails leaves what the ones before it have written.
-/

import CodexMarathon.Auth.Manager
import CodexMarathon.Lib.Stateful

namespace CodexMarathon.Auth

open Stateful AuthManager

namespace Transition

abbrev Steps (α : Type) : Type := Stateful AuthManager IoError α

section Operations

variable (cfg : AuthConfig)

def checkSource (expected : String) : Steps AuthTransitionSnapshot := do
  ask (AuthManager.acquireRefreshFileLock cfg)
  ask fun _ => AuthManager.ensureTransitionStorage cfg
  let current ← ask (AuthManager.currentTransitionSource cfg)
  ask fun _ => Result.require (current = expected)
    ⟨.permissionDenied, "active auth identity does not match the expected transition source"⟩
  let stored ← ask AuthManager.storage
  let stored ← ask fun _ => Result.okOr stored ⟨.notFound, "managed auth is not persisted"⟩
  let snapshot ← ask fun _ => AuthTransitionSnapshot.fromAuthDotJson stored
  ask fun _ => Result.require (snapshot.accountId = expected)
    ⟨.permissionDenied, "persisted auth identity does not match the expected transition source"⟩
  pure snapshot

def snapshotForTransition (expected : String) : Steps AuthTransitionSnapshot := do
  let snapshot ← checkSource cfg expected
  let _ ← ask fun _ => AuthManager.authFromTransitionSnapshot cfg snapshot
  pure snapshot

/-- `storage.save`: the write happens as a whole or fails without effect. -/
def save (doc : AuthDotJson) : Steps Unit := do
  ask fun _ => cfg.storageSave.mapError fun _ =>
    ⟨.other, "managed auth snapshot could not be persisted"⟩
  modify fun m => { m with storage := .ok (some doc) }

def setCachedAuthAfterTransition (new : CodexAuth) : Steps Bool := do
  let m ← get
  set (m.setCachedAuthAfterTransition new).2
  pure (m.setCachedAuthAfterTransition new).1

/-- The end of both installs: the cache is written strictly after storage. -/
def saveAndCache (snapshot : AuthTransitionSnapshot) : Steps AuthReloadStatus := do
  let candidate ← ask fun _ => AuthManager.authFromTransitionSnapshot cfg snapshot
  save cfg snapshot.authDotJson
  let changed ← setCachedAuthAfterTransition candidate
  pure (.reloaded changed)

def installSnapshotForTransition (snapshot : AuthTransitionSnapshot) (expectedSource : String) :
    Steps AuthReloadStatus := do
  let _ ← checkSource cfg expectedSource
  saveAndCache cfg snapshot

def installSnapshotForBootstrap (snapshot : AuthTransitionSnapshot) : Steps AuthReloadStatus := do
  ask (AuthManager.acquireRefreshFileLock cfg)
  ask fun _ => AuthManager.ensureTransitionStorage cfg
  ask fun m => Result.require (m.authCached = none)
    ⟨.permissionDenied, "native auth is already active"⟩
  let available ← ask (AuthManager.loadAuthFromStorage cfg)
  ask fun _ => Result.require (available = none)
    ⟨.permissionDenied, "native auth is already available"⟩
  saveAndCache cfg snapshot

end Operations

variable (cfg : AuthConfig) (m : AuthManager)

theorem exec_checkSource (expected : String) :
    exec (checkSource cfg expected) m = (m.checkTransitionSource cfg expected, m) := by
  refine exec_bind_read (exec_ask _ m) fun _ => ?_
  refine exec_bind_read (exec_ask _ m) fun _ => ?_
  refine exec_bind_read (exec_ask _ m) fun current => ?_
  refine exec_bind_read (exec_ask _ m) fun _ => ?_
  refine exec_bind_read (exec_ask _ m) fun stored => ?_
  refine exec_bind_read (exec_ask _ m) fun doc => ?_
  refine exec_bind_read (exec_ask _ m) fun snapshot => ?_
  exact exec_bind_read (exec_ask _ m) fun _ => rfl

theorem exec_snapshotForTransition (expected : String) :
    exec (snapshotForTransition cfg expected) m = (m.snapshotForTransition cfg expected, m) := by
  refine exec_bind_read (exec_checkSource cfg m expected) fun snapshot => ?_
  exact exec_bind_read (exec_ask _ m) fun _ => rfl

theorem exec_saveAndCache (snapshot : AuthTransitionSnapshot) :
    exec (saveAndCache cfg snapshot) m = settle (m.saveAndCache cfg snapshot) m := by
  refine exec_bind_settle (exec_ask _ m) fun candidate => ?_
  unfold save
  rw [bind_assoc]
  exact exec_bind_settle (exec_ask _ m) fun _ => rfl

theorem exec_installSnapshotForBootstrap (snapshot : AuthTransitionSnapshot) :
    exec (installSnapshotForBootstrap cfg snapshot) m =
      settle (m.installSnapshotForBootstrap cfg snapshot) m := by
  refine exec_bind_settle (exec_ask _ m) fun _ => ?_
  refine exec_bind_settle (exec_ask _ m) fun _ => ?_
  refine exec_bind_settle (exec_ask _ m) fun _ => ?_
  refine exec_bind_settle (exec_ask _ m) fun available => ?_
  exact exec_bind_settle (exec_ask _ m) fun _ => exec_saveAndCache cfg m snapshot

structure Holds (m : AuthManager) (s : AuthTransitionSnapshot) : Prop where
  storage : m.storage = .ok (some s.authDotJson)
  authCached : m.authCached = some (.chatgpt (some s.authDotJson))
  storedAccount : m.storedAccount = some s.accountId
  cachedAccount : m.cachedAccount = some s.accountId

/-- After an error the credentials are those of `m`, after a success, which needs `guard`, those of
`s`. -/
structure Installs (m : AuthManager) (s : AuthTransitionSnapshot) (guard : Prop)
    (r : Except IoError AuthReloadStatus × AuthManager) : Prop where
  error : ∀ e, r.1 = .error e → r.2.storage = m.storage ∧ r.2.authCached = m.authCached
  ok : ∀ status, r.1 = .ok status → guard ∧ Holds r.2 s

structure Contract (cfg : AuthConfig) (m : AuthManager) (s : AuthTransitionSnapshot) (a : String) :
    Prop where
  transition : Installs m s (m.cachedAccount = some a ∧ m.storedAccount = some a)
    (exec (installSnapshotForTransition cfg s a) m)
  bootstrap : Installs m s (m.authCached = none ∧ m.loadAuthFromStorage cfg = .ok none)
    (exec (installSnapshotForBootstrap cfg s) m)
  snapshot : ∀ s', (exec (snapshotForTransition cfg a) m).1 = .ok s' →
    m.storage = .ok (some s'.authDotJson) ∧ m.storedAccount = some a ∧ m.cachedAccount = some a
  reads : (exec (snapshotForTransition cfg a) m).2.storage = m.storage ∧
    (exec (snapshotForTransition cfg a) m).2.authCached = m.authCached

def Succeeds (cfg : AuthConfig) (m : AuthManager) (s : AuthTransitionSnapshot) (a : String) : Prop :=
  ∃ status, (exec (installSnapshotForTransition cfg s a) m).1 = .ok status ∨
    (exec (installSnapshotForBootstrap cfg s) m).1 = .ok status

variable {cfg : AuthConfig} {m m' : AuthManager} {s : AuthTransitionSnapshot}

theorem holds_iff {source : Option String} {status : AuthReloadStatus}
    (h : m.install cfg source s = .ok (status, m')) :
    Holds m' s ↔ s.authDotJson.tokens.bind (·.accountId) = some s.accountId := by
  have hcached := cachedAccount_of_install h
  constructor
  · intro hholds
    rw [← hcached, hholds.cachedAccount]
  · intro htokens
    have hstored := storedAccount_of_install h
    obtain ⟨-, rfl⟩ := install_eq_ok h
    exact ⟨rfl, rfl, hstored, hcached.trans htokens⟩

theorem installs_iff (cfg : AuthConfig) (source : Option String) {guard : Prop}
    {r : Except IoError AuthReloadStatus × AuthManager} (hr : r = settle (m.install cfg source s) m)
    (hguard : ∀ out, m.install cfg source s = .ok out → guard) : Installs m s guard r ↔
      ((∃ status, r.1 = .ok status) →
        s.authDotJson.tokens.bind (·.accountId) = some s.accountId) := by
  subst hr
  constructor
  · rintro h ⟨status, hok⟩
    exact (holds_iff (settle_eq_ok hok)).1 (h.ok status hok).2
  · intro htokens
    refine ⟨fun e herror => ?_, fun status hok => ⟨hguard _ (settle_eq_ok hok), ?_⟩⟩
    · rw [settle_eq_error herror]
      exact ⟨rfl, rfl⟩
    · exact (holds_iff (settle_eq_ok hok)).2 (htokens ⟨status, hok⟩)

theorem transition_iff (cfg : AuthConfig) (m : AuthManager) (s : AuthTransitionSnapshot)
    (a : String) : Installs m s (m.cachedAccount = some a ∧ m.storedAccount = some a)
        (exec (installSnapshotForTransition cfg s a) m) ↔
      ((∃ status, (exec (installSnapshotForTransition cfg s a) m).1 = .ok status) →
        s.authDotJson.tokens.bind (·.accountId) = some s.accountId) :=
  installs_iff cfg (some a)
    (exec_bind_settle (exec_checkSource cfg m a) fun _ => exec_saveAndCache cfg m s) fun _ h =>
    ⟨let ⟨_, hsource, _⟩ := Result.bind_eq_ok.1 h; (checkTransitionSource_eq_ok hsource).2.2.1,
      storedAccount_of_installSnapshotForTransition h⟩

theorem bootstrap_iff (cfg : AuthConfig) (m : AuthManager) (s : AuthTransitionSnapshot) :
    Installs m s (m.authCached = none ∧ m.loadAuthFromStorage cfg = .ok none)
        (exec (installSnapshotForBootstrap cfg s) m) ↔
      ((∃ status, (exec (installSnapshotForBootstrap cfg s) m).1 = .ok status) →
        s.authDotJson.tokens.bind (·.accountId) = some s.accountId) :=
  installs_iff cfg none (exec_installSnapshotForBootstrap cfg m s) fun _ h =>
    ⟨(installSnapshotForBootstrap_eq_ok h).1,
      loadAuthFromStorage_of_installSnapshotForBootstrap h⟩

/-- **The contract of a transition**: a failing operation changes nothing, an install only succeeds
over the source account or without credentials, a snapshot is the stored document of the cached
account; an install leaves the account of its snapshot exactly when the token data name it. -/
theorem contract_iff (cfg : AuthConfig) (m : AuthManager) (s : AuthTransitionSnapshot)
    (a : String) : Contract cfg m s a ↔
      (Succeeds cfg m s a → s.authDotJson.tokens.bind (·.accountId) = some s.accountId) := by
  constructor
  · rintro h ⟨status, hok | hok⟩
    · exact (transition_iff cfg m s a).1 h.transition ⟨status, hok⟩
    · exact (bootstrap_iff cfg m s).1 h.bootstrap ⟨status, hok⟩
  · intro h
    have hread := exec_snapshotForTransition cfg m a
    refine ⟨(transition_iff cfg m s a).2 fun ⟨status, hok⟩ => h ⟨status, .inl hok⟩,
      (bootstrap_iff cfg m s).2 fun ⟨status, hok⟩ => h ⟨status, .inr hok⟩, ?_, ?_⟩
    · intro s' hs'
      rw [hread] at hs'
      obtain ⟨hstor, hid, hcached⟩ := AuthManager.snapshotForTransition_eq_ok hs'
      refine ⟨hstor, ?_, hcached⟩
      simp [AuthManager.storedAccount, hstor, s'.accountId_eq, hid, Except.toOption]
    · rw [hread]
      exact ⟨rfl, rfl⟩

def claimed (account refreshToken : String) : AuthDotJson :=
  { AuthDotJson.sample account refreshToken with
    tokens := (AuthDotJson.sample account refreshToken).tokens.map fun tokens =>
      { tokens with accountId := none } }

/-- Credentials of `b` without an account in their token data are installed: the cache then names no
account. -/
theorem installed_without_account :
    ∃ s : AuthTransitionSnapshot, s.accountId = "b" ∧
      let r := exec (installSnapshotForTransition .sample s "a") (.sample (.sample "a" "ra"))
      r.1 = .ok (.reloaded true) ∧ r.2.storedAccount = some "b" ∧ r.2.cachedAccount = none ∧
        ¬ Contract .sample (.sample (.sample "a" "ra")) s "a" := by
  refine ⟨⟨claimed "b" "rb", "b", rfl⟩, rfl, rfl, rfl, rfl, ?_⟩
  intro h
  have hcached := (h.transition.ok (.reloaded true) rfl).2.cachedAccount
  cases hcached

end Transition

end CodexMarathon.Auth
