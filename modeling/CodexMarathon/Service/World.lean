/-
**What the service calls, and the world that answers.**

The account operations are sequences of calls on the stores, on the native authentication manager
and on the service's own counters.  Any operation of a component can be made to fail, and then has
no effect.
-/

import CodexMarathon.Auth.Manager
import CodexMarathon.Lib.Prog
import CodexMarathon.Store.Vault

namespace CodexMarathon

open Auth Prog

variable [Externals]

/-- The operations on the registry and the vault that take the state lock. -/
inductive StoreCall
  | lockExclusive
  | stateLocked
  | replaceLocked (state : RegistryState)
  | setActiveLocked (id : String)
  | setEnabled (enabled : Bool)
  | loadLocked (key : String)
  | saveLocked (key : String) (snapshot : AuthSnapshot)
  | saveFreshLocked (snapshot : AuthSnapshot)
  | collectOrphansLocked (state : RegistryState)

abbrev StoreCall.Val : StoreCall → Type
  | .stateLocked => RegistryState
  | .loadLocked _ => AuthSnapshot
  | .saveFreshLocked _ => String
  | _ => Unit

abbrev StoreCall.Ans (c : StoreCall) : Type := Except DomainError c.Val

inductive AuthCall
  | authCached
  | snapshotForTransition (expected : String)
  | install (source : Option String) (snapshot : AuthTransitionSnapshot)

abbrev AuthCall.Ans : AuthCall → Type
  | .authCached => Option CodexAuth
  | .snapshotForTransition _ => Except IoError AuthTransitionSnapshot
  | .install _ _ => Except IoError AuthReloadStatus

inductive ServiceCall
  | store (c : StoreCall)
  | auth (c : AuthCall)
  | runningTurns
  | authGeneration
  | advanceAuthGeneration
  | invalidateModelTransportCaches
  | now

abbrev ServiceCall.Ans : ServiceCall → Type
  | .store c => c.Ans
  | .auth c => c.Ans
  | .runningTurns => ℕ
  | .authGeneration => UInt64
  | .advanceAuthGeneration => UInt64
  | .invalidateModelTransportCaches => Unit
  | .now => DateTime

/-! ### The world -/

/-- `storeFault` and `authFault` say which operations fail. -/
structure World where
  store : Store
  native : AuthManager
  config : AuthConfig
  authGeneration : UInt64
  runningTurns : ℕ
  transportCaches : ℕ
  nonces : ℕ → Nonce
  drawn : ℕ
  clock : DateTime
  storeFault : StoreCall → Option DomainError
  authFault : AuthCall → Option IoError

def StoreCall.draws : StoreCall → ℕ
  | .saveFreshLocked _ => 1
  | _ => 0

/-- The value and the store that is left, or the reason it fails; `nonce` is the next random value.
-/
def Store.exec (nonce : Nonce) (s : Store) : (c : StoreCall) → Except DomainError (c.Val × Store)
  | .lockExclusive => .ok ((), s)
  | .stateLocked => s.stateLocked.map (·, s)
  | .replaceLocked state => (s.replaceLocked state).map ((), ·)
  | .setActiveLocked id => (s.setActiveLocked id).map ((), ·)
  | .setEnabled enabled => (s.setEnabled enabled).map ((), ·)
  | .loadLocked key => (s.loadLocked key).map (·, s)
  | .saveLocked key snapshot => (s.saveLocked key snapshot).map ((), ·)
  | .saveFreshLocked snapshot => s.saveFreshLocked nonce snapshot
  | .collectOrphansLocked state => .ok ((), s.collectOrphansLocked state)

def faulty {ε α : Type} (fault : Option ε) (result : Except ε α) : Except ε α :=
  match fault with
  | some e => .error e
  | none => result

omit [Externals] in
theorem faulty_eq_ok {ε α : Type} {fault : Option ε} {result : Except ε α} {a : α} :
    faulty fault result = .ok a ↔ fault = none ∧ result = .ok a := by
  cases fault <;> simp [faulty]

namespace World

def storeResult (w : World) (c : StoreCall) : Except DomainError (c.Val × Store) :=
  faulty (w.storeFault c) (w.store.exec (w.nonces w.drawn) c)

def snapshotResult (w : World) (expected : String) : Except IoError AuthTransitionSnapshot :=
  faulty (w.authFault (.snapshotForTransition expected))
    (w.native.snapshotForTransition w.config expected)

def installResult (w : World) (source : Option String) (snapshot : AuthTransitionSnapshot) :
    Except IoError (AuthReloadStatus × AuthManager) :=
  faulty (w.authFault (.install source snapshot)) (w.native.install w.config source snapshot)

def execStore (w : World) (c : StoreCall) : c.Ans × World :=
  match w.storeResult c with
  | .ok (v, store) => (.ok v, { w with store, drawn := w.drawn + c.draws })
  | .error e => (.error e, w)

def execAuth (w : World) : (c : AuthCall) → c.Ans × World
  | .authCached => (w.native.authCached, w)
  | .snapshotForTransition expected => (w.snapshotResult expected, w)
  | .install source snapshot =>
    match w.installResult source snapshot with
    | .ok (status, native) => (.ok status, { w with native })
    | .error e => (.error e, w)

def exec (c : ServiceCall) (w : World) : c.Ans × World :=
  match c with
  | .store c => w.execStore c
  | .auth c => w.execAuth c
  | .runningTurns => (w.runningTurns, w)
  | .authGeneration => (w.authGeneration, w)
  | .advanceAuthGeneration =>
    (w.authGeneration + 1, { w with authGeneration := w.authGeneration + 1 })
  | .invalidateModelTransportCaches => ((), { w with transportCaches := w.transportCaches + 1 })
  | .now => (w.clock, w)

def run {ε α : Type} (p : ExceptT ε (Prog ServiceCall ServiceCall.Ans) α) (w : World) :
    Except ε α × World :=
  Prog.run exec p.run w

def cachedAccount (w : World) : Option String := w.native.cachedAccount

def storedAccount (w : World) : Option String := w.native.storedAccount

def activeAccount (w : World) : Option String :=
  w.store.stateLocked.toOption.map (·.activeAccountId)

end World

def World.sample : @World .sample :=
  letI := Externals.sample
  { store := .sample
    native := .sample (.sample "a" "1")
    config := .sample
    authGeneration := 0
    runningTurns := 0
    transportCaches := 0
    nonces := fun _ => HexText.zeros
    drawn := 0
    clock := .epoch
    storeFault := fun _ => none
    authFault := fun _ => none }

/-! ### Fallible programs over the calls -/

inductive MarathonServiceError
  | expiryUnavailable
  | stateUnavailable
  | accountNotFound
  | ambiguousAlias
  | aliasConflict
  | invalidAlias
  | authenticationRequired
  | credentialsUnavailable
  | nativeTransition
  | persistence
deriving DecidableEq, Repr

abbrev ServiceProg (α : Type) : Type := Prog ServiceCall ServiceCall.Ans α

abbrev ServiceM (α : Type) : Type := ExceptT MarathonServiceError (Prog ServiceCall ServiceCall.Ans) α

namespace Service

def call (c : ServiceCall) : ServiceProg c.Ans := Prog.perform c

def store (c : StoreCall) (error : DomainError → MarathonServiceError) : ServiceM c.Val :=
  Prog.orFail (call (.store c)) error

def authCached : ServiceProg (Option CodexAuth) := call (.auth .authCached)

def snapshotForTransition (expected : String) : ServiceM AuthTransitionSnapshot :=
  Prog.orFail (call (.auth (.snapshotForTransition expected))) fun _ : IoError => .nativeTransition

def install (source : Option String) (snapshot : AuthTransitionSnapshot) :
    ServiceM AuthReloadStatus :=
  Prog.orFail (call (.auth (.install source snapshot))) fun _ : IoError => .nativeTransition

def activeTurnCount : ServiceProg ℕ := do
  let turns : ℕ ← call .runningTurns
  pure (min turns 4294967295)

def authGeneration : ServiceProg UInt64 := call .authGeneration

def advanceAuthGeneration : ServiceProg UInt64 := call .advanceAuthGeneration

def invalidateModelTransportCaches : ServiceProg Unit := call .invalidateModelTransportCaches

def now : ServiceProg DateTime := call .now

end Service

/-! ### Running the calls -/

namespace World

section Run

variable {ε α β : Type} {w w' : World}
  {p : ExceptT ε (Prog ServiceCall ServiceCall.Ans) α}
  {f : α → ExceptT ε (Prog ServiceCall ServiceCall.Ans) β}

theorem execStore_eq_ok {c : StoreCall} {v : c.Val} (h : (w.execStore c).1 = .ok v) :
    ∃ store, w.storeResult c = .ok (v, store) ∧ (w.execStore c).2.store = store := by
  unfold execStore at h ⊢
  split at h
  · rename_i v' store hresult
    cases h
    exact ⟨store, hresult, rfl⟩
  · cases h

theorem run_bind_ok {a : α} (h : run p w = (.ok a, w')) : run (p >>= f) w = run (f a) w' :=
  run_except_bind_ok exec h

theorem run_bind_error {e : ε} (h : run p w = (.error e, w')) : run (p >>= f) w = (.error e, w') :=
  run_except_bind_error exec h

theorem run_pure (a : α) :
    run (pure a : ExceptT ε (Prog ServiceCall ServiceCall.Ans) α) w = (.ok a, w) := rfl

theorem run_liftExcept (x : Except ε α) :
    run (liftM x : ExceptT ε (Prog ServiceCall ServiceCall.Ans) α) w = (x, w) := rfl

theorem run_authCached : run (liftM Service.authCached : ServiceM (Option CodexAuth)) w =
    (.ok w.native.authCached, w) := rfl

theorem run_activeTurnCount : run (liftM Service.activeTurnCount : ServiceM ℕ) w =
    (.ok (min w.runningTurns 4294967295), w) := rfl

theorem run_authGeneration : run (liftM Service.authGeneration : ServiceM UInt64) w =
    (.ok w.authGeneration, w) := rfl

theorem run_store (c : StoreCall) (g : DomainError → MarathonServiceError) :
    run (Service.store c g) w = ((w.execStore c).1.mapError g, (w.execStore c).2) :=
  run_orFail exec (Service.call (.store c)) g w

theorem run_store_eq_ok {c : StoreCall} {g : DomainError → MarathonServiceError} {v : c.Val}
    (h : run (Service.store c g) w = (.ok v, w')) :
    ∃ store, w.storeResult c = .ok (v, store) ∧ w'.store = store := by
  rw [run_store] at h
  obtain ⟨hvalue, rfl⟩ := Prod.mk.inj h
  exact execStore_eq_ok (Result.mapError_eq_ok.1 hvalue)

theorem run_check_eq_ok {x : Except ε α} {a : α}
    (h : run (liftM x : ExceptT ε (Prog ServiceCall ServiceCall.Ans) α) w = (.ok a, w')) :
    x = .ok a := by
  rw [run_liftExcept] at h
  exact (Prod.mk.inj h).1

end Run

end World

end CodexMarathon
