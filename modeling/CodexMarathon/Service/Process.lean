/-
**The service as a process.**

Observations, switches, failovers, logins and reloads happen in one process, at any time.  A
failover is a task of its own: it waits until no turn runs, picks a target and switches to it.  The
transition mutex keeps the switches apart, but the native credentials can change between any two
calls.
-/

import CodexMarathon.Lib.Machine
import CodexMarathon.Service.Operations
import CodexMarathon.Service.Quota

namespace CodexMarathon

open Auth

variable [Externals]

/-! ### Tasks -/

inductive TaskCall
  | service (c : ServiceCall)
  | lockTransition
  | unlockTransition
  /-- Waits until no turn is running; `false` if the channel is closed. -/
  | idle
  | registryState
  /-- The observed quotas; none if their lock is poisoned. -/
  | quotas
  | contains (key : String)
  | endAutoFailover

abbrev TaskCall.Ans : TaskCall → Type
  | .service c => c.Ans
  | .idle => Bool
  | .registryState => Except DomainError RegistryState
  | .quotas => Option Quotas
  | .contains _ => Bool
  | _ => Unit

abbrev TaskProg (α : Type) : Type := Prog TaskCall TaskCall.Ans α

namespace Service

def onTask {α : Type} (p : ServiceProg α) : TaskProg α := p.subst fun c => Prog.perform (.service c)

def guardedSwitch (target : String) :
    TaskProg (Except MarathonServiceError MarathonSwitchResponse) := do
  Prog.perform TaskCall.lockTransition
  let response ← onTask (switch target).run
  Prog.perform TaskCall.unlockTransition
  pure response

def filterPresent : List AccountRecord → TaskProg (List AccountRecord)
  | [] => pure []
  | account :: rest => do
      let present : Bool ← Prog.perform (TaskCall.contains account.effectiveRef)
      let others ← filterPresent rest
      pure (if present then account :: others else others)

def failOver : Option String → TaskProg Unit
  | none => pure ()
  | some target => do
      let _ ← guardedSwitch target
      pure ()

def selectAndSwitch (source : String) (state : RegistryState) : TaskProg Unit := do
  let now : DateTime ← Prog.perform (TaskCall.service .now)
  let quotas : Option Quotas ← Prog.perform TaskCall.quotas
  match quotas with
  | none => pure ()
  | some quotas => do
      let present ← filterPresent (preselected state source)
      failOver (selectAutoTarget present quotas now)

def failOverIdle (source : String) : Except DomainError RegistryState → TaskProg Unit
  | .error _ => pure ()
  | .ok state => selectAndSwitch source state

def runAutoFailover (source : String) : TaskProg Unit := do
  let idle : Bool ← Prog.perform TaskCall.idle
  if idle then do
    let state : Except DomainError RegistryState ← Prog.perform TaskCall.registryState
    failOverIdle source state
  else pure ()

def failoverTask (source : String) : TaskProg Unit := do
  runAutoFailover source
  Prog.perform TaskCall.endAutoFailover

def switchTask (target : String) : TaskProg Unit := do
  let _ ← guardedSwitch target
  pure ()

end Service

/-! ### The process -/

/-- The account for which it is a failover, whether it has called an installation, and what is left
to do. -/
structure Task where
  source : Option String
  installed : Bool
  todo : TaskProg Unit

structure Process where
  world : World
  turnsClosed : Bool
  transitionHeld : Bool
  quotas : Option Quotas
  autoFailoverInFlight : Bool
  tasks : List Task

namespace Process

def exec (p : Process) : (c : TaskCall) → Option (c.Ans × Process)
  | .service c => some ((p.world.exec c).1, { p with world := (p.world.exec c).2 })
  | .lockTransition =>
    if p.transitionHeld then none else some ((), { p with transitionHeld := true })
  | .unlockTransition => some ((), { p with transitionHeld := false })
  | .idle =>
    if p.world.runningTurns = 0 then some (true, p)
    else if p.turnsClosed then some (false, p)
    else none
  | .registryState =>
    some (faulty (p.world.storeFault .lockExclusive)
      (faulty (p.world.storeFault .stateLocked) p.world.store.stateLocked), p)
  | .quotas => some (p.quotas, p)
  | .contains key =>
    -- an error counts as absence
    some ((p.world.storeFault (.loadLocked key)).isNone && (validateAccountId key).toBool
      && (p.world.store.vault key).isSome, p)
  | .endAutoFailover => some ((), { p with autoFailoverInFlight := false })

def observeRateLimits (p : Process) (snapshot : RateLimitSnapshot) : Process :=
  match p.world.cachedAccount, quotaObservation snapshot, p.quotas with
  | some id, some (usedPercent, isWeekly), some quotas =>
    let observed :=
      { p with quotas := some (quotas.insert id ⟨usedPercent, p.world.clock, isWeekly⟩) }
    if !isWeekly || !quotaRequiresFailover usedPercent || p.autoFailoverInFlight then observed
    else
      { observed with
        autoFailoverInFlight := true
        tasks := p.tasks ++ [⟨some id, false, Service.failoverTask id⟩] }
  | _, _, _ => p

end Process

inductive ProcessEvent
  | advance (n : ℕ)
  | observe (snapshot : RateLimitSnapshot)
  | request (target : String)
  | native (m : AuthManager)
  | turns (n : ℕ)
  | closeTurns
  | clock (now : DateTime)
  | stores (store : Store)

/-- Credentials were installed by a task, which is a failover for `source`, over `current`. -/
inductive ProcessOutput
  | quiet
  | installed (source : Option String) (current : Option String)
deriving DecidableEq

def TaskCall.isInstall : TaskCall → Bool
  | .service (.auth (.install _ _)) => true
  | _ => false

def TaskCall.installs : (c : TaskCall) → c.Ans → Bool
  | .service (.auth (.install _ _)), .ok _ => true
  | _, _ => false

namespace Process

def advance (p : Process) (n : ℕ) : Process × ProcessOutput :=
  match p.tasks[n]? with
  | some ⟨source, installed, .call c k⟩ =>
    match p.exec c with
    | some (a, p') =>
      ({ p' with tasks := p.tasks.set n ⟨source, installed || c.isInstall, k a⟩ },
        if c.installs a then .installed source p.world.cachedAccount else .quiet)
    | none => (p, .quiet)
  | _ => (p, .quiet)

def step (p : Process) : ProcessEvent → Process × ProcessOutput
  | .advance n => p.advance n
  | .observe snapshot => (p.observeRateLimits snapshot, .quiet)
  | .request target =>
    ({ p with tasks := p.tasks ++ [⟨none, false, Service.switchTask target⟩] }, .quiet)
  | .native m => ({ p with world := { p.world with native := m } }, .quiet)
  | .turns n => ({ p with world := { p.world with runningTurns := n } }, .quiet)
  | .closeTurns => ({ p with turnsClosed := true }, .quiet)
  | .clock now => ({ p with world := { p.world with clock := now } }, .quiet)
  | .stores store => ({ p with world := { p.world with store } }, .quiet)

end Process

def processMachine : Machine Process ProcessEvent ProcessOutput := ⟨Process.step⟩

def Process.start (w : World) : Process where
  world := w
  turnsClosed := false
  transitionHeld := false
  quotas := some ∅
  autoFailoverInFlight := false
  tasks := []

end CodexMarathon
