/-
**What a change of the account does to the rest of the app-server.**

The connections of loaded threads, the configuration managed by the organisation, the residency
requirement and what clients believe are bound to the account.  A reload that changes the
credentials renews all of these; a switch of accounts only drops the connections.
-/

import CodexMarathon.Service.Switch

namespace CodexMarathon

open Auth Prog

/-! ### What is bound to the account -/

structure AccountUpdatedNotification where
  authMode : Option AuthMode
  planType : Option String
deriving DecidableEq

section

variable (Bundle Residency Session : Type)

/-- The bundle that is loaded under given credentials, and the residency requirement with it. -/
structure Policies where
  startupBundle : Option CodexAuth → Bundle
  enforceResidency : Bundle → Option Residency

/-- The cached sessions, the bundle, the residency requirement and the `AccountUpdated`
notifications. -/
structure Effects where
  sessions : List (String × Option Session)
  loader : Option Bundle
  residency : Residency
  accountUpdates : List AccountUpdatedNotification
deriving DecidableEq

variable [Externals]

structure AppServer extends Effects Bundle Residency Session where
  world : World

end

variable {Bundle Residency Session : Type} [Externals]

namespace World

variable {w w' : World}

theorem transportCaches_exec {c : ServiceCall} (hc : c ≠ .invalidateModelTransportCaches) :
    (w.exec c).2.transportCaches = w.transportCaches := by
  cases c with
  | store c =>
    simp only [exec, execStore]
    split <;> rfl
  | auth c =>
    cases c with
    | install source snapshot =>
      simp only [exec, execAuth]
      split <;> rfl
    | _ => rfl
  | invalidateModelTransportCaches => exact absurd rfl hc
  | _ => rfl

theorem transportCaches_le {α : Type} {p : ServiceM α} {r : Except MarathonServiceError α}
    (h : w.run p = (r, w')) : w.transportCaches ≤ w'.transportCaches := by
  suffices hle : w.transportCaches ≤ (w.run p).2.transportCaches by
    rwa [h] at hle
  refine run_invariant (I := fun w' : World => w.transportCaches ≤ w'.transportCaches) ?_ p.run le_rfl
  intro c w' hle
  by_cases hc : c = .invalidateModelTransportCaches
  · subst hc
    exact hle.trans (Nat.le_succ _)
  · rw [transportCaches_exec hc]
    exact hle

end World

namespace AppServer

variable (policies : Policies Bundle Residency) (s : AppServer Bundle Residency Session)

def dropped (sessions : List (String × Option Session)) : List (String × Option Session) :=
  sessions.map fun thread => (thread.1, none)

def invalidateModelTransportCaches : AppServer Bundle Residency Session :=
  { s with
    sessions := dropped s.sessions
    world.transportCaches := s.world.transportCaches + 1 }

/-- `replace_cloud_config_bundle_loader`: the new loader has loaded nothing. -/
def replaceCloudConfigBundleLoader : AppServer Bundle Residency Session := { s with loader := none }

def latestBundle : Bundle :=
  s.loader.getD (policies.startupBundle s.world.native.authCached)

def syncDefaultClientResidencyRequirement : AppServer Bundle Residency Session :=
  { s with
    loader := some (s.latestBundle policies)
    residency := (policies.enforceResidency (s.latestBundle policies)).getD s.residency }

def sendAccountUpdated : AppServer Bundle Residency Session :=
  let auth := s.world.native.authCached
  { s with
    accountUpdates := s.accountUpdates ++
      [⟨auth.map (·.apiAuthMode), auth.bind (·.accountPlanType)⟩] }

def handleAuthReloadStatus (status : AuthReloadStatus) :
    AuthReloadStatus × AppServer Bundle Residency Session :=
  match status with
  | .reloaded changed =>
    (.reloaded changed,
      if changed then
        ((s.invalidateModelTransportCaches.replaceCloudConfigBundleLoader
          ).syncDefaultClientResidencyRequirement policies).sendAccountUpdated
      else s)
  | .failed => (.failed, s)

def reloadWritten (storage : Except IoError (Option AuthDotJson)) :
    AuthReloadStatus × AppServer Bundle Residency Session :=
  let reload := AuthManager.reloadWithStatus s.world.config { s.world.native with storage }
  AppServer.handleAuthReloadStatus policies { s with world.native := reload.2 } reload.1

/-! ### The operations of the service -/

def exec (c : ServiceCall) (s : AppServer Bundle Residency Session) :
    c.Ans × AppServer Bundle Residency Session :=
  match c with
  | .invalidateModelTransportCaches => ((), s.invalidateModelTransportCaches)
  | c => ((World.exec c s.world).1, { s with world := (World.exec c s.world).2 })

def run {α : Type} (p : ServiceM α) (s : AppServer Bundle Residency Session) :
    Except MarathonServiceError α × AppServer Bundle Residency Session :=
  Prog.run exec p.run s

variable {s} {α : Type}

theorem run_world (p : ServiceM α) : s.world.run p = ((s.run p).1, (s.run p).2.world) := by
  refine run_project ?_ p.run s
  intro c s
  cases c <;> rfl

theorem run_frame (p : ServiceM α) :
    (s.run p).2.loader = s.loader ∧ (s.run p).2.residency = s.residency ∧
      (s.run p).2.accountUpdates = s.accountUpdates := by
  have hframe := Prog.run_frame (h := exec)
    (f := fun s : AppServer Bundle Residency Session => (s.loader, s.residency, s.accountUpdates))
    (fun c s => by cases c <;> rfl) p.run s
  obtain ⟨hloader, hrest⟩ := Prod.mk.inj hframe
  exact ⟨hloader, Prod.mk.inj hrest⟩

omit [Externals] in
theorem dropped_dropped (sessions : List (String × Option Session)) :
    dropped (dropped sessions) = dropped sessions := by
  simp [dropped, Function.comp_def]

theorem exec_of_ne {c : ServiceCall} (hc : c ≠ .invalidateModelTransportCaches) :
    (exec c s).2.world.transportCaches = s.world.transportCaches ∧
      (exec c s).2.sessions = s.sessions := by
  have hworld : (exec c s).2.world.transportCaches = (s.world.exec c).2.transportCaches ∧
      (exec c s).2.sessions = s.sessions := by
    cases c with
    | invalidateModelTransportCaches => exact absurd rfl hc
    | _ => exact ⟨rfl, rfl⟩
  rw [World.transportCaches_exec hc] at hworld
  exact hworld

def SinceDropped (before s : AppServer Bundle Residency Session) : Prop :=
  s.world.transportCaches = before.world.transportCaches ∧ s.sessions = before.sessions ∨
    s.sessions = dropped before.sessions

theorem SinceDropped.exec {before : AppServer Bundle Residency Session} (c : ServiceCall)
    (s : AppServer Bundle Residency Session) (h : SinceDropped before s) :
    SinceDropped before (exec c s).2 := by
  by_cases hc : c = .invalidateModelTransportCaches
  · subst hc
    have hdrop : (AppServer.exec .invalidateModelTransportCaches s).2.sessions =
        dropped s.sessions := rfl
    rcases h with ⟨-, hsame⟩ | hsince
    · exact .inr (hdrop.trans (hsame ▸ rfl))
    · rw [hsince, dropped_dropped] at hdrop
      exact .inr hdrop
  · obtain ⟨hcaches, hses⟩ := exec_of_ne hc
    rcases h with ⟨hcaches', hsame⟩ | hsince
    · exact .inl ⟨hcaches.trans hcaches', hses.trans hsame⟩
    · exact .inr (hses.trans hsince)

theorem run_sessions (p : ServiceM α)
    (h : s.world.transportCaches < (s.run p).2.world.transportCaches) :
    (s.run p).2.sessions = dropped s.sessions := by
  rcases run_invariant SinceDropped.exec p.run (.inl ⟨rfl, rfl⟩) with ⟨hcaches, -⟩ | hses
  · exact absurd hcaches h.ne'
  · exact hses

end AppServer

/-! ### A switch that changes the credentials -/

namespace Service

variable {w w' : World}

theorem transportCaches_of_transition {state : RegistryState} {turns : ℕ} {current : Option String}
    {account : AccountRecord} {response : MarathonSwitchResponse}
    (h : World.run (transition state turns current account) w = (.ok response, w')) :
    w.transportCaches < w'.transportCaches := by
  obtain ⟨_, w₁, h₁, h⟩ := (run_except_bind_eq_ok World.exec).1 h
  obtain ⟨auth, w₂, h₂, h⟩ := (run_except_bind_eq_ok World.exec).1 h
  obtain ⟨generation, w₃, hadopt, h⟩ := (run_except_bind_eq_ok World.exec).1 h
  cases h
  obtain ⟨status, w₄, h₄, h⟩ := (run_except_bind_eq_ok World.exec).1 hadopt
  obtain ⟨changed, w₅, h₅, h⟩ := (run_except_bind_eq_ok World.exec).1 h
  obtain ⟨cached, w₆, h₆, h⟩ := (run_except_bind_eq_ok World.exec).1 h
  obtain ⟨_, w₇, h₇, h⟩ := (run_except_bind_eq_ok World.exec).1 h
  obtain ⟨_, w₈, hinv, h₈⟩ := (run_except_bind_eq_ok World.exec).1 h
  have hlt : w₇.transportCaches < w₈.transportCaches := by
    cases hinv
    exact Nat.lt_succ_self _
  calc
    w.transportCaches ≤ w₁.transportCaches := World.transportCaches_le h₁
    _ ≤ w₂.transportCaches := World.transportCaches_le h₂
    _ ≤ w₄.transportCaches := World.transportCaches_le h₄
    _ ≤ w₅.transportCaches := World.transportCaches_le h₅
    _ ≤ w₆.transportCaches := World.transportCaches_le h₆
    _ ≤ w₇.transportCaches := World.transportCaches_le h₇
    _ < w₈.transportCaches := hlt
    _ ≤ w'.transportCaches := World.transportCaches_le h₈

theorem transportCaches_of_switch {target : String} {response : MarathonSwitchResponse}
    (h : World.run (switch target) w = (.ok response, w'))
    (hcom : response.outcome = .committed) (hchan : w'.authGeneration ≠ w.authGeneration) :
    w.transportCaches < w'.transportCaches := by
  rcases stopped_or_ready w target with hstop | ⟨state, account, current, -, -, hrun⟩
  · obtain ⟨r, w'', hrun, hr, -⟩ := hstop.run
    rw [h] at hrun
    cases hrun
    exact absurd ⟨response, rfl, hcom⟩ hr
  · rw [h] at hrun
    split_ifs at hrun with hactive
    · -- the target is active already, and no credentials are installed
      rcases w.run_store_cases (.setActiveLocked account.id) rfl (fun _ => .persistence)
        with ⟨⟨⟩, store, -, hstore⟩ | ⟨-, e, hstore⟩
      · rw [reactivate, World.run_bind_ok hstore, World.run_pure] at hrun
        cases hrun
        exact absurd rfl hchan
      · rw [reactivate, World.run_bind_error hstore] at hrun
        cases hrun
    · exact transportCaches_of_transition hrun.symm

end Service

namespace AppServer

variable {policies : Policies Bundle Residency} {s : AppServer Bundle Residency Session}
  {target : String} {response : MarathonSwitchResponse}

def switched (s : AppServer Bundle Residency Session) (target : String) :
    AppServer Bundle Residency Session :=
  (s.run (Service.switch target)).2

theorem reloadWritten_effects {storage : Except IoError (Option AuthDotJson)}
    (h : (s.reloadWritten policies storage).1 = .reloaded true) :
    (s.reloadWritten policies storage).2.sessions = dropped s.sessions ∧ ∃ update,
        (s.reloadWritten policies storage).2.accountUpdates = s.accountUpdates ++ [update] := by
  unfold reloadWritten at h ⊢
  generalize AuthManager.reloadWithStatus s.world.config { s.world.native with storage } = reload
    at h ⊢
  obtain ⟨changed | _, native⟩ := reload
  · cases h
    exact ⟨rfl, _, rfl⟩
  · cases h

theorem switched_effects (hok : (s.run (Service.switch target)).1 = .ok response)
    (hcom : response.outcome = .committed)
    (hchan : (s.switched target).world.authGeneration ≠ s.world.authGeneration) :
    (s.switched target).toEffects = { s.toEffects with sessions := dropped s.sessions } := by
  have hworld := run_world (s := s) (Service.switch target)
  obtain ⟨hloader, hres, hupd⟩ := run_frame (Service.switch target)
  rw [hok] at hworld
  have hses := run_sessions (Service.switch target)
    (Service.transportCaches_of_switch hworld hcom hchan)
  unfold switched
  generalize (s.run (Service.switch target)).2.toEffects = effects
    at hses hloader hres hupd ⊢
  obtain ⟨sessions, loader, residency, updates⟩ := effects
  simp only at hses hloader hres hupd
  rw [hses, hloader, hres, hupd]

/-- **A switch never has the effects of the reload**: it does not send the notification. -/
theorem switch_effects_ne_reload (hok : (s.run (Service.switch target)).1 = .ok response)
    (hcommitted : response.outcome = .committed)
    (hchanged : (s.switched target).world.authGeneration ≠ s.world.authGeneration)
    (hreload : (s.reloadWritten policies (s.switched target).world.native.storage).1 =
      .reloaded true) : (s.switched target).sessions =
        (s.reloadWritten policies (s.switched target).world.native.storage).2.sessions ∧
      (s.switched target).toEffects ≠
        (s.reloadWritten policies (s.switched target).world.native.storage).2.toEffects := by
  have heff := switched_effects hok hcommitted hchanged
  obtain ⟨hses, update, hupd⟩ := reloadWritten_effects hreload
  constructor
  · rw [hses, heff]
  · intro heq
    rw [heff] at heq
    have hlength := congrArg (fun effects => effects.accountUpdates.length) heq
    simp [hupd] at hlength

end AppServer

def Policies.sample : Policies String (Option String) where
  startupBundle auth := (auth.bind (·.getAccountId)).getD ""
  enforceResidency bundle := some (if bundle = "b" then some "us" else none)

namespace AppServer

def sample : @AppServer String (Option String) String .sample :=
  letI := Externals.sample
  { sessions := [("thread", some "connection of a")]
    loader := some "a"
    residency := none
    accountUpdates := []
    world := .sample }

omit [Externals] in
theorem switch_effects_ne_reload_sample :
    letI := Externals.sample
    (sample.switched "b").sessions =
        (sample.reloadWritten .sample (sample.switched "b").world.native.storage).2.sessions ∧
      (sample.switched "b").toEffects ≠
        (sample.reloadWritten .sample (sample.switched "b").world.native.storage).2.toEffects := by
  have hsample : letI := Externals.sample
      (sample.run (Service.switch "b")).1 = .ok ⟨some "b", .committed, 1, 0, none⟩ ∧
        (sample.switched "b").world.authGeneration ≠ sample.world.authGeneration ∧
        (sample.reloadWritten .sample (sample.switched "b").world.native.storage).1 =
          .reloaded true := by
    let := Externals.sample
    decide
  obtain ⟨hok, hchan, hreload⟩ := hsample
  exact @switch_effects_ne_reload _ _ _ .sample _ _ _ _ hok rfl hchan hreload

omit [Externals] in
/-- After a switch from `a` to `b` the app-server goes on with the configuration of `a`. -/
theorem switched_keeps_policies :
    letI := Externals.sample
    let reload := sample.reloadWritten .sample (sample.switched "b").world.native.storage
    (sample.run (Service.switch "b")).1 = .ok ⟨some "b", .committed, 1, 0, none⟩ ∧
      (sample.switched "b").world.cachedAccount = some "b" ∧
      (sample.switched "b").toEffects = ⟨[("thread", none)], some "a", none, []⟩ ∧
      reload.1 = .reloaded true ∧ reload.2.world.cachedAccount = some "b" ∧
      reload.2.toEffects =
        ⟨[("thread", none)], some "b", some "us", [⟨some .chatgpt, some "unknown"⟩]⟩ := by
  let := Externals.sample
  decide

end AppServer

end CodexMarathon
