/-
**What the generation in a status says.**

A status reports the account of the cached credentials and the generation of the service, which
advances when a switch has installed other credentials and written the registry.  Everything else
that changes the credentials leaves the generation alone.
-/

import CodexMarathon.Service.Credentials
import CodexMarathon.Service.Quota
import CodexMarathon.Service.Switch

namespace CodexMarathon

open Auth World

variable [Externals]

/-! ### The status -/

inductive AutoResetPhase
  | idle
  | attempting
  | succeeded
  | blocked
deriving DecidableEq, Repr

structure AutoResetState where
  enabled : Bool
  phase : AutoResetPhase
  lastError : String
deriving DecidableEq

def autoResetPhaseLabel : AutoResetPhase → String
  | .idle => "idle"
  | .attempting => "attempting"
  | .succeeded => "succeeded"
  | .blocked => "blocked"

def credentialHealthLabel : CredentialHealth → String
  | .unknown => "unknown"
  | .healthy => "healthy"
  | .stale => "stale"
  | .invalid => "invalid"

structure MarathonAccount where
  accountId : String
  aliasName : String
  active : Bool
  credentialPresent : Bool
  credentialHealth : String
  weeklyQuotaRemainingPercent : Option F64
  resetActionAvailable : Bool
deriving DecidableEq

structure MarathonStatusResponse where
  enabled : Bool
  activeAccountId : Option String
  currentAccountId : Option String
  authGeneration : UInt64
  activeTurnCount : ℕ
  accounts : List MarathonAccount
  autoResetEnabled : Bool
  autoResetPhase : String
  autoResetLastError : Option String
deriving DecidableEq

/-- `remaining` rounds `(100.0 - used_percent).max(0.0)`. -/
structure StatusReads where
  quotas : Option Quotas
  autoReset : Except DomainError AutoResetState
  remaining : F64.Percent → F64

namespace World

def registryState (w : World) : Except DomainError RegistryState :=
  faulty (w.storeFault .lockExclusive) (faulty (w.storeFault .stateLocked) w.store.stateLocked)

def vaultContains (w : World) (key : String) : Bool :=
  (w.storeFault (.loadLocked key)).isNone && (validateAccountId key).toBool
    && (w.store.vault key).isSome

end World

def marathonAccount (w : World) (reads : StatusReads) (state : RegistryState)
    (account : AccountRecord) : MarathonAccount where
  accountId := account.id
  aliasName := account.aliasName
  active := state.activeAccountId = account.id
  credentialPresent := w.vaultContains account.effectiveRef
  credentialHealth := credentialHealthLabel account.credentialHealth
  weeklyQuotaRemainingPercent :=
    (((reads.quotas.bind (·.lookup account.id)).filter (·.isWeekly)).filter
      (·.fresh w.clock)).map fun quota => reads.remaining quota.usedPercent
  resetActionAvailable := false

def Service.status (w : World) (reads : StatusReads) :
    Except MarathonServiceError MarathonStatusResponse := do
  let state ← w.registryState.mapError fun _ => .stateUnavailable
  let autoReset ← reads.autoReset.mapError fun _ => .stateUnavailable
  pure
    { enabled := state.enabled
      activeAccountId := if state.activeAccountId.isEmpty then none else some state.activeAccountId
      currentAccountId := w.cachedAccount
      authGeneration := w.authGeneration
      activeTurnCount := min w.runningTurns 4294967295
      accounts := state.records.map (marathonAccount w reads state)
      autoResetEnabled := autoReset.enabled
      autoResetPhase := autoResetPhaseLabel autoReset.phase
      autoResetLastError := if autoReset.lastError.isEmpty then none else some autoReset.lastError }

theorem Service.status_eq_ok {w : World} {reads : StatusReads} {r : MarathonStatusResponse}
    (h : status w reads = .ok r) :
    r.currentAccountId = w.cachedAccount ∧ r.authGeneration = w.authGeneration := by
  obtain ⟨state, -, h⟩ := Result.bind_eq_ok.1 h
  obtain ⟨autoReset, -, h⟩ := Result.bind_eq_ok.1 h
  cases h
  exact ⟨rfl, rfl⟩

/-! ### What a switch does to the account and the generation -/

namespace Service

section Switch

open Prog

variable {w₀ w : World}

def SameIdentity (w₀ w : World) : Prop :=
  w.cachedAccount = w₀.cachedAccount ∧ w.authGeneration = w₀.authGeneration

def SameGeneration (w₀ w : World) : Prop := w.authGeneration = w₀.authGeneration

def Follows (w₀ w : World) : Prop :=
  SameIdentity w₀ w ∨ w.authGeneration = w₀.authGeneration + 1

/-- The account and the generation are the same, or the switch was committed and the generation has
advanced. -/
def Announces (w₀ : World) (r : MarathonSwitchResponse) (w : World) : Prop :=
  SameIdentity w₀ w ∨ r.outcome = .committed ∧ w.authGeneration = w₀.authGeneration + 1

namespace Identity

def Stable (I : World → Prop) : Prop := ∀ w w', SameIdentity w w' → I w → I w'

theorem stable_sameIdentity : Stable (SameIdentity w₀) :=
  fun _ _ h hI => ⟨h.1.trans hI.1, h.2.trans hI.2⟩

theorem sameIdentity_execStore (w : World) (c : StoreCall) : SameIdentity w (w.execStore c).2 := by
  unfold execStore
  split <;> exact ⟨rfl, rfl⟩

variable {I E : World → Prop}

theorem safe_ask {α : Type} {c : ServiceCall} {k : c.Ans → α} (h : I (w.exec c).2) :
    (liftM (Prog.call c fun a => .ret (k a) : ServiceProg α) : ServiceM α).run.Safe
      (.ofExec exec) (Outcome (fun _ => I) E) w := by
  refine safe_liftProg ⟨trivial, ?_⟩
  rintro a w' hexec
  change w.exec c = (a, w') at hexec
  rwa [hexec] at h

theorem safe_store (hI : Stable I) (hE : ∀ w, I w → E w) (c : StoreCall)
    (g : DomainError → MarathonServiceError) (h : I w) :
    (store c g).run.Safe (.ofExec exec) (Outcome (fun _ => I) E) w := by
  refine safe_orFail ⟨trivial, ?_⟩
  rintro a w' hexec
  have hw' : I w' := by
    have hsame := sameIdentity_execStore w c
    have heq : w.execStore c = (a, w') := hexec
    rw [heq] at hsame
    exact hI w w' hsame h
  cases a with
  | ok v => exact hw'
  | error e => exact hE w' hw'

theorem safe_captureSource (hI : Stable I) (hE : ∀ w, I w → E w) (state : RegistryState)
    (id : String) (h : I w) :
    (captureSource state id).run.Safe (.ofExec exec) (Outcome (fun _ => I) E) w := by
  refine safe_seq (Q := fun _ => I) (safe_orFail ⟨trivial, ?_⟩) ?_
  · rintro a w' hexec
    obtain ⟨-, rfl⟩ : w.snapshotResult id = a ∧ w = w' := Prod.mk.inj hexec
    cases a with
    | error e => exact hE w h
    | ok snapshot => exact h
  intro snapshot w' hw'
  refine safe_seq (safe_lift (hE w' hw') fun _ _ => hw') ?_
  intro document w'' hw''
  exact safe_store hI hE _ _ hw''

/-- The generation is still the old one, and without a change so is the account. -/
def Installing (w₀ : World) (changed : Bool) (w : World) : Prop :=
  SameGeneration w₀ w ∧ (changed = false → w.cachedAccount = w₀.cachedAccount)

theorem stable_installing {changed : Bool} : Stable (Installing w₀ changed) :=
  fun _ _ h hI => ⟨h.2.trans hI.1, fun hsame => h.1.trans (hI.2 hsame)⟩

theorem cachedAccount_of_install_unchanged {current : Option String} {auth : AuthTransitionSnapshot}
    {m : AuthManager} (h : w.installResult current auth = .ok (.reloaded false, m)) :
    m.cachedAccount = w.cachedAccount := by
  obtain ⟨hstatus, rfl⟩ := AuthManager.install_eq_ok (faulty_eq_ok.1 h).2
  have hequal : authsEqualForRefresh w.native.authCached
      (some (.chatgpt (some auth.authDotJson))) = true := by
    simpa using hstatus
  have hcached : w.native.authCached = some (.chatgpt (some auth.authDotJson)) := by
    cases hcached : w.native.authCached with
    | none => simp [hcached, authsEqualForRefresh] at hequal
    | some cached => cases cached <;> simp_all [authsEqualForRefresh]
  rw [cachedAccount, AuthManager.cachedAccount, AuthManager.cachedAccount, hcached]
  rfl

theorem safe_install (current : Option String) (auth : AuthTransitionSnapshot)
    (h : SameIdentity w₀ w) : (install current auth).run.Safe (.ofExec exec)
      (Outcome (fun status w => ∃ changed, status = .reloaded changed ∧ Installing w₀ changed w)
        (SameGeneration w₀)) w := by
  refine safe_orFail ⟨trivial, ?_⟩
  rintro a w' hexec
  change w.execAuth (.install current auth) = (a, w') at hexec
  cases hins : w.installResult current auth with
  | error e =>
    simp only [execAuth, hins] at hexec
    cases hexec
    exact h.2
  | ok r =>
    obtain ⟨status, m⟩ := r
    simp only [execAuth, hins] at hexec
    cases hexec
    obtain ⟨rfl, -⟩ := AuthManager.install_eq_ok (faulty_eq_ok.1 hins).2
    refine ⟨_, rfl, h.2, fun hsame => ?_⟩
    rw [hsame] at hins
    exact (cachedAccount_of_install_unchanged hins).trans h.1

theorem safe_adopt (current : Option String) (account : AccountRecord)
    (auth : AuthTransitionSnapshot) (h : SameIdentity w₀ w) :
    (adopt current account auth).run.Safe (.ofExec exec)
      (Outcome (fun _ => Follows w₀) (SameGeneration w₀)) w := by
  refine safe_seq (safe_install current auth h) ?_
  rintro _ w₁ ⟨changed, rfl, hw₁⟩
  refine safe_seq (Q := Installing w₀) hw₁ ?_
  intro changed w₂ hw₂
  -- the account is compared, the transports are invalidated and the registry is written
  refine safe_seq (safe_ask hw₂) ?_
  intro cached w₃ hw₃
  refine safe_seq
    (safe_lift hw₃.1 fun _ _ => hw₃) ?_
  intro _ w₄ hw₄
  refine safe_seq (safe_ask (I := Installing w₀ changed) hw₄) ?_
  intro _ w₅ hw₅
  refine safe_seq (safe_store stable_installing (fun _ h => h.1) _ _ hw₅) ?_
  intro _ w₆ hw₆
  cases changed with
  | true => exact safe_ask (.inr (congrArg (· + 1) hw₆.1))
  | false => exact safe_ask (.inl ⟨hw₆.2 rfl, hw₆.1⟩)

theorem safe_transition (state : RegistryState) (turns : ℕ) (current : Option String)
    (account : AccountRecord) (h : SameIdentity w₀ w) :
    (transition state turns current account).run.Safe (.ofExec exec)
      (Outcome (Announces w₀) (SameGeneration w₀)) w := by
  have hE : ∀ w, SameIdentity w₀ w → SameGeneration w₀ w := fun _ h => h.2
  refine safe_seq (Q := fun _ => SameIdentity w₀) ?_ ?_
  · cases current with
    | none => exact h
    | some id => exact safe_captureSource stable_sameIdentity hE state id h
  intro _ w₁ hw₁
  refine safe_seq (safe_seq (safe_store stable_sameIdentity hE _ _ hw₁)
    fun _ w₂ hw₂ => safe_lift (hE w₂ hw₂) fun _ _ => hw₂) ?_
  intro auth w₂ hw₂
  refine safe_seq (safe_adopt current account auth hw₂) ?_
  intro _ w₃ hfol
  exact hfol.imp_right fun hnext => ⟨rfl, hnext⟩

theorem switchPhases_identity (w₀ : World) :
    SwitchPhases (.ofExec exec) (fun _ => SameIdentity w₀) (fun _ _ => SameIdentity w₀)
      (Announces w₀) (SameGeneration w₀) where
  turns _ _ h := safe_ask h
  generation _ _ h := safe_ask h
  cached _ _ h := safe_ask h
  unresolved _ _ h := h.2
  unnamed _ _ _ h := h.2
  refused _ _ _ h _ := .inl h
  reactivate _ _ _ _ _ _ h _ :=
    safe_seq (safe_store stable_sameIdentity (fun _ h => h.2) _ _ h) fun _ _ h => .inl h
  transition state _ current account turns _ h _ _ := safe_transition state turns current account h

end Identity

theorem switch_identity (w : World) (target : String) :
    Outcome (Announces w) (SameGeneration w) (w.run (switch target)).1 (w.run (switch target)).2 :=
  (safe_switch_of_phases (Identity.switchPhases_identity w)
    (safe_seq (Identity.safe_store Identity.stable_sameIdentity (fun _ h => h.2) _ _ ⟨rfl, rfl⟩)
      fun _ _ => Identity.safe_store Identity.stable_sameIdentity (fun _ h => h.2) _ _)).run

end Switch

end Service

/-! ### The service in its process -/

/-- Switches, whatever else happens to credentials and stores, and a change of what fails. -/
inductive ServiceOp
  | switch (target : String)
  | credentials (op : CredentialOp)
  | stores (store : Store)
  | faults (store : StoreCall → Option DomainError) (auth : AuthCall → Option IoError)

def ServiceOp.apply (w : World) : ServiceOp → World
  | .switch target => (w.run (Service.switch target)).2
  | .credentials op => op.apply w
  | .stores store => { w with store }
  | .faults store auth => { w with storeFault := store, authFault := auth }

def serviceMachine : Machine World ServiceOp Unit := ⟨fun w i => (i.apply w, ())⟩

def StatusesAgree (w : World) (is : List ServiceOp) : Prop :=
  ∀ is₁ is₂ is₃, is = is₁ ++ is₂ ++ is₃ → ∀ reads reads' r r',
    Service.status (serviceMachine.run w is₁) reads = .ok r →
    Service.status (serviceMachine.run w (is₁ ++ is₂)) reads' = .ok r' →
      r.authGeneration = r'.authGeneration → r.currentAccountId = r'.currentAccountId

def OnlyCommittedSwitches (w : World) (i : ServiceOp) : Prop :=
  (i.apply w).cachedAccount ≠ w.cachedAccount →
    ∃ target, i = .switch target ∧ Service.Committed (w.run (Service.switch target)).1

def GenerationFits (w : World) : Prop := w.authGeneration ≠ 18446744073709551615

instance (w : World) : Decidable (GenerationFits w) := inferInstanceAs (Decidable (_ ≠ _))

def StatusAnswered (w : World) : Prop := ∃ reads r, Service.status w reads = .ok r

theorem toNat_succ_generation {w : World} (h : GenerationFits w) :
    (w.authGeneration + 1).toNat = w.authGeneration.toNat + 1 := by
  have hlt := w.authGeneration.toNat_lt
  have hne : w.authGeneration.toNat ≠ 18446744073709551615 := fun heq => h (UInt64.toNat.inj heq)
  rw [UInt64.toNat_add, UInt64.toNat_one]
  omega

theorem generation_apply (w : World) (i : ServiceOp) :
    (i.apply w).authGeneration = w.authGeneration ∨
      ((∃ target, i = .switch target ∧ Service.Committed (w.run (Service.switch target)).1) ∧
        (i.apply w).authGeneration = w.authGeneration + 1) := by
  cases i with
  | switch target =>
    have hswitch := Service.switch_identity w target
    cases hr : (w.run (Service.switch target)).1 with
    | error e =>
      rw [hr] at hswitch
      exact .inl hswitch
    | ok r =>
      rw [hr] at hswitch
      rcases hswitch with hsame | ⟨hcom, hnext⟩
      · exact .inl hsame.2
      · exact .inr ⟨⟨target, rfl, r, hr, hcom⟩, hnext⟩
  | credentials op => exact .inl (op.authGeneration_apply w)
  | _ => exact .inl rfl

variable {i : ServiceOp}

theorem follows_of_onlyCommitted {w : World} (h : OnlyCommittedSwitches w i) :
    Service.Follows w (i.apply w) := by
  by_cases hkept : (i.apply w).cachedAccount = w.cachedAccount
  · exact (generation_apply w i).imp (fun hsame => ⟨hkept, hsame⟩) And.right
  · obtain ⟨target, rfl, r, hr, -⟩ := h hkept
    have hswitch := Service.switch_identity w target
    rw [hr] at hswitch
    exact hswitch.imp_right And.right

variable {is : List ServiceOp}

theorem account_of_generation_eq {w : World}
    (hfits : serviceMachine.Each (fun w _ => GenerationFits w) w is)
    (honly : serviceMachine.Each OnlyCommittedSwitches w is)
    (h : (serviceMachine.run w is).authGeneration = w.authGeneration) :
    (serviceMachine.run w is).cachedAccount = w.cachedAccount := by
  refine (Machine.value_of_run_eq (f := fun w => w.authGeneration.toNat)
    (Machine.each_imp ?_ hfits honly)).2 (congrArg UInt64.toNat h)
  intro w i hfit hcom
  rcases follows_of_onlyCommitted hcom with hsame | hnext
  · exact .inl ⟨congrArg UInt64.toNat hsame.2, hsame.1⟩
  · refine .inr ?_
    change w.authGeneration.toNat < (i.apply w).authGeneration.toNat
    rw [hnext, toNat_succ_generation hfit]
    exact Nat.lt_succ_self _

theorem onlyCommitted_of_agree {w : World}
    (hans : serviceMachine.Always StatusAnswered w is) (h : StatusesAgree w is) :
    serviceMachine.Each OnlyCommittedSwitches w is := by
  induction is generalizing w with
  | nil => trivial
  | cons i is ih =>
    refine ⟨?_, ih hans.2 fun is₁ is₂ is₃ his => h (i :: is₁) is₂ is₃ (by rw [his]; rfl)⟩
    by_contra hnot
    obtain ⟨hchan, hcom⟩ := Classical.not_imp.1 hnot
    have hsame := (generation_apply w i).resolve_right fun hnext => hcom hnext.1
    -- the statuses before and after the step disagree
    obtain ⟨reads, r, hr⟩ := hans.1
    obtain ⟨reads', r', hr'⟩ := hans.2.head
    obtain ⟨hacc, hgen⟩ := Service.status_eq_ok hr
    obtain ⟨hacc', hgen'⟩ := Service.status_eq_ok hr'
    refine hchan ?_
    have hagree := h [] [i] is rfl reads reads' r r' hr hr'
      (hgen.trans (hsame.symm.trans hgen'.symm))
    exact hacc'.symm.trans (hagree.symm.trans hacc)

/-- **The generation determines the account exactly as long as only committed switches change it.** -/
theorem statuses_agree_iff (w : World) (is : List ServiceOp)
    (hfits : serviceMachine.Each (fun w _ => GenerationFits w) w is) :
    (serviceMachine.Each OnlyCommittedSwitches w is → StatusesAgree w is) ∧
      (serviceMachine.Always StatusAnswered w is → StatusesAgree w is →
        serviceMachine.Each OnlyCommittedSwitches w is) := by
  constructor
  · rintro honly is₁ is₂ is₃ rfl reads reads' r r' hr hr' hgener
    rw [Machine.each_append, Machine.each_append] at hfits honly
    obtain ⟨hacc, hgen⟩ := Service.status_eq_ok hr
    obtain ⟨hacc', hgen'⟩ := Service.status_eq_ok hr'
    rw [Machine.run_append] at hacc' hgen'
    rw [hacc, hacc']
    refine (account_of_generation_eq hfits.1.2 honly.1.2 ?_).symm
    rw [← hgen', ← hgener, hgen]
  · exact onlyCommitted_of_agree

def StatusReads.sample : StatusReads where
  quotas := some ∅
  autoReset := .ok { enabled := false, phase := .idle, lastError := "" }
  remaining := fun _ => .nan

omit [Externals] in
theorem statuses_agree_sample :
    letI := Externals.sample
    StatusesAgree .sample [.switch "b", .credentials .turnStart] := by
  let := Externals.sample
  have hfits : serviceMachine.Each (fun w _ => GenerationFits w) .sample
      [.switch "b", .credentials .turnStart] := ⟨by decide, by decide, trivial⟩
  refine (statuses_agree_iff .sample _ hfits).1 ⟨?_, ?_, trivial⟩
  · exact fun _ => ⟨"b", rfl, _, rfl, rfl⟩
  · exact fun hchan => absurd rfl hchan

def World.serviceStarted (w : World) : World := { w with authGeneration := 1 }

omit [Externals] in
/-- A login as `b`, and a switch to `b` that cannot write the registry, change the account under one
generation. -/
theorem statuses_disagree :
    letI := Externals.sample
    let reported := fun (w : World) (is : List ServiceOp) =>
      (Service.status (serviceMachine.run w.serviceStarted is) .sample).map fun r =>
        (r.authGeneration, r.currentAccountId)
    reported .sample [] = .ok (1, some "a") ∧
      reported .sample [.credentials (.login (.sample "b" "1"))] = .ok (1, some "b") ∧
      reported Service.fullDisk [] = .ok (1, some "a") ∧
      reported Service.fullDisk [.switch "b"] = .ok (1, some "b") :=
  ⟨rfl, rfl, rfl, rfl⟩

end CodexMarathon
