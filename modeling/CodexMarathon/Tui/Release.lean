/-
**Whether a parked continuation is ever released.**

The widget, the service and the adapter share one authentication manager.  A switch installs
credentials into its cache, a commit reloads it from storage.  The widget learns of a new account
only through a reload of its own, which compares storage with a cache that is up to date already.
-/

import CodexMarathon.Tui.Continuation
import CodexMarathon.Tui.Reload
import CodexMarathon.Adapter.Commit
import CodexMarathon.Service.Switch

namespace CodexMarathon.Tui

open Auth Adapter ChatWidget

variable [Externals]

/-! ### The process -/

structure Session where
  world : World
  adapter : RuntimeAdapter
  widget : ChatWidget

/-- Operations of the service and the adapter, whatever else touches the credentials, and the
widget. -/
inductive SessionOp
  | switch (target : String)
  | adapter (op : AdapterOp) (a : Answers)
  | writeStorage (storage : Except IoError (Option AuthDotJson))
  | refreshToken (fromAuthority : Bool) (answer : RefreshAnswer)
  | turnStart
  | runningTurns (turns : ℕ)
  | authFileChanged (attempt : UInt8) (read : Except String Bool)
  | release (recoveryId : String) (threadId : Option String)
  | widget (op : WidgetOp)

def authReloadMaxAttempts : UInt8 := 3

def onAccountReloaded (env : Submissions) (w : ChatWidget) (changed hasChatgptAccount : Bool) :
    ChatWidget :=
  let updated := w.updateAccountState hasChatgptAccount
  let noticed := if changed then updated.handleAuthIdentityChanged else updated
  noticed.onAuthReloadCompleted env changed

def nextAttempt (attempt : UInt8) : UInt8 := if attempt = 255 then 255 else attempt + 1

def onAccountAnswer (env : Submissions) (w : ChatWidget) (attempt : UInt8) :
    Except String (Bool × Bool) → ChatWidget
  | .ok (changed, hasChatgptAccount) => onAccountReloaded env w changed hasChatgptAccount
  | .error _ =>
    if attempt < authReloadMaxAttempts then w.send (.authFileChangedRetry (nextAttempt attempt))
    else w.onAuthReloadCompleted env false

def handleAuthFileChanged (env : Submissions) (s : Session) (attempt : UInt8)
    (read : Except String Bool) : Session :=
  if s.widget.gates.taskRunning then
    { s with widget := s.widget.deferAuthReloadUntilIdle attempt }
  else
    let (answer, world) := getAccount s.world read
    { s with world, widget := onAccountAnswer env s.widget attempt answer }

def adapterStep (s : Session) (op : AdapterOp) (a : Answers) : Session :=
  let adapter := (step s.adapter (op, nativeAnswers s.world a)).1
  let calls := adapter.backendCalls.drop s.adapter.backendCalls.length
  { s with
    adapter
    world := if .reloadAuthAndInvalidate ∈ calls then (nativeReload s.world).2 else s.world }

def sessionStep (s : Session) (i : SessionOp × Submissions) : Session × Option Bool :=
  match i.1 with
  | .switch target => ({ s with world := (s.world.run (Service.switch target)).2 }, none)
  | .adapter op a => (adapterStep s op a, none)
  | .writeStorage storage => ({ s with world.native.storage := storage }, none)
  | .refreshToken fromAuthority answer =>
    ({ s with world := refreshed s.world fromAuthority answer }, none)
  | .turnStart => ({ s with world := reloadAuthFromStorageIfIdle s.world }, none)
  | .runningTurns turns => ({ s with world.runningTurns := turns }, none)
  | .authFileChanged attempt read => (handleAuthFileChanged i.2 s attempt read, none)
  | .release recoveryId threadId =>
    let r := s.widget.releaseUsageLimitResumeTurn i.2 recoveryId threadId
    ({ s with widget := r.2 }, some r.1)
  | .widget op => ({ s with widget := op.apply i.2 s.widget }, none)

def machine : Machine Session (SessionOp × Submissions) (Option Bool) := ⟨sessionStep⟩

/-! ### Parked, processed, reported -/

structure ParkedFor (recoveryId threadId : String) (s : Session) : Prop where
  enabled : s.widget.marathonRecoveryControllerEnabled = true
  parked : s.widget.resume.IsParked
  recoveryId : s.widget.resume.recoveryId = some recoveryId
  threadId : s.widget.resume.threadId = some threadId

/-- There is no running turn, the reload succeeds and the account is read. -/
structure Processes (s : Session) (read : Except String Bool) : Prop where
  idle : s.widget.gates.taskRunning = false
  noTurns : s.world.runningTurns = 0
  loads : ∃ new, s.world.native.loadAuthFromStorage s.world.config = .ok new
  reads : ∃ account, read = .ok account

def StorageDiffers (w : World) : Prop :=
  ∃ new, w.native.loadAuthFromStorage w.config = .ok new ∧
    authsEqualForRefresh w.native.authCached new = false

def Reports (s : Session) (i : SessionOp × Submissions) : Prop :=
  ∃ attempt read, i.1 = .authFileChanged attempt read ∧ Processes s read ∧ StorageDiffers s.world

def reportedChange : Except String (Bool × Bool) → Bool
  | .ok (changed, _) => changed
  | .error _ => false

/-- **What `account/get` reports**: that storage differs from the cache, if it gets to compare. -/
theorem reportedChange_getAccount_iff (w : World) (read : Except String Bool) :
    reportedChange (getAccount w read).1 = true ↔
      w.runningTurns = 0 ∧ (∃ account, read = .ok account) ∧ StorageDiffers w := by
  unfold getAccount reloadIfIdle StorageDiffers
  by_cases hturns : w.runningTurns = 0
  swap
  · rw [if_pos hturns]
    cases read <;> simp [reportedChange, Except.map, hturns]
  rw [if_neg (not_not.2 hturns)]
  unfold AuthManager.reloadWithStatus
  cases w.native.loadAuthFromStorage w.config with
  | error e => simp [reportedChange]
  | ok new =>
    cases read <;> simp [reportedChange, Except.map, hturns, AuthManager.setCachedAuth]

variable {env : Submissions}

omit [Externals] in
theorem onAccountReloaded_resume {w : ChatWidget}
    (henab : w.marathonRecoveryControllerEnabled = true) (h : w.resume.IsParked)
    (changed hasChatgptAccount : Bool) :
    (onAccountReloaded env w changed hasChatgptAccount).resume =
      { w.resume with authReloaded := changed || w.resume.authReloaded } := by
  -- the queue stays paused for what is parked
  have hnot : (if changed = true then
      (w.updateAccountState hasChatgptAccount).handleAuthIdentityChanged
      else w.updateAccountState hasChatgptAccount) = w.updateAccountState hasChatgptAccount := by
    unfold handleAuthIdentityChanged
    simp [updateAccountState, henab, h.turn, h.waiting]
  unfold onAccountReloaded
  simp only [hnot]
  rw [onAuthReloadCompleted_resume (w := w.updateAccountState hasChatgptAccount)
    henab h]
  rfl

omit [Externals] in
theorem onAccountAnswer_authReloaded {w : ChatWidget}
    (henab : w.marathonRecoveryControllerEnabled = true) (h : w.resume.IsParked)
    (attempt : UInt8) (answer : Except String (Bool × Bool)) :
    (onAccountAnswer env w attempt answer).resume.authReloaded =
      (reportedChange answer || w.resume.authReloaded) := by
  cases answer with
  | ok account =>
    rw [onAccountAnswer, onAccountReloaded_resume henab h]
    rfl
  | error e =>
    unfold onAccountAnswer
    simp only
    split_ifs
    · rfl
    · rw [onAuthReloadCompleted_resume henab h]
      rfl

theorem handleAuthFileChanged_authReloaded_iff {s : Session}
    (henab : s.widget.marathonRecoveryControllerEnabled = true)
    (h : s.widget.resume.IsParked) (attempt : UInt8) (read : Except String Bool) :
    (handleAuthFileChanged env s attempt read).widget.resume.authReloaded = true ↔
      s.widget.resume.authReloaded = true ∨ Processes s read ∧ StorageDiffers s.world := by
  unfold handleAuthFileChanged
  cases hidle : s.widget.gates.taskRunning with
  | true =>
    have hnot : ¬ Processes s read := fun h => by cases hidle.symm.trans h.idle
    simp [hnot, deferAuthReloadUntilIdle]
  | false =>
    simp only [Bool.false_eq_true, if_false, onAccountAnswer_authReloaded henab h,
      Bool.or_eq_true, reportedChange_getAccount_iff]
    constructor
    · rintro (⟨hturns, hread, hdif⟩ | hset)
      · obtain ⟨new, hnew, -⟩ := id hdif
        exact .inr ⟨⟨hidle, hturns, ⟨new, hnew⟩, hread⟩, hdif⟩
      · exact .inl hset
    · rintro (hset | ⟨hproc, hdif⟩)
      · exact .inr hset
      · exact .inl ⟨hproc.noTurns, hproc.reads, hdif⟩

theorem authReloaded_step_iff {recoveryId threadId : String} (s : Session)
    (i : SessionOp × Submissions) (h : ParkedFor recoveryId threadId s)
    (h' : ParkedFor recoveryId threadId (machine.step s i).1) :
    (machine.step s i).1.widget.resume.authReloaded = true ↔
      s.widget.resume.authReloaded = true ∨ Reports s i := by
  obtain ⟨op, env⟩ := i
  -- a step that is no auth-file change leaves what is parked, since it does not unpark it
  have hkeep : (∀ attempt read, op ≠ .authFileChanged attempt read) →
      (machine.step s (op, env)).1.widget.resume = s.widget.resume →
      ((machine.step s (op, env)).1.widget.resume.authReloaded = true ↔
        s.widget.resume.authReloaded = true ∨ Reports s (op, env)) := by
    intro hop hresume
    have hnot : ¬ Reports s (op, env) := by
      rintro ⟨attempt, read, heq, -⟩
      exact hop attempt read heq
    simp [hresume, hnot]
  cases op with
  | authFileChanged attempt read =>
    have hrep : Reports s (.authFileChanged attempt read, env) ↔
        Processes s read ∧ StorageDiffers s.world := by
      constructor
      · rintro ⟨attempt', read', heq, hproc⟩
        cases heq
        exact hproc
      · intro hproc
        exact ⟨attempt, read, rfl, hproc⟩
    rw [hrep]
    exact handleAuthFileChanged_authReloaded_iff h.enabled h.parked attempt read
  | release recoveryId' threadId' =>
    refine hkeep (by simp) ?_
    rcases releaseUsageLimitResumeTurn_resume env s.widget recoveryId' threadId'
      with hresume | hunp
    · exact hresume
    · exact absurd h'.parked hunp
  | widget op =>
    refine hkeep (by simp) ?_
    rcases WidgetOp.apply_resume env h.enabled h.parked op with hresume | hunp
    · exact hresume
    · exact absurd h'.parked hunp
  | _ => exact hkeep (by simp) rfl

def IsTransition (s : Session) : SessionOp → Prop
  | .switch _ => True
  | .adapter op _ => (op.commitCall s.adapter).isSome = true
  | _ => False

/-- A continuation is parked all along; `change` takes the process from `source` to `target`, and
`processing` processes an auth-file change before any other change. -/
structure RecoversAfterTransition (s : Session) (is₁ : List (SessionOp × Submissions))
    (change : SessionOp × Submissions) (is₂ : List (SessionOp × Submissions))
    (processing : SessionOp × Submissions) (is₃ : List (SessionOp × Submissions))
    (recoveryId threadId source target : String) : Prop where
  parked : machine.Always (ParkedFor recoveryId threadId) s
    (is₁ ++ change :: is₂ ++ processing :: is₃)
  transition : IsTransition (machine.run s is₁) change.1
  leaves : (machine.run s is₁).world.cachedAccount = some source
  other : source ≠ target
  arrives : machine.Always (fun s => s.world.cachedAccount = some target)
    (machine.run s (is₁ ++ [change])) is₂
  processed : ∃ attempt read, processing.1 = .authFileChanged attempt read ∧
    Processes (machine.run s (is₁ ++ change :: is₂)) read

theorem release_of_parked {s : Session} {is : List (SessionOp × Submissions)}
    {recoveryId threadId : String} (h : machine.Always (ParkedFor recoveryId threadId) s is)
    (env : Submissions) :
    (machine.step (machine.run s is) (.release recoveryId (some threadId), env)).2 = some
      (decide ((machine.run s is).widget.resume.authReloaded = true ∧
        (machine.run s is).widget.threadId = some threadId)) := by
  have hlast := h.last
  generalize machine.run s is = s' at hlast ⊢
  change some (s'.widget.releaseUsageLimitResumeTurn env recoveryId (some threadId)).1 = _
  rw [releaseUsageLimitResumeTurn_fst, releasable]
  simp [hlast.enabled, hlast.parked.turn, hlast.parked.waiting, hlast.recoveryId, Bool.decide_and,
    beq_eq_decide]

/-- **A release after a change of account is accepted exactly when some auth-file change since the
parking found other credentials in storage than in the cache.** -/
theorem release_accepted_iff {s : Session} {is₁ is₂ is₃ : List (SessionOp × Submissions)}
    {change processing : SessionOp × Submissions} {recoveryId threadId source target : String}
    (h : RecoversAfterTransition s is₁ change is₂ processing is₃ recoveryId threadId source target)
    (env : Submissions) : (machine.step (machine.run s (is₁ ++ change :: is₂ ++ processing :: is₃))
        (.release recoveryId (some threadId), env)).2 = some true ↔
      (s.widget.resume.authReloaded = true ∨
        machine.Once Reports s (is₁ ++ change :: is₂ ++ processing :: is₃)) ∧
      (machine.run s (is₁ ++ change :: is₂ ++ processing :: is₃)).widget.threadId =
        some threadId := by
  have hlatch := Machine.latch_run_iff (f := fun s => s.widget.resume.authReloaded = true)
    authReloaded_step_iff _ h.parked
  rw [release_of_parked h.parked env, Option.some_inj, decide_eq_true_iff, hlatch]

def Session.sample : @Session .sample :=
  letI := Externals.sample
  { world := .sample, adapter := .sample, widget := .sample }

def Session.rotated : SessionOp × Submissions :=
  (.writeStorage (.ok (some (.sample "b" "2"))), .sample)

omit [Externals] in
/-- If another process refreshes the tokens of `b` before the widget processes the change, the
release is accepted. -/
theorem release_accepted_after_rotation :
    letI := Externals.sample
    RecoversAfterTransition .sample [] (.switch "b", .sample) [Session.rotated]
        (.authFileChanged 1 (.ok true), .sample) [] "usage-limit:thread:turn" "thread" "a" "b" ∧
      (machine.step (machine.run .sample [(.switch "b", .sample), Session.rotated,
          (.authFileChanged 1 (.ok true), .sample)])
        (.release "usage-limit:thread:turn" (some "thread"), .sample)).2 = some true := by
  let := Externals.sample
  have hrec : RecoversAfterTransition .sample [] (.switch "b", .sample) [Session.rotated]
      (.authFileChanged 1 (.ok true), .sample) [] "usage-limit:thread:turn" "thread" "a" "b" := by
    refine ⟨⟨?_, ?_, ?_, ?_⟩, trivial, by decide, by decide, by decide, 1, .ok true, rfl,
      by decide, by decide, ⟨some (.chatgpt (some (.sample "b" "2"))), by decide⟩, true, rfl⟩ <;>
    exact ⟨by decide, ⟨by decide, by decide⟩, by decide, by decide⟩
  refine ⟨hrec, (release_accepted_iff hrec .sample).2 ⟨.inr ?_, by decide⟩⟩
  exact .inr (.inr (.inl ⟨1, .ok true, rfl,
    ⟨by decide, by decide, ⟨some (.chatgpt (some (.sample "b" "2"))), by decide⟩, true, rfl⟩,
    some (.chatgpt (some (.sample "b" "2"))), by decide, by decide⟩))

omit [Externals] in
theorem release_rejected_after_switch :
    letI := Externals.sample
    RecoversAfterTransition .sample [] (.switch "b", .sample) []
        (.authFileChanged 1 (.ok true), .sample) [] "usage-limit:thread:turn" "thread" "a" "b" ∧
      (machine.step (machine.run .sample [(.switch "b", .sample),
          (.authFileChanged 1 (.ok true), .sample)])
        (.release "usage-limit:thread:turn" (some "thread"), .sample)).2 = some false := by
  let := Externals.sample
  refine ⟨⟨⟨?_, ?_, ?_⟩, trivial, by decide, by decide, by decide, 1, .ok true, rfl, ?_⟩, by decide⟩
  · exact ⟨by decide, ⟨by decide, by decide⟩, by decide, by decide⟩
  · exact ⟨by decide, ⟨by decide, by decide⟩, by decide, by decide⟩
  · exact ⟨by decide, ⟨by decide, by decide⟩, by decide, by decide⟩
  · exact ⟨by decide, by decide, ⟨some (.chatgpt (some (.sample "b" "1"))), by decide⟩, true, rfl⟩

end CodexMarathon.Tui
