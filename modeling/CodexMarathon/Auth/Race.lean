/-
**An install among reloads.**

An install holds the refresh lock from its first check to its last write.  A reload does not take
that lock: it reads storage, and some time later it writes what it read to the cache.  The accesses
of one install and of any number of reloads are taken one by one, in any order.
-/

import CodexMarathon.Auth.Install
import CodexMarathon.Auth.Login
import CodexMarathon.Lib.Machine
import Mathlib.Logic.Function.Basic

namespace CodexMarathon

open Result

namespace Auth

def AuthManager.loadForReload (cfg : AuthConfig) (answer : AuthAnswer) (m : AuthManager) :
    Option CodexAuth × AuthManager :=
  if cfg.hasExternalAuth then m.loadExternalAuth answer else (m.loadActive cfg, m)

open Stateful

namespace Race

inductive Phase
  | ready
  | locked
  | sourced
  | checked (candidate : CodexAuth)
  | saved (candidate : CodexAuth)
  | finished (result : Except IoError AuthReloadStatus)

def Phase.after {α : Type} (r : Except IoError α) (k : α → Phase) : Phase :=
  match r with
  | .ok a => k a
  | .error e => .finished (.error e)

section Install

variable (cfg : AuthConfig) (source : Option String) (snapshot : AuthTransitionSnapshot)

def checkCached (m : AuthManager) : Except IoError Unit :=
  match source with
  | some expected => do
      let current ← m.currentTransitionSource cfg
      Result.require (current = expected)
        ⟨.permissionDenied, "active auth identity does not match the expected transition source"⟩
  | none =>
    Result.require (m.authCached = none) ⟨.permissionDenied, "native auth is already active"⟩

def checkStored (m : AuthManager) : Except IoError CodexAuth :=
  match source with
  | some expected => do
      let stored ← m.storage
      let stored ← Result.okOr stored ⟨.notFound, "managed auth is not persisted"⟩
      let persisted ← AuthTransitionSnapshot.fromAuthDotJson stored
      Result.require (persisted.accountId = expected)
        ⟨.permissionDenied,
          "persisted auth identity does not match the expected transition source"⟩
      AuthManager.authFromTransitionSnapshot cfg snapshot
  | none => do
      let available ← m.loadAuthFromStorage cfg
      Result.require (available = none)
        ⟨.permissionDenied, "native auth is already available"⟩
      AuthManager.authFromTransitionSnapshot cfg snapshot

def Phase.next (m : AuthManager) : Phase → Phase × AuthManager
  | .ready =>
    (.after (do m.acquireRefreshFileLock cfg; AuthManager.ensureTransitionStorage cfg)
      fun _ => .locked, m)
  | .locked => (.after (checkCached cfg source m) fun _ => .sourced, m)
  | .sourced => (.after (checkStored cfg source snapshot m) .checked, m)
  | .checked candidate =>
    match cfg.storageSave with
    | .ok () => (.saved candidate, { m with storage := .ok (some snapshot.authDotJson) })
    | .error _ => (.finished (.error ⟨.other, "managed auth snapshot could not be persisted"⟩), m)
  | .saved candidate =>
    (.finished (.ok (.reloaded (m.setCachedAuthAfterTransition candidate).1)),
      (m.setCachedAuthAfterTransition candidate).2)
  | .finished result => (.finished result, m)

end Install

section Alone

variable (cfg : AuthConfig) (source : Option String) (snapshot : AuthTransitionSnapshot)
  (m : AuthManager)

theorem install_eq : m.install cfg source snapshot = (do
    (do m.acquireRefreshFileLock cfg; AuthManager.ensureTransitionStorage cfg)
    checkCached cfg source m
    let candidate ← checkStored cfg source snapshot m
    cfg.storageSave.mapError fun _ => ⟨.other, "managed auth snapshot could not be persisted"⟩
    let saved := { m with storage := .ok (some snapshot.authDotJson) }
    pure (.reloaded (saved.setCachedAuthAfterTransition candidate).1,
      (saved.setCachedAuthAfterTransition candidate).2)) := by
  cases source with
  | some expected =>
    simp only [AuthManager.install, AuthManager.installSnapshotForTransition,
      AuthManager.checkTransitionSource, AuthManager.saveAndCache, checkCached, checkStored,
      bind_assoc, pure_bind]
  | none =>
    simp only [AuthManager.install, AuthManager.installSnapshotForBootstrap,
      AuthManager.saveAndCache, checkCached, checkStored, bind_assoc]

theorem next_alone :
    (fun p : Phase × AuthManager => p.1.next cfg source snapshot p.2)^[5] (.ready, m) =
      (.finished (settle (m.install cfg source snapshot) m).1,
        (settle (m.install cfg source snapshot) m).2) := by
  rw [install_eq]
  simp only [Function.iterate_succ, Function.iterate_zero, Function.comp_apply, id]
  cases hlock : (do m.acquireRefreshFileLock cfg; AuthManager.ensureTransitionStorage cfg) with
  | error e =>
    simp only [Phase.next, Phase.after, hlock]
    rfl
  | ok u =>
    cases hcached : checkCached cfg source m with
    | error e =>
      simp only [Phase.next, Phase.after, hlock, hcached]
      rfl
    | ok u =>
      cases hstored : checkStored cfg source snapshot m with
      | error e =>
        simp only [Phase.next, Phase.after, hlock, hcached, hstored]
        rfl
      | ok candidate =>
        cases hsave : cfg.storageSave <;>
          simp only [Phase.next, Phase.after, hlock, hcached, hstored, hsave] <;> rfl

end Alone

structure Reading where
  source : Except IoError (Option AuthDotJson)
  loaded : Option CodexAuth

/-- The manager, the install and the reloads that have read and not yet written. -/
structure State where
  manager : AuthManager
  install : Phase
  reloads : ℕ → Option Reading

def State.start (m : AuthManager) : State := ⟨m, .ready, fun _ => none⟩

inductive Access
  | install
  | reload (call : ℕ) (answer : AuthAnswer)
  | reloadWithStatus (call : ℕ)
  | setCached (call : ℕ)

def State.setReading (s : State) (call : ℕ) (reading : Option Reading) : State :=
  { s with reloads := Function.update s.reloads call reading }

section Machine

variable (cfg : AuthConfig) (source : Option String) (snapshot : AuthTransitionSnapshot)

def step (s : State) : Access → State
  | .install =>
    let (install, manager) := s.install.next cfg source snapshot s.manager
    { s with manager, install }
  | .reload call answer =>
    let (loaded, manager) := s.manager.loadForReload cfg answer
    State.setReading { s with manager } call (some ⟨s.manager.storage, loaded⟩)
  | .reloadWithStatus call =>
    -- a reading that fails ends the call and leaves the cache
    match s.manager.loadAuthFromStorage cfg with
    | .error _ => s.setReading call none
    | .ok loaded => s.setReading call (some ⟨s.manager.storage, loaded⟩)
  | .setCached call =>
    match s.reloads call with
    | none => s
    | some reading =>
      State.setReading { s with manager := (s.manager.setCachedAuth reading.loaded).2 } call none

def machine : Machine State Access Unit := ⟨fun s a => (step cfg source snapshot s a, ())⟩

end Machine

/-! ### Accounts -/

def accountIn (storage : Except IoError (Option AuthDotJson)) : Option String :=
  match storage with
  | .ok (some auth) => (managedTransitionAccountId auth).toOption
  | _ => none

structure Yields (cfg : AuthConfig) (storage : Except IoError (Option AuthDotJson)) : Prop where
  active : ∀ m : AuthManager, m.storage = storage →
    (m.loadActive cfg).bind (·.getAccountId) = accountIn storage
  stored : ∀ (m : AuthManager) (new : Option CodexAuth), m.storage = storage →
    m.loadAuthFromStorage cfg = .ok new → new.bind (·.getAccountId) = accountIn storage

def Phase.Saved : Phase → Prop
  | .saved _ | .finished (.ok _) => True
  | .ready | .locked | .sourced | .checked _ | .finished (.error _) => False

def Phase.Finished : Phase → Prop
  | .finished _ => True
  | .ready | .locked | .sourced | .checked _ | .saved _ => False

def State.StaleWrite (s : State) : Access → Prop
  | .setCached call => s.install.Finished ∧ ∃ r ∈ s.reloads call, r.source ≠ s.manager.storage
  | _ => False

inductive Advance (snapshot : AuthTransitionSnapshot) (m : AuthManager) :
    Phase → Phase → AuthManager → Prop
  | check {p p' : Phase} (before : ¬ p.Saved) (after : ¬ p'.Saved)
      (candidate : ∀ c, p' = .checked c → c = .chatgpt (some snapshot.authDotJson)) :
      Advance snapshot m p p' m
  | save {c : CodexAuth} :
      Advance snapshot m (.checked c) (.saved c)
        { m with storage := .ok (some snapshot.authDotJson) }
  | cache {c : CodexAuth} {status : AuthReloadStatus} :
      Advance snapshot m (.saved c) (.finished (.ok status)) (m.setCachedAuthAfterTransition c).2
  | stay {r : Except IoError AuthReloadStatus} :
      Advance snapshot m (.finished r) (.finished r) m

section Advance

variable {cfg : AuthConfig} {source : Option String} {snapshot : AuthTransitionSnapshot}
  {m : AuthManager}

theorem advance_after {α : Type} {p : Phase} {r : Except IoError α} {k : α → Phase}
    (hp : ¬ p.Saved) (hk : ∀ a, ¬ (k a).Saved)
    (hcan : ∀ a c, r = .ok a → k a = .checked c → c = .chatgpt (some snapshot.authDotJson)) :
    Advance snapshot m p (.after r k) m := by
  cases r with
  | error e => exact .check hp id fun _ h => nomatch h
  | ok a => exact .check hp (hk a) fun c => hcan a c rfl

theorem checkStored_eq_ok {candidate : CodexAuth}
    (h : checkStored cfg source snapshot m = .ok candidate) :
    candidate = .chatgpt (some snapshot.authDotJson) := by
  cases source with
  | some expected =>
    obtain ⟨stored, -, h⟩ := bind_eq_ok.1 h
    obtain ⟨doc, -, h⟩ := bind_eq_ok.1 h
    obtain ⟨persisted, -, h⟩ := bind_eq_ok.1 h
    have h := ok_of_bind h
    exact AuthManager.authFromTransitionSnapshot_eq_ok h
  | none =>
    obtain ⟨available, -, h⟩ := bind_eq_ok.1 h
    have h := ok_of_bind h
    exact AuthManager.authFromTransitionSnapshot_eq_ok h

variable (cfg source snapshot m) in
theorem next_advance (p : Phase) :
    Advance snapshot m p (p.next cfg source snapshot m).1 (p.next cfg source snapshot m).2 := by
  cases p with
  | ready => exact advance_after id (fun _ => id) fun _ _ _ h => nomatch h
  | locked => exact advance_after id (fun _ => id) fun _ _ _ h => nomatch h
  | sourced =>
    refine advance_after id (fun _ => id) fun a c ha hc => ?_
    cases hc
    exact checkStored_eq_ok ha
  | checked candidate =>
    unfold Phase.next
    cases cfg.storageSave with
    | ok u => exact .save
    | error e => exact .check id id fun _ h => nomatch h
  | saved candidate => exact .cache
  | finished result => exact .stay

end Advance

/-! ### The invariant of the accesses -/

/-- Before the install saves, the cache and every reading are of the account in storage; once it has
returned, storage and cache are what was installed. -/
structure Agrees (snapshot : AuthTransitionSnapshot)
    (storage : Except IoError (Option AuthDotJson)) (s : State) : Prop where
  readings : ∀ call, ∀ r ∈ s.reloads call, r.loaded.bind (·.getAccountId) = accountIn r.source
  candidate : ∀ c, s.install = .checked c ∨ s.install = .saved c →
    c = .chatgpt (some snapshot.authDotJson)
  unsaved : ¬ s.install.Saved → s.manager.storage = storage ∧
    s.manager.cachedAccount = accountIn storage ∧ ∀ call, ∀ r ∈ s.reloads call, r.source = storage
  saved : s.install.Saved → s.manager.storage = .ok (some snapshot.authDotJson)
  finished : s.install.Finished → s.manager.cachedAccount = s.manager.storedAccount

section Agrees

variable {cfg : AuthConfig} {source : Option String} {snapshot : AuthTransitionSnapshot}
  {storage : Except IoError (Option AuthDotJson)} {s : State}

theorem Agrees.install (h : Agrees snapshot storage s)
    (htokens : snapshot.authDotJson.tokens.bind (·.accountId) = some snapshot.accountId) :
    Agrees snapshot storage (step cfg source snapshot s .install) := by
  obtain ⟨m, p, reloads⟩ := s
  have hadv := next_advance cfg source snapshot m p
  change Agrees snapshot storage
    ⟨(p.next cfg source snapshot m).2, (p.next cfg source snapshot m).1, reloads⟩
  generalize (p.next cfg source snapshot m).1 = p', (p.next cfg source snapshot m).2 = m'
    at hadv ⊢
  cases hadv with
  | check before after candidate =>
    obtain ⟨hstor, hcached, hread⟩ := h.unsaved before
    refine ⟨h.readings, ?_, fun _ => ⟨hstor, hcached, hread⟩, fun hsaved => absurd hsaved after,
      fun _ => ?_⟩
    · rintro c (hc | rfl)
      · exact candidate c hc
      · exact absurd trivial after
    · change m.cachedAccount = accountIn m.storage
      rw [hcached, ← hstor]
  | @save c =>
    refine ⟨h.readings, ?_, fun hnot => absurd trivial hnot, fun _ => rfl, fun hfin => hfin.elim⟩
    rintro c' (hc | hc) <;> cases hc
    exact h.candidate c (.inl rfl)
  | @cache c status =>
    refine ⟨h.readings, fun c' hc => ?_, fun hnot => absurd trivial hnot, fun _ => h.saved trivial,
      fun _ => ?_⟩
    · exact hc.elim nofun nofun
    · have hstor : m.storage = .ok (some snapshot.authDotJson) := h.saved trivial
      obtain rfl := h.candidate c (.inr rfl)
      change snapshot.authDotJson.tokens.bind (·.accountId) = accountIn m.storage
      rw [htokens, hstor]
      simp [accountIn, snapshot.accountId_eq, Except.toOption]
  | stay => exact h

theorem Agrees.setReading (h : Agrees snapshot storage s) (call : ℕ) {reading : Option Reading}
    (hreadi : ∀ r ∈ reading, r.source = s.manager.storage ∧
      r.loaded.bind (·.getAccountId) = accountIn r.source) :
    Agrees snapshot storage (s.setReading call reading) := by
  -- a reading of `call` is the new one, any other is as before
  have hcases : ∀ call', ∀ r ∈ (s.setReading call reading).reloads call',
      r ∈ reading ∨ r ∈ s.reloads call' := by
    intro call' r hr
    by_cases hcall : call' = call
    · subst hcall
      exact .inl (by simpa [State.setReading] using hr)
    · exact .inr (by simpa [State.setReading, hcall] using hr)
  refine ⟨fun call' r hr => ?_, h.candidate, fun hnot => ?_, h.saved, h.finished⟩
  · rcases hcases call' r hr with hr | hr
    · exact (hreadi r hr).2
    · exact h.readings call' r hr
  · obtain ⟨hstor, hcached, hread⟩ := h.unsaved hnot
    refine ⟨hstor, hcached, fun call' r hr => ?_⟩
    rcases hcases call' r hr with hr | hr
    · exact (hreadi r hr).1.trans hstor
    · exact hread call' r hr

theorem Agrees.setCached (h : Agrees snapshot storage s) {call : ℕ} {r : Reading}
    (hr : r ∈ s.reloads call) (hfresh : s.install.Finished → r.source = s.manager.storage) :
    Agrees snapshot storage { s with manager := (s.manager.setCachedAuth r.loaded).2 } := by
  have hacc : ((s.manager.setCachedAuth r.loaded).2).cachedAccount = accountIn r.source :=
    h.readings call r hr
  refine ⟨h.readings, h.candidate, fun hnot => ?_, h.saved, fun hfin => ?_⟩
  · obtain ⟨hstor, -, hread⟩ := h.unsaved hnot
    exact ⟨hstor, hacc.trans (by rw [hread call r hr]), hread⟩
  · exact hacc.trans (by rw [hfresh hfin]; rfl)

theorem Agrees.yields (h : Agrees snapshot storage s) (hbefore : Yields cfg storage)
    (hafter : Yields cfg (.ok (some snapshot.authDotJson))) : Yields cfg s.manager.storage := by
  by_cases hsaved : s.install.Saved
  · rw [h.saved hsaved]
    exact hafter
  · rw [(h.unsaved hsaved).1]
    exact hbefore

theorem Agrees.step (h : Agrees snapshot storage s) (hext : cfg.hasExternalAuth = false)
    (htokens : snapshot.authDotJson.tokens.bind (·.accountId) = some snapshot.accountId)
    (hbefore : Yields cfg storage) (hafter : Yields cfg (.ok (some snapshot.authDotJson)))
    {a : Access} (ha : ¬ s.StaleWrite a) : Agrees snapshot storage (step cfg source snapshot s a) := by
  have hyields := h.yields hbefore hafter
  cases a with
  | install => exact h.install htokens
  | reload call answer =>
    simp only [Race.step, AuthManager.loadForReload, hext, Bool.false_eq_true, if_false]
    refine h.setReading call fun r hr => ?_
    obtain rfl := Option.mem_some_iff.1 hr
    exact ⟨rfl, hyields.active s.manager rfl⟩
  | reloadWithStatus call =>
    simp only [Race.step]
    split
    · exact h.setReading call fun _ => nofun
    · rename_i loaded hloaded
      refine h.setReading call fun r hr => ?_
      obtain rfl := Option.mem_some_iff.1 hr
      exact ⟨rfl, hyields.stored s.manager loaded rfl hloaded⟩
  | setCached call =>
    simp only [Race.step]
    split
    · exact h
    · rename_i r hr
      refine (h.setCached hr fun hfin => ?_).setReading call fun _ => nofun
      by_contra hstale
      exact ha ⟨hfin, r, hr, hstale⟩

end Agrees

/-- **The cache and storage name one account once the install has returned**, if no stale reading is
written after that. -/
theorem cached_eq_stored (cfg : AuthConfig) (source : Option String)
    (snapshot : AuthTransitionSnapshot) (m : AuthManager) (accesses : List Access)
    (hexternal : cfg.hasExternalAuth = false) (hstart : m.cachedAccount = m.storedAccount)
    (htokens : snapshot.authDotJson.tokens.bind (·.accountId) = some snapshot.accountId)
    (hbefore : Yields cfg m.storage) (hafter : Yields cfg (.ok (some snapshot.authDotJson)))
    (hfresh : (machine cfg source snapshot).Each (fun s a => ¬ s.StaleWrite a) (.start m) accesses) :
    let s := (machine cfg source snapshot).run (.start m) accesses
    s.install.Finished → s.manager.cachedAccount = s.manager.storedAccount := by
  have hinit : Agrees snapshot m.storage (.start m) :=
    ⟨fun _ _ => nofun, fun c hc => hc.elim nofun nofun,
      fun _ => ⟨rfl, hstart, fun _ _ => nofun⟩, fun hsaved => hsaved.elim, fun h => h.elim⟩
  have hrun := (machine cfg source snapshot).invariant_run_of_each
    (I := Agrees snapshot m.storage)
    (fun s a ha hs => hs.step hexternal htokens hbefore hafter ha) hfresh hinit
  exact hrun.finished

theorem yields_sample {account token : String}
    (hacc : accountIn (.ok (some (.sample account token))) = some account) :
    Yields .sample (.ok (some (.sample account token))) := by
  refine ⟨fun m h => ?_, fun m new h hnew => ?_⟩
  · rw [AuthManager.loadActive, h, hacc]
    rfl
  · rw [AuthManager.loadAuthFromStorage, h] at hnew
    cases hnew
    exact hacc.symm

theorem cached_eq_stored_late_save :
    let s := (machine .sample (some "a") ⟨.sample "b" "rb", "b", rfl⟩).run
      (.start (.sample (.sample "a" "ra")))
      [.reload 0 .sample, .install, .install, .install, .install, .setCached 0, .install]
    s.install.Finished ∧ s.manager.cachedAccount = s.manager.storedAccount :=
  ⟨trivial, cached_eq_stored .sample (some "a") ⟨.sample "b" "rb", "b", rfl⟩
    (.sample (.sample "a" "ra")) _ rfl (by decide) (by decide) (yields_sample (by decide))
    (yields_sample (by decide)) ⟨id, id, id, id, id, fun h => h.1, id, trivial⟩ trivial⟩

/-- The call 0 reads, the whole install runs, and the call 0 writes. -/
def overtaken (read : Access) : List Access :=
  [read, .install, .install, .install, .install, .install, .setCached 0]

/-- **All calls have returned, the old account is in the cache and the new one in storage.** -/
theorem stale_reading_cached :
    let s := (machine .sample (some "a") ⟨.sample "b" "rb", "b", rfl⟩).run
      (.start (.sample (.sample "a" "ra"))) (overtaken (.reload 0 .sample))
    s.install = .finished (.ok (.reloaded true)) ∧ (∀ call, s.reloads call = none) ∧
      s.manager.cachedAccount = some "a" ∧ s.manager.storedAccount = some "b" := by
  refine ⟨rfl, fun call => ?_, by decide, by decide⟩
  simp [overtaken, Machine.run, machine, step, State.start, State.setReading]

/-- A bootstrap loses to a reload in the same way: nothing is cached in the end. -/
example :
    let s := (machine .sample none ⟨.sample "b" "rb", "b", rfl⟩).run
      (.start { AuthManager.sample (.sample "b" "rb") with
        inner := { auth := none, permanentRefreshFailure := none }, storage := .ok none })
      (overtaken (.reloadWithStatus 0))
    s.manager.cachedAccount = none ∧ s.manager.storedAccount = some "b" := by
  decide

end Race

end Auth

end CodexMarathon
