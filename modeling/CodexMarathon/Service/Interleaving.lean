/-
**A switch among token refreshes.**

The snapshot and the installation of a switch take the refresh locks one after the other.  Here
refreshes of the current account come before each of the calls of a switch, by this process or by
another one on the same home.
-/

import CodexMarathon.Auth.Refresh
import CodexMarathon.Service.Switch

namespace CodexMarathon

open Auth Result Prog

variable [Externals]

variable {g : DomainError → MarathonServiceError}

/-- By this process, or by another one with its own configuration and cache. -/
structure Refresh where
  process : Option (AuthConfig × AuthManager)
  fromAuthority : Bool
  answer : RefreshAnswer

namespace Refresh

def perform (r : Refresh) (cfg : AuthConfig) (m : AuthManager) : AuthManager :=
  if r.fromAuthority then (m.refreshTokenFromAuthority cfg r.answer).2
  else (m.refreshToken cfg r.answer).2

def apply (cfg : AuthConfig) (m : AuthManager) (r : Refresh) : AuthManager :=
  match r.process with
  | none => r.perform cfg m
  | some (cfg', other) => { m with storage := (r.perform cfg' { other with storage := m.storage }).storage }

end Refresh

/-! ### The interleaved world -/

/-- The refreshes that come before each of the next calls, and what an installation found in
storage. -/
structure Interleaved where
  world : World
  pending : List (List Refresh)
  overwritten : Option (Except IoError (Option AuthDotJson))

namespace Interleaved

def arrive (s : Interleaved) : World :=
  { s.world with
    native := (s.pending.headD []).foldl (Refresh.apply s.world.config) s.world.native }

def record (s : Interleaved) : ServiceCall → Option (Except IoError (Option AuthDotJson))
  | .auth (.install _ _) => some s.arrive.native.storage
  | _ => s.overwritten

def exec (c : ServiceCall) (s : Interleaved) : c.Ans × Interleaved :=
  ((s.arrive.exec c).1,
    { world := (s.arrive.exec c).2, pending := s.pending.tail, overwritten := s.record c })

def run {ε α : Type} (p : ExceptT ε (Prog ServiceCall ServiceCall.Ans) α) (s : Interleaved) :
    Except ε α × Interleaved :=
  Prog.run exec p.run s

def start (w : World) (slots : List (List Refresh)) : Interleaved :=
  { world := w, pending := slots, overwritten := none }

def nativeAt (w : World) (slots : List (List Refresh)) (n : ℕ) : AuthManager :=
  (slots.take n).flatten.foldl (Refresh.apply w.config) w.native

theorem nativeAt_succ (w : World) (slots : List (List Refresh)) (n : ℕ) : nativeAt w slots (n + 1) =
      ((slots.drop n).headD []).foldl (Refresh.apply w.config) (nativeAt w slots n) := by
  unfold nativeAt
  rw [List.take_add_one, List.flatten_append, List.foldl_append]
  congr 1
  rw [List.headD_eq_head?_getD, List.head?_drop]
  cases slots[n]? <;> simp

/-- `n` calls of a switch that has not installed anything have been made. -/
structure At (w : World) (slots : List (List Refresh)) (n : ℕ) (st : Store) (s : Interleaved) :
    Prop where
  native : s.world.native = nativeAt w slots n
  config : s.world.config = w.config
  store : s.world.store = st
  pending : s.pending = slots.drop n

theorem at_start (w : World) (slots : List (List Refresh)) :
    At w slots 0 w.store (start w slots) := ⟨rfl, rfl, rfl, rfl⟩

variable {w : World} {slots : List (List Refresh)} {n : ℕ} {st : Store} {s s' : Interleaved}

theorem At.arrive_native (h : At w slots n st s) : s.arrive.native = nativeAt w slots (n + 1) := by
  rw [nativeAt_succ, arrive, h.pending, h.native, h.config]

theorem At.next (h : At w slots n st s) {c : ServiceCall} {st' : Store}
    (hnative : (s.arrive.exec c).2.native = s.arrive.native)
    (hconfig : (s.arrive.exec c).2.config = s.arrive.config)
    (hstore : (s.arrive.exec c).2.store = st') : At w slots (n + 1) st' (exec c s).2 where
  native := hnative.trans h.arrive_native
  config := hconfig.trans h.config
  store := hstore
  pending := by rw [exec, h.pending, List.tail_drop]

theorem At.read (h : At w slots n st s) {c : ServiceCall}
    (hc : (s.arrive.exec c).2 = s.arrive) : At w slots (n + 1) st (exec c s).2 := by
  refine h.next ?_ ?_ ?_ <;> rw [hc]
  exact h.store

/-! ### Calls that succeed -/

variable {ε α β : Type} {p : ExceptT ε (Prog ServiceCall ServiceCall.Ans) α}
  {f : α → ExceptT ε (Prog ServiceCall ServiceCall.Ans) β}

theorem run_bind_eq_ok {b : β} : run (p >>= f) s = (.ok b, s') ↔
      ∃ a s₁, run p s = (.ok a, s₁) ∧ run (f a) s₁ = (.ok b, s') :=
  run_except_bind_eq_ok exec

theorem run_check_bind_eq_ok {x : Except ε α} {b : β} :
    run (liftM x >>= f) s = (.ok b, s') ↔ ∃ a, x = .ok a ∧ run (f a) s = (.ok b, s') := by
  rw [run_bind_eq_ok]
  constructor
  · rintro ⟨a, s₁, hx, hf⟩
    cases hx
    exact ⟨a, rfl, hf⟩
  · rintro ⟨a, rfl, hf⟩
    exact ⟨a, s, rfl, hf⟩

theorem store_eq_ok {c : StoreCall} {v : c.Val} (h : run (Service.store c g) s = (.ok v, s')) :
    ∃ nonce st, s.world.store.exec nonce c = .ok (v, st) ∧ s'.world.store = st ∧
      s' = (exec (.store c) s).2 ∧ s'.world.native = s.arrive.native ∧
      s'.world.config = s.world.config := by
  have hrun : run (Service.store c g) s =
      ((s.arrive.execStore c).1.mapError g, (exec (.store c) s).2) :=
    run_orFail exec (Service.call (.store c)) g s
  rw [hrun] at h
  obtain ⟨hok, rfl⟩ := Prod.mk.inj h
  unfold World.execStore at hok
  cases hresult : s.arrive.storeResult c with
  | error e =>
    rw [hresult] at hok
    cases hok
  | ok r =>
    rw [hresult] at hok
    cases hok
    have hexec : (exec (.store c) s).2.world =
        { s.arrive with store := r.2, drawn := s.arrive.drawn + c.draws } := by
      change (s.arrive.execStore c).2 = _
      rw [World.execStore, hresult]
    exact ⟨_, r.2, (faulty_eq_ok.1 hresult).2, by rw [hexec], rfl, by rw [hexec], by rw [hexec]; rfl⟩

theorem At.store_eq_ok (h : At w slots n st s) {c : StoreCall} {v : c.Val}
    (hrun : run (Service.store c g) s = (.ok v, s')) :
    ∃ nonce st', st.exec nonce c = .ok (v, st') ∧ At w slots (n + 1) st' s' := by
  obtain ⟨nonce, st', hexec, hstore, hs', hnative, hconfig⟩ := Interleaved.store_eq_ok hrun
  rw [h.store] at hexec
  refine ⟨nonce, st', hexec, ⟨hnative.trans h.arrive_native, hconfig.trans h.config, hstore, ?_⟩⟩
  rw [hs', exec, h.pending, List.tail_drop]

theorem At.snapshot_eq_ok (h : At w slots n st s) {id : String} {snapshot : AuthTransitionSnapshot}
    (hrun : run (Service.snapshotForTransition id) s = (.ok snapshot, s')) :
    (nativeAt w slots (n + 1)).storage = .ok (some snapshot.authDotJson) ∧
      At w slots (n + 1) st s' := by
  have hrun' : run (Service.snapshotForTransition id) s =
      ((s.arrive.snapshotResult id).mapError fun _ => .nativeTransition,
        (exec (.auth (.snapshotForTransition id)) s).2) :=
    run_orFail exec (Service.call (.auth (.snapshotForTransition id))) _ s
  rw [hrun'] at hrun
  obtain ⟨hok, rfl⟩ := Prod.mk.inj hrun
  have hsnap := (faulty_eq_ok.1 (mapError_eq_ok.1 hok)).2
  rw [h.arrive_native] at hsnap
  exact ⟨(AuthManager.snapshotForTransition_eq_ok hsnap).1, h.next rfl rfl h.store⟩

theorem At.install_eq_ok (h : At w slots n st s) {source : String}
    {snapshot : AuthTransitionSnapshot} {status : AuthReloadStatus}
    (hrun : run (Service.install (some source) snapshot) s = (.ok status, s')) :
    (∃ doc, (nativeAt w slots (n + 1)).storage = .ok (some doc)) ∧
      s'.overwritten = some (nativeAt w slots (n + 1)).storage ∧ s'.world.store = st := by
  have hrun' : run (Service.install (some source) snapshot) s =
      ((s.arrive.execAuth (.install (some source) snapshot)).1.mapError fun _ => .nativeTransition,
        (exec (.auth (.install (some source) snapshot)) s).2) :=
    run_orFail exec (Service.call (.auth (.install (some source) snapshot))) _ s
  rw [hrun'] at hrun
  obtain ⟨hok, rfl⟩ := Prod.mk.inj hrun
  cases hresult : s.arrive.installResult (some source) snapshot with
  | error e =>
    rw [World.execAuth, hresult] at hok
    cases hok
  | ok r =>
    have hins := (faulty_eq_ok.1 hresult).2
    obtain ⟨found, hsource, -⟩ := bind_eq_ok.1 hins
    have hstor := (AuthManager.checkTransitionSource_eq_ok hsource).1
    rw [h.arrive_native] at hstor
    have hworld : (exec (.auth (.install (some source) snapshot)) s).2.world =
        { s.arrive with native := r.2 } := by
      change (s.arrive.execAuth _).2 = _
      rw [World.execAuth, hresult]
    refine ⟨⟨_, hstor⟩, ?_, by rw [hworld]; exact h.store⟩
    change some s.arrive.native.storage = _
    rw [h.arrive_native]

theorem At.adopt_eq_ok (h : At w slots n st s) {source : String} {account : AccountRecord}
    {auth : AuthTransitionSnapshot} {generation : UInt64}
    (hrun : run (Service.adopt (some source) account auth) s = (.ok generation, s')) :
    (∃ doc, (nativeAt w slots (n + 1)).storage = .ok (some doc)) ∧
      s'.overwritten = some (nativeAt w slots (n + 1)).storage ∧
      st.setActiveLocked account.id = .ok s'.world.store := by
  obtain ⟨status, s₁, hins, hrun⟩ := run_bind_eq_ok.1 hrun
  obtain ⟨hdoc, hrecord, hstore⟩ := h.install_eq_ok hins
  obtain ⟨changed, -, hrun⟩ := run_check_bind_eq_ok.1 hrun
  obtain ⟨cached, s₂, hcached, hrun⟩ := run_bind_eq_ok.1 hrun
  obtain ⟨⟨⟩, -, hrun⟩ := run_check_bind_eq_ok.1 hrun
  obtain ⟨⟨⟩, s₃, hinv, hrun⟩ := run_bind_eq_ok.1 hrun
  obtain ⟨⟨⟩, s₄, hset, hrun⟩ := run_bind_eq_ok.1 hrun
  obtain ⟨nonce, st', hexec, hstore', hs₄, -, -⟩ := Interleaved.store_eq_ok hset
  obtain ⟨st'', hactive, heq⟩ := map_eq_ok.1 hexec
  cases heq
  -- the last call only reads or advances the generation
  have hlast : s'.world.store = s₄.world.store ∧ s'.overwritten = s₄.overwritten := by
    cases changed with
    | true =>
      cases (Prod.mk.inj hrun).2
      exact ⟨rfl, rfl⟩
    | false =>
      cases (Prod.mk.inj hrun).2
      exact ⟨rfl, rfl⟩
  have hs₂ := (Prod.mk.inj hcached).2
  have hs₃ := (Prod.mk.inj hinv).2
  subst hs₂ hs₃ hs₄
  refine ⟨hdoc, hlast.2.trans hrecord, ?_⟩
  rw [hlast.1, hstore', ← hactive, ← hstore]
  rfl

theorem At.capture_eq_ok (h : At w slots n st s) {state : RegistryState} {source : String}
    (hrun : run ((some source).forM (Service.captureSource state)) s = (.ok (), s')) :
    ∃ doc bytes st', (nativeAt w slots (n + 1)).storage = .ok (some doc) ∧
      Externals.encodeAuth doc = some bytes ∧
      st' = { st with vault := Function.update st.vault (credentialRefOf state source) (some bytes) } ∧
      At w slots (n + 2) st' s' := by
  change run (Service.captureSource state source) s = _ at hrun
  obtain ⟨snapshot, s₁, hsnap, hrun⟩ := run_bind_eq_ok.1 hrun
  obtain ⟨hstor, h₁⟩ := h.snapshot_eq_ok hsnap
  obtain ⟨document, hsource, hrun⟩ := run_check_bind_eq_ok.1 hrun
  obtain ⟨bytes, hbytes, hdoc⟩ := bind_eq_ok.1 hsource
  have hdoc' := (AuthSnapshot.fromBytes_eq_ok (mapError_eq_ok.1 hdoc)).1
  obtain ⟨nonce, st', hexec, h₂⟩ := h₁.store_eq_ok hrun
  obtain ⟨saved, hsave, heq⟩ := map_eq_ok.1 hexec
  cases heq
  refine ⟨_, bytes, _, hstor, okOr_eq_ok.1 hbytes, ?_, h₂⟩
  rw [(Store.saveLocked_eq_ok hsave).2.2, hdoc']

theorem At.loadTarget_eq_ok (h : At w slots n st s) {account : AccountRecord}
    {auth : AuthTransitionSnapshot}
    (hrun : run (Service.loadTarget account) s = (.ok auth, s')) : At w slots (n + 1) st s' := by
  obtain ⟨document, s₁, hload, hrun⟩ := run_bind_eq_ok.1 hrun
  obtain ⟨nonce, st', hexec, h₁⟩ := h.store_eq_ok hload
  obtain ⟨_, -, heq⟩ := map_eq_ok.1 hexec
  cases heq
  rw [← (Prod.mk.inj hrun).2]
  exact h₁

theorem At.lockAndRead_eq_ok (h : At w slots n st s) {state : RegistryState}
    (hrun : run (Service.lockAndRead g) s = (.ok state, s')) :
    st.stateLocked = .ok state ∧ At w slots (n + 2) st s' := by
  obtain ⟨⟨⟩, s₁, hlock, hrun⟩ := run_bind_eq_ok.1 hrun
  obtain ⟨nonce, st₁, hexec, h₁⟩ := h.store_eq_ok hlock
  cases hexec
  obtain ⟨nonce, st₂, hexec, h₂⟩ := h₁.store_eq_ok hrun
  obtain ⟨state', hread, heq⟩ := map_eq_ok.1 hexec
  cases heq
  exact ⟨hread, h₂⟩

end Interleaved

def storedBytes (m : AuthManager) : Option Bytes :=
  match m.storage with
  | .ok (some doc) => Externals.encodeAuth doc
  | _ => none

def sourceRef (st : Store) (id : String) : String :=
  match st.stateLocked with
  | .ok state => credentialRefOf state id
  | .error _ => id

namespace Service

open Interleaved

def SourceKept (s : Interleaved) (id : String) : Prop :=
  ∃ doc, s.overwritten = some (.ok (some doc)) ∧
    s.world.store.vault (sourceRef s.world.store id) = Externals.encodeAuth doc

variable {w : World} {slots : List (List Refresh)} {s : Interleaved} {source target : String}
  {account : AccountRecord} {r : Except MarathonServiceError MarathonSwitchResponse}

/-- A committed switch captured what was stored before its sixth call and overwrote what was stored
before the ninth. -/
theorem committed_switch {id : String} (hrun : Interleaved.run (switch target) (start w slots) = (r, s))
    (hr : Committed r) (hfrom : (nativeAt w slots 5).cachedAccount = some source)
    (hto : resolvedTarget w target = some id) (hne : source ≠ id) : ∃ captured bytes overwritten,
      (nativeAt w slots 6).storage = .ok (some captured) ∧
      Externals.encodeAuth captured = some bytes ∧
      (nativeAt w slots 9).storage = .ok (some overwritten) ∧
      s.overwritten = some (.ok (some overwritten)) ∧
      s.world.store.vault (sourceRef s.world.store source) = some bytes := by
  obtain ⟨response, rfl, hcom⟩ := hr
  obtain ⟨state, s₁, hread, hrun⟩ := run_bind_eq_ok.1 hrun
  obtain ⟨hstate, h₂⟩ := (at_start w slots).lockAndRead_eq_ok hread
  obtain ⟨turns, s₂, hturns, hrun⟩ := run_bind_eq_ok.1 hrun
  obtain ⟨-, rfl⟩ := Prod.mk.inj hturns
  have h₃ : At w slots 3 w.store (exec .runningTurns s₁).2 := h₂.read rfl
  obtain ⟨generation, s₃, hgen, hrun⟩ := run_bind_eq_ok.1 hrun
  obtain ⟨-, hs₃⟩ := Prod.mk.inj hgen
  have h₄ : At w slots 4 w.store s₃ := hs₃ ▸ h₃.read rfl
  -- a switch that is not admitted does not answer `Committed`
  cases hadm : switchAdmission state.enabled turns with
  | some refusal =>
    obtain ⟨outcome, reason⟩ := refusal
    rw [hadm] at hrun
    cases (Prod.mk.inj hrun).1
    exact absurd hcom (switchAdmission_ne_committed hadm)
  | none =>
    rw [hadm] at hrun
    obtain ⟨account, htarget, hrun⟩ := run_check_bind_eq_ok.1 hrun
    have hid : account.id = id := by
      simpa [resolvedTarget, hstate, htarget, Except.toOption] using hto
    obtain ⟨cached, s₅, hcached, hrun⟩ := run_bind_eq_ok.1 hrun
    obtain ⟨hauth, rfl⟩ := Prod.mk.inj hcached
    have h₅ := h₄.read (c := .auth .authCached) rfl
    have hsource : cached.bind (·.getAccountId) = some source := by
      rw [← Except.ok.inj hauth]
      change s₃.arrive.native.cachedAccount = some source
      rw [h₄.arrive_native, hfrom]
    obtain ⟨current, hcur, hrun⟩ := run_check_bind_eq_ok.1 hrun
    cases hcur.symm.trans (currentAccountId_eq_ok_some.2 hsource)
    rw [if_neg (by simpa [hid] using hne)] at hrun
    obtain ⟨⟨⟩, s₆, hcapt, hrun⟩ := run_bind_eq_ok.1 hrun
    obtain ⟨captured, bytes, st, hcap, hbytes, hst, h₇⟩ := h₅.capture_eq_ok hcapt
    obtain ⟨auth, s₇, hload, hrun⟩ := run_bind_eq_ok.1 hrun
    obtain ⟨generation', s₈, hadopt, hrun⟩ := run_bind_eq_ok.1 hrun
    obtain ⟨⟨overwritten, hdoc⟩, hrecord, hset⟩ := (h₇.loadTarget_eq_ok hload).adopt_eq_ok hadopt
    cases (Prod.mk.inj hrun).2
    refine ⟨captured, bytes, overwritten, hcap, hbytes, hdoc, hrecord.trans (by rw [hdoc]), ?_⟩
    -- marking the account active changes neither the vault nor a reference
    obtain ⟨state', hread', hafter, hvault⟩ := Store.setActiveLocked_eq_ok hset
    have hstate' : st.stateLocked = .ok state := by rw [hst]; exact hstate
    cases hstate'.symm.trans hread'
    have href : sourceRef s.world.store source = credentialRefOf state source := by
      rw [sourceRef, hafter]
      rfl
    rw [hvault, href, hst]
    exact Function.update_self ..

/-- **A committed switch keeps the credentials of the account it leaves exactly when the refreshes
between its snapshot and its installation leave the stored ones.** -/
theorem switch_keeps_source_iff (w : World) (slots : List (List Refresh))
    (source target id : String) {r : Except MarathonServiceError MarathonSwitchResponse}
    {s : Interleaved} (hrun : Interleaved.run (switch target) (start w slots) = (r, s)) (hr : Committed r)
    (hfrom : (nativeAt w slots 5).cachedAccount = some source)
    (hto : resolvedTarget w target = some id) (hne : source ≠ id) :
    SourceKept s source ↔ storedBytes (nativeAt w slots 9) = storedBytes (nativeAt w slots 6) := by
  obtain ⟨captured, bytes, overwritten, hcap, hbytes, hover, hrecord, hvault⟩ :=
    committed_switch hrun hr hfrom hto hne
  have h₆ : storedBytes (nativeAt w slots 6) = some bytes := by simp [storedBytes, hcap, hbytes]
  have h₉ : storedBytes (nativeAt w slots 9) = Externals.encodeAuth overwritten := by
    simp [storedBytes, hover]
  rw [h₆, h₉]
  constructor
  · rintro ⟨doc, hdoc, hkept⟩
    cases hrecord.symm.trans hdoc
    rw [← hkept, hvault]
  · intro hsame
    exact ⟨overwritten, hrecord, hvault.trans hsame.symm⟩

def rotation (refreshToken : String) : Refresh where
  process := none
  fromAuthority := false
  answer :=
    { response := .ok { idToken := none, accessToken := none, refreshToken := some refreshToken }
      parseIdToken := fun _ => .error ⟨.other, "not a token"⟩
      now := .epoch }

omit [Externals] in
theorem switch_keeps_early_refresh :
    letI := Externals.sample
    SourceKept (Interleaved.run (switch "b") (start World.sample [[rotation "2"]])).2 "a" := by
  let := Externals.sample
  exact (switch_keeps_source_iff World.sample [[rotation "2"]] "a" "b" "b" rfl ⟨_, rfl, rfl⟩
    (by decide) (by decide) (by decide)).2 (by decide)

omit [Externals] in
/-- The tokens of a refresh between the snapshot and the installation are lost. -/
theorem switch_loses_refresh :
    letI := Externals.sample
    let run := Interleaved.run (switch "b")
      (start World.sample [[], [], [], [], [], [], [rotation "2"]])
    Committed run.1 ∧ run.2.world.store.vault "a" = some (asciiBytes "a" ++ 0 :: asciiBytes "1") ∧
      (∃ doc, run.2.overwritten = some (.ok (some doc)) ∧
        doc.tokens.map (·.refreshToken) = some "2") ∧
      ¬ SourceKept run.2 "a" := by
  let := Externals.sample
  refine ⟨⟨_, rfl, rfl⟩, by decide, ⟨_, rfl, by decide⟩, ?_⟩
  rintro ⟨doc, hdoc, hkept⟩
  cases hdoc
  exact absurd hkept (by decide)

end Service

end CodexMarathon
