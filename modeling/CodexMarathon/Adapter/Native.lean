/-
**The adapter on the native runtime.**

The adapter counts the running turns before a commit reloads, and the native runtime once more under
its lock; where a turn has started in between it refuses, which is a failed reload to the adapter.
The adapter keeps the account it has last adopted, while the native credentials are shared with the
rest of the process.
-/

import CodexMarathon.Adapter.Transition
import CodexMarathon.Auth.Login
import CodexMarathon.Service.Credentials
import CodexMarathon.Service.Operations

namespace CodexMarathon.Adapter

open Stateful Auth

variable {a : Answers} {s s' : RuntimeAdapter} {params : AuthTransitionParams}

/-! ### Turns that start during a commit -/

structure Matches (s : RuntimeAdapter) (params : AuthTransitionParams) : Prop where
  valid : params.validate = .ok ()
  pending : s.prepared = some params
  generation : nextGeneration s.identity.authGeneration = .ok params.expectedGeneration

def RefusesTurns (a : Answers) : Prop :=
  ∃ message, a.reloadAuthAndInvalidate = .error ⟨"active_turns", message⟩

structure StaysPrepared (s s' : RuntimeAdapter) (params : AuthTransitionParams) : Prop where
  identity : s'.identity = s.identity
  prepared : s'.prepared = some params
  retry : ∀ a, a.activeTurnCount = 0 → Reloads s' a params

theorem Matches.reloads (h : Matches s params) (hidle : a.activeTurnCount = 0) :
    Reloads s a params :=
  ⟨h.valid, h.pending, h.generation, hidle⟩

theorem commit_of_busy (h : Matches s params) (hbusy : a.activeTurnCount ≠ 0) :
    IsRejected (exec (commit a params) s).1 ∧
      StaysPrepared s (exec (commit a params) s).2 params := by
  have hfits : ¬ Overflows s params := not_overflows_of_nextGeneration h.generation
  rcases commit_cases a s params with hrel | ⟨e, -, hover⟩ | ⟨code, message, hrun, -⟩ |
    ⟨-, hrun⟩
  · exact absurd hrel.idle hbusy
  · exact absurd (hover h.valid) hfits
  · rw [hrun]
    exact ⟨⟨_, rfl, rfl⟩, rfl, h.pending, fun _ hidle => h.reloads hidle⟩
  · rw [hrun]
    have hprep : (s.waiting a).prepared = some params := by
      rw [← h.pending]
      simp [RuntimeAdapter.prepared, RuntimeAdapter.waiting, Function.comp_def]
    exact ⟨⟨_, rfl, rfl⟩, rfl, hprep, fun _ hidle =>
      Matches.reloads ⟨h.valid, hprep, h.generation⟩ hidle⟩

/-- **The two refusals differ.** A commit that is refused because of a running turn leaves the
transition prepared exactly when the adapter saw the turn. -/
theorem stays_prepared_iff (s : RuntimeAdapter) (a : Answers) (params : AuthTransitionParams)
    (hmatches : Matches s params) (hturns : a.activeTurnCount ≠ 0 ∨ RefusesTurns a) :
    IsRejected (exec (commit a params) s).1 ∧
      (StaysPrepared s (exec (commit a params) s).2 params ↔ a.activeTurnCount ≠ 0) := by
  by_cases hidle : a.activeTurnCount = 0
  swap
  · obtain ⟨hrej, hstays⟩ := commit_of_busy hmatches hidle
    exact ⟨hrej, iff_of_true hstays hidle⟩
  obtain ⟨message, href⟩ := hturns.resolve_left (not_not.2 hidle)
  have hrel := hmatches.reloads hidle
  refine ⟨(commit_rejected_of_reloads hrel).2 ?_, iff_of_false ?_ (not_not.2 hidle)⟩
  · intro reload hreload
    rw [href] at hreload
    cases hreload
  · intro hstays
    have hprep := hstays.prepared
    rw [(reloaded_commit hrel).cleared] at hprep
    cases hprep

def Answers.turnStarts : Answers :=
  letI := Externals.sample
  { Tui.nativeAnswers .sample (.sample none false) with
    reloadAuthAndInvalidate := (Tui.nativeReload { World.sample with runningTurns := 1 }).1 }

theorem stays_prepared_waiting : StaysPrepared preparedSample
      (exec (commit { Answers.turnStarts with activeTurnCount := 1 } .sample) preparedSample).2
      .sample :=
  (stays_prepared_iff preparedSample { Answers.turnStarts with activeTurnCount := 1 } .sample
    ⟨rfl, rfl, rfl⟩ (.inl (by decide))).2.2 (by decide)

/-- A turn starts between the two counts, and afterwards nothing is prepared. -/
theorem refusal_drops_prepared : Matches preparedSample .sample ∧ RefusesTurns .turnStarts ∧
      ∃ r s', exec (commit .turnStarts .sample) preparedSample = (.ok r, s') ∧
        r.errorCode = some "active_turns" ∧ s'.prepared = none ∧
        ((exec (commit (.sample (some "b") true) .sample) s').1.map (·.errorCode)) =
          .ok (some "no_pending_transition") :=
  ⟨⟨rfl, rfl, rfl⟩, ⟨_, rfl⟩, _, _, rfl, rfl, rfl, rfl⟩

section Host

variable [Externals]

structure RateLimitRead where
  auth : AuthAnswer
  fetch : CodexAuth → Except String (List (Option String × Json))

/-- `BTreeMap::insert`, on the entries of a map in the order of their keys. -/
def insertField (key : String) (value : Json) : List (String × Json) → List (String × Json)
  | [] => [(key, value)]
  | (key', value') :: rest =>
    if key = key' then (key, value) :: rest
    else if key < key' then (key, value) :: (key', value') :: rest
    else (key', value') :: insertField key value rest

def collectRateLimits : Except String (List (Option String × Json)) →
    Except BackendError BackendRateLimits
  | .error error => .error ⟨"rate_limits_failed", "failed to fetch Codex rate limits: " ++ error⟩
  | .ok [] => .error ⟨"rate_limits_empty", "Codex returned no rate-limit snapshots"⟩
  | .ok (first :: rest) =>
    let byLimitId := (first :: rest).foldl
      (fun fields snapshot => insertField (snapshot.1.getD "codex") snapshot.2 fields) []
    .ok { rateLimits := first.2, rateLimitsByLimitId := some (.object byLimitId) }

def readRateLimitsNative (w : World) (read : RateLimitRead) :
    Except BackendError BackendRateLimits × World :=
  let (auth, native) := w.native.auth w.config read.auth
  let answer :=
    match auth with
    | none => .error ⟨"authentication_required",
        "Codex authentication is required to read rate limits"⟩
    | some auth =>
      if !auth.apiAuthMode.usesCodexBackend then
        .error ⟨"rate_limits_unavailable",
          "Codex backend authentication is required to read rate limits"⟩
      else collectRateLimits (read.fetch auth)
  (answer, { w with native })

/-! ### The adapter in its process -/

structure Host where
  world : World
  adapter : RuntimeAdapter

/-- Operations of the adapter, switches of the service, and what else changes the native
credentials. -/
inductive HostOp
  | adapter (op : AdapterOp) (a : Answers) (read : RateLimitRead)
  | switch (target : String)
  | credentials (op : CredentialOp)

def hostAnswers (w : World) (a : Answers) (read : RateLimitRead) : Answers :=
  { Tui.nativeAnswers w a with readRateLimits := (readRateLimitsNative w read).1 }

def hostWorld (h : Host) (op : AdapterOp) (a : Answers) (read : RateLimitRead) : World :=
  if .reloadAuthAndInvalidate ∈ newCalls h.adapter (op, hostAnswers h.world a read) then
    (Tui.nativeReload h.world).2
  else
    match op with
    | .readAndForwardRateLimits => (readRateLimitsNative h.world read).2
    | _ => h.world

/-- The adapter is locked during a read, so what happens to the credentials meanwhile may as well
happen afterwards. -/
def hostStep (h : Host) : HostOp → Host
  | .adapter op a read =>
    { world := hostWorld h op a read
      adapter := (step h.adapter (op, hostAnswers h.world a read)).1 }
  | .switch target => { h with world := (h.world.run (Service.switch target)).2 }
  | .credentials op => { h with world := op.apply h.world }

def hostMachine : Machine Host HostOp Unit := ⟨fun h i => (hostStep h i, ())⟩

def newEvents (h : Host) (i : HostOp) : List RuntimeEvent :=
  (hostStep h i).adapter.events.drop h.adapter.events.length

/-- Rate limits are reported under the account whose credentials they are read with. -/
def Attributed (h : Host) (i : HostOp) : Prop :=
  ∀ a read, i = .adapter .readAndForwardRateLimits a read →
    ∀ event ∈ newEvents h i, ∀ account rateLimits byLimitId,
      event.payload = .rateLimitsSnapshot account rateLimits byLimitId →
        account = h.world.native.authAccount h.world.config read.auth

def CommitReloads (h : Host) (i : HostOp) : Prop :=
  ∃ op a read, i = .adapter op a read ∧
    .reloadAuthAndInvalidate ∈ newCalls h.adapter (op, hostAnswers h.world a read)

def OnlyCommitsChange (h : Host) (i : HostOp) : Prop :=
  ¬ CommitReloads h i → (hostStep h i).world.cachedAccount = h.world.cachedAccount

def InSync (h : Host) : Prop := h.adapter.identity.accountId = h.world.cachedAccount

omit [Externals] in
theorem exec_forwardRateLimitsSnapshot (s : RuntimeAdapter) (snapshot : BackendRateLimits) :
    ∃ event, exec (forwardRateLimitsSnapshot a snapshot) s =
        (.ok (), { s with events := s.events ++ [event] }) ∧
      event.payload = .rateLimitsSnapshot s.identity.accountId snapshot.rateLimits
        snapshot.rateLimitsByLimitId := by
  unfold forwardRateLimitsSnapshot emitEvent
  rw [exec_bind_ok (exec_get s), exec_bind_ok (exec_get s)]
  exact ⟨_, exec_pushEvent s (RuntimeEvent.validate_mk rfl s.identity.runtimeId_ne nofun), rfl⟩

omit [Externals] in
/-- **What a read of the rate limits does**: nothing, or it reports them under the account of the
adapter. -/
theorem readAndForwardRateLimits_cases (a : Answers) (s : RuntimeAdapter) :
    (exec (readAndForwardRateLimits a) s).2 = s ∨
      ∃ event rateLimits byLimitId, (exec (readAndForwardRateLimits a) s).2 =
          { s with events := s.events ++ [event] } ∧
        event.payload = .rateLimitsSnapshot s.identity.accountId rateLimits byLimitId := by
  unfold readAndForwardRateLimits
  cases hread : a.readRateLimits with
  | error error => exact .inl rfl
  | ok snapshot =>
    obtain ⟨event, hrun, hpay⟩ := exec_forwardRateLimitsSnapshot (a := a) s snapshot
    have hok : exec (fromBackend (.ok snapshot)) s = (.ok snapshot, s) := rfl
    rw [exec_bind_ok hok, hrun]
    exact .inr ⟨event, _, _, rfl, hpay⟩

theorem payload_of_mem_newEvents {h : Host} {read : RateLimitRead} {event : RuntimeEvent}
    (hevent : event ∈ newEvents h (.adapter .readAndForwardRateLimits a read)) :
    ∃ rateLimits byLimitId, event.payload =
      .rateLimitsSnapshot h.adapter.identity.accountId rateLimits byLimitId := by
  simp only [newEvents, hostStep, step] at hevent
  rcases readAndForwardRateLimits_cases (hostAnswers h.world a read) h.adapter with
    hsame | ⟨event', rateLimits, byLimitId, hrun, hpay⟩
  · rw [hsame, List.drop_length] at hevent
    cases hevent
  · rw [hrun, List.drop_left, List.mem_singleton] at hevent
    exact ⟨rateLimits, byLimitId, hevent ▸ hpay⟩

theorem attributed_of_authAccount {h : Host} {i : HostOp}
    (hsame : ∀ a read, i = .adapter .readAndForwardRateLimits a read →
      h.world.native.authAccount h.world.config read.auth = h.adapter.identity.accountId) :
    Attributed h i := by
  rintro a read rfl event hevent account rateLimits byLimitId hpay
  obtain ⟨rateLimits', byLimitId', hpay'⟩ := payload_of_mem_newEvents hevent
  rw [hpay] at hpay'
  cases hpay'
  exact (hsame a read rfl).symm

theorem nativeReload_account (w : World) :
    (match (Tui.nativeReload w).1 with
      | .error _ => w.cachedAccount
      | .ok reload => reload.identity.accountId) = (Tui.nativeReload w).2.cachedAccount := by
  unfold Tui.nativeReload Tui.reloadIfIdle
  split_ifs
  · rfl
  · rcases w.native.reloadWithStatus w.config with ⟨_ | _, native⟩ <;> rfl

omit [Externals] in
theorem account_step (s : RuntimeAdapter) (i : AdapterOp × Answers) :
    (.reloadAuthAndInvalidate ∉ newCalls s i ∧
      (step s i).1.identity.accountId = s.identity.accountId) ∨
    (.reloadAuthAndInvalidate ∈ newCalls s i ∧
      (step s i).1.identity.accountId = match i.2.reloadAuthAndInvalidate with
        | .error _ => s.identity.accountId
        | .ok reload => reload.identity.accountId) := by
  have hquiet : ∀ calls, (step s i).1.backendCalls = s.backendCalls ++ calls →
      .reloadAuthAndInvalidate ∉ calls → .reloadAuthAndInvalidate ∉ newCalls s i := by
    intro calls hcalls hnot
    rwa [newCalls, hcalls, List.drop_left]
  cases step_transition s i with
  | same h =>
    obtain ⟨calls, hcalls, hnot⟩ := h.calls
    exact .inl ⟨hquiet calls hcalls hnot, by rw [h.identity]⟩
  | registers params hcall h =>
    obtain ⟨calls, hcalls, hnot⟩ := h.calls
    exact .inl ⟨hquiet calls hcalls hnot, by rw [h.identity]⟩
  | cancels params hcall h =>
    exact .inl ⟨hquiet [] (by rw [h.calls, List.append_nil]) (by simp), by rw [h.identity]⟩
  | reloaded params hcall h => exact .inr ⟨(h.reachesReload hcall).2, h.account⟩

theorem inSync_step {h : Host} {i : HostOp} (honly : OnlyCommitsChange h i) (hsync : InSync h) :
    InSync (hostStep h i) := by
  cases i with
  | adapter op a read =>
    rcases account_step h.adapter (op, hostAnswers h.world a read) with
      ⟨hnot, hacc⟩ | ⟨hreload, hacc⟩
    · have hkept := honly (by rintro ⟨op, a, read, ⟨⟩, hreload⟩; exact hnot hreload)
      exact hacc.trans (hsync.trans hkept.symm)
    · have hworld : hostWorld h op a read = (Tui.nativeReload h.world).2 := if_pos hreload
      change (step h.adapter (op, hostAnswers h.world a read)).1.identity.accountId =
        (hostWorld h op a read).cachedAccount
      rw [hacc, hworld, ← nativeReload_account, ← hsync]
      rfl
  | switch target => exact hsync.trans (honly (by rintro ⟨op, a, read, ⟨⟩, -⟩)).symm
  | credentials op => exact hsync.trans (honly (by rintro ⟨op, a, read, ⟨⟩, -⟩)).symm

theorem attributed_step {h : Host} {i : HostOp} (honly : OnlyCommitsChange h i)
    (hsync : InSync h) : Attributed h i := by
  refine attributed_of_authAccount ?_
  rintro a read rfl
  have hnot : .reloadAuthAndInvalidate ∉
      newCalls h.adapter (.readAndForwardRateLimits, hostAnswers h.world a read) := by
    rcases readAndForwardRateLimits_cases (hostAnswers h.world a read) h.adapter with
      hsame | ⟨event, _, _, hrun, -⟩
    · simp [newCalls, step, hsame]
    · simp [newCalls, step, hrun]
  have hworld : hostWorld h .readAndForwardRateLimits a read =
      (readRateLimitsNative h.world read).2 := if_neg hnot
  have hkept : (h.world.native.auth h.world.config read.auth).2.cachedAccount =
      h.world.native.cachedAccount := by
    have hkept := honly (by rintro ⟨op, a, read, ⟨⟩, hreload⟩; exact hnot hreload)
    rwa [hostStep, hworld] at hkept
  rw [hsync]
  rcases AuthManager.auth_account h.world.config read.auth h.world.native with hauth | hauth
  · rw [hauth, hkept]
    rfl
  · exact hauth

theorem inSync_withConfig {config : AdapterConfig} {runtimeId : String} {turns : UInt32}
    {w : World} (h : withConfig config runtimeId w.cachedAccount turns = .ok s) :
    InSync ⟨w, s⟩ := by
  unfold withConfig at h
  split_ifs at h
  obtain ⟨u, -, hpure⟩ := Result.bind_eq_ok.1 h
  cases hpure
  rfl

/-- **Where the reports of the rate limits are right**: as long as only commits of the adapter
change the native account. -/
theorem rate_limits_attributed {config : AdapterConfig} {runtimeId : String} {turns : UInt32}
    {w : World} {s : RuntimeAdapter} (is : List HostOp)
    (hnew : withConfig config runtimeId w.cachedAccount turns = .ok s)
    (honly : hostMachine.Each OnlyCommitsChange ⟨w, s⟩ is) :
    hostMachine.Each Attributed ⟨w, s⟩ is :=
  Machine.each_of_each (I := InSync)
    (fun _ _ hstep hsync => ⟨inSync_step hstep hsync, attributed_step hstep hsync⟩) honly
    (inSync_withConfig hnew)

def RateLimitRead.sample : RateLimitRead where
  auth :=
    { refresh :=
        { response := .error .policy
          parseIdToken := fun _ => .error ⟨.invalidData, "not a token"⟩
          now := .epoch }
      resolveExternalAuth := .error .policy
      parseJwtExpiration := fun _ => .ok none }
  fetch := fun _ => .ok [(none, .null)]

def HostOp.read : HostOp := .adapter .readAndForwardRateLimits (.sample none false) .sample

end Host

def Host.sample : @Host .sample :=
  letI := Externals.sample
  ⟨.sample, .sample⟩

theorem rate_limits_attributed_sample :
    letI := Externals.sample
    withConfig ⟨[1], 1, []⟩ "runtime" World.sample.cachedAccount 0 = .ok .sample ∧
      hostMachine.Each Attributed .sample [.read, .credentials .turnStart, .read] := by
  let := Externals.sample
  have hnew : withConfig ⟨[1], 1, []⟩ "runtime" World.sample.cachedAccount 0 = .ok .sample := rfl
  refine ⟨hnew, rate_limits_attributed (w := World.sample) _ hnew ?_⟩
  exact ⟨fun _ => rfl, fun _ => rfl, fun _ => rfl, trivial⟩

/-- The service switches to `b`, and the limits of `b` are reported under `a`. -/
theorem rate_limits_of_switched :
    letI := Externals.sample
    let h := hostMachine.run .sample [.switch "b"]
    h.world.native.authAccount h.world.config RateLimitRead.sample.auth = some "b" ∧
      (newEvents h .read).map (·.payload) =
        [.rateLimitsSnapshot (some "a") .null (some (.object [("codex", .null)]))] :=
  ⟨rfl, rfl⟩

end CodexMarathon.Adapter
