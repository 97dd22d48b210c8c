/-
**Automatic quota resets.**

When every eligible account has used up its weekly quota, the coordinator consumes one reset at the
provider, under an idempotency key that it has written to its state file first.  The key is made of
what was observed of the accounts, and when.  The state file, the clock and the provider answer the
operations by their number.
-/

import CodexMarathon.Lib.Stateful
import CodexMarathon.Policy.Telemetry
import CodexMarathon.Store.Accounts
import Mathlib.Data.List.MinMax
import Mathlib.Data.List.TakeWhile

namespace CodexMarathon

def QuotaResetCapability.creditId : QuotaResetCapability → Option String
  | .unavailable => none
  | .available creditId => creditId

def QuotaResetCapability.isAvailable : QuotaResetCapability → Bool
  | .unavailable => false
  | .available _ => true

namespace AutoReset

open Float64 Stateful

variable {P : Type}

inductive AutoResetPhase
  | idle
  | attempting
  | succeeded
  | blocked
deriving DecidableEq

structure AutoResetState where
  version : ℕ
  enabled : Bool
  phase : AutoResetPhase
  attemptKey : String
  lastAttemptAt : Option DateTime
  cooldownUntil : Option DateTime
  lastError : String
  verifiedAccountId : String
deriving DecidableEq

namespace AutoResetState

def default : AutoResetState := ⟨1, false, .idle, "", none, none, "", ""⟩

def isValid (state : AutoResetState) : Bool :=
  !(state.version ≠ 1 || 512 < state.attemptKey.utf8ByteSize ||
    4096 < state.lastError.utf8ByteSize || 240 < state.verifiedAccountId.utf8ByteSize ||
    state.lastError.toList.any isControl)

theorem isValid_iff {state : AutoResetState} : state.isValid = true ↔
    state.version = 1 ∧ state.attemptKey.utf8ByteSize ≤ 512 ∧ state.lastError.utf8ByteSize ≤ 4096 ∧
      state.verifiedAccountId.utf8ByteSize ≤ 240 ∧ state.lastError.toList.any isControl = false := by
  simp [isValid, and_assoc]

end AutoResetState

inductive StateFile
  | missing
  | garbage
  | document (state : AutoResetState)
deriving DecidableEq

inductive AutoResetError
  | invalidState
  | attemptMismatch
  | io
deriving DecidableEq

def StateFile.load : StateFile → Except AutoResetError AutoResetState
  | missing => .ok .default
  | garbage => .error .invalidState
  | document state =>
    let state := if state.version = 0 then { state with version := 1 } else state
    if state.isValid then .ok state else .error .invalidState

/-! ### The provider -/

structure AccountQuotaTelemetry (P : Type) where
  accountId : String
  eligible : Bool
  weeklyRemainingPercent : Option P
  resetCapability : QuotaResetCapability
  observedAt : DateTime

structure QuotaResetRequest where
  accountId : String
  creditId : Option String
  idempotencyKey : String
deriving DecidableEq

inductive QuotaResetOutcome
  | reset
  | alreadyRedeemed
  | nothingToReset
  | noCredit
deriving DecidableEq

structure QuotaResetExecution (P : Type) where
  outcome : QuotaResetOutcome
  refreshedAccounts : List (AccountQuotaTelemetry P)

/-- An error leaves the file as it was, or comes after it was replaced. -/
inductive WriteResult
  | done
  | lost
  | kept
deriving DecidableEq

/-- The answers to the operations, by their number; an error of the provider is its code. -/
structure Env (P : Type) where
  readFails : ℕ → Bool
  clock : ℕ → DateTime
  write : ℕ → WriteResult
  execute : ℕ → QuotaResetRequest → Except String (QuotaResetExecution P)
  later : DateTime → DateTime

structure Call (P : Type) where
  request : QuotaResetRequest
  file : StateFile
  answer : Except String (QuotaResetExecution P)

structure World (P : Type) where
  file : StateFile
  step : ℕ
  calls : List (Call P)

abbrev ResetM (P α : Type) : Type := Stateful (World P) AutoResetError α

namespace Env

variable (env : Env P)

def load : ResetM P AutoResetState := do
  let w ← get
  modify fun w => { w with step := w.step + 1 }
  liftM (if env.readFails w.step then .error .io else w.file.load)

def now : ResetM P DateTime := do
  let w ← get
  modify fun w => { w with step := w.step + 1 }
  pure (env.clock w.step)

def save (state : AutoResetState) : ResetM P Unit := do
  let w ← get
  if state.isValid then
    let file := if env.write w.step = .lost then w.file else .document state
    modify fun w => { w with file, step := w.step + 1 }
    liftM (if env.write w.step = .done then Except.ok () else .error AutoResetError.io)
  else throw .invalidState

def call (request : QuotaResetRequest) : ResetM P (Except String (QuotaResetExecution P)) := do
  let w ← get
  let answer := env.execute w.step request
  modify fun w => { w with step := w.step + 1, calls := w.calls ++ [⟨request, w.file, answer⟩] }
  pure answer

end Env

inductive AutoResetBegin
  | disabled (state : AutoResetState)
  | cooldown (state : AutoResetState)
  | alreadySucceeded (state : AutoResetState)
  | execute (state : AutoResetState)

inductive AutoResetDecision
  | disabled
  | notAllAccountsExhausted
  | telemetryBlocked (reason : String)
  | actionUnavailable
  | cooldown (at_ : DateTime)
  | alreadySucceeded
  | resetApplied (accountId : String)
  | resetBlocked (reason : String)
deriving DecidableEq

def AutoResetState.attempting (state : AutoResetState) (key : String) (now : DateTime) :
    AutoResetState :=
  { state with
    phase := .attempting
    attemptKey := key
    lastAttemptAt := some now
    cooldownUntil := none
    lastError := "" }

/-- What an attempt under `key` comes to at `now`, before it is written. -/
def AutoResetState.begins (state : AutoResetState) (key : String) (now : DateTime) :
    AutoResetBegin :=
  if !state.enabled then .disabled state
  else if state.cooldownUntil.any (now < ·) then .cooldown state
  else if state.phase = .succeeded ∧ state.attemptKey = key then .alreadySucceeded state
  else .execute (state.attempting key now)

def beginAttempt (env : Env P) (key : String) : ResetM P AutoResetBegin := do
  if isBlank key then throw .invalidState
  let state ← env.load
  let now ← env.now
  match state.begins key now with
  | .execute state => do
    env.save state
    pure (.execute state)
  | begun => pure begun

def updateAttempt (env : Env P) (key : String) (phase : AutoResetPhase) (error accountId : String)
    (cooldownUntil : Option DateTime) : ResetM P Unit := do
  let state ← env.load
  if state.attemptKey ≠ key then throw .attemptMismatch
  env.save { state with phase, lastError := error, verifiedAccountId := accountId, cooldownUntil }

def markSucceeded (env : Env P) (key accountId : String) : ResetM P Unit :=
  updateAttempt env key .succeeded "" accountId none

def markBlocked (env : Env P) (key reason : String) : ResetM P Unit := do
  let now ← env.now
  updateAttempt env key .blocked reason "" (some (env.later now))

/-! ### The coordinator -/

namespace AccountQuotaTelemetry

variable (a : AccountQuotaTelemetry P)

def creditId : Option String := a.resetCapability.creditId

def part : String :=
  a.accountId ++ ":" ++ a.creditId.getD "auto" ++ ":" ++ toString a.observedAt.timestampMillis

def key : String ×ₗ WithBot String := toLex (a.accountId, a.creditId)

def weeklyQuotaIsZero [Float64 P] : Bool :=
  a.weeklyRemainingPercent.any fun remaining => atLeast (const 0) remaining

end AccountQuotaTelemetry

def makeAttemptKey (accounts : List (AccountQuotaTelemetry P)) : String :=
  "weekly-zero:" ++ String.intercalate "," (Listing.orderBy id (accounts.map (·.part)))

variable [Float64 P]

/-- The request that `evaluate` makes, or what it decides without one. -/
def plan (accounts : List (AccountQuotaTelemetry P)) :
    Except AutoResetDecision QuotaResetRequest :=
  let eligible := accounts.filter (·.eligible)
  if eligible.isEmpty then .error (.telemetryBlocked "no eligible managed accounts")
  else if eligible.any (fun a =>
      a.accountId.isEmpty || a.weeklyRemainingPercent.isNone || !a.weeklyQuotaIsZero) then
    .error .notAllAccountsExhausted
  else
    match (eligible.filter fun a => a.resetCapability.isAvailable).argmin (·.key) with
    | none => .error .actionUnavailable
    | some candidate => .ok ⟨candidate.accountId, candidate.creditId, makeAttemptKey eligible⟩

def refusal (request : QuotaResetRequest) (execution : QuotaResetExecution P) : Option String :=
  match execution.outcome with
  | .nothingToReset => some "provider reported nothing to reset"
  | .noCredit => some "provider reported no reset action available"
  | .reset | .alreadyRedeemed =>
    if execution.refreshedAccounts.any fun a => a.accountId == request.accountId && a.eligible &&
        a.weeklyRemainingPercent.any (above · (const 0)) then none
    else some "reset succeeded but refreshed quota was not verified"

def conclude (env : Env P) (request : QuotaResetRequest) :
    Except String (QuotaResetExecution P) → ResetM P AutoResetDecision
  | .error code => do
    markBlocked env request.idempotencyKey code
    pure (.resetBlocked code)
  | .ok execution =>
    match refusal request execution with
    | some reason => do
      markBlocked env request.idempotencyKey reason
      pure (.resetBlocked reason)
    | none => do
      markSucceeded env request.idempotencyKey request.accountId
      pure (.resetApplied request.accountId)

def evaluate (env : Env P) (accounts : List (AccountQuotaTelemetry P)) (now : DateTime) :
    ResetM P AutoResetDecision := do
  let state ← env.load
  if !state.enabled then pure .disabled
  else
    match plan accounts with
    | .error decision => pure decision
    | .ok request => do
      match ← beginAttempt env request.idempotencyKey with
      | .disabled _ => pure .disabled
      | .cooldown state => pure (.cooldown (state.cooldownUntil.getD now))
      | .alreadySucceeded _ => pure .alreadySucceeded
      | .execute _ => do
        let answer ← env.call request
        conclude env request answer

section Operations

variable (env : Env P) (w : World P)

@[simps] def World.tick : World P := { w with step := w.step + 1 }

omit [Float64 P] in
theorem exec_load : exec env.load w =
    (if env.readFails w.step then .error .io else w.file.load, w.tick) := rfl

omit [Float64 P] in
theorem exec_now : exec env.now w = (.ok (env.clock w.step), w.tick) := rfl

omit [Float64 P] in
theorem exec_call (request : QuotaResetRequest) : exec (env.call request) w =
    (.ok (env.execute w.step request), { w.tick with
      calls := w.calls ++ [⟨request, w.file, env.execute w.step request⟩] }) := rfl

omit [Float64 P] in
theorem exec_save (state : AutoResetState) : exec (env.save state) w = if state.isValid then
      (if env.write w.step = .done then .ok () else .error .io,
        { w.tick with file := if env.write w.step = .lost then w.file else .document state })
    else (.error .invalidState, w) := by
  unfold Env.save
  rw [exec_bind, exec_get]
  by_cases hvalid : state.isValid = true
  · rw [if_pos hvalid]
    simp only [hvalid]
    rfl
  · rw [if_neg hvalid]
    simp only [hvalid]
    rfl

end Operations

/-! ### The call of the provider -/

variable {env : Env P} {w : World P} {accounts : List (AccountQuotaTelemetry P)} {now : DateTime}
  {request : QuotaResetRequest} {state : AutoResetState}

/-- The state can be read, an attempt is to be made and has been written. -/
structure Asks (env : Env P) (w : World P) (accounts : List (AccountQuotaTelemetry P))
    (request : QuotaResetRequest) (state attempt : AutoResetState) : Prop where
  read : env.readFails w.step = false ∧ env.readFails (w.step + 1) = false
  load : w.file.load = .ok state
  planned : plan accounts = .ok request
  begins : state.begins request.idempotencyKey (env.clock (w.step + 2)) = .execute attempt
  valid : attempt.isValid = true
  written : env.write (w.step + 3) = .done

variable {attempt : AutoResetState}

omit [Float64 P] in
theorem begins_eq_execute {key : String}
    (h : state.begins key now = .execute attempt) : state.enabled = true ∧
      (∀ t, state.cooldownUntil = some t → ¬ now < t) ∧
      ¬ (state.phase = .succeeded ∧ state.attemptKey = key) ∧ attempt = state.attempting key now := by
  unfold AutoResetState.begins at h
  split_ifs at h with henabled hcool hdone
  cases h
  refine ⟨by simpa using henabled, fun t ht => ?_, hdone, rfl⟩
  simpa [ht] using hcool

omit [Float64 P] in
theorem isBlank_makeAttemptKey (accounts : List (AccountQuotaTelemetry P)) :
    isBlank (makeAttemptKey accounts) = false := by
  have hw : 'w' ∈ (makeAttemptKey accounts).toList.dropWhile isWhitespace := by
    rw [makeAttemptKey, String.toList_append]
    exact List.mem_cons_self
  simp only [isBlank, trim, String.isEmpty_eq_false_iff, ne_eq, String.ofList_eq_empty_iff,
    List.reverse_eq_nil_iff, List.dropWhile_eq_nil_iff]
  exact fun h => absurd (h 'w' (List.mem_reverse.2 hw)) (by decide)

theorem plan_eq_ok (h : plan accounts = .ok request) :
    request.idempotencyKey = makeAttemptKey (accounts.filter (·.eligible)) ∧
      (∀ a ∈ accounts, a.eligible = true → a.weeklyQuotaIsZero = true) ∧
      ∃ a ∈ accounts, a.accountId = request.accountId ∧ a.eligible = true ∧
        a.resetCapability.isAvailable = true := by
  simp only [plan] at h
  split_ifs at h with hnone hsome
  split at h <;> cases h
  rename_i candidate hmin
  have hmem := List.argmin_mem hmin
  simp only [List.mem_filter] at hmem
  refine ⟨rfl, fun a ha heligible => ?_, candidate, hmem.1.1, rfl, hmem.1.2, hmem.2⟩
  simp only [List.any_eq_true, not_exists, not_and, List.mem_filter, and_imp] at hsome
  have hzero := hsome a ha heligible
  simp only [Bool.or_eq_true, Bool.not_eq_true', not_or, Bool.not_eq_false] at hzero
  exact hzero.2

theorem isBlank_of_plan (h : plan accounts = .ok request) :
    isBlank request.idempotencyKey = false := by
  rw [(plan_eq_ok h).1, isBlank_makeAttemptKey]

theorem evaluate_of_asks (h : Asks env w accounts request state attempt) (now : DateTime) :
    exec (evaluate env accounts now) w =
      exec (conclude env request (env.execute (w.step + 4) request)) ⟨.document attempt, w.step + 5,
          w.calls ++ [⟨request, .document attempt, env.execute (w.step + 4) request⟩]⟩ := by
  have hblank := isBlank_of_plan h.planned
  have henabled := (begins_eq_execute h.begins).1
  have hbegin : exec (beginAttempt env request.idempotencyKey) w.tick =
      (.ok (.execute attempt), ⟨.document attempt, w.step + 4, w.calls⟩) := by
    simp [beginAttempt, hblank, exec_bind, exec_load, exec_now, exec_save, h.read, h.load, h.begins,
      h.valid, h.written, -bind_pure_comp]
  simp [evaluate, exec_bind, exec_load, h.read, h.load, henabled, h.planned, hbegin, exec_call]

theorem beginAttempt_of_not_asks (hplan : plan accounts = .ok request)
    (hread : env.readFails w.step = false) (hload : w.file.load = .ok state)
    (h : ∀ attempt, ¬ Asks env w accounts request state attempt) :
    let r := exec (beginAttempt env request.idempotencyKey) w.tick
    r.2.calls = w.calls ∧ (env.write (w.step + 3) = .done → r.2.file = w.file) ∧
      ∀ attempt, r.1 ≠ .ok (.execute attempt) := by
  have hblank := isBlank_of_plan hplan
  by_cases hagain : env.readFails (w.step + 1) = true
  · simp [beginAttempt, hblank, exec_bind, exec_load, hagain]
  cases hbegins : state.begins request.idempotencyKey (env.clock (w.step + 2)) with
  | execute attempt =>
    have hwrite : ¬ (attempt.isValid = true ∧ env.write (w.step + 3) = .done) := fun hw =>
      h attempt ⟨⟨hread, by simpa using hagain⟩, hload, hplan, hbegins, hw.1, hw.2⟩
    by_cases hvalid : attempt.isValid = true
    · have hfails : env.write (w.step + 3) ≠ .done := fun hw => hwrite ⟨hvalid, hw⟩
      simp [beginAttempt, hblank, exec_bind, exec_load, exec_now, exec_save, hagain, hload, hbegins,
        hvalid, hfails, -bind_pure_comp]
    · simp [beginAttempt, hblank, exec_bind, exec_load, exec_now, exec_save, hagain, hload, hbegins,
        hvalid, -bind_pure_comp]
  | _ => simp [beginAttempt, hblank, exec_bind, exec_load, exec_now, hagain, hload, hbegins]

theorem plan_ne_applied {d : AutoResetDecision} (h : plan accounts = .error d) (id : String) :
    d ≠ .resetApplied id := by
  simp only [plan] at h
  split_ifs at h
  · cases h; simp
  · cases h; simp
  · split at h <;> cases h
    simp

theorem evaluate_of_not_asks (h : ∀ request state attempt, ¬ Asks env w accounts request state attempt)
    (now : DateTime) :
    let r := exec (evaluate env accounts now) w
    r.2.calls = w.calls ∧ (env.write (w.step + 3) = .done → r.2.file = w.file) ∧
      ∀ id, r.1 ≠ .ok (.resetApplied id) := by
  by_cases hread : env.readFails w.step = true
  · simp [evaluate, exec_bind, exec_load, hread]
  cases hload : w.file.load with
  | error e => simp [evaluate, exec_bind, exec_load, hread, hload]
  | ok state =>
    by_cases henabled : state.enabled = true
    · cases hplan : plan accounts with
      | error d =>
        simpa [evaluate, exec_bind, exec_load, hread, hload, henabled, hplan] using
          plan_ne_applied hplan
      | ok request =>
        obtain ⟨hcalls, hfile, hbegun⟩ := beginAttempt_of_not_asks hplan (by simpa using hread) hload
          (h request state)
        rcases hrun : exec (beginAttempt env request.idempotencyKey) w.tick with ⟨e | begun, w'⟩
        · rw [hrun] at hcalls hfile
          simpa [evaluate, exec_bind, exec_load, hread, hload, henabled, hplan, hrun] using
            And.intro hcalls hfile
        · rw [hrun] at hcalls hfile hbegun
          cases begun with
          | execute attempt => exact absurd rfl (hbegun attempt)
          | _ =>
            simpa [evaluate, exec_bind, exec_load, hread, hload, henabled, hplan, hrun] using
              And.intro hcalls hfile
    · simp [evaluate, exec_bind, exec_load, hread, hload, henabled]

omit [Float64 P] in
theorem save_spec (env : Env P) (state : AutoResetState) (w : World P) :
    (exec (env.save state) w).2.calls = w.calls ∧ ((exec (env.save state) w).1 = .ok () →
      (exec (env.save state) w).2.file = .document state) := by
  rw [exec_save]
  by_cases hvalid : state.isValid = true
  · cases env.write w.step <;> simp [hvalid]
  · simp [hvalid]

omit [Float64 P] in
theorem updateAttempt_spec (env : Env P) (key : String) (phase : AutoResetPhase)
    (error accountId : String) (cooldown : Option DateTime) (w : World P) :
    let r := exec (updateAttempt env key phase error accountId cooldown) w
    r.2.calls = w.calls ∧ (r.1 = .ok () → ∃ s, r.2.file = .document s ∧ s.phase = phase) := by
  by_cases hread : env.readFails w.step = true
  · simp [updateAttempt, exec_bind, exec_load, hread]
  cases hload : w.file.load with
  | error e => simp [updateAttempt, exec_bind, exec_load, hread, hload]
  | ok state =>
    by_cases hkey : state.attemptKey = key
    · subst hkey
      obtain ⟨hcalls, hsaved⟩ := save_spec env { state with
        phase, lastError := error, verifiedAccountId := accountId, cooldownUntil := cooldown } w.tick
      simp only [updateAttempt, exec_bind, exec_load, hread, hload, if_false, ne_eq,
        not_true_eq_false, Bool.false_eq_true]
      exact ⟨hcalls, fun h => ⟨_, hsaved h, rfl⟩⟩
    · simp [updateAttempt, exec_bind, exec_load, hread, hload, hkey]

theorem conclude_spec (env : Env P) (request : QuotaResetRequest)
    (answer : Except String (QuotaResetExecution P)) (w : World P) :
    let r := exec (conclude env request answer) w
    r.2.calls = w.calls ∧ ∀ id, r.1 = .ok (.resetApplied id) → id = request.accountId ∧
      (∃ execution, answer = .ok execution ∧ refusal request execution = none) ∧
      ∃ s, r.2.file = .document s ∧ s.phase = .succeeded := by
  have hblocked : ∀ reason,
      (exec (markBlocked env request.idempotencyKey reason) w).2.calls = w.calls := fun reason =>
    (updateAttempt_spec env request.idempotencyKey .blocked reason "" _ w.tick).1
  have hsucceeded := updateAttempt_spec env request.idempotencyKey .succeeded "" request.accountId
    none w
  cases answer with
  | error code =>
    simp only [conclude, exec_bind_pure_snd, exec_bind_pure_eq_ok]
    exact ⟨hblocked code, by simp⟩
  | ok execution =>
    cases hrefusal : refusal request execution with
    | some reason =>
      simp only [conclude, hrefusal, exec_bind_pure_snd, exec_bind_pure_eq_ok]
      exact ⟨hblocked reason, by simp⟩
    | none =>
      simp only [conclude, hrefusal, exec_bind_pure_snd, exec_bind_pure_eq_ok]
      refine ⟨hsucceeded.1, ?_⟩
      rintro id ⟨⟨⟩, hok, ⟨⟩⟩
      exact ⟨rfl, ⟨execution, rfl, hrefusal⟩, hsucceeded.2 hok⟩

/-- **An evaluation** asks the provider once, or leaves the calls, and the file if nothing fails. -/
theorem evaluate_cases (env : Env P) (w : World P) (accounts : List (AccountQuotaTelemetry P))
    (now : DateTime) :
    let r := exec (evaluate env accounts now) w
    (∃ request state attempt, Asks env w accounts request state attempt ∧
      r.2.calls = w.calls ++ [⟨request, .document attempt, env.execute (w.step + 4) request⟩] ∧
      ∀ id, r.1 = .ok (.resetApplied id) → id = request.accountId ∧
        (∃ execution, env.execute (w.step + 4) request = .ok execution ∧
          refusal request execution = none) ∧
        ∃ s, r.2.file = .document s ∧ s.phase = .succeeded) ∨
    (r.2.calls = w.calls ∧ (env.write (w.step + 3) = .done → r.2.file = w.file) ∧
      ∀ id, r.1 ≠ .ok (.resetApplied id)) := by
  by_cases hasks : ∃ request state attempt, Asks env w accounts request state attempt
  · obtain ⟨request, state, attempt, h⟩ := hasks
    refine .inl ⟨request, state, attempt, h, ?_⟩
    rw [evaluate_of_asks h now]
    exact conclude_spec env request _ _
  · push Not at hasks
    exact .inr (evaluate_of_not_asks hasks now)

omit [Float64 P] in
theorem makeAttemptKey_perm {accounts' : List (AccountQuotaTelemetry P)}
    (h : (accounts.map (·.part)).Perm (accounts'.map (·.part))) :
    makeAttemptKey accounts = makeAttemptKey accounts' := by
  have hsorted : Listing.orderBy id (accounts.map (·.part)) =
      Listing.orderBy id (accounts'.map (·.part)) := by
    refine List.Perm.eq_of_pairwise (fun a b _ _ => le_antisymm) (Listing.pairwise_orderBy id _)
      (Listing.pairwise_orderBy id _) ?_
    exact (Listing.perm_orderBy id _).trans (h.trans (Listing.perm_orderBy id _).symm)
  rw [makeAttemptKey, hsorted, makeAttemptKey]

theorem plan_perm {accounts' : List (AccountQuotaTelemetry P)} (h : accounts.Perm accounts') :
    plan accounts = plan accounts' := by
  have heligible := h.filter (·.eligible)
  have hkey := makeAttemptKey_perm (heligible.map (·.part))
  have hfilter := heligible.filter fun a => a.resetCapability.isAvailable
  have hempty : (accounts.filter (·.eligible)).isEmpty = (accounts'.filter (·.eligible)).isEmpty := by
    rw [Bool.eq_iff_iff, List.isEmpty_iff, List.isEmpty_iff]
    exact ⟨fun h => (h ▸ heligible).nil_eq.symm, fun h => (h ▸ heligible).eq_nil⟩
  have hany : ∀ p, (accounts.filter (·.eligible)).any p = (accounts'.filter (·.eligible)).any p := by
    intro p
    rw [Bool.eq_iff_iff, List.any_eq_true, List.any_eq_true]
    simp only [heligible.mem_iff]
  simp only [plan, hempty, hany, hkey]
  split_ifs
  · rfl
  · rfl
  cases hmin : ((accounts.filter (·.eligible)).filter fun a =>
      a.resetCapability.isAvailable).argmin (·.key) with
  | none =>
    rw [List.argmin_eq_none.1 hmin] at hfilter
    rw [← hfilter.nil_eq]
    rfl
  | some a =>
    cases hmin' : ((accounts'.filter (·.eligible)).filter fun a =>
        a.resetCapability.isAvailable).argmin (·.key) with
    | none =>
      rw [List.argmin_eq_none.1 hmin'] at hfilter
      rw [hfilter.eq_nil] at hmin
      cases hmin
    | some b =>
      have heq : a.key = b.key :=
        le_antisymm (List.le_of_mem_argmin (hfilter.mem_iff.2 (List.argmin_mem hmin')) hmin)
          (List.le_of_mem_argmin (hfilter.mem_iff.1 (List.argmin_mem hmin)) hmin')
      have hid : a.accountId = b.accountId := congrArg (fun k => (ofLex k).1) heq
      have hcredit : a.creditId = b.creditId := congrArg (fun k => (ofLex k).2) heq
      simp only [hid, hcredit]

def Call.Verified (c : Call P) : Prop :=
  ∃ execution, c.answer = .ok execution ∧ refusal c.request execution = none

theorem exists_of_refusal {execution : QuotaResetExecution P}
    (h : refusal request execution = none) :
    ∃ a ∈ execution.refreshedAccounts, a.accountId = request.accountId ∧
      a.weeklyRemainingPercent.any (above · (const 0)) = true := by
  unfold refusal at h
  split at h
  · cases h
  · cases h
  all_goals
    split_ifs at h with hsome
    obtain ⟨a, ha, hmatch⟩ := List.any_eq_true.1 hsome
    simp only [Bool.and_eq_true, beq_iff_eq] at hmatch
    exact ⟨a, ha, hmatch.1.1, hmatch.2⟩

/-- **The provider is asked at most once**, only if everything is exhausted and a reset can be had,
and with the attempt in the state file. A reset is applied only after a success that was verified
and written. -/
theorem evaluate_asks_once (env : Env P) (w : World P) (accounts : List (AccountQuotaTelemetry P))
    (now : DateTime) :
    let r := exec (evaluate env accounts now) w
    ∃ calls, r.2.calls = w.calls ++ calls ∧ calls.length ≤ 1 ∧
      (∀ c ∈ calls,
        (∃ state, w.file.load = .ok state ∧ state.enabled = true ∧
          ∀ t, state.cooldownUntil = some t → ¬ env.clock (w.step + 2) < t) ∧
        (∃ a ∈ accounts, a.eligible = true) ∧
        (∀ a ∈ accounts, a.eligible = true → a.weeklyQuotaIsZero = true) ∧
        (∃ a ∈ accounts, a.eligible = true ∧ a.resetCapability.isAvailable = true) ∧
        ∃ s, c.file = .document s ∧ s.phase = .attempting ∧
          s.attemptKey = c.request.idempotencyKey) ∧
      (∀ accounts', accounts.Perm accounts' → exec (evaluate env accounts' now) w = r) ∧
      ∀ id, r.1 = .ok (.resetApplied id) → ∃ c ∈ calls, c.request.accountId = id ∧
        (∃ execution, c.answer = .ok execution ∧ ∃ a ∈ execution.refreshedAccounts,
          a.accountId = id ∧ a.weeklyRemainingPercent.any (above · (const 0)) = true) ∧
        ∃ s, r.2.file = .document s ∧ s.phase = .succeeded := by
  intro r
  have hperm : ∀ accounts', accounts.Perm accounts' → exec (evaluate env accounts' now) w = r := by
    intro accounts' h
    simp only [r, evaluate, plan_perm h]
  rcases evaluate_cases env w accounts now with
    ⟨request, state, attempt, h, hcalls, happlied⟩ | ⟨hcalls, -, hnot⟩
  · obtain ⟨henabled, hcool, -, hattempt⟩ := begins_eq_execute h.begins
    refine ⟨_, hcalls, le_rfl, ?_, hperm, ?_⟩
    · intro c hc
      cases List.mem_singleton.1 hc
      obtain ⟨-, hzero, a, ha, -, helig, havail⟩ := plan_eq_ok h.planned
      refine ⟨⟨state, h.load, henabled, hcool⟩, ⟨a, ha, helig⟩, hzero, ⟨a, ha, helig, havail⟩, attempt,
        rfl, ?_⟩
      rw [hattempt]
      exact ⟨rfl, rfl⟩
    · intro id hid
      obtain ⟨rfl, ⟨execution, hanswer, hrefusal⟩, s, hfile, hphase⟩ := happlied id hid
      exact ⟨_, List.mem_singleton_self _, rfl,
        ⟨execution, hanswer, exists_of_refusal hrefusal⟩, s, hfile, hphase⟩
  · exact ⟨[], by simpa using hcalls, by simp, by simp, hperm, fun id h => absurd h (hnot id)⟩

theorem evaluate_key (env : Env P) (w : World P) (accounts : List (AccountQuotaTelemetry P))
    (now : DateTime) : ∃ calls, (exec (evaluate env accounts now) w).2.calls = w.calls ++ calls ∧
      ∀ c ∈ calls, c.request.idempotencyKey = makeAttemptKey (accounts.filter (·.eligible)) := by
  rcases evaluate_cases env w accounts now with ⟨request, state, attempt, h, hcalls, -⟩ | ⟨hcalls, -⟩
  · refine ⟨_, hcalls, ?_⟩
    intro c hc
    cases List.mem_singleton.1 hc
    exact (plan_eq_ok h.planned).1
  · exact ⟨[], by simpa using hcalls, by simp⟩

def run (env : Env P) : List (List (AccountQuotaTelemetry P) × DateTime) → World P → World P
  | [], w => w
  | i :: is, w => run env is (exec (evaluate env i.1 i.2) w).2

omit [Float64 P] in
theorem isValid_of_load {file : StateFile} (h : file.load = .ok state) : state.isValid = true := by
  cases file with
  | missing => cases h; decide
  | garbage => cases h
  | document s =>
    simp only [StateFile.load] at h
    split_ifs at h <;> cases h <;> assumption

omit [Float64 P] in
theorem load_document {s : AutoResetState} (h : s.isValid = true) :
    (StateFile.document s).load = .ok s := by
  simp [StateFile.load, (AutoResetState.isValid_iff.1 h).1, h]

def Done (key : String) (w : World P) : Prop :=
  ∃ s, w.file = .document s ∧ s.phase = .succeeded ∧ s.attemptKey = key ∧ s.isValid = true

theorem done_of_verified (hread : ∀ n, env.readFails n = false)
    (hwrite : ∀ n, env.write n = .done) (h : Asks env w accounts request state attempt)
    (hid : request.accountId.utf8ByteSize ≤ 240) {execution : QuotaResetExecution P}
    (hanswer : env.execute (w.step + 4) request = .ok execution)
    (hrefusal : refusal request execution = none) :
    Done request.idempotencyKey (exec (evaluate env accounts now) w).2 := by
  have hkey : attempt.attemptKey = request.idempotencyKey := by
    rw [(begins_eq_execute h.begins).2.2.2]
    rfl
  have hvalid : AutoResetState.isValid { attempt with
      phase := .succeeded
      lastError := ""
      verifiedAccountId := request.accountId
      cooldownUntil := none } = true := by
    obtain ⟨hversion, hshort, -⟩ := AutoResetState.isValid_iff.1 h.valid
    exact AutoResetState.isValid_iff.2 ⟨hversion, hshort, by simp, hid, by simp⟩
  rw [hkey] at hvalid
  rw [evaluate_of_asks h now]
  refine ⟨{ attempt with
    phase := .succeeded
    lastError := ""
    attemptKey := request.idempotencyKey
    verifiedAccountId := request.accountId
    cooldownUntil := none }, ?_, rfl, rfl, hvalid⟩
  simp [conclude, hanswer, hrefusal, markSucceeded, updateAttempt, exec_bind, exec_load, exec_save,
    hread, hwrite, load_document h.valid, hkey, hvalid, -bind_pure_comp]

theorem not_asks_of_done (h : Done request.idempotencyKey w) :
    ¬ Asks env w accounts request state attempt := by
  obtain ⟨s, hfile, hphase, hkey, hvalid⟩ := h
  intro hasks
  have hload := hasks.load
  rw [hfile, load_document hvalid] at hload
  cases hload
  exact (begins_eq_execute hasks.begins).2.2.1 ⟨hphase, hkey⟩

/-- **At most one success under one key**, where the state file can be read and written. -/
theorem verified_at_most_once {env : Env P} (hread : ∀ n, env.readFails n = false)
    (hwrite : ∀ n, env.write n = .done) {key : String}
    {inputs : List (List (AccountQuotaTelemetry P) × DateTime)}
    (hkey : ∀ i ∈ inputs, makeAttemptKey (i.1.filter (·.eligible)) = key)
    (hids : ∀ i ∈ inputs, ∀ a ∈ i.1, a.accountId.utf8ByteSize ≤ 240) {w : World P}
    (hw : w.calls = []) :
    (run env inputs w).calls.Pairwise fun c d => ¬ (c.Verified ∧ d.Verified) := by
  have hstart : w.calls.Pairwise (fun c d => ¬ (c.Verified ∧ d.Verified)) ∧
      ((∃ c ∈ w.calls, c.Verified) → Done key w) := by
    simp [hw]
  clear hw
  -- a success is in the file, which then stays as it is
  induction inputs generalizing w with
  | nil => exact hstart.1
  | cons i inputs ih =>
    obtain ⟨hfirst, hkey⟩ := List.forall_mem_cons.1 hkey
    obtain ⟨hid, hids⟩ := List.forall_mem_cons.1 hids
    refine ih hkey hids ?_
    rcases evaluate_cases env w i.1 i.2 with
      ⟨request, state, attempt, h, hcalls, -⟩ | ⟨hcalls, hfile, -⟩
    · have hrequest : request.idempotencyKey = key := ((plan_eq_ok h.planned).1).trans hfirst
      have hnone : ∀ c ∈ w.calls, ¬ c.Verified := fun c hc hverified =>
        not_asks_of_done (hrequest.symm ▸ hstart.2 ⟨c, hc, hverified⟩) h
      rw [hcalls]
      constructor
      · refine List.pairwise_append.2 ⟨hstart.1, List.pairwise_singleton _ _, ?_⟩
        exact fun c hc d _ hboth => hnone c hc hboth.1
      · rintro ⟨c, hc, hverified⟩
        rcases List.mem_append.1 hc with hc | hc
        · exact absurd hverified (hnone c hc)
        cases List.mem_singleton.1 hc
        obtain ⟨-, -, a, ha, heq, -⟩ := plan_eq_ok h.planned
        obtain ⟨execution, hanswer, hrefusal⟩ := hverified
        exact hrequest ▸ done_of_verified hread hwrite h (heq ▸ hid a ha) hanswer hrefusal
    · rw [hcalls]
      refine ⟨hstart.1, fun h => ?_⟩
      obtain ⟨s, hs, hrest⟩ := hstart.2 h
      exact ⟨s, (hfile (hwrite _)).trans hs, hrest⟩

theorem exists_plan (hids : ∀ a ∈ accounts, a.eligible = true → a.accountId ≠ "")
    (hzero : ∀ a ∈ accounts, a.eligible = true → a.weeklyQuotaIsZero = true)
    (havailable : ∃ a ∈ accounts, a.eligible = true ∧ a.resetCapability.isAvailable = true) :
    ∃ request, plan accounts = .ok request := by
  obtain ⟨a, ha, heligible, havail⟩ := havailable
  have hmem : a ∈ accounts.filter (·.eligible) := List.mem_filter.2 ⟨ha, heligible⟩
  have hall : (accounts.filter (·.eligible)).any (fun a =>
      a.accountId.isEmpty || a.weeklyRemainingPercent.isNone || !a.weeklyQuotaIsZero) = false := by
    rw [List.any_eq_false]
    intro b hb
    obtain ⟨hb, heligible⟩ := List.mem_filter.1 hb
    have hz := hzero b hb heligible
    cases hp : b.weeklyRemainingPercent with
    | none => simp [AccountQuotaTelemetry.weeklyQuotaIsZero, hp] at hz
    | some p => simp [hz, hids b hb heligible]
  simp only [plan, hall, List.isEmpty_iff, List.ne_nil_of_mem hmem, if_false, Bool.false_eq_true]
  cases hmin : ((accounts.filter (·.eligible)).filter fun a =>
      a.resetCapability.isAvailable).argmin (·.key) with
  | none =>
    have hin : a ∈ (accounts.filter (·.eligible)).filter fun a => a.resetCapability.isAvailable :=
      List.mem_filter.2 ⟨hmem, havail⟩
    rw [List.argmin_eq_none.1 hmin] at hin
    cases hin
  | some candidate => exact ⟨_, rfl⟩

theorem evaluate_of_not_valid (hread : env.readFails w.step = false ∧ env.readFails (w.step + 1) = false)
    (hload : w.file.load = .ok state) (hplan : plan accounts = .ok request)
    (hbegins : state.begins request.idempotencyKey (env.clock (w.step + 2)) = .execute attempt)
    (hvalid : attempt.isValid = false) (now : DateTime) :
    exec (evaluate env accounts now) w = (.error .invalidState, w.tick.tick.tick) := by
  have henabled := (begins_eq_execute hbegins).1
  have hbegin : exec (beginAttempt env request.idempotencyKey) w.tick =
      (.error .invalidState, w.tick.tick.tick) := by
    simp [beginAttempt, isBlank_of_plan hplan, exec_bind, exec_load, exec_now, exec_save, hread, hload,
      hbegins, hvalid, -bind_pure_comp]
  simp [evaluate, exec_bind, exec_load, hread, hload, henabled, hplan, hbegin]

def observedSample (id : String) (secs : ℕ) : AccountQuotaTelemetry ℕ where
  accountId := id
  eligible := true
  weeklyRemainingPercent := some 0
  resetCapability := .available none
  observedAt := (DateTime.epoch.addSecs secs).getD .epoch

def Env.sample : Env ℕ where
  readFails _ := false
  clock _ := .sample
  write _ := .done
  execute _ request := .ok ⟨.reset, [{ observedSample request.accountId 0 with
    weeklyRemainingPercent := some 100 }]⟩
  later t := t

def AutoResetState.sample : AutoResetState := { AutoResetState.default with enabled := true }

def World.sample : World ℕ := ⟨.document .sample, 0, []⟩

def keySample : String := "weekly-zero:a:auto:0"

theorem asks_sample : Asks Env.sample World.sample [observedSample "a" 0] ⟨"a", none, keySample⟩
    .sample (AutoResetState.sample.attempting keySample .sample) where
  read := ⟨rfl, rfl⟩
  load := rfl
  planned := by decide +kernel
  begins := rfl
  valid := by decide +kernel
  written := rfl

/-- **An account is reset twice**, where it is observed again. -/
theorem verified_twice :
    (run Env.sample [([observedSample "a" 0], .sample), ([observedSample "a" 1], .sample)]
        World.sample).calls.map (fun c => c.answer.toOption.map fun execution =>
      (c.request.accountId, execution.outcome, refusal c.request execution)) =
        [some ("a", .reset, none), some ("a", .reset, none)] := by
  decide +kernel

theorem verified_at_most_once_sample :
    (run Env.sample [([observedSample "a" 0], .sample), ([observedSample "a" 0], .sample)]
      World.sample).calls.Pairwise fun c d => ¬ (c.Verified ∧ d.Verified) := by
  have hkey : ∀ i ∈ [([observedSample "a" 0], DateTime.sample), ([observedSample "a" 0], .sample)],
      makeAttemptKey (i.1.filter (·.eligible)) = keySample := by
    decide +kernel
  exact verified_at_most_once (fun _ => rfl) (fun _ => rfl) hkey (by decide +kernel) rfl

def longSample : List (AccountQuotaTelemetry ℕ) :=
  ['a', 'b', 'c'].map fun c => observedSample (String.ofList (List.replicate 200 c)) 0

theorem utf8ByteSize_replicate {c : Char} (hc : c.utf8Size = 1) (n : ℕ) :
    (String.ofList (List.replicate n c)).utf8ByteSize = n := by
  induction n with
  | zero => rfl
  | succ n ih =>
    rw [String.utf8ByteSize_ofList] at ih ⊢
    rw [List.replicate_succ, String.utf8Len, hc, ih]

theorem plain_of_mem_letters {c : Char} (hc : c ∈ ['a', 'b', 'c']) :
    c.utf8Size = 1 ∧ c ≠ '.' ∧ c ≠ ' ' ∧ isControl c = false ∧ c ∉ "/\\<>:\"|?*".toList := by
  obtain rfl | rfl | rfl : c = 'a' ∨ c = 'b' ∨ c = 'c' := by simpa using hc
  all_goals decide

theorem validateAccountId_replicate {c : Char} (hc : c ∈ ['a', 'b', 'c']) {n : ℕ} (hn : 4 < n)
    (hle : n ≤ 240) : validateAccountId (String.ofList (List.replicate n c)) = .ok () := by
  have hchar := plain_of_mem_letters hc
  have hne : ∀ (d : Char) (s : String), s.length ≤ 4 → String.ofList (List.replicate n d) ≠ s := by
    rintro d s hs rfl
    rw [String.length_ofList, List.length_replicate] at hs
    omega
  have hbase : String.ofList (List.replicate n c.toUpper) ∉ reservedNames := by
    have hlength : ∀ name ∈ reservedNames, name.length ≤ 4 := by decide
    exact fun h => hne _ _ (hlength _ h) rfl
  rw [validateAccountId, Result.require_eq_ok]
  simp [utf8ByteSize_replicate hchar.1, hchar, List.getLast?_replicate, hbase, List.any_replicate,
    hne c "." (by decide), hne c ".." (by decide)]
  exact ⟨⟨by omega, hle⟩, .inr (by simpa using hchar.2.2.2.2)⟩

theorem sum_le_utf8ByteSize_intercalate (s : String) (l : List String) :
    (l.map (·.utf8ByteSize)).sum ≤ (s.intercalate l).utf8ByteSize := by
  induction l with
  | nil => simp
  | cons t l ih =>
    cases l with
    | nil => simp [String.intercalate_singleton]
    | cons u l =>
      rw [String.intercalate_cons_cons, String.utf8ByteSize_append, String.utf8ByteSize_append,
        List.map_cons, List.sum_cons]
      omega

end AutoReset

end CodexMarathon
