/-
**The expiry ledger: its tables and its operations.**

The account daemon keeps the reset credits it has been told about, one job per credit, and a stream
of events in one SQLite database.  Each operation is one transaction: a function that returns the
database it commits, or an error.  Clocks are arguments and may be in any order; the `Uuid::new_v4`
values come from a `UuidSource`, of which the ledger counts how many were drawn.
-/

import CodexMarathon.Primitives
import CodexMarathon.Lib.Machine
import CodexMarathon.Lib.Table
import Mathlib.Data.List.Sort

namespace CodexMarathon.Expiry

structure ExpiryCredit where
  creditId : String
  status : String
  expiresAt : Option DateTime
deriving DecidableEq

/-- `credits = none` is an incomplete reading, never an empty inventory. -/
structure ExpiryObservation where
  accountId : String
  observedAt : DateTime
  credits : Option (List ExpiryCredit)
deriving DecidableEq

structure ExpiryJob where
  jobId : String
  accountId : String
  creditId : String
  idempotencyKey : String
  leaseToken : String
  expiresAt : DateTime
  attempt : ℤ
deriving DecidableEq

inductive ExpiryOutcome
  | reset
  | alreadyRedeemed
  | retry
  | noCredit
  | nothingToReset
deriving DecidableEq, Repr

structure ExpiryCompletion where
  jobId : String
  leaseToken : String
  outcome : ExpiryOutcome
  diagnosticCode : Option String
deriving DecidableEq

def ExpiryOutcome.success : ExpiryOutcome → Bool
  | .reset | .alreadyRedeemed => true
  | .retry | .noCredit | .nothingToReset => false

/-- `persistence` stands for every SQLite failure. -/
inductive AccountdError
  | invalidRequest
  | corruptState
  | persistence
deriving DecidableEq, Repr

/-! ### Events -/

inductive EventKind
  | accountObserved
  | quotaObserved
  | jobQueued
  | jobStarted
  | jobRetryWait
  | jobSucceeded
  | jobFailed
  | jobCancelled
  | executorReady
  | executorUnavailable
  | autospinBlocked
deriving DecidableEq, Repr

def EventKind.asStr : EventKind → String
  | .accountObserved => "account.observed"
  | .quotaObserved => "quota.observed"
  | .jobQueued => "job.queued"
  | .jobStarted => "job.started"
  | .jobRetryWait => "job.retry_wait"
  | .jobSucceeded => "job.succeeded"
  | .jobFailed => "job.failed"
  | .jobCancelled => "job.cancelled"
  | .executorReady => "executor.ready"
  | .executorUnavailable => "executor.unavailable"
  | .autospinBlocked => "autospin.blocked"

inductive JobState
  | queued
  | running
  | retryWait
  | succeeded
  | failed
  | cancelled
deriving DecidableEq, Repr

structure EventInput where
  kind : EventKind
  accountId : Option String := none
  jobId : Option String := none
  state : Option JobState := none
  generation : Option ℤ := none
  attempt : Option ℤ := none
  diagnosticCode : Option String := none
  occurredAt : DateTime
deriving DecidableEq

/-- A row of `accountd_events`.  Its position in the table is its `event_id`. -/
structure EventRow where
  kind : EventKind
  occurredAtMs : ℤ
  accountId : Option String
  jobId : Option String
  state : Option JobState
  generation : Option ℤ
  attempt : Option ℤ
  diagnosticCode : Option String
deriving DecidableEq

def maxIdentifierBytes : ℕ := 256

def maxDiagnosticBytes : ℕ := 256

def maxEventKindBytes : ℕ := 64

def validateEventInput (input : EventInput) : Bool :=
  validateIdentifier input.kind.asStr maxEventKindBytes
    && input.accountId.all (validateIdentifier · maxIdentifierBytes)
    && input.jobId.all (validateIdentifier · maxIdentifierBytes)
    && input.diagnosticCode.all (validateIdentifier · maxDiagnosticBytes)
    && !(input.generation.any (· < 0) || input.attempt.any (· < 0))

def EventInput.toRow (input : EventInput) : EventRow where
  kind := input.kind
  occurredAtMs := input.occurredAt.timestampMillis
  accountId := input.accountId
  jobId := input.jobId
  state := input.state
  generation := input.generation
  attempt := input.attempt
  diagnosticCode := input.diagnosticCode

structure Settings where
  enabled : Bool
  heartbeatMs : Option ℤ
deriving DecidableEq

structure ObservationRow where
  accountId : String
  observedMs : ℤ
deriving DecidableEq

structure JobRow where
  jobId : String
  accountId : String
  creditId : String
  idempotencyKey : String
  expiresMs : ℤ
  observedMs : ℤ
  available : Bool
  state : JobState
  attempt : ℤ
  runAfterMs : ℤ
  leaseToken : Option String
  leaseUntilMs : Option ℤ
  diagnosticCode : Option String
deriving DecidableEq

/-- `schemaVersion` and `settings` are the singleton rows, absent in a new file. -/
structure Db where
  schemaVersion : Option ℤ
  settings : Option Settings
  observations : List ObservationRow
  jobs : List JobRow
  events : List EventRow
deriving DecidableEq

def Db.empty : Db := ⟨none, none, [], [], []⟩

/-- The database and the number of UUIDs drawn while it was written. -/
structure Ledger where
  db : Db
  drawn : ℕ
deriving DecidableEq

/-! ### Statements -/

def insertEvent (db : Db) (input : EventInput) : Except AccountdError Db :=
  if validateEventInput input then .ok { db with events := db.events ++ [input.toRow] }
  else .error .invalidRequest

/-- `UPDATE accountd_expiry_jobs SET … WHERE job_id=?`. -/
def Db.updateJob (db : Db) (jobId : String) (f : JobRow → JobRow) : Db :=
  { db with jobs := Table.update (fun r => r.jobId = jobId) f db.jobs }

/-- `UPDATE accountd_expiry_jobs SET … WHERE account_id=? AND credit_id=?`. -/
def Db.updateCredit (db : Db) (accountId creditId : String) (f : JobRow → JobRow) : Db :=
  { db with
    jobs := Table.update (fun r => r.accountId = accountId ∧ r.creditId = creditId) f db.jobs }

def Db.observedMs (db : Db) (accountId : String) : Option ℤ :=
  (db.observations.find? (·.accountId = accountId)).map (·.observedMs)

/-- `INSERT INTO accountd_expiry_observations … ON CONFLICT(account_id) DO UPDATE`. -/
def Db.upsertObservation (db : Db) (accountId : String) (stamp : ℤ) : Db :=
  if db.observations.any (·.accountId = accountId) then
    { db with
      observations := Table.update (·.accountId = accountId)
        (fun o => { o with observedMs := stamp }) db.observations }
  else { db with observations := db.observations ++ [⟨accountId, stamp⟩] }

/-- The assignments of `DO UPDATE`: the due time moves only while the job was never claimed. -/
def JobRow.refresh (excluded r : JobRow) : JobRow :=
  { r with
    available := excluded.available
    observedMs := excluded.observedMs
    expiresMs := excluded.expiresMs
    runAfterMs := if r.attempt = 0 then excluded.runAfterMs else r.runAfterMs }

/-- `INSERT INTO accountd_expiry_jobs … ON CONFLICT(account_id,credit_id) DO UPDATE`. A clash on the
primary key fails the statement. -/
def Db.upsertJob (db : Db) (new : JobRow) : Except AccountdError Db :=
  if db.jobs.any (·.jobId = new.jobId) then .error .persistence
  else if db.jobs.any (fun r => r.accountId = new.accountId ∧ r.creditId = new.creditId) then
    .ok (db.updateCredit new.accountId new.creditId new.refresh)
  else .ok { db with jobs := db.jobs ++ [new] }

def Db.reopen (db : Db) : Except AccountdError Db :=
  if db.schemaVersion.getD 1 ≠ 1 then .error .corruptState
  else .ok
    { db with
      schemaVersion := some (db.schemaVersion.getD 1)
      settings := some (db.settings.getD ⟨false, none⟩) }

def Db.set (db : Db) (enabled : Bool) (clock : DateTime) : Except AccountdError Db :=
  match db.settings with
  | none => .ok db
  | some s =>
    if s.enabled = enabled then .ok db
    else insertEvent { db with settings := some { s with enabled := enabled } }
      { kind := if enabled then .jobQueued else .jobCancelled
        diagnosticCode :=
          some (if enabled then "expiry_policy_enabled" else "expiry_policy_disabled")
        occurredAt := clock }

def Db.heartbeat (db : Db) (now : DateTime) : Db :=
  { db with
    settings := db.settings.map fun s => { s with heartbeatMs := some now.timestampMillis } }

def creditsAdmissible : List String → List ExpiryCredit → Bool
  | _, [] => true
  | seen, credit :: rest =>
    validateIdentifier credit.creditId 256 && !seen.contains credit.creditId
      && creditsAdmissible (credit.creditId :: seen) rest

def JobRow.redeem (stamp : ℤ) (r : JobRow) : JobRow :=
  { r with
    state := .succeeded
    available := false
    observedMs := stamp
    leaseUntilMs := none
    diagnosticCode := some "inventory_redeemed" }

def JobRow.withdraw (r : JobRow) : JobRow := { r with available := false }

def JobRow.proposal (jobId key accountId : String) (stamp : ℤ) (credit : ExpiryCredit)
    (expires : DateTime) : JobRow where
  jobId := jobId
  accountId := accountId
  creditId := credit.creditId
  idempotencyKey := key
  expiresMs := expires.timestampMillis
  observedMs := stamp
  available := credit.status = "available"
  state := .queued
  attempt := 0
  runAfterMs := saturatingSub expires.timestampMillis 900000
  leaseToken := none
  leaseUntilMs := none
  diagnosticCode := none

def observeCredit (U : UuidSource) (accountId : String) (stamp : ℤ) (now : DateTime) (l : Ledger)
    (credit : ExpiryCredit) : Except AccountdError Ledger :=
  if credit.status = "redeemed" ∨ credit.status = "consumed" then
    match l.db.jobs.find? (fun r =>
        r.accountId = accountId ∧ r.creditId = credit.creditId ∧ r.state ≠ .succeeded) with
    | none => .ok l
    | some row =>
      (insertEvent (l.db.updateJob row.jobId (JobRow.redeem stamp))
        { kind := .jobSucceeded
          accountId := some accountId
          jobId := some row.jobId
          state := some .succeeded
          attempt := some row.attempt
          diagnosticCode := some "inventory_redeemed"
          occurredAt := now }).map fun db => { l with db := db }
  else
    match credit.expiresAt with
    | some expires =>
      (l.db.upsertJob (JobRow.proposal (U.v4 l.drawn) (U.v4 (l.drawn + 1)) accountId stamp
        credit expires)).map fun db => ⟨db, l.drawn + 2⟩
    | none => .ok { l with db := l.db.updateCredit accountId credit.creditId JobRow.withdraw }

def Ledger.observe (U : UuidSource) (l : Ledger) (observation : ExpiryObservation)
    (now : DateTime) : Except AccountdError Ledger :=
  if !validateIdentifier observation.accountId 256 then .error .invalidRequest
  else if now < observation.observedAt then .error .invalidRequest
  else
    match observation.credits with
    | none => .ok l
    | some credits =>
      if !creditsAdmissible [] credits then .error .invalidRequest
      else
        let stamp := observation.observedAt.timestampMillis
        if (l.db.observedMs observation.accountId).any (stamp < ·) then .ok l
        else credits.foldlM (observeCredit U observation.accountId stamp now)
          { l with db := l.db.upsertObservation observation.accountId stamp }

/-! ### Claiming a due job -/

def recent (ms t : ℤ) : Bool := t ≤ ms && saturatingSub ms 60000 ≤ t

/-- The `WHERE` clause of `claim`. -/
def Db.due (db : Db) (ms : ℤ) (r : JobRow) : Bool :=
  match db.observedMs r.accountId with
  | none => false
  | some observed =>
    r.available
      && (r.state = .queued || r.state = .retryWait || r.state = .running)
      && ms < r.expiresMs
      && r.runAfterMs ≤ ms
      && ((r.attempt = 0 && recent ms r.observedMs) || (0 < r.attempt && recent ms observed))
      && (r.state ≠ .running || r.leaseUntilMs.any (· ≤ ms))

/-- `ORDER BY run_after_ms, job_id`. -/
def JobRow.le (a b : JobRow) : Prop :=
  a.runAfterMs < b.runAfterMs ∨ (a.runAfterMs = b.runAfterMs ∧ a.jobId ≤ b.jobId)

instance : DecidableRel JobRow.le := fun a b =>
  inferInstanceAs
    (Decidable (a.runAfterMs < b.runAfterMs ∨ (a.runAfterMs = b.runAfterMs ∧ a.jobId ≤ b.jobId)))

/-- The job `claim` hands out: the first due row of an eligible account. -/
def Db.candidate (db : Db) (eligible : List String) (ms : ℤ) : Option JobRow :=
  ((db.jobs.filter (db.due ms)).insertionSort JobRow.le).find?
    (fun r => eligible.contains r.accountId)

def Settings.live (s : Settings) (ms : ℤ) : Bool :=
  s.enabled && s.heartbeatMs.any (fun t => t ≤ ms && ms - t ≤ 60000)

def leaseMs : ℤ := 90000

def JobRow.lease (token : String) (ms : ℤ) (r : JobRow) : JobRow :=
  { r with
    state := .running
    attempt := saturatingAdd r.attempt 1
    leaseToken := some token
    leaseUntilMs := some (saturatingAdd ms leaseMs) }

def JobRow.toJob (r : JobRow) (token : String) (expiresAt : DateTime) : ExpiryJob where
  jobId := r.jobId
  accountId := r.accountId
  creditId := r.creditId
  idempotencyKey := r.idempotencyKey
  leaseToken := token
  expiresAt := expiresAt
  attempt := saturatingAdd r.attempt 1

def Ledger.claim (U : UuidSource) (l : Ledger) (eligible : List String) (master : Bool)
    (now : DateTime) : Except AccountdError (Option ExpiryJob × Ledger) :=
  if !master then .ok (none, l)
  else
    match l.db.settings with
    | none => .error .persistence
    | some s =>
      if !s.live now.timestampMillis then .ok (none, l)
      else
        match l.db.candidate eligible now.timestampMillis with
        | none => .ok (none, l)
        | some row => do
            let db ← insertEvent
              (l.db.updateJob row.jobId (JobRow.lease (U.v4 l.drawn) now.timestampMillis))
              { kind := .jobStarted
                accountId := some row.accountId
                jobId := some row.jobId
                state := some .running
                attempt := some (saturatingAdd row.attempt 1)
                occurredAt := now }
            match DateTime.fromTimestampMillis row.expiresMs with
            | none => .error .corruptState
            | some expiresAt => .ok (some (row.toJob (U.v4 l.drawn) expiresAt), ⟨db, l.drawn + 1⟩)

def retrySeconds (attempt : ℤ) : ℤ :=
  if attempt ≤ 1 then 5 else if attempt = 2 then 10 else if attempt = 3 then 20 else 30

/-- Diagnostic codes are symbols: 1 to 64 ASCII letters, digits and underscores. -/
def validateCode (code : String) : Bool :=
  !(64 < code.utf8ByteSize || code.isEmpty
    || !code.toList.all (fun c => c.isAlphanum || c = '_'))

def ExpiryCompletion.valid (completion : ExpiryCompletion) : Bool :=
  validateIdentifier completion.jobId 256 && validateIdentifier completion.leaseToken 256
    && completion.diagnosticCode.all validateCode

def JobRow.settle (completion : ExpiryCompletion) (ms delay : ℤ) (r : JobRow) : JobRow :=
  { r with
    state := if completion.outcome.success then .succeeded else .retryWait
    runAfterMs := saturatingAdd ms (delay * 1000)
    leaseUntilMs := none
    diagnosticCode := completion.diagnosticCode }

def Db.complete (db : Db) (completion : ExpiryCompletion) (now : DateTime) :
    Except AccountdError Db :=
  if !completion.valid then .error .invalidRequest
  else
    match db.jobs.find? (fun r => r.jobId = completion.jobId) with
    | none => .error .invalidRequest
    | some row =>
      if row.leaseToken ≠ some completion.leaseToken then .error .invalidRequest
      else if row.state = .succeeded ∨ row.state = .retryWait then .ok db
      else if row.state ≠ .running then .error .invalidRequest
      else
        let success := completion.outcome.success
        insertEvent
          { db with
            jobs := Table.update
              (fun r => r.jobId = completion.jobId ∧ r.leaseToken = some completion.leaseToken)
              (JobRow.settle completion now.timestampMillis (retrySeconds row.attempt)) db.jobs }
          { kind := if success then .jobSucceeded else .jobRetryWait
            accountId := some row.accountId
            jobId := some completion.jobId
            state := some (if success then .succeeded else .retryWait)
            attempt := some row.attempt
            diagnosticCode := completion.diagnosticCode
            occurredAt := now }

/-! ### The ledger as a machine -/

/-- `abort` is an operation cut short before its commit. -/
inductive Op
  | reopen
  | set (enabled : Bool) (clock : DateTime)
  | heartbeat (now : DateTime)
  | observe (observation : ExpiryObservation) (now : DateTime)
  | claim (eligible : List String) (master : Bool) (now : DateTime)
  | complete (completion : ExpiryCompletion) (now : DateTime)
  | abort

inductive Answer
  | done (result : Except AccountdError Unit)
  | claimed (result : Except AccountdError (Option ExpiryJob))
deriving DecidableEq

def Ledger.commitDb (l : Ledger) : Except AccountdError Db → Ledger × Answer
  | .ok db => ({ l with db := db }, .done (.ok ()))
  | .error e => (l, .done (.error e))

def step (U : UuidSource) (l : Ledger) : Op → Ledger × Answer
  | .reopen => l.commitDb l.db.reopen
  | .set enabled clock => l.commitDb (l.db.set enabled clock)
  | .heartbeat now => l.commitDb (.ok (l.db.heartbeat now))
  | .observe observation now =>
    match l.observe U observation now with
    | .ok l' => (l', .done (.ok ()))
    | .error e => (l, .done (.error e))
  | .claim eligible master now =>
    match l.claim U eligible master now with
    | .ok (job, l') => (l', .claimed (.ok job))
    | .error e => (l, .claimed (.error e))
  | .complete completion now => l.commitDb (l.db.complete completion now)
  | .abort => (l, .done (.error .persistence))

def machine (U : UuidSource) : Machine Ledger Op Answer := ⟨step U⟩

def Ledger.init : Ledger := ⟨Db.empty, 0⟩

abbrev History := List (Op × Answer)

def Answer.job? : Answer → Option ExpiryJob
  | .claimed (.ok job) => job
  | .claimed (.error _) => none
  | .done _ => none

@[simp] theorem Answer.job?_done (result : Except AccountdError Unit) :
    (Answer.done result).job? = none := rfl

def claims (h : History) : List ExpiryJob := h.filterMap (·.2.job?)

end CodexMarathon.Expiry
