/-
**The job table of the account daemon.**

Each transition of a job is one transaction that rewrites its row and appends the event that reports
it.  `reconcile_running_jobs` reads the running jobs once, outside any transaction, and then settles
them one transaction at a time.

A system is the database with the reconciliations that are under way.  A run of its machine is an
interleaving of calls by any number of processes, each of which can be lost between two
transactions.
-/

import CodexMarathon.Expiry.Store
import CodexMarathon.Lib.Listing
import Mathlib.Logic.Function.Basic

namespace CodexMarathon.Jobs

open Expiry (AccountdError EventKind JobState EventInput EventRow validateEventInput
  maxIdentifierBytes maxDiagnosticBytes)

structure JobSpec where
  jobId : String
  kind : String
  idempotencyKey : String
  accountId : Option String
  runAfter : DateTime
deriving DecidableEq

structure JobRecord where
  jobId : String
  kind : String
  idempotencyKey : String
  accountId : Option String
  state : JobState
  generation : ℤ
  attempt : ℤ
  runAfter : DateTime
  createdAt : DateTime
  updatedAt : DateTime
  diagnosticCode : Option String
deriving DecidableEq

structure JobRow where
  jobId : String
  kind : String
  idempotencyKey : String
  accountId : Option String
  state : JobState
  generation : ℤ
  attempt : ℤ
  runAfterMs : ℤ
  createdAtMs : ℤ
  updatedAtMs : ℤ
  diagnosticCode : Option String
deriving DecidableEq

structure Db where
  jobs : List JobRow
  events : List EventRow
deriving DecidableEq

def Db.empty : Db := ⟨[], []⟩

def insertEvent (db : Db) (input : EventInput) : Except AccountdError Db :=
  if validateEventInput input then .ok { db with events := db.events ++ [input.toRow] }
  else .error .invalidRequest

def allowedJobKinds : List String := ["account_observe", "quota_refresh"]

def validateIdempotencyKey (value : String) : Bool :=
  validateIdentifier value maxIdentifierBytes
    && value.toList.all fun c => c.isAlphanum || c = '.' || c = '-' || c = '_' || c = ':'

def validateDiagnostic (value : String) : Bool := validateIdentifier value maxDiagnosticBytes

def validateJobSpec (spec : JobSpec) : Bool :=
  validateIdentifier spec.jobId maxIdentifierBytes
    && allowedJobKinds.contains spec.kind
    && validateIdentifier spec.kind maxIdentifierBytes
    && validateIdempotencyKey spec.idempotencyKey
    && spec.accountId.all (validateIdentifier · maxIdentifierBytes)

def JobSpec.toRow (spec : JobSpec) (now : DateTime) : JobRow where
  jobId := spec.jobId
  kind := spec.kind
  idempotencyKey := spec.idempotencyKey
  accountId := spec.accountId
  state := .queued
  generation := 0
  attempt := 0
  runAfterMs := spec.runAfter.timestampMillis
  createdAtMs := now.timestampMillis
  updatedAtMs := now.timestampMillis
  diagnosticCode := none

def JobSpec.toRecord (spec : JobSpec) (now : DateTime) : JobRecord where
  jobId := spec.jobId
  kind := spec.kind
  idempotencyKey := spec.idempotencyKey
  accountId := spec.accountId
  state := .queued
  generation := 0
  attempt := 0
  runAfter := spec.runAfter
  createdAt := now
  updatedAt := now
  diagnosticCode := none

/-- `EventStore::queue_job`; a job id that is taken violates the primary key. -/
def Db.queueJob (db : Db) (spec : JobSpec) (now : DateTime) :
    Except AccountdError (JobRecord × Db) :=
  if !validateJobSpec spec then .error .invalidRequest
  else if db.jobs.any (·.jobId = spec.jobId) then .error .persistence
  else
    (insertEvent { db with jobs := db.jobs ++ [spec.toRow now] }
      { kind := .jobQueued
        jobId := some spec.jobId
        accountId := spec.accountId
        state := some .queued
        generation := some 0
        attempt := some 0
        occurredAt := now }).map fun db => (spec.toRecord now, db)

def Db.move (db : Db) (jobId : String) (expected : JobState → Bool) (f : JobRow → JobRow)
    (event : JobRow → EventInput) : Except AccountdError (Bool × Db) :=
  match db.jobs.find? (fun r => r.jobId = jobId && expected r.state) with
  | none => .ok (false, db)
  | some row =>
    (insertEvent
      { db with jobs := Table.update (fun r => r.jobId = jobId && expected r.state) f db.jobs }
      (event row)).map fun db => (true, db)

def Db.transitionJob (db : Db) (jobId : String) (expected next : JobState)
    (diagnostic : Option String) (kind : EventKind) (now : DateTime) :
    Except AccountdError (Bool × Db) :=
  if !validateIdentifier jobId maxIdentifierBytes then .error .invalidRequest
  else
    db.move jobId (· = expected)
      (fun r =>
        { r with
          state := next
          updatedAtMs := now.timestampMillis
          diagnosticCode := diagnostic })
      fun row =>
        { kind := kind
          jobId := some jobId
          accountId := row.accountId
          state := some next
          generation := some row.generation
          attempt := some row.attempt
          diagnosticCode := diagnostic
          occurredAt := now }

def Db.markJobRunning (db : Db) (jobId : String) (now : DateTime) :
    Except AccountdError (Bool × Db) :=
  db.transitionJob jobId .queued .running none .jobStarted now

def Db.markJobSucceeded (db : Db) (jobId : String) (now : DateTime) :
    Except AccountdError (Bool × Db) :=
  db.transitionJob jobId .running .succeeded none .jobSucceeded now

def Db.markJobFailed (db : Db) (jobId diagnosticCode : String) (now : DateTime) :
    Except AccountdError (Bool × Db) :=
  if !validateDiagnostic diagnosticCode then .error .invalidRequest
  else db.transitionJob jobId .running .failed (some diagnosticCode) .jobFailed now

def Db.cancelJob (db : Db) (jobId : String) (now : DateTime) : Except AccountdError (Bool × Db) :=
  if !validateIdentifier jobId maxIdentifierBytes then .error .invalidRequest
  else
    db.move jobId (fun state => state = .queued || state = .retryWait)
      (fun r => { r with state := .cancelled, updatedAtMs := now.timestampMillis })
      fun row =>
        { kind := .jobCancelled
          jobId := some jobId
          accountId := row.accountId
          state := some .cancelled
          generation := some row.generation
          attempt := some row.attempt
          occurredAt := now }

structure Interrupted where
  jobId : String
  idempotencyKey : String
  accountId : Option String
  generation : ℤ
  attempt : ℤ
deriving DecidableEq

def JobRow.toInterrupted (r : JobRow) : Interrupted :=
  ⟨r.jobId, r.idempotencyKey, r.accountId, r.generation, r.attempt⟩

/-- `SELECT … WHERE state = 'running' ORDER BY job_id`. -/
def Db.interrupted (db : Db) : List Interrupted :=
  (Listing.orderBy JobRow.jobId (db.jobs.filter (·.state = .running))).map JobRow.toInterrupted

def retryBackoffSecs : ℕ := 30

structure Settlement where
  state : JobState
  kind : EventKind
  diagnostic : Option String
  runAfter : DateTime
  nextAttempt : ℤ

/-- `none` is the panic of an addition beyond the last instant. -/
def Interrupted.settlement (q : Interrupted) (now : DateTime) : Option Settlement :=
  if validateIdempotencyKey q.idempotencyKey then
    (now.addSecs retryBackoffSecs).map fun runAfter =>
      ⟨.retryWait, .jobRetryWait, none, runAfter, saturatingAdd q.attempt 1⟩
  else some ⟨.failed, .jobFailed, some "unsafe_retry", now, q.attempt⟩

/-- The job is settled if it still runs, with the attempt and the generation that were read. -/
def Db.reconcileRow (db : Db) (q : Interrupted) (now : DateTime) :
    Except AccountdError (Bool × Db) :=
  match q.settlement now with
  | none => .error .persistence
  | some t =>
    db.move q.jobId (· = .running)
      (fun r =>
        { r with
          state := t.state
          attempt := t.nextAttempt
          runAfterMs := t.runAfter.timestampMillis
          updatedAtMs := now.timestampMillis
          diagnosticCode := t.diagnostic })
      fun _ =>
        { kind := t.kind
          accountId := q.accountId
          jobId := some q.jobId
          state := some t.state
          generation := some q.generation
          attempt := some t.nextAttempt
          diagnosticCode := t.diagnostic
          occurredAt := now }

/-- The clock, the jobs still to settle and the number of those settled. -/
structure Call where
  now : DateTime
  rows : List Interrupted
  reconciled : ℕ

/-- The database, and for each process the reconciliation it is in. -/
structure System where
  db : Db
  calls : ℕ → Option Call

def System.init : System := ⟨Db.empty, fun _ => none⟩

/-- `reconcile_running_jobs` is `reconcile` and then a `reconcileNext` for each job that was read
and for its return; `crash` is the loss of a process, `abort` a transaction cut short. -/
inductive Op
  | queueJob (spec : JobSpec) (now : DateTime)
  | markJobRunning (jobId : String) (now : DateTime)
  | markJobSucceeded (jobId : String) (now : DateTime)
  | markJobFailed (jobId diagnosticCode : String) (now : DateTime)
  | cancelJob (jobId : String) (now : DateTime)
  | appendEvent (input : EventInput)
  | reconcile (process : ℕ) (now : DateTime)
  | reconcileNext (process : ℕ)
  | crash (process : ℕ)
  | abort

inductive Answer
  | queued (result : Except AccountdError JobRecord)
  | moved (result : Except AccountdError Bool)
  | appended (result : Except AccountdError Unit)
  | reconciled (result : Except AccountdError ℕ)
  | pending
  | lost

def System.commit (s : System) : Except AccountdError (Bool × Db) → System × Answer
  | .ok (moved, db) => ({ s with db := db }, .moved (.ok moved))
  | .error e => (s, .moved (.error e))

def System.setCall (s : System) (process : ℕ) (call : Option Call) : System :=
  { s with calls := Function.update s.calls process call }

/-- One turn of the loop of `reconcile_running_jobs_at`, or its return. -/
def System.reconcileNext (s : System) (process : ℕ) : System × Answer :=
  match s.calls process with
  | none => (s, .lost)
  | some ⟨_, [], reconciled⟩ => (s.setCall process none, .reconciled (.ok reconciled))
  | some ⟨now, q :: rows, reconciled⟩ =>
    match s.db.reconcileRow q now with
    | .ok (moved, db) =>
      (System.setCall { s with db := db } process
        (some ⟨now, rows, if moved then reconciled + 1 else reconciled⟩), .pending)
    | .error e => (s.setCall process none, .reconciled (.error e))

def step (s : System) : Op → System × Answer
  | .queueJob spec now =>
    match s.db.queueJob spec now with
    | .ok (record, db) => ({ s with db := db }, .queued (.ok record))
    | .error e => (s, .queued (.error e))
  | .markJobRunning jobId now => s.commit (s.db.markJobRunning jobId now)
  | .markJobSucceeded jobId now => s.commit (s.db.markJobSucceeded jobId now)
  | .markJobFailed jobId code now => s.commit (s.db.markJobFailed jobId code now)
  | .cancelJob jobId now => s.commit (s.db.cancelJob jobId now)
  | .appendEvent input =>
    match insertEvent s.db input with
    | .ok db => ({ s with db := db }, .appended (.ok ()))
    | .error e => (s, .appended (.error e))
  | .reconcile process now => (s.setCall process (some ⟨now, s.db.interrupted, 0⟩), .pending)
  | .reconcileNext process => s.reconcileNext process
  | .crash process => (s.setCall process none, .lost)
  | .abort => (s, .lost)

def machine : Machine System Op Answer := ⟨step⟩

end CodexMarathon.Jobs
