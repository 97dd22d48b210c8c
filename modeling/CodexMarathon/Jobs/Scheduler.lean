/-
**The scheduler of the daemon.**

A daemon settles the jobs that an earlier one left running, and its scheduler settles the running
jobs again after every sleep of thirty seconds.  It cannot tell a job that was interrupted from one
that is at work.
-/

import CodexMarathon.Jobs.Lifecycle

namespace CodexMarathon

open Result

namespace Jobs

open Expiry (AccountdError EventKind JobState EventInput EventRow validateEventInput
  maxIdentifierBytes)

/-! ### The daemon -/

/-- In `Scheduler::initialize`, in the `select!` of `run`, in the reconciliation of a tick, or not
running. -/
inductive Phase
  | starting
  | sleeping
  | polling
  | stopped
deriving DecidableEq

/-- The reconciliations of the scheduler are those of process `0`. -/
structure Daemon where
  system : System
  phase : Phase

def Daemon.init : Daemon := ⟨System.init, .stopped⟩

/-- `start` is also a restart; `turn` is one transaction of the reconciliation, or its return;
`tick` is the end of a sleep. -/
inductive DaemonOp
  | start (now : DateTime)
  | turn
  | tick (now : DateTime)
  | shutdown (stop : Bool)
  | store (op : Op)

def Op.byOthers : Op → Op
  | .reconcile process now => .reconcile (process + 1) now
  | .reconcileNext process => .reconcileNext (process + 1)
  | .crash process => .crash (process + 1)
  | op => op

def Daemon.request (d : Daemon) : DaemonOp → Option Op
  | .start now => some (.reconcile 0 now)
  | .turn => if d.phase = .starting ∨ d.phase = .polling then some (.reconcileNext 0) else none
  | .tick now => if d.phase = .sleeping then some (.reconcile 0 now) else none
  | .shutdown _ => none
  | .store op => some op.byOthers

/-- `initialize` returns the error of its reconciliation, `run` ignores that of a tick. -/
def Daemon.next (d : Daemon) (op : DaemonOp) (answer : Answer) : Phase :=
  match op, d.phase, answer with
  | .start _, _, _ => .starting
  | .turn, .starting, .reconciled (.ok _) => .sleeping
  | .turn, .starting, .reconciled (.error _) => .stopped
  | .turn, .polling, .reconciled _ => .sleeping
  | .tick _, .sleeping, _ => .polling
  | .shutdown true, .sleeping, _ => .stopped
  | _, phase, _ => phase

def daemonStep (d : Daemon) (op : DaemonOp) : Daemon × Answer :=
  match d.request op with
  | some request =>
    let (system, answer) := step d.system request
    (⟨system, d.next op answer⟩, answer)
  | none => (⟨d.system, d.next op .lost⟩, .lost)

def daemon : Machine Daemon DaemonOp Answer := ⟨daemonStep⟩

theorem daemon_step_system (d : Daemon) (op : DaemonOp) : (∃ request, d.request op = some request ∧
        (daemon.step d op).1.system = (step d.system request).1) ∨
      (daemon.step d op).1.system = d.system := by
  simp only [daemon, daemonStep]
  cases h : d.request op with
  | none => exact .inr rfl
  | some request => exact .inl ⟨request, rfl, rfl⟩

/-! ### Rows that can be reported -/

structure Reportable (r : JobRow) : Prop where
  accountId : r.accountId.all (validateIdentifier · maxIdentifierBytes) = true
  generation : 0 ≤ r.generation
  attempt : 0 ≤ r.attempt

/-- A job that a reconciliation has read as running is never queued again. -/
structure Live (s : System) : Prop where
  sound : Sound s
  rows : ∀ r ∈ s.db.jobs, Reportable r
  attempts : ∀ process, ∀ call ∈ s.calls process, ∀ q ∈ call.rows, 0 ≤ q.attempt
  started : ∀ process, ∀ call ∈ s.calls process, ∀ q ∈ call.rows, ∀ r ∈ s.db.jobs,
    r.jobId = q.jobId → r.state ≠ .queued

section Transactions

variable {db db' : Db} {now : DateTime} {jobId : String} {expected : JobState → Bool}
  {f : JobRow → JobRow} {event : JobRow → EventInput} {moved : Bool}

theorem reportable_move (hrows : ∀ r ∈ db.jobs, Reportable r)
    (h : db.move jobId expected f event = .ok (moved, db'))
    (hf : ∀ q, Reportable q → Reportable (f q)) : ∀ r ∈ db'.jobs, Reportable r := by
  unfold Db.move at h
  split at h
  · cases h
    exact hrows
  obtain ⟨db'', hinsert, hpair⟩ := map_eq_ok.1 h
  cases hpair
  rw [insertEvent_eq_ok hinsert]
  intro r hr
  obtain ⟨q, hq, ⟨-, rfl⟩ | ⟨-, rfl⟩⟩ := Table.mem_update.1 hr
  · exact hf q (hrows q hq)
  · exact hrows _ hq

theorem reportable_transitionJob {from' next : JobState} {diagnostic : Option String}
    {kind : EventKind} (hrows : ∀ r ∈ db.jobs, Reportable r)
    (h : db.transitionJob jobId from' next diagnostic kind now = .ok (moved, db')) :
    ∀ r ∈ db'.jobs, Reportable r := by
  unfold Db.transitionJob at h
  split at h
  · cases h
  exact reportable_move hrows h fun q hq => ⟨hq.accountId, hq.generation, hq.attempt⟩

theorem reportable_cancelJob (hrows : ∀ r ∈ db.jobs, Reportable r)
    (h : db.cancelJob jobId now = .ok (moved, db')) : ∀ r ∈ db'.jobs, Reportable r := by
  unfold Db.cancelJob at h
  split at h
  · cases h
  exact reportable_move hrows h fun q hq => ⟨hq.accountId, hq.generation, hq.attempt⟩

theorem Interrupted.settlement_nextAttempt {q : Interrupted} {t : Settlement}
    (h : q.settlement now = some t) (hq : 0 ≤ q.attempt) : 0 ≤ t.nextAttempt := by
  unfold Interrupted.settlement at h
  split at h
  · obtain ⟨runAfter, -, rfl⟩ := Option.map_eq_some_iff.1 h
    exact (saturatingAdd_one_pos hq).le
  · cases h
    exact hq

theorem reportable_reconcileRow {q : Interrupted} (hrows : ∀ r ∈ db.jobs, Reportable r)
    (hq : 0 ≤ q.attempt) (h : db.reconcileRow q now = .ok (moved, db')) :
    ∀ r ∈ db'.jobs, Reportable r := by
  unfold Db.reconcileRow at h
  split at h
  · cases h
  rename_i t ht
  exact reportable_move hrows h fun q' hq' =>
    ⟨hq'.accountId, hq'.generation, Interrupted.settlement_nextAttempt ht hq⟩

theorem reportable_queueJob {spec : JobSpec} {record : JobRecord}
    (hrows : ∀ r ∈ db.jobs, Reportable r) (h : db.queueJob spec now = .ok (record, db')) :
    ∀ r ∈ db'.jobs, Reportable r := by
  obtain ⟨hvalid, -, input, -, hinsert⟩ := queueJob_eq_ok h
  rw [insertEvent_eq_ok hinsert]
  intro r hr
  rcases List.mem_append.1 hr with hr | hr
  · exact hrows r hr
  · rw [List.mem_singleton.1 hr]
    simp only [validateJobSpec, Bool.and_eq_true] at hvalid
    exact ⟨hvalid.2, le_refl 0, le_refl 0⟩

theorem move_of_mem (hids : Table.KeyUnique JobRow.jobId db.jobs) {r : JobRow} (hr : r ∈ db.jobs)
    (hexp : expected r.state = true) (hvalid : validateEventInput (event r) = true) :
    ∃ db', db.move r.jobId expected f event = .ok (true, db') := by
  unfold Db.move
  cases hfind : db.jobs.find? (fun q => q.jobId = r.jobId && expected q.state) with
  | none =>
    have hnone := List.find?_eq_none.1 hfind r hr
    simp [hexp] at hnone
  | some q =>
    have hq : q.jobId = r.jobId ∧ expected q.state = true := by
      simpa using List.find?_some hfind
    obtain rfl := hids.eq_of_mem (List.mem_of_find?_eq_some hfind) hr hq.1
    simp only [insertEvent, hvalid, if_pos, Except.map]
    exact ⟨_, rfl⟩

theorem EventKind.valid (kind : EventKind) :
    validateIdentifier kind.asStr Expiry.maxEventKindBytes = true := by
  cases kind <;> decide +kernel

theorem transitionJob_of_running (hids : Table.KeyUnique JobRow.jobId db.jobs) {r : JobRow}
    (hr : r ∈ db.jobs) (hstate : r.state = .running) (hrow : Reportable r)
    (hid : validateIdentifier r.jobId maxIdentifierBytes = true) (next : JobState)
    {diagnostic : Option String} (hdiag : diagnostic.all validateDiagnostic = true)
    (kind : EventKind) (now : DateTime) :
    ∃ db', db.transitionJob r.jobId .running next diagnostic kind now = .ok (true, db') := by
  unfold Db.transitionJob
  rw [hid, Bool.not_true, if_neg Bool.false_ne_true]
  refine move_of_mem hids hr (decide_eq_true hstate) ?_
  have hgen : decide (r.generation < 0) = false := decide_eq_false (not_lt.2 hrow.generation)
  have hatt : decide (r.attempt < 0) = false := decide_eq_false (not_lt.2 hrow.attempt)
  have hdiag' :
      diagnostic.all (validateIdentifier · Expiry.maxDiagnosticBytes) = true := hdiag
  simp [validateEventInput, EventKind.valid kind, hrow.accountId, hid, hgen, hatt,
    hdiag']

end Transactions

section Steps

variable {s : System} {op : Op} {id : String}

theorem reportable_step (hs : Live s) (op : Op) : ∀ r ∈ (step s op).1.db.jobs, Reportable r := by
  refine step_rule hs.rows (reportable_queueJob hs.rows) (fun _ h => ?_)
    (fun _ _ => reportable_transitionJob hs.rows) (reportable_cancelJob hs.rows) fun hcall hq => ?_
  · rw [insertEvent_eq_ok h]
    exact hs.rows
  · exact reportable_reconcileRow hs.rows (hs.attempts _ _ hcall _ hq)

theorem Change.queued_before {db db' : Db} (h : Change op db db')
    (hids : Table.KeyUnique JobRow.jobId db.jobs) {r : JobRow} (hr : r ∈ db'.jobs)
    (hstate : r.state = .queued) : r ∈ db.jobs ∨ ∀ q ∈ db.jobs, q.jobId ≠ r.jobId := by
  cases h with
  | same => exact .inl hr
  | appended => exact .inl hr
  | queued r' e new =>
    rcases List.mem_append.1 hr with hr | hr
    · exact .inl hr
    · rw [List.mem_singleton.1 hr]
      exact .inr new
  | moved r' p f e mem selected only hjobId _ edge =>
    obtain ⟨q, hq, ⟨hp, rfl⟩ | ⟨-, rfl⟩⟩ := Table.mem_update.1 hr
    · -- no transition leads to `queued`
      obtain rfl := hids.eq_of_mem hq mem (only q hq hp)
      rw [hstate] at edge
      generalize q.state = before at edge
      cases edge
    · exact .inl hq

theorem Live.step (hs : Live s) (op : Op) : Live (step s op).1 where
  sound := hs.sound.step op
  rows := reportable_step hs op
  attempts := by
    intro process call hcall q hq
    rcases rows_step hcall hq with hq | ⟨call', hcall', hq⟩
    · obtain ⟨r, hr, rfl⟩ := List.mem_map.1 hq
      rw [Listing.mem_orderBy, List.mem_filter] at hr
      exact (hs.rows r hr.1).attempt
    · exact hs.attempts process call' hcall' q hq
  started := by
    intro process call hcall q hq r hr hid hstate
    rcases (step_change hs.sound op).queued_before hs.sound.ids hr hstate with hold | hnew
    · rcases rows_step hcall hq with hread | ⟨call', hcall', hq⟩
      · obtain ⟨r', hr', rfl⟩ := List.mem_map.1 hread
        rw [Listing.mem_orderBy, List.mem_filter] at hr'
        obtain rfl := hs.sound.ids.eq_of_mem hold hr'.1 hid
        simp [hstate] at hr'
      · exact hs.started process call' hcall' q hq r hold hid hstate
    · -- the job that was read is in the table, so its id is not new
      have hread : ∃ r ∈ s.db.jobs, r.jobId = q.jobId ∧ r.generation = q.generation := by
        rcases rows_step hcall hq with hread | ⟨call', hcall', hq⟩
        · exact mem_interrupted hread
        · exact hs.sound.calls process call' hcall' q hq
      obtain ⟨r', hr', hid', -⟩ := hread
      exact hnew r' hr' (hid'.trans hid.symm)

theorem live_init : Live System.init where
  sound := sound_run []
  rows := List.forall_mem_nil _
  attempts := fun _ _ hcall => absurd hcall (by simp [System.init])
  started := fun _ _ hcall => absurd hcall (by simp [System.init])

end Steps

structure AtWork (id : String) (s : System) : Prop where
  runs : ∃ r ∈ s.db.jobs, r.jobId = id ∧ r.state = .running
  unread : ∀ process, ∀ call ∈ s.calls process, ∀ q ∈ call.rows, q.jobId ≠ id

def Op.Reads : Op → Prop
  | .reconcile .. => True
  | _ => False

section AtWork

variable {s : System} {op : Op} {id : String} {db db' : Db} {now : DateTime}

theorem runs_move {jobId : String} {expected : JobState → Bool} {f : JobRow → JobRow}
    {event : JobRow → EventInput} {moved : Bool}
    (hruns : ∃ r ∈ db.jobs, r.jobId = id ∧ r.state = .running)
    (hother : jobId ≠ id ∨ expected .running = false)
    (h : db.move jobId expected f event = .ok (moved, db')) :
    ∃ r ∈ db'.jobs, r.jobId = id ∧ r.state = .running := by
  obtain ⟨r, hr, hid, hstate⟩ := hruns
  unfold Db.move at h
  split at h
  · cases h
    exact ⟨r, hr, hid, hstate⟩
  obtain ⟨db'', hinsert, hpair⟩ := map_eq_ok.1 h
  cases hpair
  rw [insertEvent_eq_ok hinsert]
  refine ⟨r, Table.mem_update_of_not hr ?_, hid, hstate⟩
  rcases hother with hne | hexp
  · have hne' : r.jobId ≠ jobId := fun h => hne (h.symm.trans hid)
    simp [hne']
  · simp [hstate, hexp]

theorem AtWork.runs_step (h : AtWork id s) (hop : ¬ op.Finishes id) :
    ∃ r ∈ (step s op).1.db.jobs, r.jobId = id ∧ r.state = .running := by
  have hruns := h.runs
  refine step_rule (P := fun db => ∃ r ∈ db.jobs, r.jobId = id ∧ r.state = .running) hruns
    (fun hqueue => ?_) (fun _ hinsert => ?_) (fun _ hfin htran => ?_)
    (fun hcancel => ?_) fun hcall hq hrow => ?_
  · obtain ⟨-, -, input, -, hinsert⟩ := queueJob_eq_ok hqueue
    rw [insertEvent_eq_ok hinsert]
    obtain ⟨r, hr, hrow⟩ := hruns
    exact ⟨r, List.mem_append_left _ hr, hrow⟩
  · rw [insertEvent_eq_ok hinsert]
    exact hruns
  · unfold Db.transitionJob at htran
    split at htran
    · cases htran
    rename_i jobId expected next diagnostic kind now moved db' hedge _
    refine runs_move hruns ?_ htran
    by_cases hexp : expected = .running
    · refine .inl fun hid => hop (hid ▸ hfin hexp)
    · exact .inr (decide_eq_false (Ne.symm hexp))
  · unfold Db.cancelJob at hcancel
    split at hcancel
    · cases hcancel
    · exact runs_move hruns (.inr (by decide)) hcancel
  · unfold Db.reconcileRow at hrow
    split at hrow
    · cases hrow
    · exact runs_move hruns (.inl (h.unread _ _ hcall _ hq)) hrow

theorem calls_of_not_reads (hop : ¬ op.Reads) {process : ℕ} {call : Call}
    (hcall : call ∈ (step s op).1.calls process) :
    ∃ call' ∈ s.calls process, ∀ q ∈ call.rows, q ∈ call'.rows := by
  obtain ⟨process', c, hcalls, hkept | ⟨now, rfl, -⟩⟩ := step_calls_cases s op
  · rw [hcalls] at hcall
    by_cases hproc : process = process'
    · subst hproc
      rw [Function.update_self] at hcall
      exact hkept call hcall
    · rw [Function.update_of_ne hproc] at hcall
      exact ⟨call, hcall, fun _ hq => hq⟩
  · exact absurd trivial hop

theorem AtWork.step (h : AtWork id s) (hreads : ¬ op.Reads) (hfin : ¬ op.Finishes id) :
    AtWork id (step s op).1 where
  runs := h.runs_step hfin
  unread := by
    intro process call hcall q hq
    obtain ⟨call', hcall', hrows⟩ := calls_of_not_reads hreads hcall
    exact h.unread process call' hcall' q (hrows q hq)

end AtWork

/-! ### Runs of the daemon -/

def DaemonOp.Reads : DaemonOp → Prop
  | .start _ | .tick _ => True
  | .store op => op.Reads
  | .turn | .shutdown _ => False

def DaemonOp.Finishes (id : String) : DaemonOp → Prop
  | .store op => op.Finishes id
  | _ => False

theorem Op.byOthers_reads {op : Op} : op.byOthers.Reads ↔ op.Reads := by cases op <;> rfl

theorem Op.byOthers_finishes {op : Op} {id : String} :
    op.byOthers.Finishes id ↔ op.Finishes id := by cases op <;> rfl

section Runs

variable {d : Daemon} {id : String}

theorem live_daemon_step (d : Daemon) (op : DaemonOp) (h : Live d.system) :
    Live (daemon.step d op).1.system := by
  rcases daemon_step_system d op with ⟨request, -, hsystem⟩ | hsystem <;> rw [hsystem]
  · exact h.step request
  · exact h

theorem live_daemon_run (ops : List DaemonOp) : Live (daemon.run Daemon.init ops).system :=
  daemon.invariant_run live_daemon_step ops live_init

theorem atWork_daemon_step {op : DaemonOp} (hreads : ¬ op.Reads) (hfin : ¬ op.Finishes id)
    (h : AtWork id d.system) : AtWork id (daemon.step d op).1.system := by
  rcases daemon_step_system d op with ⟨request, hreq, hsystem⟩ | hsystem <;> rw [hsystem]
  · cases op with
    | start now => exact absurd trivial hreads
    | tick now => exact absurd trivial hreads
    | shutdown stop => cases hreq
    | turn =>
      obtain rfl : Op.reconcileNext 0 = request := by
        simp only [Daemon.request] at hreq
        split at hreq <;> cases hreq
        rfl
      exact h.step (fun hreads => hreads) fun hfin => hfin
    | store op =>
      cases hreq
      exact h.step (mt Op.byOthers_reads.1 hreads) (mt Op.byOthers_finishes.1 hfin)
  · exact h

theorem atWork_of_started {s : System} (hs : Live s) {now : DateTime}
    (h : (step s (.markJobRunning id now)).2 = .moved (.ok true)) :
    validateIdentifier id maxIdentifierBytes = true ∧
      AtWork id (step s (.markJobRunning id now)).1 := by
  simp only [step] at h ⊢
  cases hres : s.db.markJobRunning id now with
  | error e =>
    rw [hres] at h
    cases h
  | ok result =>
    obtain ⟨moved, db'⟩ := result
    rw [hres] at h
    cases h
    unfold Db.markJobRunning Db.transitionJob at hres
    split at hres
    · cases hres
    rename_i hvalid
    unfold Db.move at hres
    split at hres
    · cases hres
    rename_i r hr
    obtain ⟨db'', hinsert, hpair⟩ := map_eq_ok.1 hres
    cases hpair
    have hmem := List.mem_of_find?_eq_some hr
    have hsel := List.find?_some hr
    have hrow : r.jobId = id ∧ r.state = .queued := by simpa using hsel
    refine ⟨by simpa using hvalid, ?_, fun process call hcall q hq hid => ?_⟩
    · simp only [System.commit]
      rw [insertEvent_eq_ok hinsert]
      exact ⟨_, Table.mem_update_of_mem hmem hsel, hrow.1, rfl⟩
    · exact hs.started process call hcall q hq r hmem (hrow.1.trans hid.symm) hrow.2

theorem finished_of_atWork {s : System} (hs : Live s) (h : AtWork id s)
    (hid : validateIdentifier id maxIdentifierBytes = true) :
    (∀ now, (step s (.markJobSucceeded id now)).2 = .moved (.ok true)) ∧
      ∀ code now, validateDiagnostic code = true →
        (step s (.markJobFailed id code now)).2 = .moved (.ok true) := by
  obtain ⟨r, hr, rfl, hstate⟩ := h.runs
  refine ⟨fun now => ?_, fun code now hcode => ?_⟩
  · have hnone : (none : Option String).all validateDiagnostic = true := rfl
    obtain ⟨db', hdb'⟩ := transitionJob_of_running hs.sound.ids hr hstate (hs.rows r hr) hid
      .succeeded hnone .jobSucceeded now
    simp only [step, Db.markJobSucceeded, hdb', System.commit]
  · have hsome : (some code).all validateDiagnostic = true := hcode
    obtain ⟨db', hdb'⟩ := transitionJob_of_running hs.sound.ids hr hstate (hs.rows r hr) hid
      .failed hsome .jobFailed now
    simp only [step, Db.markJobFailed, hcode, hdb', System.commit]
    rfl

end Runs

/-- **A job runs until its end is reported**, if nobody looks for running jobs meanwhile. -/
theorem running_until_finished (before ops : List DaemonOp) (id : String) (now : DateTime)
    (hstart : (daemon.step (daemon.run Daemon.init before) (.store (.markJobRunning id now))).2 =
      .moved (.ok true))
    (hreads : ∀ op ∈ ops, ¬ op.Reads) (hfinishes : ∀ op ∈ ops, ¬ op.Finishes id) :
    let started := (daemon.step (daemon.run Daemon.init before) (.store (.markJobRunning id now))).1
    let d := daemon.run started ops
    (∃ r ∈ d.system.db.jobs, r.jobId = id ∧ r.state = .running) ∧
      (∀ now, (daemon.step d (.store (.markJobSucceeded id now))).2 = .moved (.ok true)) ∧
      ∀ code now, validateDiagnostic code = true →
        (daemon.step d (.store (.markJobFailed id code now))).2 = .moved (.ok true) := by
  intro started d
  have hbefore := live_daemon_run before
  obtain ⟨hid, hwork⟩ := atWork_of_started hbefore hstart
  have hlive : Live started.system := live_daemon_step _ (.store (.markJobRunning id now)) hbefore
  have hrun : Live d.system ∧ AtWork id d.system := by
    refine daemon.invariant_run_of_forall (I := fun d => Live d.system ∧ AtWork id d.system)
      (P := fun op => ¬ op.Reads ∧ ¬ op.Finishes id) ?_ (fun op hop => ⟨hreads op hop, hfinishes op hop⟩)
      ⟨hlive, hwork⟩
    rintro d op ⟨hreads, hfinishes⟩ ⟨hlive, hwork⟩
    exact ⟨live_daemon_step d op hlive, atWork_daemon_step hreads hfinishes hwork⟩
  exact ⟨hrun.2.runs, finished_of_atWork hrun.1 hrun.2 hid⟩

def firstJob : List DaemonOp :=
  [.start noon, .turn, .store (.queueJob ⟨"job", "quota_refresh", "key", none, noon⟩ noon)]

theorem running_until_success :
    (daemon.step (daemon.run Daemon.init firstJob) (.store (.markJobRunning "job" noon))).2 =
        .moved (.ok true) ∧ (daemon.step (daemon.run (daemon.step (daemon.run Daemon.init firstJob)
          (.store (.markJobRunning "job" noon))).1 [.shutdown false, .store (.cancelJob "job" noon)])
        (.store (.markJobSucceeded "job" noon))).2 = .moved (.ok true) := by
  have hstart : (daemon.step (daemon.run Daemon.init firstJob)
      (.store (.markJobRunning "job" noon))).2 = .moved (.ok true) := by rfl
  refine ⟨hstart, (running_until_finished firstJob _ "job" noon hstart ?_ ?_).2.1 noon⟩
  · simp [DaemonOp.Reads, Op.Reads]
  · simp [DaemonOp.Finishes, Op.Finishes]

/-- **A tick takes a job that runs for an interrupted one**, and the report of its success returns
false. -/
theorem tick_interrupts_job :
    (daemon.run Daemon.init firstJob).phase = .sleeping ∧
      let started := daemon.step (daemon.run Daemon.init firstJob) (.store (.markJobRunning "job" noon))
      let d := daemon.run started.1 [.tick noon, .turn, .turn]
      started.2 = .moved (.ok true) ∧ waitingJob ∈ d.system.db.jobs ∧ d.phase = .sleeping ∧
        (daemon.step d (.store (.markJobSucceeded "job" noon))).2 = .moved (.ok false) :=
  ⟨by decide +kernel, by rfl, by decide +kernel, by decide +kernel, by rfl⟩

end Jobs

end CodexMarathon
