/-
**What the ledger reports: `status`.**

`status` reads the settings, a page of at most 1000 jobs and the time of the next attempt, with
three separate queries.  This module relates them to each other and to the filter of `claim`.
-/

import CodexMarathon.Expiry.Window
import CodexMarathon.Lib.Listing
import Mathlib.Data.Prod.Lex
import Mathlib.Order.Bounds.Basic

namespace CodexMarathon

open Result Listing

namespace Expiry

/-! ### The report -/

inductive ReportedState
  | stored (state : JobState)
  | expired
  | paused
  | unavailable
deriving DecidableEq

structure ExpiryJobStatus where
  jobId : String
  accountId : String
  creditId : String
  state : ReportedState
  diagnosticCode : Option String
  expiresAt : DateTime
  nextAttemptAt : Option DateTime
  attempt : ℤ
deriving DecidableEq

structure ExpiryStatus where
  codexHome : Option String
  enabled : Bool
  effectiveEnabled : Bool
  executorAvailable : Bool
  jobs : List ExpiryJobStatus
  jobsTruncated : Bool
  nextAttemptAt : Option DateTime
deriving DecidableEq

def timestamp (ms : ℤ) : Except AccountdError DateTime :=
  Result.okOr (DateTime.fromTimestampMillis ms) .corruptState

/-- `CASE WHEN state='running' THEN COALESCE(lease_until_ms,?) ELSE run_after_ms END`. -/
def JobRow.nextAttemptMs (ms : ℤ) (r : JobRow) : ℤ :=
  if r.state = .running then r.leaseUntilMs.getD ms else r.runAfterMs

/-- `CASE WHEN state='succeeded' THEN 3 WHEN expires_ms<=? THEN 2 WHEN available=1 THEN 0 ELSE 1 END`. -/
def JobRow.statusClass (ms : ℤ) (r : JobRow) : ℕ :=
  if r.state = .succeeded then 3 else if r.expiresMs ≤ ms then 2 else if r.available then 0 else 1

/-- The `ORDER BY` of the page: class, next attempt, expiration, id. -/
def JobRow.statusKey (ms : ℤ) (r : JobRow) : ℕ ×ₗ ℤ ×ₗ ℤ ×ₗ String :=
  toLex (r.statusClass ms, toLex (r.nextAttemptMs ms, toLex (r.expiresMs, r.jobId)))

def JobRow.reportedState (effective : Bool) (ms : ℤ) (r : JobRow) : ReportedState :=
  if r.state = .succeeded then .stored r.state
  else if r.expiresMs ≤ ms then .expired
  else if !effective then .paused
  else if !r.available then .unavailable
  else .stored r.state

def JobState.awaits : JobState → Bool
  | .queued | .retryWait | .running => true
  | .succeeded | .failed | .cancelled => false

/-- `next_attempt_at` of one job; `running` is looked up in the reported state. -/
def JobRow.reportedNext (effective : Bool) (ms : ℤ) (r : JobRow) :
    Except AccountdError (Option DateTime) :=
  match r.reportedState effective ms with
  | .stored state =>
    if state.awaits then
      (timestamp (if state = .running then r.leaseUntilMs.getD ms else r.runAfterMs)).map some
    else .ok none
  | .expired | .paused | .unavailable => .ok none

def JobRow.toStatus (effective : Bool) (ms : ℤ) (r : JobRow) :
    Except AccountdError ExpiryJobStatus := do
  let nextAttemptAt ← r.reportedNext effective ms
  let expiresAt ← timestamp r.expiresMs
  .ok
    { jobId := r.jobId
      accountId := r.accountId
      creditId := r.creditId
      state := r.reportedState effective ms
      diagnosticCode := r.diagnosticCode
      expiresAt := expiresAt
      nextAttemptAt := nextAttemptAt
      attempt := r.attempt }

/-- `SELECT MIN(…) … WHERE state IN ('queued','retry_wait','running') AND available=1 AND
expires_ms>?`. -/
def Db.nextAttemptMs (db : Db) (ms : ℤ) : Option ℤ :=
  ((db.jobs.filter fun r => r.state.awaits && r.available && ms < r.expiresMs).map
    (JobRow.nextAttemptMs ms)).min?

def Db.nextAttemptAt (db : Db) (effective : Bool) (ms : ℤ) :
    Except AccountdError (Option DateTime) :=
  if effective then
    match db.nextAttemptMs ms with
    | none => .ok none
    | some next => (timestamp next).map some
  else .ok none

def Db.status (db : Db) (master : Bool) (codexHome : Option String) (now : DateTime) :
    Except AccountdError ExpiryStatus :=
  match db.settings with
  | none => .error .persistence
  | some s => do
      let ms := now.timestampMillis
      let rows := (Listing.orderBy (JobRow.statusKey ms) db.jobs).take 1001
      let jobs ← (rows.take 1000).mapM (JobRow.toStatus (s.enabled && master) ms)
      let nextAttemptAt ← db.nextAttemptAt (s.enabled && master) ms
      .ok
        { codexHome := codexHome
          enabled := s.enabled
          effectiveEnabled := s.enabled && master
          executorAvailable := s.heartbeatMs.any (fun t => t ≤ ms && ms - t ≤ 60000)
          jobs := jobs
          jobsTruncated := 1000 < rows.length
          nextAttemptAt := nextAttemptAt }

def Pending (l : Ledger) : Prop := ∀ r ∈ l.db.jobs, r.state = .succeeded ∨ r.state.awaits = true

section Pending

variable {U : UuidSource} {l l' : Ledger}

theorem Pending.quiet (h : Pending l) (hq : Quiet U l l') : Pending l' := by
  unfold Pending
  cases hq with
  | idle hjobs =>
    rw [hjobs]
    exact h
  | redeem _ _ _ _ _ _ _ hjobs =>
    rw [hjobs]
    exact Table.forall_update h fun _ _ _ => .inl rfl
  | insert _ _ _ _ _ hjobs =>
    rw [hjobs]
    refine List.forall_mem_append.2 ⟨h, fun r hr => ?_⟩
    rw [List.mem_singleton.1 hr]
    exact .inr rfl
  | refresh _ _ _ hjobs =>
    rw [hjobs]
    exact Table.forall_update h fun _ _ hr => hr
  | withdraw _ _ hjobs =>
    rw [hjobs]
    exact Table.forall_update h fun _ _ hr => hr

theorem Pending.quiets (h : Pending l) (hq : Relation.ReflTransGen (Quiet U) l l') : Pending l' := by
  induction hq with
  | refl => exact h
  | tail _ hlast ih => exact ih.quiet hlast

theorem Pending.effect (h : Pending l) {op : Op} {a : Answer} (he : Effect U l op l' a) :
    Pending l' := by
  cases he with
  | quiet _ _ _ steps => exact h.quiets steps
  | claimed _ _ _ _ _ _ _ _ _ _ _ hjobs =>
    unfold Pending
    rw [hjobs]
    exact Table.forall_update h fun _ _ _ => .inr rfl
  | settled c _ _ _ _ _ _ _ _ _ _ hjobs =>
    unfold Pending
    rw [hjobs]
    refine Table.forall_update h fun r _ _ => ?_
    cases hsuc : c.outcome.success <;> simp [JobRow.settle, hsuc, JobState.awaits]
  | repeated => exact h

theorem pending_run (U : UuidSource) (ops : List Op) :
    Pending ((machine U).run Ledger.init ops) := by
  refine (machine U).invariant_run (I := Pending) (fun m op hm => hm.effect (step_effect U m op)) ops ?_
  exact List.forall_mem_nil _

end Pending

structure JobRow.Live (ms : ℤ) (r : JobRow) : Prop where
  pending : r.state ≠ .succeeded
  available : r.available = true
  unexpired : ms < r.expiresMs

theorem JobRow.live_iff {ms : ℤ} {r : JobRow} :
    r.Live ms ↔ r.state ≠ .succeeded ∧ r.available = true ∧ ms < r.expiresMs :=
  ⟨fun h => ⟨h.pending, h.available, h.unexpired⟩, fun h => ⟨h.1, h.2.1, h.2.2⟩⟩

instance (ms : ℤ) : DecidablePred (JobRow.Live ms) := fun _ => decidable_of_iff _ JobRow.live_iff.symm

section Live

variable {ms : ℤ} {a b r : JobRow}

theorem JobRow.statusClass_eq_zero : r.statusClass ms = 0 ↔ r.Live ms := by
  rw [JobRow.live_iff, JobRow.statusClass]
  by_cases hstate : r.state = .succeeded
  · simp [hstate]
  by_cases hexp : r.expiresMs ≤ ms
  · simp [hstate, hexp]
  · cases havail : r.available <;> simp [hstate, hexp, not_le.1 hexp]

theorem JobRow.Live.of_key_le (hle : a.statusKey ms ≤ b.statusKey ms) (hb : b.Live ms) :
    a.Live ms := by
  rw [← JobRow.statusClass_eq_zero] at hb ⊢
  have hclass : a.statusClass ms ≤ b.statusClass ms := by
    rcases Prod.Lex.le_iff.1 hle with hlt | ⟨heq, -⟩
    · exact hlt.le
    · exact heq.le
  omega

theorem JobRow.Live.nextAttempt_le (ha : a.Live ms) (hb : b.Live ms)
    (hle : a.statusKey ms ≤ b.statusKey ms) : a.nextAttemptMs ms ≤ b.nextAttemptMs ms := by
  rw [← JobRow.statusClass_eq_zero] at ha hb
  rcases Prod.Lex.le_iff.1 hle with hlt | ⟨-, hrest⟩
  · change a.statusClass ms < b.statusClass ms at hlt
    omega
  · rcases Prod.Lex.le_iff.1 hrest with hlt | ⟨heq, -⟩
    · exact hlt.le
    · exact heq.le

theorem JobRow.Live.toStatus (h : r.Live ms) (hawaits : r.state.awaits = true)
    {j : ExpiryJobStatus} (hj : r.toStatus true ms = .ok j) : ∃ next, j.nextAttemptAt = some next ∧
      DateTime.fromTimestampMillis (r.nextAttemptMs ms) = some next := by
  have hrep : r.reportedState true ms = .stored r.state := by
    simp [JobRow.reportedState, h.pending, not_le.2 h.unexpired, h.available]
  obtain ⟨nextAttemptAt, hnext, hj⟩ := bind_eq_ok.1 hj
  obtain ⟨expiresAt, -, hj⟩ := bind_eq_ok.1 hj
  cases hj
  rw [JobRow.reportedNext, hrep] at hnext
  simp only [hawaits, if_true] at hnext
  obtain ⟨next, htime, rfl⟩ := map_eq_ok.1 hnext
  exact ⟨next, rfl, okOr_eq_ok.1 htime⟩

theorem Db.due_live {db : Db} (h : db.due ms r = true) : r.Live ms ∧ r.nextAttemptMs ms ≤ ms := by
  have hstate := Db.due_state h
  unfold Db.due at h
  split at h
  · cases h
  simp only [Bool.and_eq_true, decide_eq_true_eq, Bool.or_eq_true] at h
  obtain ⟨⟨⟨⟨⟨havail, -⟩, hexp⟩, hrun⟩, -⟩, hlease⟩ := h
  refine ⟨⟨hstate, havail, hexp⟩, ?_⟩
  unfold JobRow.nextAttemptMs
  split
  · rename_i hrunn
    rcases hlease with hnot | hover
    · exact absurd hrunn hnot
    · cases huntil : r.leaseUntilMs with
      | none => exact le_rfl
      | some u => simpa [huntil] using hover
  · exact hrun

end Live

/-! ### The next attempt and the page -/

section Report

variable {db : Db} {ms : ℤ} {r : JobRow}

def Db.liveAttempts (db : Db) (ms : ℤ) : Set ℤ :=
  {t | ∃ r ∈ db.jobs, r.Live ms ∧ r.nextAttemptMs ms = t}

theorem Db.nextAttemptMs_isLeast
    (hpen : ∀ r ∈ db.jobs, r.state = .succeeded ∨ r.state.awaits = true) {next : ℤ} :
    db.nextAttemptMs ms = some next ↔ IsLeast (db.liveAttempts ms) next := by
  have hlive : ∀ r ∈ db.jobs,
      (r.state.awaits && r.available && decide (ms < r.expiresMs)) = true ↔ r.Live ms := by
    intro r hr
    have hstate : r.state.awaits = true ↔ r.state ≠ .succeeded := by
      refine ⟨fun hawaits hdone => ?_, fun hopen => (hpen r hr).resolve_left hopen⟩
      simp [hdone, JobState.awaits] at hawaits
    rw [JobRow.live_iff, ← hstate]
    simp [and_assoc]
  have hmem : ∀ t, t ∈ (db.jobs.filter fun r => r.state.awaits && r.available && ms < r.expiresMs).map
      (JobRow.nextAttemptMs ms) ↔ t ∈ db.liveAttempts ms := by
    intro t
    rw [List.mem_map]
    refine exists_congr fun r => ?_
    rw [List.mem_filter, and_assoc]
    exact and_congr_right fun hr => and_congr_left fun _ => hlive r hr
  rw [Db.nextAttemptMs, List.min?_eq_some_iff, IsLeast, mem_lowerBounds, hmem]
  exact and_congr_right fun _ => forall_congr' fun t => by rw [hmem]

def Db.page (db : Db) (ms : ℤ) : List JobRow :=
  (Listing.orderBy (JobRow.statusKey ms) db.jobs).take 1000

theorem Db.status_eq_ok {master : Bool} {codexHome : Option String} {now : DateTime}
    {status : ExpiryStatus} (h : db.status master codexHome now = .ok status) :
    ∃ s, db.settings = some s ∧ status.enabled = s.enabled ∧
      List.Forall₂ (fun r j => r.toStatus (s.enabled && master) now.timestampMillis = .ok j)
        (db.page now.timestampMillis) status.jobs ∧
      db.nextAttemptAt (s.enabled && master) now.timestampMillis = .ok status.nextAttemptAt := by
  unfold Db.status at h
  split at h
  · cases h
  rename_i s hs
  obtain ⟨jobs, hjobs, h⟩ := bind_eq_ok.1 h
  obtain ⟨next, hnext, h⟩ := bind_eq_ok.1 h
  cases h
  rw [List.take_take] at hjobs
  exact ⟨s, hs, rfl, mapM_eq_ok.1 hjobs, hnext⟩

theorem front_page : Listing.Front (JobRow.Live ms) (db.page ms) :=
  (front_orderBy fun _ _ hle hb => hb.of_key_le hle).take 1000

theorem page_subperm : (db.page ms).Subperm db.jobs :=
  (List.take_sublist 1000 _).subperm.trans (perm_orderBy _ _).subperm

theorem live_of_cut_off (hr : r ∈ db.jobs) (hlive : r.Live ms) (hcut : r ∉ db.page ms) :
    ∀ s ∈ db.page ms, s.Live ms := by
  intro s hs
  have hfront : Listing.Front (JobRow.Live ms) (orderBy (JobRow.statusKey ms) db.jobs) :=
    front_orderBy fun _ _ hle hb => hb.of_key_le hle
  refine hfront.of_mem_drop (n := 1000) (r := r) ?_ hlive hs
  rw [← mem_orderBy (JobRow.statusKey ms), ← List.take_append_drop 1000
    (orderBy (JobRow.statusKey ms) db.jobs), List.mem_append] at hr
  exact hr.resolve_left hcut

theorem mem_page_of_live (hcount : db.jobs.countP (JobRow.Live ms) ≤ 1000) (hr : r ∈ db.jobs)
    (hlive : r.Live ms) : r ∈ db.page ms := by
  refine (front_orderBy fun _ _ hle hb => hb.of_key_le hle).mem_take (P := JobRow.Live ms)
    ?_ ((mem_orderBy _).2 hr) hlive
  rw [(perm_orderBy _ _).countP_eq]
  exact hcount

theorem page_cons (hr : r ∈ db.jobs) (hlive : r.Live ms) :
    ∃ a rest, db.page ms = a :: rest ∧ a ∈ db.jobs ∧ a.Live ms ∧
      IsLeast (db.liveAttempts ms) (a.nextAttemptMs ms) := by
  obtain ⟨a, rest, hsorted, ha, hleast⟩ := orderBy_cons (k := JobRow.statusKey ms) hr
  have halive : a.Live ms := hlive.of_key_le (hleast r hr)
  refine ⟨a, rest.take 999, ?_, ha, halive, ⟨a, ha, halive, rfl⟩, ?_⟩
  · rw [Db.page, hsorted]
    rfl
  · rintro _ ⟨b, hb, hblive, rfl⟩
    exact halive.nextAttempt_le hblive (hleast b hb)

/-- **The next attempt** is that of the first job of the page, and the least of all live jobs. -/
theorem status_next (hpen : ∀ r ∈ db.jobs, r.state = .succeeded ∨ r.state.awaits = true)
    {codexHome : Option String} {now : DateTime} {status : ExpiryStatus}
    (h : db.status true codexHome now = .ok status) (henab : status.enabled = true)
    (hr : r ∈ db.jobs) (hlive : r.Live now.timestampMillis) :
    ∃ ms next first, status.nextAttemptAt = some next ∧ status.jobs.head? = some first ∧
      first.nextAttemptAt = some next ∧ DateTime.fromTimestampMillis ms = some next ∧
      IsLeast (db.liveAttempts now.timestampMillis) ms := by
  obtain ⟨s, -, hsame, hjobs, hnext⟩ := Db.status_eq_ok h
  have heff : (s.enabled && true) = true := by rw [← hsame, henab]; rfl
  rw [heff] at hjobs hnext
  -- the first job of the page
  obtain ⟨a, rest, hpage, ha, halive, hleast⟩ := page_cons hr hlive
  rw [hpage] at hjobs
  obtain ⟨first, others, hfirst, -, hlist⟩ := List.forall₂_cons_left_iff.1 hjobs
  obtain ⟨next, hfirstNext, htime⟩ :=
    halive.toStatus ((hpen a ha).resolve_left halive.pending) hfirst
  -- the minimum over the table
  have hmin := (Db.nextAttemptMs_isLeast hpen).2 hleast
  rw [Db.nextAttemptAt, if_pos rfl, hmin] at hnext
  obtain ⟨next', htime', hnext⟩ := map_eq_ok.1 hnext
  obtain rfl : next = next' := by
    rw [timestamp, okOr_eq_ok, htime] at htime'
    exact Option.some.inj htime'
  exact ⟨a.nextAttemptMs now.timestampMillis, next, first, hnext.symm, by rw [hlist]; rfl, hfirstNext,
    htime, hleast⟩

end Report

/-- **What `status` reports**, after every run: the next attempt is the least of all live jobs and
that of the first listed, live jobs are listed first, and a job that a claim would return is not
reported for later, leap seconds apart. -/
theorem status_reports (U : UuidSource) (ops : List Op) (master : Bool) (codexHome : Option String)
    (now : DateTime) (status : ExpiryStatus)
    (h : ((machine U).run Ledger.init ops).db.status master codexHome now = .ok status) :
    let l := (machine U).run Ledger.init ops
    let ms := now.timestampMillis
    (status.enabled = true → master = true → (∃ r ∈ l.db.jobs, r.Live ms) →
      ∃ next first, status.nextAttemptAt = some next ∧ status.jobs.head? = some first ∧
        first.nextAttemptAt = some next ∧
        IsLeast {t | ∃ r ∈ l.db.jobs, r.Live ms ∧ r.nextAttemptMs ms = t} next.timestampMillis) ∧
    (∃ shown : List JobRow, shown.Subperm l.db.jobs ∧
      List.Forall₂ (fun r j => r.toStatus (status.enabled && master) ms = .ok j) shown status.jobs ∧
      shown.Pairwise (fun a b => b.Live ms → a.Live ms) ∧
      (∀ r ∈ l.db.jobs, r.Live ms → r ∉ shown → ∀ s ∈ shown, s.Live ms) ∧
      (l.db.jobs.countP (JobRow.Live ms) ≤ 1000 → ∀ r ∈ l.db.jobs, r.Live ms → r ∈ shown)) ∧
    ∀ eligible job, ((machine U).step l (.claim eligible master now)).2 = .claimed (.ok (some job)) →
      ∃ next, status.nextAttemptAt = some next ∧ next.timestampMillis ≤ ms ∧
        (now.nanos < 1000000000 → ¬ now < next) := by
  intro l ms
  have hpen := pending_run U ops
  refine ⟨?_, ?_, ?_⟩
  · rintro henab rfl ⟨r, hr, hlive⟩
    obtain ⟨t, next, first, hnext, hhead, hfirst, htime, hleast⟩ :=
      status_next hpen h henab hr hlive
    refine ⟨next, first, hnext, hhead, hfirst, ?_⟩
    rw [DateTime.timestampMillis_fromTimestampMillis htime]
    exact hleast
  · obtain ⟨s, -, hsame, hjobs, -⟩ := Db.status_eq_ok h
    rw [← hsame] at hjobs
    exact ⟨l.db.page ms, page_subperm, hjobs, front_page, fun r => live_of_cut_off,
      fun hcount r => mem_page_of_live hcount⟩
  · intro eligible job hclaim
    obtain ⟨l', r, hclai⟩ := claimed_of_step hclaim
    obtain ⟨hr, hdue⟩ := Db.candidate_mem hclai.candidate
    obtain ⟨hlive, hle⟩ := Db.due_live hdue
    obtain rfl := hclai.master
    obtain ⟨s, hs, hslive⟩ := hclai.settings
    have henab : status.enabled = true := by
      obtain ⟨s', hs', hsame, -⟩ := Db.status_eq_ok h
      obtain rfl := Option.some.inj (hs.symm.trans hs')
      rw [Settings.live, Bool.and_eq_true] at hslive
      exact hsame.trans hslive.1
    obtain ⟨t, next, first, hnext, -, -, htime, hleast⟩ :=
      status_next hpen h henab hr hlive
    have hnextle : t ≤ ms := (hleast.2 ⟨r, hr, hlive, rfl⟩).trans hle
    refine ⟨next, hnext, ?_, DateTime.not_lt_of_fromTimestampMillis htime hnextle⟩
    rw [DateTime.timestampMillis_fromTimestampMillis htime]
    exact hnextle

def sampleStatus : ExpiryStatus where
  codexHome := none
  enabled := true
  effectiveEnabled := true
  executorAvailable := true
  jobs := [⟨"u", "acct", "credit", .stored .queued, none, clockAhead,
    some (.ofSecs 1699999160 (by decide) (by decide)), 0⟩]
  jobsTruncated := false
  nextAttemptAt := some (.ofSecs 1699999160 (by decide) (by decide))

theorem status_reports_sample :
    let l := (machine .binary).run Ledger.init setup
    l.db.status true none clock = .ok sampleStatus ∧
      ((machine .binary).step l claimOp).2 = .claimed (.ok (some (sampleJob "u01" 1))) ∧
      ∃ next, sampleStatus.nextAttemptAt = some next ∧ ¬ clock < next := by
  have hstatus : ((machine .binary).run Ledger.init setup).db.status true none clock =
      .ok sampleStatus := by decide +kernel
  have hclaim : ((machine .binary).step ((machine .binary).run Ledger.init setup) claimOp).2 =
      .claimed (.ok (some (sampleJob "u01" 1))) := by decide +kernel
  obtain ⟨next, hnext, -, hnot⟩ := (status_reports .binary setup true none clock sampleStatus
    hstatus).2.2 ["acct"] (sampleJob "u01" 1) hclaim
  exact ⟨hstatus, hclaim, next, hnext, hnot (by decide)⟩

def leapClock : DateTime := { clock with nanos := 1500000000, nanos_lt := by decide }

/-- **Inside a leap second a claim can return a job whose next attempt is reported for later.** -/
theorem claimed_before_next_attempt :
    let expires : DateTime := ⟨1700000901, 200000000, by decide, by decide, by decide⟩
    let next : DateTime := ⟨1700000001, 200000000, by decide, by decide, by decide⟩
    let l := (machine .binary).run Ledger.init [.reopen, .set true clock, .heartbeat clock,
      .observe ⟨"acct", clock, some [⟨"credit", "available", some expires⟩]⟩ clock]
    ((machine .binary).step l (.claim ["acct"] true leapClock)).2 =
        .claimed (.ok (some ⟨"u", "acct", "credit", "u1", "u01", expires, 1⟩)) ∧
      (l.db.status true none leapClock).map (·.nextAttemptAt) = .ok (some next) ∧
      leapClock < next := by
  decide +kernel

end Expiry

end CodexMarathon
