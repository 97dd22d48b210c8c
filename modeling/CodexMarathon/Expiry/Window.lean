/-
**When a credit is claimed.**

A credit is to be used in the last fifteen minutes before it expires.  A job may run from that time
before the expiration that was observed, until it is claimed for the first time, and from then on
after a delay; an observation that moves the expiration does not move that.
-/

import CodexMarathon.Expiry.Lifecycle

namespace CodexMarathon.Expiry

/-! ### What a claim has checked -/

def leadMs : ℤ := 900000

/-- A reading at `t` is not from the future and at most a minute old. -/
def Fresh (now : DateTime) (t : ℤ) : Prop :=
  now.timestampMillis - 60000 ≤ t ∧ t ≤ now.timestampMillis

theorem recent_iff {now : DateTime} {t : ℤ} : recent now.timestampMillis t = true ↔ Fresh now t := by
  rw [recent, DateTime.saturatingSub_timestampMillis now (by decide) (by decide), Fresh]
  simp [and_comm]

/-- The credit is available, and it, or its account once it was attempted, was observed within the
last minute. -/
structure JobRow.Open (r : JobRow) (l : Ledger) (now : DateTime) : Prop where
  mem : r ∈ l.db.jobs
  available : r.available = true
  observed : (r.attempt = 0 ∧ Fresh now r.observedMs) ∨
    (0 < r.attempt ∧ ∃ t, l.db.observedMs r.accountId = some t ∧ Fresh now t)

structure Admitted (l : Ledger) (eligible : List String) (master : Bool) (now : DateTime)
    (job : ExpiryJob) : Prop where
  master : master = true
  live : ∃ settings t, l.db.settings = some settings ∧ settings.enabled = true ∧
    settings.heartbeatMs = some t ∧ Fresh now t
  eligible : job.accountId ∈ eligible
  row : ∃ r : JobRow, r.Open l now ∧ r.jobId = job.jobId ∧ r.accountId = job.accountId ∧
    r.creditId = job.creditId
  unexpired : now < job.expiresAt

def JobRow.OnTime (r : JobRow) : Prop := r.state ≠ .succeeded → r.expiresMs - leadMs ≤ r.runAfterMs

section Claim

variable {U : UuidSource} {l : Ledger} {eligible : List String} {master : Bool} {now : DateTime}
  {job : ExpiryJob}

theorem Settings.live_iff {s : Settings} : s.live now.timestampMillis = true ↔
      s.enabled = true ∧ ∃ t, s.heartbeatMs = some t ∧ Fresh now t := by
  unfold Settings.live Fresh
  cases s.heartbeatMs with
  | none => simp
  | some t =>
    simp only [Option.any_some, Bool.and_eq_true, decide_eq_true_eq, Option.some.injEq,
      exists_eq_left']
    refine and_congr_right fun _ => ?_
    omega

theorem Db.due_open {r : JobRow} (hr : r ∈ l.db.jobs) (h : l.db.due now.timestampMillis r = true) :
    r.Open l now ∧ now.timestampMillis < r.expiresMs ∧ r.runAfterMs ≤ now.timestampMillis := by
  unfold Db.due at h
  split at h
  · cases h
  rename_i observed hobs
  simp only [Bool.and_eq_true, Bool.or_eq_true, decide_eq_true_eq, recent_iff] at h
  obtain ⟨⟨⟨⟨⟨havail, -⟩, hexp⟩, hrun⟩, hrecent⟩, -⟩ := h
  refine ⟨⟨hr, havail, hrecent.imp_right fun ⟨hatt, hfresh⟩ => ?_⟩, hexp, hrun⟩
  exact ⟨hatt, observed, hobs, hfresh⟩

structure Claimed (U : UuidSource) (l : Ledger) (eligible : List String) (master : Bool)
    (now : DateTime) (job : ExpiryJob) (l' : Ledger) (r : JobRow) : Prop where
  master : master = true
  settings : ∃ s, l.db.settings = some s ∧ s.live now.timestampMillis = true
  candidate : l.db.candidate eligible now.timestampMillis = some r
  job : ∃ expiresAt, DateTime.fromTimestampMillis r.expiresMs = some expiresAt ∧
    job = r.toJob (U.v4 l.drawn) expiresAt
  jobs : l'.db.jobs = Table.update (fun s => s.jobId = r.jobId)
    (JobRow.lease (U.v4 l.drawn) now.timestampMillis) l.db.jobs

theorem Ledger.claim_eq_ok {found : Option ExpiryJob} {l' : Ledger}
    (h : l.claim U eligible master now = .ok (found, l')) : (found = none ∧ l' = l) ∨
      ∃ job r, found = some job ∧ Claimed U l eligible master now job l' r := by
  unfold Ledger.claim at h
  split at h
  · cases h
    exact .inl ⟨rfl, rfl⟩
  rename_i hmaster
  split at h
  · cases h
  rename_i s hs
  split at h
  · cases h
    exact .inl ⟨rfl, rfl⟩
  rename_i hlive
  split at h
  · cases h
    exact .inl ⟨rfl, rfl⟩
  rename_i r hr
  obtain ⟨db, hdb, h⟩ := Result.bind_eq_ok.1 h
  split at h
  · cases h
  rename_i expiresAt hexp
  cases h
  refine .inr ⟨_, r, rfl, by simpa using hmaster, ⟨s, hs, by simpa using hlive⟩, hr,
    ⟨expiresAt, hexp, rfl⟩, ?_⟩
  rw [insertEvent_eq_ok hdb]
  rfl

theorem claimed_of_step (h : ((machine U).step l (.claim eligible master now)).2 =
    .claimed (.ok (some job))) : ∃ l' r, Claimed U l eligible master now job l' r := by
  cases hresult : l.claim U eligible master now with
  | error e =>
    simp only [machine, step, hresult] at h
    cases h
  | ok result =>
    obtain ⟨found, l'⟩ := result
    simp only [machine, step, hresult] at h
    cases h
    obtain ⟨⟨⟩, -⟩ | ⟨_, r, ⟨⟩, hclaim⟩ := Ledger.claim_eq_ok hresult
    exact ⟨l', r, hclaim⟩

theorem Claimed.admitted {l' : Ledger} {r : JobRow}
    (h : Claimed U l eligible master now job l' r) : Admitted l eligible master now job := by
  obtain ⟨s, hs, hlive⟩ := h.settings
  obtain ⟨expiresAt, hexp, rfl⟩ := h.job
  obtain ⟨hmem, hdue⟩ := Db.candidate_mem h.candidate
  obtain ⟨hopen, hms, -⟩ := Db.due_open hmem hdue
  obtain ⟨henab, t, ht, hfresh⟩ := Settings.live_iff.1 hlive
  have helig : r.accountId ∈ eligible := by simpa using List.find?_some h.candidate
  exact ⟨h.master, ⟨s, t, hs, henab, ht, hfresh⟩, helig, ⟨r, hopen, rfl, rfl, rfl⟩,
    DateTime.lt_of_fromTimestampMillis hexp hms⟩

theorem Claimed.lead {l' : Ledger} {r : JobRow} (h : Claimed U l eligible master now job l' r)
    (hr : r.OnTime) : job.expiresAt.timestampMillis - leadMs ≤ now.timestampMillis := by
  obtain ⟨expiresAt, hexp, rfl⟩ := h.job
  obtain ⟨hmem, hdue⟩ := Db.candidate_mem h.candidate
  obtain ⟨-, -, hrun⟩ := Db.due_open hmem hdue
  change expiresAt.timestampMillis - leadMs ≤ _
  rw [DateTime.timestampMillis_fromTimestampMillis hexp]
  exact (hr (Db.due_state hdue)).trans hrun

end Claim

/-! ### Operations that keep the rows on time -/

def Fits (accountId : String) (l : Ledger) (credit : ExpiryCredit) : Prop :=
  ¬ credit.spent → ∀ expires ∈ credit.expiresAt, ∀ r ∈ l.db.jobs, r.accountId = accountId →
    r.creditId = credit.creditId → r.attempt ≠ 0 → r.state ≠ .succeeded →
    expires.timestampMillis - leadMs ≤ r.runAfterMs

instance (accountId : String) (l : Ledger) (credit : ExpiryCredit) :
    Decidable (Fits accountId l credit) :=
  inferInstanceAs (Decidable (_ → ∀ expires ∈ credit.expiresAt, ∀ r ∈ l.db.jobs, _))

/-- The expiration of an attempted credit is not put off, and no retry is scheduled before the last
fifteen minutes. -/
def Timely (l : Ledger) : Op → Prop
  | .observe observation _ =>
    ∀ credit ∈ observation.credits.getD [], Fits observation.accountId l credit
  | .complete completion now =>
    completion.outcome.success = false → ∀ r ∈ l.db.jobs, r.jobId = completion.jobId →
      r.state = .running → r.expiresMs - leadMs ≤ now.timestampMillis + retrySeconds r.attempt * 1000
  | _ => True

instance (l : Ledger) : DecidablePred (Timely l)
  | .observe observation _ =>
    inferInstanceAs (Decidable (∀ credit ∈ observation.credits.getD [], _))
  | .complete completion now =>
    inferInstanceAs (Decidable (_ → ∀ r ∈ l.db.jobs, r.jobId = completion.jobId →
      r.state = .running →
      r.expiresMs - leadMs ≤ now.timestampMillis + retrySeconds r.attempt * 1000))
  | .reopen | .set _ _ | .heartbeat _ | .claim _ _ _ | .abort => inferInstanceAs (Decidable True)

section Observing

variable {U : UuidSource} {l l' : Ledger} {accountId : String} {credits : List ExpiryCredit}

def AllOnTime (l : Ledger) : Prop := ∀ r ∈ l.db.jobs, r.OnTime

structure Observing (accountId : String) (credits : List ExpiryCredit) (l : Ledger) : Prop where
  onTime : AllOnTime l
  fits : ∀ credit ∈ credits, Fits accountId l credit

structure JobRow.Stays (r r' : JobRow) : Prop where
  accountId : r'.accountId = r.accountId
  creditId : r'.creditId = r.creditId
  attempt : r'.attempt = r.attempt
  state : r'.state ≠ .succeeded → r.state ≠ .succeeded
  runAfterMs : r.attempt ≠ 0 → r'.runAfterMs = r.runAfterMs

theorem Observing.update (h : Observing accountId credits l) {p : JobRow → Bool}
    {f : JobRow → JobRow} (hjobs : l'.db.jobs = Table.update p f l.db.jobs)
    (hstays : ∀ r : JobRow, r.Stays (f r))
    (honTime : ∀ r ∈ l.db.jobs, p r = true → r.OnTime → (f r).OnTime) :
    Observing accountId credits l' := by
  constructor
  · intro r' hr'
    rw [hjobs] at hr'
    obtain ⟨r, hr, ⟨hp, rfl⟩ | ⟨-, rfl⟩⟩ := Table.mem_update.1 hr'
    · exact honTime r hr hp (h.onTime r hr)
    · exact h.onTime r' hr
  · intro credit hcredit hspent expires hexp r' hr' hacc hid hatt hstate
    rw [hjobs] at hr'
    obtain ⟨r, hr, ⟨-, rfl⟩ | ⟨-, rfl⟩⟩ := Table.mem_update.1 hr'
    · have hr' := hstays r
      rw [hr'.attempt] at hatt
      rw [hr'.runAfterMs hatt]
      exact h.fits credit hcredit hspent expires hexp r hr (hr'.accountId ▸ hacc)
        (hr'.creditId ▸ hid) hatt (hr'.state hstate)
    · exact h.fits credit hcredit hspent expires hexp r' hr hacc hid hatt hstate

theorem onTime_proposal (jobId key : String) (stamp : ℤ) (credit : ExpiryCredit)
    (expires : DateTime) : (JobRow.proposal jobId key accountId stamp credit expires).OnTime := by
  intro _
  change expires.timestampMillis - leadMs ≤ saturatingSub expires.timestampMillis 900000
  rw [DateTime.saturatingSub_timestampMillis expires (by decide) (by decide)]
  exact le_refl _

theorem onTime_refresh {jobId key : String} {stamp : ℤ} {credit : ExpiryCredit}
    {expires : DateTime} {r : JobRow}
    (hfits : r.attempt ≠ 0 → r.state ≠ .succeeded → expires.timestampMillis - leadMs ≤ r.runAfterMs) :
    ((JobRow.proposal jobId key accountId stamp credit expires).refresh r).OnTime := by
  intro hstate
  have hnew : (JobRow.proposal jobId key accountId stamp credit expires).OnTime :=
    onTime_proposal jobId key stamp credit expires
  by_cases hatt : r.attempt = 0
  · simp only [JobRow.refresh, if_pos hatt]
    refine hnew ?_
    intro h
    cases h
  · simp only [JobRow.refresh, if_neg hatt]
    exact hfits hatt hstate

theorem Observing.turn {stamp : ℤ} {credit : ExpiryCredit} (hcredit : credit ∈ credits)
    (h : Observing accountId credits l) (hturn : Turn U accountId stamp credit l l') :
    Observing accountId credits l' := by
  have hfits := h.fits credit hcredit
  cases hturn with
  | idle => exact h
  | redeem =>
    refine h.update rfl (fun r => ⟨rfl, rfl, rfl, fun hstate => absurd rfl hstate, fun _ => rfl⟩) ?_
    exact fun r _ _ _ hstate => absurd rfl hstate
  | insert =>
    constructor
    · intro r hr
      rcases List.mem_append.1 hr with hr | hr
      · exact h.onTime r hr
      · rw [List.mem_singleton.1 hr]
        exact onTime_proposal _ _ _ _ _
    · intro other hother hspent expires hexp r hr hacc hid hatt hstate
      rcases List.mem_append.1 hr with hr | hr
      · exact h.fits other hother hspent expires hexp r hr hacc hid hatt hstate
      · rw [List.mem_singleton.1 hr] at hatt
        exact absurd rfl hatt
  | refresh hspent expires hexp =>
    refine h.update rfl (fun r => ⟨rfl, rfl, rfl, fun hstate => hstate, fun hatt => ?_⟩) ?_
    · simp only [JobRow.refresh, if_neg hatt]
    · intro r hr hp _
      obtain ⟨hacc, hid⟩ := of_decide_eq_true hp
      exact onTime_refresh fun hatt hstate =>
        hfits hspent expires (Option.mem_def.2 hexp) r hr hacc hid hatt hstate
  | withdraw =>
    exact h.update rfl (fun r => ⟨rfl, rfl, rfl, fun hstate => hstate, fun _ => rfl⟩)
      fun r _ _ hr => hr

end Observing

section Runs

variable {U : UuidSource} {l : Ledger}

theorem allOnTime_commitDb {res : Except AccountdError Db}
    (hres : ∀ db, res = .ok db → AllOnTime { l with db }) (h : AllOnTime l) :
    AllOnTime (l.commitDb res).1 := by
  cases res with
  | error e => exact h
  | ok db => exact hres db rfl

theorem Db.complete_eq_ok {db db' : Db} {c : ExpiryCompletion} {now : DateTime}
    (h : db.complete c now = .ok db') :
    db'.jobs = db.jobs ∨ ∃ r ∈ db.jobs, r.jobId = c.jobId ∧ r.state = .running ∧
      db'.jobs = Table.update (fun s => s.jobId = c.jobId ∧ s.leaseToken = some c.leaseToken)
        (JobRow.settle c now.timestampMillis (retrySeconds r.attempt)) db.jobs := by
  unfold Db.complete at h
  split at h
  · cases h
  split at h
  · cases h
  rename_i r hr
  split at h
  · cases h
  split at h
  · cases h
    exact .inl rfl
  split at h
  · cases h
  rename_i hrun
  have hid : r.jobId = c.jobId := by simpa using List.find?_some hr
  refine .inr ⟨r, List.mem_of_find?_eq_some hr, hid, not_not.1 hrun, ?_⟩
  rw [insertEvent_eq_ok h]

theorem onTime_settle {c : ExpiryCompletion} {now : DateTime} {r : JobRow}
    (h : c.outcome.success = false →
      r.expiresMs - leadMs ≤ now.timestampMillis + retrySeconds r.attempt * 1000) :
    (r.settle c now.timestampMillis (retrySeconds r.attempt)).OnTime := by
  intro hstate
  have hfailed : c.outcome.success = false := by
    cases hsuc : c.outcome.success with
    | false => rfl
    | true => exact absurd (by simp [JobRow.settle, hsuc]) hstate
  have hdelay : 0 ≤ retrySeconds r.attempt * 1000 ∧ retrySeconds r.attempt * 1000 ≤ 1000000 := by
    unfold retrySeconds
    split_ifs <;> decide
  change r.expiresMs - leadMs ≤ saturatingAdd _ _
  rw [DateTime.saturatingAdd_timestampMillis now hdelay.1 hdelay.2]
  exact h hfailed

theorem allOnTime_observe {observation : ExpiryObservation} {now : DateTime} {l' : Ledger}
    (ht : Timely l (.observe observation now)) (h : AllOnTime l)
    (hstep : l.observe U observation now = .ok l') : AllOnTime l' := by
  rcases Ledger.observe_eq_ok hstep with ⟨rfl, -⟩ | ⟨credits, hcred, -, hloop⟩
  · exact h
  have hjobs : (l.stamped observation).db.jobs = l.db.jobs := upsertObservation_jobs _ _ _
  have hstart : Observing observation.accountId credits (l.stamped observation) := by
    refine ⟨?_, ?_⟩
    · intro r hr
      exact h r (hjobs ▸ hr)
    · intro credit hcredit hspent expires hexp r hr
      refine ht credit ?_ hspent expires hexp r (hjobs ▸ hr)
      rw [hcred]
      exact hcredit
  refine (Result.foldlM_invariant (I := Observing observation.accountId credits) ?_ hstart
    hloop).onTime
  exact fun s credit s' hcredit hs hturn => hs.turn hcredit (turn_observeCredit hturn)

theorem allOnTime_step (hs : Sound U l) (h : AllOnTime l) {op : Op} (ht : Timely l op) :
    AllOnTime (step U l op).1 := by
  cases op with
  | reopen =>
    refine allOnTime_commitDb (fun db hdb => ?_) h
    unfold Db.reopen at hdb
    split at hdb <;> cases hdb
    exact h
  | set enabled clock =>
    refine allOnTime_commitDb (fun db hdb => ?_) h
    unfold Db.set at hdb
    split at hdb
    · cases hdb
      exact h
    split at hdb
    · cases hdb
      exact h
    · rw [insertEvent_eq_ok hdb]
      exact h
  | heartbeat now => exact h
  | observe observation now =>
    cases hstep : l.observe U observation now with
    | error e =>
      simp only [step, hstep]
      exact h
    | ok l' =>
      simp only [step, hstep]
      exact allOnTime_observe ht h hstep
  | claim eligible master now =>
    cases hclaim : l.claim U eligible master now with
    | error e =>
      simp only [step, hclaim]
      exact h
    | ok result =>
      obtain ⟨found, l'⟩ := result
      simp only [step, hclaim]
      obtain ⟨-, rfl⟩ | ⟨job, r, -, hclai⟩ := Ledger.claim_eq_ok hclaim
      · exact h
      · -- the row that is leased was open, and keeps its times
        obtain ⟨hmem, hdue⟩ := Db.candidate_mem hclai.candidate
        intro r' hr'
        rw [hclai.jobs] at hr'
        obtain ⟨q, hq, ⟨hp, rfl⟩ | ⟨-, rfl⟩⟩ := Table.mem_update.1 hr'
        · obtain rfl := hs.eq_of_jobId hq hmem (of_decide_eq_true hp)
          exact fun _ => h q hq (Db.due_state hdue)
        · exact h r' hq
  | complete c now =>
    refine allOnTime_commitDb (fun db hdb => ?_) h
    rcases Db.complete_eq_ok hdb with hjobs | ⟨r, hmem, hid, hrun, hjobs⟩
    · intro r hr
      exact h r (hjobs ▸ hr)
    · intro r' hr'
      change r' ∈ db.jobs at hr'
      rw [hjobs] at hr'
      obtain ⟨q, hq, ⟨hp, rfl⟩ | ⟨-, rfl⟩⟩ := Table.mem_update.1 hr'
      · obtain rfl := hs.eq_of_jobId hq hmem ((of_decide_eq_true hp).1.trans hid.symm)
        exact onTime_settle (ht · q hq hid hrun)
      · exact h r' hq
  | abort => exact h

theorem allOnTime_run (U : UuidSource) {ops : List Op}
    (h : (machine U).Each Timely Ledger.init ops) : AllOnTime ((machine U).run Ledger.init ops) := by
  have hrun : ∀ (ops : List Op) (l : Ledger), Sound U l → AllOnTime l →
      (machine U).Each Timely l ops → AllOnTime ((machine U).run l ops) := by
    intro ops
    induction ops with
    | nil => exact fun l _ hl _ => hl
    | cons op ops ih =>
      intro l hs hl h
      exact ih _ (hs.effect (step_effect U l op)) (allOnTime_step hs hl h.1) h.2
  exact hrun ops Ledger.init (sound_init U) (List.forall_mem_nil _) h

end Runs

/-- **What holds of every claim that returns a job.** If all operations were timely, the credit
expires within fifteen minutes. -/
theorem claim_window (U : UuidSource) (ops : List Op) (eligible : List String) (master : Bool)
    (now : DateTime) (job : ExpiryJob)
    (h : ((machine U).step ((machine U).run Ledger.init ops) (.claim eligible master now)).2 =
      .claimed (.ok (some job))) :
    Admitted ((machine U).run Ledger.init ops) eligible master now job ∧
      ((machine U).Each Timely Ledger.init ops →
        job.expiresAt.timestampMillis - leadMs ≤ now.timestampMillis) := by
  obtain ⟨l', r, hclaim⟩ := claimed_of_step h
  refine ⟨hclaim.admitted, fun htimely => ?_⟩
  exact hclaim.lead (allOnTime_run U htimely r (Db.candidate_mem hclaim.candidate).1)

theorem claim_window_sample :
    let ops := setup ++ [claimOp, .complete ⟨"u", "u01", .retry, none⟩ clock]
    let later : DateTime := .ofSecs 1700000030 (by decide) (by decide)
    ((machine .binary).step ((machine .binary).run Ledger.init ops) (.claim ["acct"] true later)).2 =
        .claimed (.ok (some (sampleJob "u11" 2))) ∧
      (machine .binary).Each Timely Ledger.init ops ∧
      Admitted ((machine .binary).run Ledger.init ops) ["acct"] true later (sampleJob "u11" 2) ∧
      (sampleJob "u11" 2).expiresAt.timestampMillis - leadMs ≤ later.timestampMillis := by
  have hclaim : ((machine .binary).step ((machine .binary).run Ledger.init
      (setup ++ [claimOp, .complete ⟨"u", "u01", .retry, none⟩ clock]))
      (.claim ["acct"] true (.ofSecs 1700000030 (by decide) (by decide)))).2 =
        .claimed (.ok (some (sampleJob "u11" 2))) := by decide
  have htimely : (machine .binary).Each Timely Ledger.init
      (setup ++ [claimOp, .complete ⟨"u", "u01", .retry, none⟩ clock]) := by decide
  obtain ⟨hadm, hlead⟩ := claim_window .binary _ _ _ _ _ hclaim
  exact ⟨hclaim, htimely, hadm, hlead htimely⟩

def nextDay : DateTime := .ofSecs 1700086400 (by decide) (by decide)

/-- The expiration is put off by a day after a first attempt, and the retry is handed out at once.
-/
theorem claimed_too_early :
    let ops := setup ++ [claimOp, .complete ⟨"u", "u01", .retry, none⟩ clock,
      .observe ⟨"acct", clock, some [⟨"credit", "available", some nextDay⟩]⟩ clock]
    let later : DateTime := .ofSecs 1700000030 (by decide) (by decide)
    let job : ExpiryJob := { sampleJob "u101" 2 with expiresAt := nextDay }
    ((machine .binary).step ((machine .binary).run Ledger.init ops) (.claim ["acct"] true later)).2 =
        .claimed (.ok (some job)) ∧
      later.timestampMillis < job.expiresAt.timestampMillis - leadMs := by
  decide

end CodexMarathon.Expiry
