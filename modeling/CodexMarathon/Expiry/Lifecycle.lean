/-
**The life of one job.**

A job is queued, leased, settled by a completion, leased again once its delay has passed, and stops
when it has succeeded.  Every operation of the ledger moves every row along one edge of this machine
(`Expiry.Effect.follow`).
-/

import CodexMarathon.Expiry.Invariants

namespace CodexMarathon.Expiry

open Relation UuidSource JobRow

variable {h : History} {e : List String} {m : Bool} {c : ExpiryCompletion} {db : Db}

inductive RowStep (r : JobRow) : Op → Answer → JobRow → Prop
  | quiet (op : Op) (a : Answer) (r' : JobRow) (steps : ReflTransGen RowQuiet r r')
      (job : ∀ j, a.job? = some j → j.jobId ≠ r.jobId)
      (other : ∀ c now, op = .complete c now → a = .done (.ok ()) → c.jobId ≠ r.jobId) :
      RowStep r op a r'
  | lease (eligible : List String) (master : Bool) (now : DateTime) (token : String)
      (expiresAt : DateTime) (live : r.state ≠ .succeeded)
      (delay : r.runAfterMs ≤ now.timestampMillis)
      (lapsed : r.state = .running → ∃ u ∈ r.leaseUntilMs, u ≤ now.timestampMillis) :
      RowStep r (.claim eligible master now) (.claimed (.ok (some (r.toJob token expiresAt))))
        (r.lease token now.timestampMillis)
  | settle (c : ExpiryCompletion) (now : DateTime) (running : r.state = .running)
      (id : r.jobId = c.jobId) (token : r.leaseToken = some c.leaseToken) :
      RowStep r (.complete c now) (.done (.ok ()))
        (r.settle c now.timestampMillis (retrySeconds r.attempt))
  | repeated (c : ExpiryCompletion) (now : DateTime)
      (settled : r.state = .succeeded ∨ r.state = .retryWait) (id : r.jobId = c.jobId)
      (token : r.leaseToken = some c.leaseToken) :
      RowStep r (.complete c now) (.done (.ok ())) r

theorem Db.due_delay {ms : ℤ} {r : JobRow} (h : db.due ms r = true) : r.runAfterMs ≤ ms := by
  unfold Db.due at h
  split at h
  · cases h
  · simp only [Bool.and_eq_true, decide_eq_true_eq] at h
    exact h.1.1.2

theorem Db.due_lapsed {ms : ℤ} {r : JobRow} (h : db.due ms r = true) (hrun : r.state = .running) :
    ∃ u ∈ r.leaseUntilMs, u ≤ ms := by
  unfold Db.due at h
  split at h
  · cases h
  · simp only [Bool.and_eq_true] at h
    obtain ⟨-, hlease⟩ := h
    cases hu : r.leaseUntilMs with
    | none => simp [hrun, hu] at hlease
    | some u => exact ⟨u, rfl, by simpa [hrun, hu] using hlease⟩

section Follow

variable {U : UuidSource} {l l' : Ledger} {op : Op} {a : Answer} {r : JobRow}

theorem Effect.follow (hs : Sound U l) (he : Effect U l op l' a) (hr : r ∈ l.db.jobs) :
    ∃ r' ∈ l'.db.jobs, RowStep r op a r' := by
  cases he with
  | quiet _ _ _ steps job refused =>
    obtain ⟨r', hr', hrow⟩ := quiets_row steps hr
    refine ⟨r', hr', .quiet _ _ _ hrow (fun j hj => by rw [job] at hj; cases hj) ?_⟩
    intro c now hop ha
    obtain ⟨e, he⟩ := refused c now hop
    rw [he] at ha
    cases ha
  | claimed eligible master now s _ expiresAt e mem due kind jobId jobs =>
    rw [jobs]
    by_cases hid : r.jobId = s.jobId
    · obtain rfl := hs.eq_of_jobId hr mem hid
      exact ⟨_, Table.mem_update_of_mem hr (by simp),
        .lease _ _ _ _ _ (Db.due_state due) (Db.due_delay due) (Db.due_lapsed due)⟩
    · refine ⟨r, Table.mem_update_of_not hr (by simpa using hid), .quiet _ _ _ .refl ?_ ?_⟩
      · intro j hj
        obtain rfl : s.toJob _ _ = j := Option.some.inj hj
        exact Ne.symm hid
      · exact fun c t hop => nomatch hop
  | settled c now s _ e mem running id token kind jobId jobs =>
    rw [jobs]
    by_cases hid : r.jobId = c.jobId
    · obtain rfl := hs.eq_of_jobId hr mem (hid.trans id.symm)
      exact ⟨_, Table.mem_update_of_mem hr (by simp [hid, token]), .settle c now running hid token⟩
    · refine ⟨r, Table.mem_update_of_not hr (by simp [hid]), .quiet _ _ _ .refl (by simp) ?_⟩
      rintro c' t hop -
      cases hop
      exact Ne.symm hid
  | repeated c now s mem settled id token =>
    by_cases hid : r.jobId = c.jobId
    · obtain rfl := hs.eq_of_jobId hr mem (hid.trans id.symm)
      exact ⟨r, hr, .repeated c now settled hid token⟩
    · refine ⟨r, hr, .quiet _ _ _ .refl (by simp) ?_⟩
      rintro c' t hop -
      cases hop
      exact Ne.symm hid

end Follow

def clock : DateTime := .sample

def clockBack : DateTime := .ofSecs 1699999970 (by decide) (by decide)

def clockAhead : DateTime := .ofSecs 1700000060 (by decide) (by decide)

/-- The policy is enabled, the executor alive, and one credit about to expire. -/
def setup : List Op :=
  [.reopen, .set true clock, .heartbeat clock,
    .observe ⟨"acct", clock, some [⟨"credit", "available", some clockAhead⟩]⟩ clock]

def claimOp : Op := .claim ["acct"] true clock

def retryOp (token : String) : Op := .complete ⟨"u", token, .retry, none⟩ clockBack

theorem RowQuiet.succeeded {r r' : JobRow} (h : RowQuiet r r') (hr : r.state = .succeeded) :
    r'.state = .succeeded := by
  cases h with
  | same => exact hr
  | redeem => rfl
  | refresh => exact hr
  | withdraw => exact hr

theorem RowQuiet.jobId {r r' : JobRow} (h : RowQuiet r r') : r'.jobId = r.jobId :=
  jobId_eq_of_identity h.identity

theorem RowStep.succeeded {r r' : JobRow} {op : Op} {a : Answer} (h : RowStep r op a r')
    (hr : r.state = .succeeded) :
    r'.jobId = r.jobId ∧ r'.state = .succeeded ∧ ∀ j, a.job? = some j → j.jobId ≠ r.jobId := by
  cases h with
  | quiet _ _ _ steps job =>
    refine (and_assoc.1 ⟨?_, job⟩)
    exact rowQuiets_preserve (P := fun s => s.jobId = r.jobId ∧ s.state = .succeeded)
      (fun s s' hss hs => ⟨hss.jobId.trans hs.1, hss.succeeded hs.2⟩) steps ⟨rfl, hr⟩
  | lease _ _ _ _ _ live => exact absurd hr live
  | settle c now running =>
    rw [running] at hr
    cases hr
  | repeated => exact ⟨rfl, hr, by simp⟩

structure Finished (id : String) (h : History) (l : Ledger) : Prop where
  row : ∃ r ∈ l.db.jobs, r.jobId = id ∧ r.state = .succeeded
  unclaimed : ∀ j ∈ claims h, j.jobId ≠ id

theorem Finished.step {U : UuidSource} {id : String} {l : Ledger} (hs : Sound U l)
    (hf : Finished id h l) (op : Op) :
    Finished id (h ++ [(op, (step U l op).2)]) (step U l op).1 := by
  obtain ⟨⟨r, hr, rfl, hsucc⟩, hun⟩ := hf
  obtain ⟨r', hr', hstep⟩ := (step_effect U l op).follow hs hr
  obtain ⟨hid, hsucc', hjob⟩ := hstep.succeeded hsucc
  refine ⟨⟨r', hr', hid, hsucc'⟩, fun j hj => ?_⟩
  rw [claims_append, List.mem_append] at hj
  rcases hj with hj | hj
  · exact hun j hj
  · exact hjob j (by simpa [claims] using hj)

/-- **A success is final**: no claim returns the job, and the stream holds one `JobSucceeded` event
for it. -/
theorem succeeded_forever (U : UuidSource) (pre post : List Op) (id : String)
    (hsucc : ∃ r ∈ ((machine U).run Ledger.init pre).db.jobs, r.jobId = id ∧ r.state = .succeeded) :
    (∃ r ∈ ((machine U).run Ledger.init (pre ++ post)).db.jobs, r.jobId = id) ∧
    (∀ r ∈ ((machine U).run Ledger.init (pre ++ post)).db.jobs, r.jobId = id →
      r.state = .succeeded) ∧
    (∀ j ∈ claims ((machine U).history ((machine U).run Ledger.init pre) post), j.jobId ≠ id) ∧
    ((machine U).run Ledger.init (pre ++ post)).db.successes id = 1 := by
  have hpre := (run_traced U pre).sound
  -- the invariant carried along `post`: sound, and finished with no claim since
  have hrun := Machine.invariant_history_nil (M := machine U)
    (I := fun h l => Sound U l ∧ Finished id h l)
    (fun h l op hl => ⟨hl.1.effect (step_effect U l op), hl.2.step hl.1 op⟩) post
    ⟨hpre, hsucc, by simp⟩
  rw [← Machine.run_append] at hrun
  obtain ⟨hsound, ⟨r, hr, rfl, hstate⟩, hun⟩ := hrun
  refine ⟨⟨r, hr, rfl⟩, fun s hs hid => ?_, hun, ?_⟩
  · rw [hsound.eq_of_jobId hs hr hid]
    exact hstate
  · rw [hsound.successes r hr, hstate]
    rfl

theorem succeeded_forever_sample :
    let redemption := setup ++ [claimOp, .complete ⟨"u", "u01", .reset, none⟩ clock]
    let again := [Op.observe ⟨"acct", clock, some [⟨"credit", "available", some clockAhead⟩]⟩ clock,
      claimOp]
    (∃ r ∈ ((machine .binary).run Ledger.init redemption).db.jobs,
      r.jobId = "u" ∧ r.state = .succeeded) ∧
    ((machine .binary).run Ledger.init (redemption ++ again)).db.successes "u" = 1 :=
  ⟨by decide +kernel,
    (succeeded_forever .binary (setup ++ [claimOp, .complete ⟨"u", "u01", .reset, none⟩ clock])
      [.observe ⟨"acct", clock, some [⟨"credit", "available", some clockAhead⟩]⟩ clock, claimOp]
      "u" (by decide +kernel)).2.2.2⟩

/-! ### Leases and delays -/

def backoffMs (attempt : ℤ) : ℤ :=
  if attempt = 1 then 5000 else if attempt = 2 then 10000 else if attempt = 3 then 20000 else 30000

theorem retrySeconds_mul_eq {attempt : ℤ} (h : 0 < attempt) :
    retrySeconds attempt * 1000 = backoffMs attempt := by
  unfold retrySeconds backoffMs
  split_ifs <;> omega

theorem backoffMs_bounds (attempt : ℤ) : 0 ≤ backoffMs attempt ∧ backoffMs attempt ≤ 1000000 := by
  unfold backoffMs
  split_ifs <;> omega

def acceptedBy (j : ExpiryJob) : Op × Answer → Option (ExpiryOutcome × DateTime)
  | (.complete c now, .done (.ok ())) =>
    if c.jobId = j.jobId ∧ c.leaseToken = j.leaseToken then some (c.outcome, now) else none
  | _ => none

/-- The first completion of `j` that was answered `Ok`; later ones are repetitions. -/
def accepted (j : ExpiryJob) (h : History) : Option (ExpiryOutcome × DateTime) :=
  h.findSome? (acceptedBy j)

theorem acceptedBy_eq_none {j : ExpiryJob} {op : Op} {a : Answer}
    (h : ∀ c now, op = .complete c now → a = .done (.ok ()) → c.jobId ≠ j.jobId) :
    acceptedBy j (op, a) = none := by
  unfold acceptedBy
  split
  · rename_i c now heq
    obtain ⟨rfl, rfl⟩ := Prod.mk.inj heq
    exact if_neg fun hc => h c now rfl rfl hc.1
  · rfl

/-- Where the row of a job claimed at `t` stands. -/
inductive Phase (j : ExpiryJob) (t : DateTime) (r : JobRow) :
    Option (ExpiryOutcome × DateTime) → Prop
  | succeeded (acc : Option (ExpiryOutcome × DateTime)) (state : r.state = .succeeded) :
      Phase j t r acc
  | running (state : r.state = .running)
      (lease : r.leaseUntilMs = some (t.timestampMillis + leaseMs)) : Phase j t r none
  | retryWait (o : ExpiryOutcome) (c : DateTime) (state : r.state = .retryWait)
      (failed : o.success = false)
      (delay : r.runAfterMs = c.timestampMillis + backoffMs j.attempt) : Phase j t r (some (o, c))

structure Held (j : ExpiryJob) (t : DateTime) (acc : Option (ExpiryOutcome × DateTime))
    (r : JobRow) : Prop where
  jobId : r.jobId = j.jobId
  attempt : r.attempt = j.attempt
  token : r.leaseToken = some j.leaseToken
  claimed : 0 < j.attempt
  phase : Phase j t r acc

section Lease

variable {U : UuidSource} {j : ExpiryJob} {t : DateTime} {r r' : JobRow}
  {acc : Option (ExpiryOutcome × DateTime)}

theorem Held.rowQuiet (hr : Held j t acc r) (h : RowQuiet r r') : Held j t acc r' := by
  cases h with
  | same => exact hr
  | withdraw =>
    refine ⟨hr.jobId, hr.attempt, hr.token, hr.claimed, ?_⟩
    cases hr.phase with
    | succeeded _ state => exact .succeeded _ state
    | running state lease => exact .running state lease
    | retryWait o c state failed delay => exact .retryWait o c state failed delay
  | redeem stamp => exact ⟨hr.jobId, hr.attempt, hr.token, hr.claimed, .succeeded _ rfl⟩
  | refresh excluded =>
    have hne : r.attempt ≠ 0 := by
      have := hr.claimed
      rw [hr.attempt]
      omega
    refine ⟨hr.jobId, hr.attempt, hr.token, hr.claimed, ?_⟩
    cases hr.phase with
    | succeeded _ state => exact .succeeded _ state
    | running state lease => exact .running state lease
    | retryWait o c state failed delay =>
      exact .retryWait o c state failed (by simpa [refresh, hne] using delay)

theorem Held.rowStep (hr : Held j t acc r) {op : Op} {a : Answer} (h : RowStep r op a r')
    (hjob : ∀ k, a.job? = some k → k.jobId ≠ j.jobId) :
    Held j t (acc.or (acceptedBy j (op, a))) r' := by
  cases h with
  | quiet _ _ _ steps _ other =>
    rw [acceptedBy_eq_none fun c now hop ha => hr.jobId ▸ other c now hop ha, Option.or_none]
    exact rowQuiets_preserve (fun _ _ hss hs => hs.rowQuiet hss) steps hr
  | lease _ _ _ _ _ => exact absurd hr.jobId (hjob _ rfl)
  | settle c now running id token =>
    have hc : c.jobId = j.jobId ∧ c.leaseToken = j.leaseToken :=
      ⟨id.symm.trans hr.jobId, Option.some.inj (token.symm.trans hr.token)⟩
    have hacc : acc = none := by
      cases hr.phase with
      | succeeded _ state => rw [running] at state; cases state
      | running => rfl
      | retryWait _ _ state => rw [running] at state; cases state
    have hnow : acceptedBy j (.complete c now, .done (.ok ())) = some (c.outcome, now) :=
      if_pos hc
    rw [hacc, hnow, Option.none_or]
    refine ⟨hr.jobId, hr.attempt, hr.token, hr.claimed, ?_⟩
    cases hs : c.outcome.success with
    | true => exact .succeeded _ (by simp [settle, hs])
    | false =>
      refine .retryWait _ _ (by simp [settle, hs]) hs ?_
      have hb := backoffMs_bounds j.attempt
      simp only [settle]
      rw [hr.attempt, retrySeconds_mul_eq hr.claimed,
        DateTime.saturatingAdd_timestampMillis _ hb.1 hb.2]
  | repeated c now settled id token =>
    refine ⟨hr.jobId, hr.attempt, hr.token, hr.claimed, ?_⟩
    cases hr.phase with
    | succeeded _ state => exact .succeeded _ state
    | running state => rcases settled with h | h <;> rw [state] at h <;> cases h
    | retryWait o c' state failed delay => exact .retryWait o c' state failed delay

/-- A job that was claimed at `t` and, in the history `h` since, not again. -/
def Waiting (j : ExpiryJob) (t : DateTime) (h : History) (l : Ledger) : Prop :=
  ∃ r ∈ l.db.jobs, Held j t (accepted j h) r

theorem Waiting.run {l : Ledger} (hs : Sound U l) (hw : Waiting j t [] l) (ops : List Op)
    (hops : ∀ k ∈ claims ((machine U).history l ops), k.jobId ≠ j.jobId) :
    Waiting j t ((machine U).history l ops) ((machine U).run l ops) := by
  have hent : ∀ x ∈ (machine U).history l ops, ∀ k, x.2.job? = some k → k.jobId ≠ j.jobId :=
    fun x hx k hk => hops k (List.mem_filterMap.2 ⟨x, hx, hk⟩)
  have hrun := Machine.invariant_history_of_forall
    (I := fun h m => Sound U m ∧ Waiting j t h m)
    ?_ ops hent ⟨hs, hw⟩
  · simpa using hrun.2
  · rintro h m op hop ⟨hm, r, hr, hheld⟩
    obtain ⟨r', hr', hstep⟩ := (step_effect U m op).follow hm hr
    refine ⟨hm.effect (step_effect U m op), r', hr', ?_⟩
    rw [accepted, List.findSome?_append, List.findSome?_singleton]
    exact hheld.rowStep hstep hop

theorem claim_inv {l : Ledger}
    (h : ((machine U).step l (.claim e m t)).2 = .claimed (.ok (some j))) :
    ∃ r ∈ l.db.jobs, ∃ expiresAt, j = r.toJob (U.v4 l.drawn) expiresAt ∧
      l.db.due t.timestampMillis r = true ∧
      r.lease (U.v4 l.drawn) t.timestampMillis ∈ ((machine U).step l (.claim e m t)).1.db.jobs := by
  have he := step_effect U l (.claim e m t)
  change Effect U l _ ((machine U).step l (.claim e m t)).1
    ((machine U).step l (.claim e m t)).2 at he
  rw [h] at he
  generalize ((machine U).step l (.claim e m t)).1 = l' at he ⊢
  cases he with
  | quiet _ _ _ _ job => cases job
  | claimed _ _ _ r _ expiresAt _ mem due _ _ jobs =>
    exact ⟨r, mem, expiresAt, rfl, due, jobs ▸ Table.mem_update_of_mem mem (by simp)⟩

theorem waiting_of_claim {l : Ledger} (hs : Sound U l)
    (h : ((machine U).step l (.claim e m t)).2 = .claimed (.ok (some j))) :
    Waiting j t [] ((machine U).step l (.claim e m t)).1 := by
  obtain ⟨r, hr, expiresAt, rfl, -, hmem⟩ := claim_inv h
  refine ⟨_, hmem, rfl, rfl, rfl, saturatingAdd_one_pos (hs.attempt r hr), .running rfl ?_⟩
  simp only [lease]
  rw [DateTime.saturatingAdd_timestampMillis t (by decide) (by decide)]

theorem Waiting.claim {l : Ledger} (hs : Sound U l) (hw : Waiting j t h l) {t' : DateTime}
    {j' : ExpiryJob} (hclaim : ((machine U).step l (.claim e m t')).2 = .claimed (.ok (some j')))
    (hid : j'.jobId = j.jobId) : j'.attempt = min i64Max (j.attempt + 1) ∧
      (accepted j h = none → t.timestampMillis + leaseMs ≤ t'.timestampMillis) ∧
      ∀ o c, accepted j h = some (o, c) → o.success = false ∧
        c.timestampMillis + backoffMs j.attempt ≤ t'.timestampMillis := by
  obtain ⟨r, hr, hheld⟩ := hw
  obtain ⟨s, hsmem, expiresAt, rfl, hdue, -⟩ := claim_inv hclaim
  obtain rfl := hs.eq_of_jobId hsmem hr (hid.trans hheld.jobId.symm)
  refine ⟨?_, ?_⟩
  · rw [← hheld.attempt]
    exact saturatingAdd_one_of_nonneg (hs.attempt s hr)
  · have hphase := hheld.phase
    generalize accepted j h = acc at hphase ⊢
    cases hphase with
    | succeeded _ state => exact absurd state (Db.due_state hdue)
    | running state lease =>
      refine ⟨fun _ => ?_, by simp⟩
      obtain ⟨u, hu, hle⟩ := Db.due_lapsed hdue state
      rw [lease, Option.mem_some_iff] at hu
      exact hu ▸ hle
    | retryWait o c state failed delay =>
      refine ⟨by simp, fun o' c' heq => ?_⟩
      obtain ⟨rfl, rfl⟩ := Prod.mk.inj (Option.some.inj heq)
      exact ⟨failed, delay ▸ Db.due_delay hdue⟩

/-! ### Stale and repeated completions -/

theorem complete_refused (h : ∀ r ∈ db.jobs, r.jobId = c.jobId → r.leaseToken ≠ some c.leaseToken)
    (now : DateTime) : db.complete c now = .error .invalidRequest := by
  unfold Db.complete
  split
  · rfl
  split
  · rfl
  rename_i row hrow
  have hid : row.jobId = c.jobId := by simpa using List.find?_some hrow
  exact if_pos (h row (List.mem_of_find?_eq_some hrow) hid)

theorem valid_of_complete {l : Ledger} {now : DateTime}
    (h : ((machine U).step l (.complete c now)).2 = .done (.ok ())) : c.valid = true := by
  by_contra hinv
  have href : l.db.complete c now = .error .invalidRequest := by
    unfold Db.complete
    exact if_pos (by simpa using hinv)
  simp only [machine, step, href, Ledger.commitDb] at h
  cases h

def SettledRow (c : ExpiryCompletion) (r : JobRow) : Prop :=
  r.jobId = c.jobId ∧ r.leaseToken = some c.leaseToken ∧
    (r.state = .succeeded ∨ r.state = .retryWait)

theorem complete_repeated {l : Ledger} (hs : Sound U l) (hr : r ∈ l.db.jobs) (hc : SettledRow c r)
    (hvalid : c.valid = true) (now : DateTime) : l.db.complete c now = .ok l.db := by
  obtain ⟨hid, htoken, hstate⟩ := hc
  have hfind : l.db.jobs.find? (fun s => s.jobId = c.jobId) = some r := by
    rw [← hid]
    exact hs.ids.find?_eq_some hr
  unfold Db.complete
  simp only [hvalid, hfind, htoken]
  simp [hstate]

theorem SettledRow.rowQuiet (hr : SettledRow c r) (h : RowQuiet r r') : SettledRow c r' := by
  cases h with
  | same => exact hr
  | redeem => exact ⟨hr.1, hr.2.1, .inl rfl⟩
  | refresh => exact hr
  | withdraw => exact hr

theorem SettledRow.rowStep (hr : SettledRow c r) {op : Op} {a : Answer} (h : RowStep r op a r')
    (hjob : ∀ k, a.job? = some k → k.jobId ≠ c.jobId) : SettledRow c r' := by
  cases h with
  | quiet _ _ _ steps => exact rowQuiets_preserve (fun _ _ hss hs => hs.rowQuiet hss) steps hr
  | lease _ _ _ _ _ => exact absurd hr.1 (hjob _ rfl)
  | settle _ _ running =>
    rcases hr.2.2 with h | h <;> rw [running] at h <;> cases h
  | repeated => exact hr

theorem settledRow_run {l : Ledger} (hs : Sound U l) (hl : ∃ r ∈ l.db.jobs, SettledRow c r)
    (ops : List Op) (hops : ∀ k ∈ claims ((machine U).history l ops), k.jobId ≠ c.jobId) :
    ∃ r ∈ ((machine U).run l ops).db.jobs, SettledRow c r := by
  have hent : ∀ x ∈ (machine U).history l ops, ∀ k, x.2.job? = some k → k.jobId ≠ c.jobId :=
    fun x hx k hk => hops k (List.mem_filterMap.2 ⟨x, hx, hk⟩)
  have hrun := Machine.invariant_history_of_forall (M := machine U)
    (I := fun _ m => Sound U m ∧ ∃ r ∈ m.db.jobs, SettledRow c r)
    ?_ ops (h := []) hent ⟨hs, hl⟩
  · exact hrun.2
  · rintro _ m op hop ⟨hm, s, hsm, hset⟩
    obtain ⟨s', hs', hstep⟩ := (step_effect U m op).follow hm hsm
    exact ⟨hm.effect (step_effect U m op), s', hs', hset.rowStep hstep hop⟩

theorem settledRow_of_complete {l : Ledger} {now : DateTime}
    (h : ((machine U).step l (.complete c now)).2 = .done (.ok ())) :
    ∃ r ∈ ((machine U).step l (.complete c now)).1.db.jobs, SettledRow c r := by
  have he := step_effect U l (.complete c now)
  change Effect U l _ ((machine U).step l (.complete c now)).1
    ((machine U).step l (.complete c now)).2 at he
  rw [h] at he
  generalize ((machine U).step l (.complete c now)).1 = l' at he ⊢
  cases he with
  | quiet _ _ _ _ _ refused =>
    obtain ⟨e, he⟩ := refused c now rfl
    cases he
  | repeated _ _ s mem settled id token => exact ⟨s, mem, id, token, settled⟩
  | settled _ _ s _ _ mem running id token _ _ jobs =>
    refine ⟨s.settle c now.timestampMillis (retrySeconds s.attempt),
      jobs ▸ Table.mem_update_of_mem mem (by simp [id, token]), id, token, ?_⟩
    cases hs : c.outcome.success <;> simp [settle, hs]

end Lease

def sampleJob (token : String) (attempt : ℤ) : ExpiryJob :=
  ⟨"u", "acct", "credit", "u1", token, clockAhead, attempt⟩

/-- `n` unsuccessful attempts; the clock of a completion may lie before that of its claim. -/
def rounds : ℕ → List Op
  | 0 => setup
  | n + 1 => rounds n ++ [claimOp, retryOp (UuidSource.binary.v4 (n + 2))]

structure Round (n : ℕ) (r : JobRow) (l : Ledger) : Prop where
  drawn : l.drawn = n + 2
  settings : l.db.settings = some ⟨true, some clock.timestampMillis⟩
  observed : l.db.observedMs "acct" = some clock.timestampMillis
  jobs : l.db.jobs = [r]
  jobId : r.jobId = "u"
  accountId : r.accountId = "acct"
  available : r.available = true
  state : r.state = .queued ∨ r.state = .retryWait
  expires : r.expiresMs = clockAhead.timestampMillis
  observedMs : r.observedMs = clock.timestampMillis
  runAfter : r.runAfterMs ≤ clock.timestampMillis
  attempt : r.attempt = min i64Max n

theorem round_zero : ∃ r, Round 0 r ((machine .binary).run Ledger.init setup) := by
  refine ⟨_, ?_, ?_, ?_, rfl, ?_, ?_, ?_, ?_, ?_, ?_, ?_, ?_⟩ <;> decide +kernel

section Rounds

variable {n : ℕ} {r : JobRow} {l : Ledger}

theorem Round.attempt_pos (h : Round n r l) : 0 < saturatingAdd r.attempt 1 := by
  refine saturatingAdd_one_pos ?_
  rw [h.attempt]
  simp only [i64Max]
  omega

theorem Round.candidate (h : Round n r l) :
    l.db.candidate ["acct"] clock.timestampMillis = some r := by
  have hrecent : recent clock.timestampMillis clock.timestampMillis = true := by decide
  have hatt : r.attempt = 0 ∨ 0 < r.attempt := by
    rw [h.attempt]
    simp only [i64Max]
    omega
  have hexp : clock.timestampMillis < clockAhead.timestampMillis := by decide
  have hdue : l.db.due clock.timestampMillis r = true := by
    simp only [Db.due, h.accountId, h.observed, h.available, h.expires, h.observedMs, hrecent]
    rcases h.state with hs | hs <;> rcases hatt with ha | ha <;>
      simp [hs, ha, hexp, h.runAfter]
  simp [Db.candidate, h.jobs, hdue, h.accountId]

def startedEvent (r : JobRow) : EventInput where
  kind := .jobStarted
  accountId := some r.accountId
  jobId := some r.jobId
  state := some .running
  attempt := some (saturatingAdd r.attempt 1)
  occurredAt := clock

def leasedLedger (n : ℕ) (r : JobRow) (l : Ledger) : Ledger where
  db :=
    { l.db with
      jobs := [r.lease (UuidSource.binary.v4 (n + 2)) clock.timestampMillis]
      events := l.db.events ++ [(startedEvent r).toRow] }
  drawn := n + 3

theorem Round.claim (h : Round n r l) : (machine .binary).step l claimOp = (leasedLedger n r l,
      .claimed (.ok (some (r.toJob (binary.v4 (n + 2)) clockAhead)))) := by
  have hlive : (⟨true, some clock.timestampMillis⟩ : Settings).live clock.timestampMillis = true := by
    decide
  have hevent : validateEventInput (startedEvent r) = true := by
    have h₁ : validateIdentifier "acct" 256 = true := by decide
    have h₂ : validateIdentifier "u" 256 = true := by decide
    have h₃ : validateIdentifier EventKind.jobStarted.asStr 64 = true := by decide
    simp [validateEventInput, startedEvent, h.accountId, h.jobId, maxIdentifierBytes,
      maxEventKindBytes, h₁, h₂, h₃, h.attempt_pos.le]
  have hexp : DateTime.fromTimestampMillis r.expiresMs = some clockAhead := by
    rw [h.expires]
    decide
  have hinsert : insertEvent (l.db.updateJob r.jobId
      (lease (binary.v4 (n + 2)) clock.timestampMillis)) (startedEvent r) =
      .ok (leasedLedger n r l).db := by
    rw [insertEvent, if_pos hevent]
    simp [Db.updateJob, Table.update, h.jobs, leasedLedger]
  have hclaim : l.claim .binary ["acct"] true clock =
      .ok (some (r.toJob (binary.v4 (n + 2)) clockAhead), leasedLedger n r l) := by
    simp only [Ledger.claim, h.settings, hlive, h.candidate, h.drawn, Bool.not_true]
    change (insertEvent _ (startedEvent r) >>= _) = _
    rw [hinsert]
    simp only [bind, Except.bind, hexp]
    rfl
  simp only [machine, claimOp, step, hclaim]

def retryEvent (r : JobRow) : EventInput where
  kind := .jobRetryWait
  accountId := some r.accountId
  jobId := some "u"
  state := some .retryWait
  attempt := some (saturatingAdd r.attempt 1)
  occurredAt := clockBack

def retriedRow (n : ℕ) (r : JobRow) : JobRow :=
  (r.lease (UuidSource.binary.v4 (n + 2)) clock.timestampMillis).settle
    ⟨"u", UuidSource.binary.v4 (n + 2), .retry, none⟩ clockBack.timestampMillis
    (retrySeconds (saturatingAdd r.attempt 1))

def retriedLedger (n : ℕ) (r : JobRow) (l : Ledger) : Ledger where
  db :=
    { (leasedLedger n r l).db with
      jobs := [retriedRow n r]
      events := (leasedLedger n r l).db.events ++ [(retryEvent r).toRow] }
  drawn := n + 3

theorem Round.retry (h : Round n r l) (hn : n + 2 < 2 ^ 255) :
    (machine .binary).step (leasedLedger n r l) (retryOp (binary.v4 (n + 2))) =
      (retriedLedger n r l, .done (.ok ())) := by
  have hid : validateIdentifier "u" 256 = true := by decide
  have hvalid : ExpiryCompletion.valid ⟨"u", binary.v4 (n + 2), .retry, none⟩ = true := by
    simp [ExpiryCompletion.valid, hid, validateIdentifier_binary hn]
  have hevent : validateEventInput (retryEvent r) = true := by
    have h₁ : validateIdentifier "acct" 256 = true := by decide
    have h₃ : validateIdentifier EventKind.jobRetryWait.asStr 64 = true := by decide
    simp [validateEventInput, retryEvent, h.accountId, maxIdentifierBytes, maxEventKindBytes, h₁,
      hid, h₃, h.attempt_pos.le]
  have hcom : (leasedLedger n r l).db.complete
      ⟨"u", binary.v4 (n + 2), .retry, none⟩ clockBack =
      .ok (retriedLedger n r l).db := by
    have hfind : (leasedLedger n r l).db.jobs.find? (fun s => s.jobId = "u") =
        some (r.lease (binary.v4 (n + 2)) clock.timestampMillis) := by
      simp [leasedLedger, lease, h.jobId]
    have hupdate : Table.update
        (fun s => s.jobId = "u" ∧ s.leaseToken = some (binary.v4 (n + 2)))
        (settle ⟨"u", binary.v4 (n + 2), .retry, none⟩ clockBack.timestampMillis
          (retrySeconds (saturatingAdd r.attempt 1))) (leasedLedger n r l).db.jobs =
        [retriedRow n r] := by
      simp [Table.update, leasedLedger, retriedRow, lease, h.jobId]
    simp only [Db.complete, hvalid, hfind, lease, hupdate, Bool.not_true, Bool.false_eq_true,
      ne_eq, not_true_eq_false, reduceCtorEq, or_self, ↓reduceIte]
    change insertEvent _ (retryEvent r) = _
    rw [insertEvent, if_pos hevent]
    rfl
  simp only [machine, retryOp, step, hcom]
  rfl

theorem Round.next (h : Round n r l) : Round (n + 1) (retriedRow n r) (retriedLedger n r l) where
  drawn := rfl
  settings := h.settings
  observed := h.observed
  jobs := rfl
  jobId := h.jobId
  accountId := h.accountId
  available := h.available
  state := .inr rfl
  expires := h.expires
  observedMs := h.observedMs
  runAfter := by
    have hb := backoffMs_bounds (saturatingAdd r.attempt 1)
    change saturatingAdd clockBack.timestampMillis (retrySeconds (saturatingAdd r.attempt 1) * 1000) ≤ _
    rw [retrySeconds_mul_eq h.attempt_pos, DateTime.saturatingAdd_timestampMillis _ hb.1 hb.2]
    have : clockBack.timestampMillis + 30000 = clock.timestampMillis := by decide
    have : backoffMs (saturatingAdd r.attempt 1) ≤ 30000 := by
      unfold backoffMs
      split_ifs <;> omega
    omega
  attempt := by
    have hnonneg : 0 ≤ r.attempt := by
      rw [h.attempt]
      simp only [i64Max]
      omega
    change saturatingAdd r.attempt 1 = _
    rw [saturatingAdd_one_of_nonneg hnonneg, h.attempt]
    simp only [i64Max]
    omega

theorem round_rounds (hn : n + 2 < 2 ^ 255) :
    ∃ r, Round n r ((machine .binary).run Ledger.init (rounds n)) := by
  induction n with
  | zero => exact round_zero
  | succ n ih =>
    obtain ⟨r, hr⟩ := ih (by omega)
    refine ⟨retriedRow n r, ?_⟩
    rw [rounds, Machine.run_append, Machine.run_cons, hr.claim, Machine.run_cons,
      hr.retry (by omega)]
    exact hr.next

theorem round_saturated (hmax : i64Max ≤ n + 1) (hn : n + 3 < 2 ^ 255) :
    ∃ (pre mid : List Op) (j₁ j₂ : ExpiryJob),
      let l := (machine .binary).run Ledger.init pre
      let l₁ := ((machine .binary).step l claimOp).1
      ((machine .binary).step l claimOp).2 = .claimed (.ok (some j₁)) ∧
      (∀ j ∈ claims ((machine .binary).history l₁ mid), j.jobId ≠ j₁.jobId) ∧
      ((machine .binary).step ((machine .binary).run l₁ mid) claimOp).2 =
        .claimed (.ok (some j₂)) ∧
      j₂.jobId = j₁.jobId ∧ j₁.attempt = i64Max ∧ j₂.attempt = i64Max := by
  obtain ⟨r, hr⟩ := round_rounds (n := n) (by omega)
  have hr' := hr.next
  refine ⟨rounds n, [retryOp (binary.v4 (n + 2))],
    r.toJob (binary.v4 (n + 2)) clockAhead,
    (retriedRow n r).toJob (binary.v4 (n + 1 + 2)) clockAhead, ?_⟩
  simp only [hr.claim, Machine.history_cons, Machine.history_nil, Machine.run_cons,
    Machine.run_nil, hr.retry (by omega), hr'.claim, true_and]
  have h₁ : saturatingAdd r.attempt 1 = min i64Max ↑(n + 1) := hr'.attempt
  have h₂ : saturatingAdd (retriedRow n r).attempt 1 = min i64Max ↑(n + 2) := hr'.next.attempt
  refine ⟨by simp [claims], rfl, ?_, ?_⟩
  · exact h₁.trans (min_eq_left (by push_cast; omega))
  · exact h₂.trans (min_eq_left (by push_cast; omega))

end Rounds

end CodexMarathon.Expiry
