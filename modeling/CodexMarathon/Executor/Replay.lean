/-
**One key per credit.**

The provider counts requests under one idempotency key once.  The ledger hands the same key out
whenever it hands out a credit, and the executors only send keys they were handed: whatever fails,
is lost or is repeated, all requests for one credit carry one key.
-/

import CodexMarathon.Executor.Trace
import CodexMarathon.Expiry.Invariants

namespace CodexMarathon

open Auth Expiry Prog

variable [Externals]

variable {c : ExecutorCall} {jobs : List ExpiryJob} {α : Type}

structure ConsumeRequest where
  accountId : Option String
  creditId : String
  idempotencyKey : String
deriving DecidableEq, Repr

def Expiry.ExpiryJob.request (job : ExpiryJob) : ConsumeRequest :=
  ⟨some job.accountId, job.creditId, job.idempotencyKey⟩

def ExecutorCall.consumes : ExecutorCall → Option ConsumeRequest
  | .consumeCredit client idempotencyKey creditId =>
    some ⟨client.auth.getAccountId, creditId, idempotencyKey⟩
  | _ => none

def learnt : (c : ExecutorCall) → c.Ans → List ExpiryJob
  | .expiryClaim, .ok (some job) => [job]
  | _, _ => []

namespace Executor

/-- An executor may send the requests of the jobs it knows, and learns jobs by claiming them. -/
def known : Prog.Semantics ExecutorCall ExecutorCall.Ans (List ExpiryJob) where
  pre c jobs := ∀ r, c.consumes = some r → ∃ job ∈ jobs, r = job.request
  rel c jobs a jobs' := jobs' = jobs ++ learnt c a

theorem safe_known_mono {p : ExecutorProg α} {Q : α → List ExpiryJob → Prop}
    (hQ : ∀ a jobs jobs', jobs ⊆ jobs' → Q a jobs → Q a jobs') {jobs' : List ExpiryJob}
    (hjobs : jobs ⊆ jobs') (h : p.Safe known Q jobs) : p.Safe known Q jobs' := by
  induction p generalizing jobs jobs' with
  | ret a => exact hQ a jobs jobs' hjobs h
  | call c k ih =>
    refine ⟨fun r hr => ?_, ?_⟩
    · obtain ⟨job, hjob, rfl⟩ := h.1 r hr
      exact ⟨job, hjobs hjob, rfl⟩
    · rintro a _ rfl
      exact ih a (List.append_subset.2 ⟨fun j hj => List.mem_append_left _ (hjobs hj),
        List.subset_append_right _ _⟩) (h.2 a _ rfl)

/-- Whoever knows the jobs `base` can run `p` and keeps knowing them; a result satisfies `Q`. -/
def Spec {α : Type} (base : List ExpiryJob) (p : ExecutorM α) (Q : α → Prop) : Prop :=
  ∀ jobs, base ⊆ jobs →
    p.run.Safe known (Prog.Outcome (fun a jobs' => Q a ∧ base ⊆ jobs') (base ⊆ ·)) jobs

section Operations

variable {base : List ExpiryJob} (cfg : Config)

theorem consumes_eq_none (hc : c.Plain) : c.consumes = none := by
  cases c with
  | consumeCredit client key credit => cases hc
  | _ => rfl

theorem spec_enabled : Spec base (enabled cfg) fun _ => True := by
  intro jobs hjobs
  refine (makes_enabled cfg).safe (I := (base ⊆ ·)) ?_ ?_ hjobs
  · intro c s hc _ r hr
    rw [consumes_eq_none hc] at hr
    cases hr
  · rintro c s a _ _ hs rfl
    exact List.subset_append_of_subset_left _ hs

theorem subset_of_follows {t : ExecutorTrace} {jobs' : List ExpiryJob}
    (h : Prog.Follows known jobs t jobs') : jobs ⊆ jobs' := by
  induction t generalizing jobs with
  | nil => exact h ▸ List.Subset.refl jobs
  | cons e t ih =>
    obtain ⟨_, rfl, h⟩ := h
    exact List.Subset.trans (List.subset_append_left _ _) (ih h)

theorem spec_accountOperation {id : String} {job : Option ExpiryJob}
    (hjob : ∀ j, job = some j → j ∈ base ∧ j.accountId = id) (refresh : Bool) :
    Spec base (accountOperation cfg id job refresh) fun _ => True := by
  intro jobs hjobs
  have htraced : Prog.Traced (Justified cfg id job) _ (fun _ _ => True) [] :=
    traced_accountOperation refresh
  refine (Prog.Safe.follow (M := known) htraced ?_ rfl).mono ?_
  · -- a request that is justified is that of the job
    rintro c t s hfol hjus r hr
    cases c with
    | consumeCredit client key credit =>
      cases hr
      obtain ⟨j, hj, h⟩ := hjus
      refine ⟨j, subset_of_follows hfol (hjobs (hjob j hj).1), ?_⟩
      rw [ExpiryJob.request, h.account, h.credit_eq, h.key_eq, (hjob j hj).2]
    | _ => cases hr
  · rintro (e | a) jobs' ⟨t, hfol⟩
    · exact List.Subset.trans hjobs (subset_of_follows hfol)
    · exact ⟨trivial, List.Subset.trans hjobs (subset_of_follows hfol)⟩

theorem spec_accountOperation_none (id : String) (refresh : Bool) :
    Spec base (accountOperation cfg id none refresh) fun _ => True := by
  have hnone : ∀ j, (none : Option ExpiryJob) = some j → j ∈ base ∧ j.accountId = id := by
    rintro j ⟨⟩
  exact spec_accountOperation cfg hnone refresh

/-! ### The loop -/

def Keeps {α : Type} (base : List ExpiryJob) (p : ExecutorProg α) : Prop :=
  ∀ jobs, base ⊆ jobs → p.Safe known (fun _ jobs' => base ⊆ jobs') jobs

theorem keeps_pure (a : α) : Keeps base (pure a : ExecutorProg α) :=
  fun _ hjobs => hjobs

theorem keeps_bind {β : Type} {p : ExecutorProg α} {f : α → ExecutorProg β} (hp : Keeps base p)
    (hf : ∀ a, Keeps base (f a)) : Keeps base (p >>= f) := by
  intro jobs hjobs
  exact safe_bind.2 ((hp jobs hjobs).mono fun a jobs' h => hf a jobs' h)

theorem keeps_call (hc : c.consumes = none) : Keeps base (call c) := by
  intro jobs hjobs
  refine safe_perform.2 ⟨?_, ?_⟩
  · intro r hr
    rw [hc] at hr
    cases hr
  · rintro a _ rfl
    exact List.subset_append_of_subset_left _ hjobs

theorem keeps_run {p : ExecutorM α} {Q : α → Prop} (hp : Spec base p Q) : Keeps base p.run := by
  intro jobs hjobs
  refine (hp jobs hjobs).mono ?_
  rintro (e | a) jobs' h
  · exact h
  · exact h.2

theorem keeps_timeout {p : ExecutorM α} {Q : α → Prop} (hp : Spec base p Q) :
    Keeps base (timeout p) := by
  intro jobs hjobs
  refine (safe_cut (I := (base ⊆ ·)) (J := (base ⊆ ·)) ?_ ?_ ?_ hjobs
    (keeps_run hp jobs hjobs)).mono ?_
  · rintro s r ⟨⟩
  · rintro s b s' hs rfl
    exact ⟨List.append_nil s, fun _ => hs⟩
  · rintro c s a s' hs rfl
    exact List.subset_append_of_subset_left _ hs
  · rintro (_ | r) jobs' h
    · exact h.2 rfl
    · exact h.1 r rfl

theorem keeps_publish (job : ExpiryJob) (outcome : ExpiryOutcome) (code : Option String) :
    Keeps base (publish cfg job outcome code) := by
  refine keeps_bind (keeps_run (spec_enabled cfg)) fun reachable => ?_
  cases reachable with
  | ok _ => exact keeps_bind (keeps_call rfl) fun _ => keeps_pure _
  | error _ => exact keeps_pure _

theorem keeps_runJob {job : ExpiryJob} (hjob : job ∈ base) : Keeps base (runJob cfg job) := by
  have hsome : ∀ j, some job = some j → j ∈ base ∧ j.accountId = job.accountId := by
    rintro j ⟨⟩
    exact ⟨hjob, rfl⟩
  refine keeps_bind (keeps_timeout (spec_accountOperation cfg hsome false)) fun result => ?_
  refine keeps_bind (keeps_publish cfg job _ _) fun _ => ?_
  split_ifs
  · exact keeps_bind (keeps_timeout (spec_accountOperation_none cfg _ true)) fun _ => keeps_pure _
  · exact keeps_pure _

theorem keeps_processJob : Keeps base (processJob cfg) := by
  refine keeps_bind (keeps_run (spec_enabled cfg)) fun isEnabled => ?_
  rcases isEnabled with code | (_ | _)
  · exact keeps_pure _
  · exact keeps_pure _
  intro jobs hjobs
  refine safe_bind.2 (safe_perform.2 ⟨nofun, ?_⟩)
  rintro claimed _ rfl
  rcases claimed with e | (_ | job)
  · exact List.subset_append_of_subset_left _ hjobs
  · exact List.subset_append_of_subset_left _ hjobs
  · refine (keeps_runJob cfg (List.mem_append_right base (List.mem_singleton_self job)) _ ?_).mono
      fun _ jobs' h => (List.append_subset.1 h).1
    exact List.append_subset.2 ⟨List.subset_append_of_subset_left _ hjobs,
      List.subset_append_right _ _⟩

theorem keeps_discover (id : String) (due : Due) : Keeps base (discover cfg id due) := by
  refine keeps_bind (keeps_call rfl) fun now => ?_
  split_ifs
  · refine keeps_bind (keeps_call rfl) fun started => ?_
    refine keeps_bind (keeps_call rfl) fun _ => ?_
    refine keeps_bind (keeps_timeout (spec_accountOperation_none cfg id false)) fun _ => ?_
    exact keeps_bind (keeps_processJob cfg) fun _ => keeps_pure _
  · exact keeps_pure _

theorem keeps_discoverAll (ids : List String) (due : Due) :
    Keeps base (discoverAll cfg ids due) := by
  induction ids generalizing due with
  | nil => exact keeps_pure _
  | cons id ids ih => exact keeps_bind (keeps_discover cfg id due) fun due => ih due

theorem keeps_survey (due : Due) : Keeps base (survey cfg due) := by
  refine keeps_bind (keeps_call rfl) fun previewed => ?_
  rcases previewed with e | state
  · exact keeps_pure _
  · exact keeps_bind (keeps_discoverAll cfg _ due) fun _ => keeps_pure _

theorem keeps_work (due : Due) : Keeps base (work cfg due) := by
  refine keeps_bind (keeps_run (spec_enabled cfg)) fun isEnabled => ?_
  have hidle : Keeps base (do let _ ← call .sleep; pure due : ExecutorProg Due) :=
    keeps_bind (keeps_call rfl) fun _ => keeps_pure _
  rcases isEnabled with code | (_ | _)
  · exact hidle
  · exact hidle
  refine keeps_bind (keeps_survey cfg due) fun due => ?_
  refine keeps_bind (keeps_processJob cfg) fun _ => ?_
  exact keeps_bind (keeps_call rfl) fun _ => keeps_pure _

theorem keeps_round (due : Due) : Keeps base (round cfg due) := by
  refine keeps_bind (keeps_run (spec_enabled cfg)) fun reachable => ?_
  rcases reachable with code | _
  · exact keeps_bind (keeps_call rfl) fun _ => keeps_pure _
  · exact keeps_bind (keeps_call rfl) fun _ => keeps_work cfg due

theorem keeps_loop (rounds : ℕ) (due : Due) : Keeps base (run cfg rounds due) := by
  induction rounds generalizing due with
  | zero => exact keeps_pure _
  | succ rounds ih => exact keeps_bind (keeps_round cfg due) fun due => ih due

end Operations

end Executor

/-! ### The ledger and its executors -/

/-- Whether the request arrives and the answer comes back, and what the daemon passes to the ledger
with it. -/
structure Delivery where
  arrives : Bool
  returns : Bool
  eligible : List String
  master : Bool
  now : DateTime

def ExecutorCall.ledgerOp (d : Delivery) : ExecutorCall → Option Op
  | .expiryHeartbeat => some (.heartbeat d.now)
  | .expiryClaim => some (.claim d.eligible d.master d.now)
  | .expiryObserve observation => some (.observe observation d.now)
  | .expiryComplete completion => some (.complete completion d.now)
  | _ => none

/-- The answer of the ledger if one comes back, and `other` for a call that is not about the ledger.
-/
def ExecutorCall.reply : (c : ExecutorCall) → Option Answer → c.Ans → c.Ans
  | .expiryClaim, answer, _ =>
    match answer with
    | some (.claimed (.ok job)) => .ok job
    | _ => .error ()
  | .expiryHeartbeat, answer, _ | .expiryObserve _, answer, _ | .expiryComplete _, answer, _ =>
    match answer with
    | some (.done (.ok ())) => .ok ()
    | _ => .error ()
  | _, _, other => other

structure Fleet where
  ledger : Ledger
  history : History
  executors : List (ExecutorProg Unit)
  sent : List ConsumeRequest

def Fleet.init : Fleet := ⟨.init, [], [], []⟩

/-- Any operation of the ledger, the start of an executor, its end at any point, and its next call.
-/
inductive FleetInput
  | ledger (op : Op)
  | start (cfg : Executor.Config) (rounds : ℕ)
  | stop (index : ℕ)
  | step (index : ℕ) (delivery : Delivery) (answers : (c : ExecutorCall) → c.Ans)

namespace Fleet

variable (U : UuidSource) (s : Fleet)

def perform (op : Op) : Fleet :=
  { s with
    ledger := (step U s.ledger op).1
    history := s.history ++ [(op, (step U s.ledger op).2)] }

def deliver (d : Delivery) (c : ExecutorCall) : Fleet × Option Answer :=
  match c.ledgerOp d with
  | some op =>
    if d.arrives then
      (s.perform U op, if d.returns then some (step U s.ledger op).2 else none)
    else (s, none)
  | none => (s, none)

def advance (index : ℕ) (d : Delivery) (answers : (c : ExecutorCall) → c.Ans) : Fleet :=
  match s.executors[index]? with
  | some (.call c k) =>
    let (delivered, answer) := s.deliver U d c
    { delivered with
      executors := s.executors.set index (k (c.reply answer (answers c)))
      sent := s.sent ++ c.consumes.toList }
  | _ => s

def next : FleetInput → Fleet
  | .ledger op => s.perform U op
  | .start cfg rounds =>
    { s with executors := s.executors ++ [Executor.run cfg rounds fun _ => none] }
  | .stop index => { s with executors := s.executors.eraseIdx index }
  | .step index delivery answers => s.advance U index delivery answers

end Fleet

def fleet (U : UuidSource) : Machine Fleet FleetInput Unit := ⟨fun s i => (s.next U i, ())⟩

/-! ### What every run keeps -/

theorem learnt_reply (c : ExecutorCall) (answer : Option Answer) (other : c.Ans) :
    learnt c (c.reply answer other) ⊆ (answer.bind Answer.job?).toList := by
  cases c with
  | expiryClaim =>
    rcases answer with _ | (_ | (_ | (_ | job)))
    all_goals simp [ExecutorCall.reply, learnt, Answer.job?]
  | _ => exact List.nil_subset _

/-- The executors are safe with the jobs handed out so far, and every request is one of these jobs.
-/
structure Fleet.Consistent (U : UuidSource) (s : Fleet) : Prop where
  traced : Traced U s.history s.ledger
  safe : ∀ p ∈ s.executors, p.Safe Executor.known (fun _ _ => True) (claims s.history)
  sent : ∀ r ∈ s.sent, ∃ job ∈ claims s.history, r = job.request

namespace Fleet

variable {U : UuidSource} {s : Fleet}

theorem consistent_init (U : UuidSource) : Fleet.init.Consistent U := ⟨traced_init U, nofun, nofun⟩

theorem claims_perform (U : UuidSource) (s : Fleet) (op : Op) : claims (s.perform U op).history =
      claims s.history ++ ((step U s.ledger op).2.job?).toList := by
  rw [perform, claims_append]
  cases h : (step U s.ledger op).2.job? <;> simp [claims, h]

theorem Consistent.perform (h : s.Consistent U) (op : Op) : (s.perform U op).Consistent U where
  traced := h.traced.effect (step_effect U s.ledger op)
  safe p hp := by
    refine Executor.safe_known_mono (fun _ _ _ _ _ => trivial) ?_ (h.safe p hp)
    rw [claims_perform]
    exact List.subset_append_left _ _
  sent r hr := by
    obtain ⟨job, hjob, rfl⟩ := h.sent r hr
    refine ⟨job, ?_, rfl⟩
    rw [claims_perform]
    exact List.mem_append_left _ hjob

theorem Consistent.deliver (h : s.Consistent U) (d : Delivery) (c : ExecutorCall) :
    (s.deliver U d c).1.Consistent U ∧
      claims s.history ++ ((s.deliver U d c).2.bind Answer.job?).toList ⊆
        claims (s.deliver U d c).1.history := by
  unfold Fleet.deliver
  cases c.ledgerOp d with
  | none => exact ⟨h, by simp⟩
  | some op =>
    cases d.arrives with
    | false => exact ⟨h, by simp⟩
    | true =>
      refine ⟨h.perform op, ?_⟩
      simp only [if_true, claims_perform]
      cases d.returns <;> simp

theorem deliver_executors (d : Delivery) (c : ExecutorCall) :
    (s.deliver U d c).1.executors = s.executors ∧ (s.deliver U d c).1.sent = s.sent := by
  unfold deliver
  cases c.ledgerOp d with
  | none => exact ⟨rfl, rfl⟩
  | some op => cases d.arrives <;> exact ⟨rfl, rfl⟩

theorem Consistent.advance (h : s.Consistent U) (index : ℕ) (d : Delivery)
    (answers : (c : ExecutorCall) → c.Ans) : (s.advance U index d answers).Consistent U := by
  unfold Fleet.advance
  cases hp : s.executors[index]? with
  | none => exact h
  | some p =>
    cases p with
    | ret a => exact h
    | call c k =>
      have hsafe := h.safe _ (List.mem_of_getElem? hp)
      obtain ⟨hdel, hclaims⟩ := h.deliver d c
      obtain ⟨hexec, hsent⟩ := deliver_executors (U := U) (s := s) d c
      have hmono : ∀ {p : ExecutorProg Unit} {jobs : List ExpiryJob},
          jobs ⊆ claims (s.deliver U d c).1.history →
          p.Safe Executor.known (fun _ _ => True) jobs →
          p.Safe Executor.known (fun _ _ => True) (claims (s.deliver U d c).1.history) :=
        fun hjobs hp => Executor.safe_known_mono (fun _ _ _ _ _ => trivial) hjobs hp
      refine ⟨hdel.traced, ?_, ?_⟩
      · intro p hp
        rcases List.mem_or_eq_of_mem_set hp with hp | rfl
        · exact hmono (List.append_subset.1 hclaims).1 (h.safe p hp)
        · refine hmono ?_ (hsafe.2 _ _ rfl)
          refine List.append_subset.2 ⟨(List.append_subset.1 hclaims).1, ?_⟩
          exact List.Subset.trans (learnt_reply c _ _) (List.append_subset.1 hclaims).2
      · intro r hr
        rcases List.mem_append.1 hr with hr | hr
        · exact hdel.sent r (hsent ▸ hr)
        · obtain ⟨job, hjob, hr⟩ := hsafe.1 r (Option.mem_toList.1 hr)
          exact ⟨job, (List.append_subset.1 hclaims).1 hjob, hr⟩

theorem Consistent.next (h : s.Consistent U) (i : FleetInput) : (s.next U i).Consistent U := by
  cases i with
  | ledger op => exact h.perform op
  | start cfg rounds =>
    refine ⟨h.traced, ?_, h.sent⟩
    intro p hp
    rcases List.mem_append.1 hp with hp | hp
    · exact h.safe p hp
    · rw [List.mem_singleton.1 hp]
      exact (Executor.keeps_loop cfg rounds _ _ (List.nil_subset _)).mono fun _ _ _ => trivial
  | stop index => exact ⟨h.traced, fun p hp => h.safe p (List.mem_of_mem_eraseIdx hp), h.sent⟩
  | step index delivery answers => exact h.advance index delivery answers

theorem Consistent.identity_eq (h : s.Consistent U) {j j' : ExpiryJob} (hj : j ∈ claims s.history)
    (hj' : j' ∈ claims s.history) (hacc : j.accountId = j'.accountId)
    (hcredit : j.creditId = j'.creditId) : j.identity = j'.identity := by
  obtain ⟨r, hr, hrj⟩ := h.traced.recorded j hj
  obtain ⟨r', hr', hrj'⟩ := h.traced.recorded j' hj'
  have hrow : r = r' := by
    refine h.traced.sound.credits.eq_of_mem hr hr' ?_
    have credit : ∀ {a b : Identity}, a = b → (a.accountId, a.creditId) = (b.accountId, b.creditId) :=
      fun h => h ▸ rfl
    calc (r.accountId, r.creditId) = (j.accountId, j.creditId) := credit hrj
      _ = (j'.accountId, j'.creditId) := by rw [hacc, hcredit]
      _ = (r'.accountId, r'.creditId) := (credit hrj').symm
  rw [← hrj, ← hrj', hrow]

end Fleet

/-- **One key per credit**: all jobs and all requests for a credit of an account carry the same id
and key. -/
theorem one_key_per_credit (U : UuidSource) (inputs : List FleetInput) :
    let s := (fleet U).run .init inputs
    (∀ accountId creditId, s.ledger.db.jobs.countP
        (fun r => r.accountId = accountId ∧ r.creditId = creditId) ≤ 1) ∧
      (∀ j ∈ claims s.history, ∀ j' ∈ claims s.history, j.accountId = j'.accountId →
        j.creditId = j'.creditId → j.jobId = j'.jobId ∧ j.idempotencyKey = j'.idempotencyKey) ∧
      ∀ r ∈ s.sent, ∀ r' ∈ s.sent, r.accountId = r'.accountId → r.creditId = r'.creditId →
        r = r' := by
  have h : ((fleet U).run .init inputs).Consistent U :=
    Machine.invariant_run (fun s i hs => hs.next i) inputs (Fleet.consistent_init U)
  refine ⟨?_, ?_, ?_⟩
  · intro accountId creditId
    have hcount := List.nodup_iff_count_le_one.1 h.traced.sound.credits (accountId, creditId)
    rw [List.count, List.countP_map] at hcount
    refine le_trans (le_of_eq (List.countP_congr fun r _ => ?_)) hcount
    simp [Function.comp, Prod.ext_iff]
  · intro j hj j' hj' hacc hcredit
    have hiden := h.identity_eq hj hj' hacc hcredit
    exact ⟨congrArg Identity.jobId hiden, congrArg Identity.idempotencyKey hiden⟩
  · intro r hr r' hr' hacc hcredit
    obtain ⟨j, hj, rfl⟩ := h.sent r hr
    obtain ⟨j', hj', rfl⟩ := h.sent r' hr'
    have hiden := h.identity_eq hj hj' (Option.some_inj.1 hacc) hcredit
    rw [ExpiryJob.request, ExpiryJob.request, Option.some_inj.1 hacc]
    exact congrArg₂ (ConsumeRequest.mk _) hcredit (congrArg Identity.idempotencyKey hiden)

end CodexMarathon
