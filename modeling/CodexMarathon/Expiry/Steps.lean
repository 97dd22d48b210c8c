/-
**What an operation of the expiry ledger can do.**

An operation is a transaction of several statements.  This module says once what a transaction can
do to the rows of the job table and to the event stream; every invariant of the ledger is derived
from this inversion.
-/

import CodexMarathon.Expiry.Store
import CodexMarathon.Lib.Result

namespace CodexMarathon

open Result

namespace Expiry

open Relation

variable {r : JobRow} {db : Db} {now : DateTime}

/-! ### Quiet statements -/

structure EventRow.Reports (e : EventRow) (state : JobState) (attempt : ℤ) : Prop where
  state : e.state = some state
  attempt : e.attempt = some attempt

def Unnamed (l l' : Ledger) : Prop :=
  ∃ es, l'.db.events = l.db.events ++ es ∧ ∀ e ∈ es, e.jobId = none

theorem unnamed_refl (l : Ledger) : Unnamed l l := ⟨[], (List.append_nil _).symm, List.forall_mem_nil _⟩

/-- One statement of an operation that neither claims nor completes a job. -/
inductive Quiet (U : UuidSource) (l l' : Ledger) : Prop
  | idle (jobs : l'.db.jobs = l.db.jobs) (events : Unnamed l l') (drawn : l'.drawn = l.drawn)
  | redeem (r : JobRow) (mem : r ∈ l.db.jobs) (live : r.state ≠ .succeeded) (stamp : ℤ)
      (e : EventRow) (kind : e.kind = .jobSucceeded) (jobId : e.jobId = some r.jobId)
      (jobs : l'.db.jobs = Table.update (fun s => s.jobId = r.jobId) (JobRow.redeem stamp) l.db.jobs)
      (events : l'.db.events = l.db.events ++ [e]) (drawn : l'.drawn = l.drawn)
      (reports : e.Reports .succeeded r.attempt)
      (code : e.diagnosticCode = some "inventory_redeemed")
  | insert (accountId : String) (stamp : ℤ) (credit : ExpiryCredit) (expires : DateTime)
      (new : ∀ r ∈ l.db.jobs, ¬(r.accountId = accountId ∧ r.creditId = credit.creditId))
      (jobs : l'.db.jobs = l.db.jobs ++
        [JobRow.proposal (U.v4 l.drawn) (U.v4 (l.drawn + 1)) accountId stamp credit expires])
      (events : l'.db.events = l.db.events) (drawn : l'.drawn = l.drawn + 2)
  | refresh (accountId creditId : String) (excluded : JobRow)
      (jobs : l'.db.jobs = Table.update (fun r => r.accountId = accountId ∧ r.creditId = creditId)
        excluded.refresh l.db.jobs)
      (events : l'.db.events = l.db.events) (drawn : l'.drawn = l.drawn + 2)
  | withdraw (accountId creditId : String)
      (jobs : l'.db.jobs = Table.update (fun r => r.accountId = accountId ∧ r.creditId = creditId)
        JobRow.withdraw l.db.jobs)
      (events : l'.db.events = l.db.events) (drawn : l'.drawn = l.drawn)

inductive RowQuiet (r : JobRow) : JobRow → Prop
  | same : RowQuiet r r
  | redeem (stamp : ℤ) : RowQuiet r (r.redeem stamp)
  | refresh (excluded : JobRow) : RowQuiet r (excluded.refresh r)
  | withdraw : RowQuiet r r.withdraw

def ExpiryCredit.spent (credit : ExpiryCredit) : Prop :=
  credit.status = "redeemed" ∨ credit.status = "consumed"

instance (credit : ExpiryCredit) : Decidable credit.spent :=
  inferInstanceAs (Decidable (_ ∨ _))

/-- What one turn of `observe`'s loop can do. -/
inductive Turn (U : UuidSource) (accountId : String) (stamp : ℤ) (credit : ExpiryCredit)
    (l : Ledger) : Ledger → Prop
  | idle (spent : credit.spent) : Turn U accountId stamp credit l l
  | redeem (spent : credit.spent) (r : JobRow) (mem : r ∈ l.db.jobs) (account : r.accountId = accountId)
      (creditId : r.creditId = credit.creditId) (live : r.state ≠ .succeeded) (e : EventRow)
      (kind : e.kind = .jobSucceeded) (owner : e.accountId = some accountId)
      (jobId : e.jobId = some r.jobId) (reports : e.Reports .succeeded r.attempt)
      (code : e.diagnosticCode = some "inventory_redeemed") :
      Turn U accountId stamp credit l
        ⟨{ l.db.updateJob r.jobId (JobRow.redeem stamp) with events := l.db.events ++ [e] }, l.drawn⟩
  | insert (fresh : ¬ credit.spent) (expires : DateTime) (h : credit.expiresAt = some expires)
      (new : ∀ r ∈ l.db.jobs, ¬(r.accountId = accountId ∧ r.creditId = credit.creditId)) :
      Turn U accountId stamp credit l
        ⟨{ l.db with jobs := l.db.jobs ++ [JobRow.proposal (U.v4 l.drawn) (U.v4 (l.drawn + 1))
            accountId stamp credit expires] }, l.drawn + 2⟩
  | refresh (fresh : ¬ credit.spent) (expires : DateTime) (h : credit.expiresAt = some expires) :
      Turn U accountId stamp credit l
        ⟨l.db.updateCredit accountId credit.creditId (JobRow.proposal (U.v4 l.drawn)
          (U.v4 (l.drawn + 1)) accountId stamp credit expires).refresh, l.drawn + 2⟩
  | withdraw (fresh : ¬ credit.spent) :
      Turn U accountId stamp credit l
        ⟨l.db.updateCredit accountId credit.creditId JobRow.withdraw, l.drawn⟩

/-- Everything an operation `op` of the ledger can do, with the answer it gives. -/
inductive Effect (U : UuidSource) (l : Ledger) : Op → Ledger → Answer → Prop
  /-- A `complete` without a statement was refused; only an `observe` has one that writes an event
  about a job or an observation. -/
  | quiet (op : Op) (l' : Ledger) (a : Answer) (steps : ReflTransGen (Quiet U) l l')
      (job : a.job? = none) (refused : ∀ c now, op = .complete c now → ∃ e, a = .done (.error e))
      (unnamed : (∀ o now, op ≠ .observe o now) → Unnamed l l')
      (observations : (∀ o now, op ≠ .observe o now) → l'.db.observations = l.db.observations) :
      Effect U l op l' a
  | claimed (eligible : List String) (master : Bool) (now : DateTime) (r : JobRow) (l' : Ledger)
      (expiresAt : DateTime) (e : EventRow) (mem : r ∈ l.db.jobs)
      (due : l.db.due now.timestampMillis r = true) (kind : e.kind = .jobStarted)
      (jobId : e.jobId = some r.jobId)
      (jobs : l'.db.jobs = Table.update (fun s => s.jobId = r.jobId)
        (JobRow.lease (U.v4 l.drawn) now.timestampMillis) l.db.jobs)
      (events : l'.db.events = l.db.events ++ [e]) (drawn : l'.drawn = l.drawn + 1)
      (reports : e.Reports .running (saturatingAdd r.attempt 1))
      (observations : l'.db.observations = l.db.observations) :
      Effect U l (.claim eligible master now) l'
        (.claimed (.ok (some (r.toJob (U.v4 l.drawn) expiresAt))))
  | settled (c : ExpiryCompletion) (now : DateTime) (r : JobRow) (l' : Ledger) (e : EventRow)
      (mem : r ∈ l.db.jobs) (running : r.state = .running) (id : r.jobId = c.jobId)
      (token : r.leaseToken = some c.leaseToken)
      (kind : e.kind = if c.outcome.success then .jobSucceeded else .jobRetryWait)
      (jobId : e.jobId = some c.jobId)
      (jobs : l'.db.jobs = Table.update
        (fun s => s.jobId = c.jobId ∧ s.leaseToken = some c.leaseToken)
        (JobRow.settle c now.timestampMillis (retrySeconds r.attempt)) l.db.jobs)
      (events : l'.db.events = l.db.events ++ [e]) (drawn : l'.drawn = l.drawn)
      (reports : e.Reports (if c.outcome.success then .succeeded else .retryWait) r.attempt)
      (observations : l'.db.observations = l.db.observations) :
      Effect U l (.complete c now) l' (.done (.ok ()))
  | repeated (c : ExpiryCompletion) (now : DateTime) (r : JobRow) (mem : r ∈ l.db.jobs)
      (settled : r.state = .succeeded ∨ r.state = .retryWait) (id : r.jobId = c.jobId)
      (token : r.leaseToken = some c.leaseToken) :
      Effect U l (.complete c now) l (.done (.ok ()))

/-! ### Inversion of the statements -/

theorem insertEvent_eq_ok {db' : Db} {input : EventInput} (h : insertEvent db input = .ok db') :
    db' = { db with events := db.events ++ [input.toRow] } := by
  unfold insertEvent at h
  split at h <;> cases h
  rfl

theorem upsertObservation_jobs (db : Db) (accountId : String) (stamp : ℤ) :
    (db.upsertObservation accountId stamp).jobs = db.jobs := by
  unfold Db.upsertObservation
  split <;> rfl

section Inversion

variable {U : UuidSource} {l l' : Ledger}

theorem idle_set {enabled : Bool} {clock : DateTime} (h : l.db.set enabled clock = .ok db) :
    db.jobs = l.db.jobs ∧ db.observations = l.db.observations ∧ Unnamed l { l with db := db } := by
  unfold Db.set at h
  split at h
  · cases h
    exact ⟨rfl, rfl, unnamed_refl l⟩
  · split at h
    · cases h
      exact ⟨rfl, rfl, unnamed_refl l⟩
    · rw [insertEvent_eq_ok h]
      exact ⟨rfl, rfl, _, rfl, by simp [EventInput.toRow]⟩

theorem turn_observeCredit {accountId : String} {stamp : ℤ} {credit : ExpiryCredit}
    (h : observeCredit U accountId stamp now l credit = .ok l') :
    Turn U accountId stamp credit l l' := by
  unfold observeCredit at h
  split at h
  · rename_i hspent
    split at h
    · cases h
      exact .idle hspent
    · rename_i row hrow
      obtain ⟨db, hdb, rfl⟩ := map_eq_ok.1 h
      rw [insertEvent_eq_ok hdb]
      have hfound := List.find?_some hrow
      simp only [decide_eq_true_eq] at hfound
      exact .redeem hspent row (List.mem_of_find?_eq_some hrow) hfound.1 hfound.2.1 hfound.2.2 _
        rfl rfl rfl ⟨rfl, rfl⟩ rfl
  · rename_i hfresh
    split at h
    · rename_i expires hexp
      obtain ⟨db, hdb, rfl⟩ := map_eq_ok.1 h
      unfold Db.upsertJob at hdb
      split at hdb
      · cases hdb
      split at hdb <;> rename_i hany
      · cases hdb
        exact .refresh hfresh expires hexp
      · cases hdb
        refine .insert hfresh expires hexp fun r hr hpair => ?_
        exact hany (List.any_eq_true.2 ⟨r, hr, decide_eq_true hpair⟩)
    · cases h
      exact .withdraw hfresh

theorem Turn.quiet {accountId : String} {stamp : ℤ} {credit : ExpiryCredit}
    (h : Turn U accountId stamp credit l l') : ReflTransGen (Quiet U) l l' := by
  cases h with
  | idle => exact .refl
  | redeem _ r mem _ _ live e kind _ jobId reports code =>
    exact .single (.redeem r mem live stamp e kind jobId rfl rfl rfl reports code)
  | insert _ expires _ new => exact .single (.insert accountId stamp credit expires new rfl rfl rfl)
  | refresh => exact .single (.refresh _ _ _ rfl rfl rfl)
  | withdraw => exact .single (.withdraw _ _ rfl rfl rfl)

def ExpiryObservation.Ignored (observation : ExpiryObservation) (l : Ledger) : Prop :=
  observation.credits = none ∨ ∃ previous ∈ l.db.observedMs observation.accountId,
    observation.observedAt.timestampMillis < previous

instance (observation : ExpiryObservation) (l : Ledger) : Decidable (observation.Ignored l) :=
  inferInstanceAs (Decidable (_ ∨ _))

def Ledger.stamped (l : Ledger) (observation : ExpiryObservation) : Ledger :=
  { l with db := l.db.upsertObservation observation.accountId observation.observedAt.timestampMillis }

theorem Ledger.observe_eq_ok {observation : ExpiryObservation}
    (h : l.observe U observation now = .ok l') : (l' = l ∧ observation.Ignored l) ∨
      ∃ credits, observation.credits = some credits ∧ ¬ observation.Ignored l ∧
        credits.foldlM (observeCredit U observation.accountId
          observation.observedAt.timestampMillis now) (l.stamped observation) = .ok l' := by
  unfold Ledger.observe at h
  split at h
  · cases h
  split at h
  · cases h
  split at h
  · rename_i hcred
    cases h
    exact .inl ⟨rfl, .inl hcred⟩
  rename_i credits hcred
  split at h
  · cases h
  dsimp only at h
  split at h <;> rename_i hstale
  · cases h
    refine .inl ⟨rfl, .inr ?_⟩
    cases hprev : l.db.observedMs observation.accountId with
    | none => simp [hprev] at hstale
    | some previous => exact ⟨previous, rfl, by simpa [hprev] using hstale⟩
  · refine .inr ⟨credits, hcred, ?_, h⟩
    rintro (hnone | ⟨previous, hprev, hlt⟩)
    · rw [hcred] at hnone
      cases hnone
    · rw [Option.mem_def.1 hprev] at hstale
      exact hstale (decide_eq_true hlt)

theorem quiet_stamped (l : Ledger) (observation : ExpiryObservation) :
    Quiet U l (l.stamped observation) := by
  refine .idle (upsertObservation_jobs _ _ _) ⟨[], ?_, List.forall_mem_nil _⟩ rfl
  unfold Ledger.stamped Db.upsertObservation
  split <;> exact (List.append_nil _).symm

theorem quiet_observe {observation : ExpiryObservation} (h : l.observe U observation now = .ok l') :
    ReflTransGen (Quiet U) l l' := by
  rcases Ledger.observe_eq_ok h with ⟨rfl, -⟩ | ⟨credits, -, -, hloop⟩
  · exact .refl
  · exact .head (quiet_stamped l observation)
      (foldlM_reflTransGen (fun hturn => (turn_observeCredit hturn).quiet) hloop)

theorem Db.candidate_mem {eligible : List String} {ms : ℤ} (h : db.candidate eligible ms = some r) :
    r ∈ db.jobs ∧ db.due ms r = true := by
  have hr := List.mem_of_find?_eq_some h
  rw [List.mem_insertionSort, List.mem_filter] at hr
  exact hr

theorem effect_claim (eligible : List String) (master : Bool) (now : DateTime) :
    Effect U l (.claim eligible master now) (step U l (.claim eligible master now)).1
      (step U l (.claim eligible master now)).2 := by
  have refused : ∀ c t, Op.claim eligible master now = .complete c t →
      ∃ e, (step U l (.claim eligible master now)).2 = .done (.error e) :=
    fun _ _ hop => nomatch hop
  cases hclaim : l.claim U eligible master now with
  | error e =>
    have hstep : step U l (.claim eligible master now) = (l, .claimed (.error e)) := by
      simp only [step, hclaim]
    rw [hstep] at refused ⊢
    exact .quiet _ _ _ .refl rfl refused (fun _ => unnamed_refl l) fun _ => rfl
  | ok res =>
    obtain ⟨job, l'⟩ := res
    have hstep : step U l (.claim eligible master now) = (l', .claimed (.ok job)) := by
      simp only [step, hclaim]
    rw [hstep] at refused ⊢
    unfold Ledger.claim at hclaim
    split at hclaim
    · cases hclaim
      exact .quiet _ _ _ .refl rfl refused (fun _ => unnamed_refl l) fun _ => rfl
    split at hclaim
    · cases hclaim
    split at hclaim
    · cases hclaim
      exact .quiet _ _ _ .refl rfl refused (fun _ => unnamed_refl l) fun _ => rfl
    split at hclaim
    · cases hclaim
      exact .quiet _ _ _ .refl rfl refused (fun _ => unnamed_refl l) fun _ => rfl
    rename_i row hrow
    obtain ⟨db, hdb, hrest⟩ := bind_eq_ok.1 hclaim
    split at hrest
    · cases hrest
    cases hrest
    obtain ⟨hmem, hdue⟩ := Db.candidate_mem hrow
    rw [insertEvent_eq_ok hdb]
    exact .claimed eligible master now row _ _ _ hmem hdue rfl rfl rfl rfl rfl ⟨rfl, rfl⟩ rfl

theorem effect_complete (c : ExpiryCompletion) (now : DateTime) :
    Effect U l (.complete c now) (step U l (.complete c now)).1 (step U l (.complete c now)).2 := by
  cases hcomp : l.db.complete c now with
  | error e =>
    have hstep : step U l (.complete c now) = (l, .done (.error e)) := by
      simp only [step, hcomp, Ledger.commitDb]
    rw [hstep]
    exact .quiet _ _ _ .refl rfl (fun _ _ _ => ⟨e, rfl⟩) (fun _ => unnamed_refl l) fun _ => rfl
  | ok db =>
    have hstep : step U l (.complete c now) = ({ l with db := db }, .done (.ok ())) := by
      simp only [step, hcomp, Ledger.commitDb]
    rw [hstep]
    unfold Db.complete at hcomp
    split at hcomp
    · cases hcomp
    split at hcomp
    · cases hcomp
    rename_i row hrow
    have hmem := List.mem_of_find?_eq_some hrow
    have hid : row.jobId = c.jobId := by simpa using List.find?_some hrow
    split at hcomp
    · cases hcomp
    rename_i htoken
    rw [not_not] at htoken
    split at hcomp
    · cases hcomp
      exact .repeated c now row hmem ‹_› hid htoken
    split at hcomp
    · cases hcomp
    rename_i hrun
    rw [insertEvent_eq_ok hcomp]
    exact .settled c now row _ _ hmem (not_not.1 hrun) hid htoken rfl rfl rfl rfl rfl
      ⟨rfl, rfl⟩ rfl

theorem effect_commitDb {op : Op} {res : Except AccountdError Db}
    (hop : ∀ c now, op ≠ .complete c now)
    (hres : ∀ db, res = .ok db → db.jobs = l.db.jobs ∧ db.observations = l.db.observations ∧
      Unnamed l { l with db := db }) :
    Effect U l op (l.commitDb res).1 (l.commitDb res).2 := by
  have href : ∀ {a : Answer} c now, op = .complete c now → ∃ e, a = .done (.error e) :=
    fun c now h => absurd h (hop c now)
  cases res with
  | error e => exact .quiet _ _ _ .refl rfl href (fun _ => unnamed_refl l) fun _ => rfl
  | ok db =>
    obtain ⟨hjobs, hobs, hevents⟩ := hres db rfl
    exact .quiet _ _ _ (.single (.idle hjobs hevents rfl)) rfl href (fun _ => hevents)
      fun _ => hobs

variable (U l) in
theorem step_effect (op : Op) : Effect U l op (step U l op).1 (step U l op).2 := by
  cases op with
  | reopen =>
    refine effect_commitDb (fun _ _ => nofun) fun db h => ?_
    unfold Db.reopen at h
    split at h <;> cases h
    exact ⟨rfl, rfl, unnamed_refl l⟩
  | set enabled clock => exact effect_commitDb (fun _ _ => nofun) fun _ => idle_set
  | heartbeat now =>
    refine effect_commitDb (fun _ _ => nofun) fun db h => ?_
    cases h
    exact ⟨rfl, rfl, unnamed_refl l⟩
  | observe observation now =>
    cases h : l.observe U observation now with
    | error e =>
      simp only [step, h]
      exact .quiet _ _ _ .refl rfl (fun _ _ => nofun) (fun _ => unnamed_refl l) fun _ => rfl
    | ok l' =>
      simp only [step, h]
      exact .quiet _ _ _ (quiet_observe h) rfl (fun _ _ => nofun)
        (fun hop => absurd rfl (hop observation now))
        fun hop => absurd rfl (hop observation now)
  | claim eligible master now => exact effect_claim eligible master now
  | complete c now => exact effect_complete c now
  | abort => exact .quiet _ _ _ .refl rfl (fun _ _ => nofun) (fun _ => unnamed_refl l) fun _ => rfl

theorem Quiet.row (h : Quiet U l l') (hr : r ∈ l.db.jobs) : ∃ r' ∈ l'.db.jobs, RowQuiet r r' := by
  have hupdate : ∀ {p : JobRow → Bool} {f : JobRow → JobRow},
      l'.db.jobs = Table.update p f l.db.jobs → RowQuiet r (f r) →
      ∃ r' ∈ l'.db.jobs, RowQuiet r r' := by
    intro p f hjobs hf
    rw [hjobs]
    by_cases hp : p r = true
    · exact ⟨_, Table.mem_update_of_mem hr hp, hf⟩
    · exact ⟨_, Table.mem_update_of_not hr (by simpa using hp), .same⟩
  cases h with
  | idle jobs => exact ⟨r, by rwa [jobs], .same⟩
  | redeem _ _ _ stamp _ _ _ jobs => exact hupdate jobs (.redeem stamp)
  | insert _ _ _ _ _ jobs => exact ⟨r, by rw [jobs]; exact List.mem_append_left _ hr, .same⟩
  | refresh _ _ excluded jobs => exact hupdate jobs (.refresh excluded)
  | withdraw _ _ jobs => exact hupdate jobs .withdraw

theorem quiets_row (h : ReflTransGen (Quiet U) l l') (hr : r ∈ l.db.jobs) :
    ∃ r' ∈ l'.db.jobs, ReflTransGen RowQuiet r r' := by
  induction h with
  | refl => exact ⟨r, hr, .refl⟩
  | tail _ hlast ih =>
    obtain ⟨m, hm, hrm⟩ := ih
    obtain ⟨r', hr', hmr⟩ := hlast.row hm
    exact ⟨r', hr', hrm.tail hmr⟩

theorem rowQuiets_preserve {P : JobRow → Prop} (hP : ∀ r r', RowQuiet r r' → P r → P r')
    {r' : JobRow} (h : ReflTransGen RowQuiet r r') (hr : P r) : P r' := by
  induction h with
  | refl => exact hr
  | tail _ hlast ih => exact hP _ _ hlast ih

end Inversion

end Expiry

end CodexMarathon
