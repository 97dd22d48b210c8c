/-
**The invariants of the expiry ledger.**

Derived from the inversion `Expiry.step_effect`: whatever operations ran, in whatever order, with
whatever arguments and clock values, the rows of the job table keep their identity, a credit has
at most one job, and the stream holds exactly the success events it should.
-/

import CodexMarathon.Expiry.Steps

namespace CodexMarathon.Expiry

open Relation Table JobRow EventRow

variable {a : Answer} {s : JobRow} {op : Op} {j : ExpiryJob}

/-! ### Identity columns -/

structure Identity where
  jobId : String
  accountId : String
  creditId : String
  idempotencyKey : String
deriving DecidableEq

def JobRow.identity (r : JobRow) : Identity :=
  ⟨r.jobId, r.accountId, r.creditId, r.idempotencyKey⟩

def ExpiryJob.identity (j : ExpiryJob) : Identity :=
  ⟨j.jobId, j.accountId, j.creditId, j.idempotencyKey⟩

section Columns

variable (r : JobRow)

end Columns

theorem RowQuiet.identity {r r' : JobRow} (h : RowQuiet r r') : r'.identity = r.identity := by
  cases h <;> rfl

theorem JobRow.jobId_eq_of_identity {r : JobRow} (h : r.identity = s.identity) :
    r.jobId = s.jobId := congrArg Identity.jobId h

theorem JobRow.credit_eq_of_identity {r : JobRow} (h : r.identity = s.identity) :
    (r.accountId, r.creditId) = (s.accountId, s.creditId) :=
  congrArg (fun i => (i.accountId, i.creditId)) h

def Drawn (U : UuidSource) (l : Ledger) (s : String) : Prop := ∃ n < l.drawn, U.v4 n = s

theorem Drawn.mono {U : UuidSource} {l l' : Ledger} (hle : l.drawn ≤ l'.drawn) {s : String}
    (h : Drawn U l s) : Drawn U l' s := by
  obtain ⟨n, hn, rfl⟩ := h
  exact ⟨n, hn.trans_le hle, rfl⟩

theorem drawn_v4 {U : UuidSource} {l : Ledger} {n : ℕ} (hn : n < l.drawn) :
    Drawn U l (U.v4 n) := ⟨n, hn, rfl⟩

theorem not_drawn_v4 (U : UuidSource) (l : Ledger) : ¬Drawn U l (U.v4 l.drawn) := by
  rintro ⟨n, hn, heq⟩
  exact hn.ne (U.injective heq)

/-! ### The invariant of the ledger -/

def EventRow.successOf (id : String) (e : EventRow) : Bool :=
  e.kind = .jobSucceeded ∧ e.jobId = some id

def Db.successes (db : Db) (id : String) : ℕ := db.events.countP (EventRow.successOf id)

def JobState.successes (s : JobState) : ℕ := if s = .succeeded then 1 else 0

structure Sound (U : UuidSource) (l : Ledger) : Prop where
  ids : Table.KeyUnique JobRow.jobId l.db.jobs
  credits : Table.KeyUnique (fun r : JobRow => (r.accountId, r.creditId)) l.db.jobs
  idDrawn : ∀ r ∈ l.db.jobs, Drawn U l r.jobId
  tokenDrawn : ∀ r ∈ l.db.jobs, ∀ t ∈ r.leaseToken, Drawn U l t
  attempt : ∀ r ∈ l.db.jobs, 0 ≤ r.attempt
  eventDrawn : ∀ e ∈ l.db.events, ∀ id ∈ e.jobId, Drawn U l id
  successes : ∀ r ∈ l.db.jobs, l.db.successes r.jobId = r.state.successes

theorem sound_init (U : UuidSource) : Sound U Ledger.init where
  ids := keyUnique_nil _
  credits := keyUnique_nil _
  idDrawn := by simp [Ledger.init, Db.empty]
  tokenDrawn := by simp [Ledger.init, Db.empty]
  attempt := by simp [Ledger.init, Db.empty]
  eventDrawn := by simp [Ledger.init, Db.empty]
  successes := by simp [Ledger.init, Db.empty]

section Effects

variable {U : UuidSource} {l l' : Ledger}

theorem Sound.eq_of_jobId (h : Sound U l) {r : JobRow} (hr : r ∈ l.db.jobs) (hs : s ∈ l.db.jobs)
    (hid : r.jobId = s.jobId) : r = s := h.ids.eq_of_mem hr hs hid

theorem Sound.rewrite (h : Sound U l) {p : JobRow → Bool} {f : JobRow → JobRow}
    (es : List EventRow) (hjobs : l'.db.jobs = update p f l.db.jobs)
    (hevents : l'.db.events = l.db.events ++ es) (hdrawn : l.drawn ≤ l'.drawn)
    (hident : ∀ r, (f r).identity = r.identity)
    (htoken : ∀ r ∈ l.db.jobs, ∀ t ∈ (f r).leaseToken, Drawn U l' t)
    (hatt : ∀ r ∈ l.db.jobs, 0 ≤ (f r).attempt) (hes : ∀ e ∈ es, ∀ id ∈ e.jobId, Drawn U l' id)
    (hsucc : ∀ r ∈ l.db.jobs, r.state.successes + es.countP (successOf r.jobId) =
      (if p r then f r else r).state.successes) : Sound U l' where
  ids := by
    rw [hjobs]
    exact h.ids.update fun r => jobId_eq_of_identity (hident r)
  credits := by
    rw [hjobs]
    exact h.credits.update fun r => credit_eq_of_identity (hident r)
  idDrawn := by
    rw [hjobs]
    intro r hr
    obtain ⟨q, hq, ⟨-, rfl⟩ | ⟨-, rfl⟩⟩ := mem_update.1 hr
    · rw [jobId_eq_of_identity (hident q)]
      exact (h.idDrawn q hq).mono hdrawn
    · exact (h.idDrawn _ hq).mono hdrawn
  tokenDrawn := by
    rw [hjobs]
    intro r hr t ht
    obtain ⟨q, hq, ⟨-, rfl⟩ | ⟨-, rfl⟩⟩ := mem_update.1 hr
    · exact htoken q hq t ht
    · exact (h.tokenDrawn _ hq t ht).mono hdrawn
  attempt := by
    rw [hjobs]
    intro r hr
    obtain ⟨q, hq, ⟨-, rfl⟩ | ⟨-, rfl⟩⟩ := mem_update.1 hr
    · exact hatt q hq
    · exact h.attempt _ hq
  eventDrawn := by
    rw [hevents]
    intro e he id hid
    rcases List.mem_append.1 he with he | he
    · exact (h.eventDrawn e he id hid).mono hdrawn
    · exact hes e he id hid
  successes := by
    intro r hr
    rw [hjobs] at hr
    have hold := fun q hq => h.successes q hq
    simp only [Db.successes] at hold ⊢
    rw [hevents, List.countP_append]
    obtain ⟨q, hq, ⟨hp, rfl⟩ | ⟨hp, rfl⟩⟩ := mem_update.1 hr
    · rw [jobId_eq_of_identity (hident q), hold q hq, hsucc q hq, if_pos hp]
    · rw [hold _ hq, hsucc _ hq, if_neg (by simp [hp])]

theorem successOf_of_jobId_ne {e : EventRow} {id : String} (h : e.jobId ≠ some id) :
    e.successOf id = false := by simp [successOf, h]

theorem Sound.insert (h : Sound U l) {accountId : String} {stamp : ℤ} {credit : ExpiryCredit}
    {expires : DateTime}
    (hnew : ∀ r ∈ l.db.jobs, ¬(r.accountId = accountId ∧ r.creditId = credit.creditId))
    (hjobs : l'.db.jobs = l.db.jobs ++
      [proposal (U.v4 l.drawn) (U.v4 (l.drawn + 1)) accountId stamp credit expires])
    (hevents : l'.db.events = l.db.events) (hdrawn : l'.drawn = l.drawn + 2) : Sound U l' := by
  have hle : l.drawn ≤ l'.drawn := by omega
  have hfresh := not_drawn_v4 U l
  refine ⟨?_, ?_, ?_, ?_, ?_, ?_, ?_⟩
  · rw [hjobs]
    refine h.ids.append_singleton fun r hr heq => hfresh ?_
    have : r.jobId = U.v4 l.drawn := heq
    exact this ▸ h.idDrawn r hr
  · rw [hjobs]
    refine h.credits.append_singleton fun r hr heq => hnew r hr ?_
    exact ⟨congrArg Prod.fst heq, congrArg Prod.snd heq⟩
  · rw [hjobs]
    refine List.forall_mem_append.2 ⟨fun r hr => (h.idDrawn r hr).mono hle, ?_⟩
    exact List.forall_mem_singleton.2 (drawn_v4 (by omega))
  · rw [hjobs]
    refine List.forall_mem_append.2 ⟨fun r hr t ht => (h.tokenDrawn r hr t ht).mono hle, ?_⟩
    exact List.forall_mem_singleton.2 fun t ht => by simp [proposal] at ht
  · rw [hjobs]
    exact List.forall_mem_append.2 ⟨h.attempt, List.forall_mem_singleton.2 le_rfl⟩
  · rw [hevents]
    exact fun e he id hid => (h.eventDrawn e he id hid).mono hle
  · rw [hjobs]
    simp only [Db.successes, hevents]
    refine List.forall_mem_append.2 ⟨h.successes, List.forall_mem_singleton.2 ?_⟩
    -- an event for the new job would have to name an identifier that was not drawn yet
    refine List.countP_eq_zero.2 fun e he hsucc => hfresh ?_
    simp only [successOf, decide_eq_true_eq] at hsucc
    exact h.eventDrawn e he _ hsucc.2

theorem Sound.quiet (h : Sound U l) (hq : Quiet U l l') : Sound U l' := by
  cases hq with
  | idle jobs events drawn =>
    obtain ⟨es, hes, hnone⟩ := events
    have hcount : ∀ id, es.countP (successOf id) = 0 := fun id =>
      List.countP_eq_zero.2 fun e he => by simp [successOf, hnone e he]
    refine h.rewrite es (p := fun _ => false) (f := id) (by simpa [update] using jobs) hes
      drawn.ge (fun _ => rfl) (fun r hr t ht => (h.tokenDrawn r hr t ht).mono drawn.ge) h.attempt
      (fun e he id hid => by simp [hnone e he] at hid) (fun r _ => by simp [hcount])
  | redeem r mem live stamp e kind jobId jobs events drawn =>
    refine h.rewrite [e] jobs events drawn.ge (fun _ => rfl)
      (fun q hq t ht => (h.tokenDrawn q hq t ht).mono drawn.ge) h.attempt ?_ ?_
    · rintro e' he' id hid
      obtain rfl := List.mem_singleton.1 he'
      rw [jobId, Option.mem_some_iff] at hid
      exact hid ▸ (h.idDrawn r mem).mono drawn.ge
    · intro q hq
      by_cases hid : q.jobId = r.jobId
      · obtain rfl := h.eq_of_jobId hq mem hid
        simp [successOf, JobState.successes, redeem, kind, jobId, live]
      · have hne : e.jobId ≠ some q.jobId := by
          rw [jobId]
          exact fun heq => hid (Option.some.inj heq).symm
        simp [successOf_of_jobId_ne hne, hid]
  | insert accountId stamp credit expires new jobs events drawn =>
    exact h.insert new jobs events drawn
  | refresh accountId creditId excluded jobs events drawn =>
    refine h.rewrite [] jobs (by simpa using events) (by omega) (fun _ => rfl)
      (fun q hq t ht => (h.tokenDrawn q hq t ht).mono (by omega)) h.attempt (by simp)
      fun q _ => ?_
    split <;> rfl
  | withdraw accountId creditId jobs events drawn =>
    refine h.rewrite [] jobs (by simpa using events) drawn.ge (fun _ => rfl)
      (fun q hq t ht => (h.tokenDrawn q hq t ht).mono drawn.ge) h.attempt (by simp) fun q _ => ?_
    split <;> rfl

theorem Sound.quiets (h : Sound U l) (hq : ReflTransGen (Quiet U) l l') : Sound U l' := by
  induction hq with
  | refl => exact h
  | tail _ hlast ih => exact ih.quiet hlast

theorem Db.due_state {db : Db} {ms : ℤ} {r : JobRow} (h : db.due ms r = true) :
    r.state ≠ .succeeded := by
  unfold Db.due at h
  split at h
  · cases h
  · intro hs
    simp [hs] at h

theorem Sound.effect (h : Sound U l) (he : Effect U l op l' a) : Sound U l' := by
  cases he with
  | quiet _ _ _ steps => exact h.quiets steps
  | repeated => exact h
  | claimed _ _ now r _ _ e mem due kind jobId jobs events drawn =>
    have hlt : l.drawn < l'.drawn := by omega
    refine h.rewrite [e] jobs events hlt.le (fun _ => rfl) ?_ ?_ ?_ ?_
    · intro q _ t ht
      obtain rfl : U.v4 l.drawn = t := Option.some.inj ht
      exact drawn_v4 hlt
    · exact fun q hq => (saturatingAdd_one_pos (h.attempt q hq)).le
    · rintro e' he' id hid
      obtain rfl := List.mem_singleton.1 he'
      rw [jobId, Option.mem_some_iff] at hid
      exact hid ▸ (h.idDrawn r mem).mono hlt.le
    · intro q hq
      have hnone : [e].countP (successOf q.jobId) = 0 := by
        simp [successOf, kind]
      rw [hnone]
      by_cases hid : q.jobId = r.jobId
      · obtain rfl := h.eq_of_jobId hq mem hid
        simp [JobState.successes, lease, Db.due_state due]
      · simp [hid]
  | settled c now r _ e mem running id token kind jobId jobs events drawn =>
    refine h.rewrite [e] jobs events drawn.ge (fun _ => rfl)
      (fun q hq t ht => (h.tokenDrawn q hq t ht).mono drawn.ge) h.attempt ?_ ?_
    · rintro e' he' i hid
      obtain rfl := List.mem_singleton.1 he'
      rw [jobId, Option.mem_some_iff] at hid
      exact hid ▸ id ▸ (h.idDrawn r mem).mono drawn.ge
    · intro q hq
      by_cases hid : q.jobId = c.jobId
      · obtain rfl := h.eq_of_jobId hq mem (hid.trans id.symm)
        cases hs : c.outcome.success <;>
          simp [successOf, JobState.successes, settle, kind, jobId, running, hid,
            token, hs]
      · have hne : e.jobId ≠ some q.jobId := by
          rw [jobId]
          exact fun heq => hid (Option.some.inj heq).symm
        simp [successOf_of_jobId_ne hne, hid]

/-! ### The ledger and its history -/

theorem Effect.row (he : Effect U l op l' a) {r : JobRow} (hr : r ∈ l.db.jobs) :
    ∃ r' ∈ l'.db.jobs, r'.identity = r.identity := by
  have hupdate : ∀ {p : JobRow → Bool} {f : JobRow → JobRow},
      l'.db.jobs = update p f l.db.jobs → (f r).identity = r.identity →
      ∃ r' ∈ l'.db.jobs, r'.identity = r.identity := by
    intro p f hjobs hf
    rw [hjobs]
    by_cases hp : p r = true
    · exact ⟨_, mem_update_of_mem hr hp, hf⟩
    · exact ⟨_, mem_update_of_not hr (by simpa using hp), rfl⟩
  cases he with
  | quiet _ _ _ steps =>
    obtain ⟨r', hr', hrow⟩ := quiets_row steps hr
    refine ⟨r', hr', rowQuiets_preserve (P := fun s => s.identity = r.identity) ?_ hrow rfl⟩
    exact fun s s' hss hs => hss.identity.trans hs
  | repeated => exact ⟨r, hr, rfl⟩
  | claimed _ _ _ _ _ _ _ _ _ _ _ jobs => exact hupdate jobs rfl
  | settled _ _ _ _ _ _ _ _ _ _ _ jobs => exact hupdate jobs rfl

end Effects

def lastClaim (h : History) (id : String) : Option ExpiryJob :=
  ((claims h).filter (fun j => j.jobId = id)).getLast?

@[simp] theorem claims_nil : claims [] = [] := rfl

theorem claims_append (h h' : History) : claims (h ++ h') = claims h ++ claims h' := by
  simp [claims]

theorem claims_append_none {h : History} (ha : a.job? = none) :
    claims (h ++ [(op, a)]) = claims h := by
  simp [claims, ha]

theorem claims_append_some {h : History} :
    claims (h ++ [(op, .claimed (.ok (some j)))]) = claims h ++ [j] := by
  simp [claims, Answer.job?]

/-- Every job handed out has its row, and a row carries the lease token of its last claim. -/
structure Traced (U : UuidSource) (h : History) (l : Ledger) : Prop where
  sound : Sound U l
  recorded : ∀ j ∈ claims h, ∃ r ∈ l.db.jobs, r.identity = j.identity
  issued : ∀ j ∈ claims h, Drawn U l j.leaseToken
  distinct : Table.KeyUnique ExpiryJob.leaseToken (claims h)
  leased : ∀ r ∈ l.db.jobs, r.leaseToken = (lastClaim h r.jobId).map (·.leaseToken)

theorem traced_init (U : UuidSource) : Traced U [] Ledger.init where
  sound := sound_init U
  recorded := by simp
  issued := by simp
  distinct := keyUnique_nil _
  leased := by simp [Ledger.init, Db.empty]

theorem lastClaim_append_some {h : History} (id : String) :
    lastClaim (h ++ [(op, .claimed (.ok (some j)))]) id =
      if j.jobId = id then some j else lastClaim h id := by
  simp only [lastClaim, claims_append_some, List.filter_append]
  by_cases hid : j.jobId = id
  · simp [hid]
  · simp [hid]

theorem mem_claims_of_lastClaim {h : History} {id : String} (hj : lastClaim h id = some j) :
    j ∈ claims h ∧ j.jobId = id := by
  have := List.mem_of_getLast? hj
  simpa using this

section Traces

variable {U : UuidSource} {h : History} {l l' : Ledger}

theorem Traced.quiet (ht : Traced U h l) (hq : Quiet U l l') : Traced U h l' := by
  have hle : l.drawn ≤ l'.drawn := by cases hq <;> omega
  have hrec : ∀ j ∈ claims h, ∃ r ∈ l'.db.jobs, r.identity = j.identity := by
    intro j hj
    obtain ⟨r, hr, hrj⟩ := ht.recorded j hj
    obtain ⟨r', hr', hrow⟩ := hq.row hr
    exact ⟨r', hr', hrow.identity.trans hrj⟩
  refine ⟨ht.sound.quiet hq, hrec, fun j hj => (ht.issued j hj).mono hle, ht.distinct, ?_⟩
  have hupdate : ∀ {p : JobRow → Bool} {f : JobRow → JobRow},
      l'.db.jobs = update p f l.db.jobs →
      (∀ r, (f r).jobId = r.jobId ∧ (f r).leaseToken = r.leaseToken) →
      ∀ r ∈ l'.db.jobs, r.leaseToken = (lastClaim h r.jobId).map (·.leaseToken) := by
    intro p f hjobs hf r hr
    rw [hjobs] at hr
    obtain ⟨q, hq, ⟨-, rfl⟩ | ⟨-, rfl⟩⟩ := mem_update.1 hr
    · rw [(hf q).1, (hf q).2]
      exact ht.leased q hq
    · exact ht.leased _ hq
  cases hq with
  | idle jobs => rw [jobs]; exact ht.leased
  | redeem _ _ _ _ _ _ _ jobs => exact hupdate jobs fun _ => ⟨rfl, rfl⟩
  | refresh _ _ _ jobs => exact hupdate jobs fun _ => ⟨rfl, rfl⟩
  | withdraw _ _ jobs => exact hupdate jobs fun _ => ⟨rfl, rfl⟩
  | insert _ _ _ _ _ jobs =>
    rw [jobs]
    refine List.forall_mem_append.2 ⟨ht.leased, List.forall_mem_singleton.2 ?_⟩
    -- the new job was never claimed: its identifier was not drawn before
    cases hlast : lastClaim h (U.v4 l.drawn) with
    | none => simp [proposal, hlast]
    | some j =>
      obtain ⟨hj, hid⟩ := mem_claims_of_lastClaim hlast
      obtain ⟨r, hr, hrj⟩ := ht.recorded j hj
      have hrid : r.jobId = U.v4 l.drawn := (congrArg Identity.jobId hrj).trans hid
      exact absurd (hrid ▸ ht.sound.idDrawn r hr) (not_drawn_v4 U l)

theorem Traced.quiets (ht : Traced U h l) (hq : ReflTransGen (Quiet U) l l') : Traced U h l' := by
  induction hq with
  | refl => exact ht
  | tail _ hlast ih => exact ih.quiet hlast

theorem Traced.append (ht : Traced U h l) (ha : a.job? = none) : Traced U (h ++ [(op, a)]) l where
  sound := ht.sound
  recorded := by rw [claims_append_none ha]; exact ht.recorded
  issued := by rw [claims_append_none ha]; exact ht.issued
  distinct := by rw [claims_append_none ha]; exact ht.distinct
  leased := by simp only [lastClaim, claims_append_none ha]; exact ht.leased

theorem Traced.effect (ht : Traced U h l) (he : Effect U l op l' a) :
    Traced U (h ++ [(op, a)]) l' := by
  have hsound := ht.sound.effect he
  have hrow : ∀ r ∈ l.db.jobs, ∃ r' ∈ l'.db.jobs, r'.identity = r.identity :=
    fun r hr => he.row hr
  cases he with
  | quiet _ _ _ steps job => exact (ht.quiets steps).append job
  | repeated => exact ht.append rfl
  | settled c now r _ e mem running id token kind jobId jobs events drawn =>
    refine Traced.append ⟨hsound, ?_, fun j hj => (ht.issued j hj).mono drawn.ge,
      ht.distinct, ?_⟩ rfl
    · intro j hj
      obtain ⟨s, hs, hsj⟩ := ht.recorded j hj
      obtain ⟨s', hs', hss⟩ := hrow s hs
      exact ⟨s', hs', hss.trans hsj⟩
    · rw [jobs]
      intro s hs
      obtain ⟨q, hq, ⟨-, rfl⟩ | ⟨-, rfl⟩⟩ := mem_update.1 hs
      · exact ht.leased q hq
      · exact ht.leased _ hq
  | claimed _ _ now r _ expiresAt e mem due kind jobId jobs events drawn =>
    refine ⟨hsound, ?_, ?_, ?_, ?_⟩
    · rw [claims_append_some]
      refine List.forall_mem_append.2 ⟨fun j hj => ?_, List.forall_mem_singleton.2 ?_⟩
      · obtain ⟨s, hs, hsj⟩ := ht.recorded j hj
        obtain ⟨s', hs', hss⟩ := hrow s hs
        exact ⟨s', hs', hss.trans hsj⟩
      · obtain ⟨r', hr', hrr⟩ := hrow r mem
        exact ⟨r', hr', hrr⟩
    · rw [claims_append_some]
      refine List.forall_mem_append.2 ⟨fun j hj => (ht.issued j hj).mono (by omega), ?_⟩
      exact List.forall_mem_singleton.2 (drawn_v4 (by omega))
    · rw [claims_append_some]
      refine ht.distinct.append_singleton fun j hj heq => not_drawn_v4 U l ?_
      have : j.leaseToken = U.v4 l.drawn := heq
      exact this ▸ ht.issued j hj
    · rw [jobs]
      intro s hs
      obtain ⟨q, hq, ⟨hp, rfl⟩ | ⟨hp, rfl⟩⟩ := mem_update.1 hs
      · have hid : (r.toJob (U.v4 l.drawn) expiresAt).jobId =
            (q.lease (U.v4 l.drawn) now.timestampMillis).jobId := by
          simpa [toJob, lease, eq_comm] using hp
        rw [lastClaim_append_some, if_pos hid]
        rfl
      · have hid : (r.toJob (U.v4 l.drawn) expiresAt).jobId ≠ s.jobId := by
          simpa [toJob, eq_comm] using hp
        rw [lastClaim_append_some, if_neg hid]
        exact ht.leased _ hq

end Traces

theorem run_traced (U : UuidSource) (ops : List Op) :
    Traced U ((machine U).history Ledger.init ops) ((machine U).run Ledger.init ops) := by
  simpa using Machine.invariant_history (fun _ m op hm => Traced.effect hm (step_effect U m op)) ops
    (traced_init U)

end CodexMarathon.Expiry
