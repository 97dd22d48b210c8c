/-
**The event log of the expiry jobs.**

Every operation that moves a job writes an event about it in the same transaction, so a job is where
the last event about it left it.  The events are numbered by an `AUTOINCREMENT` key: no number is
used twice, and an insertion after the last one fails.
-/

import CodexMarathon.Expiry.Lifecycle
import CodexMarathon.Lib.Log

namespace CodexMarathon.Expiry

open Relation

def Db.eventsOf (db : Db) (id : String) : List EventRow := Log.about EventRow.jobId id db.events

def starts (log : List EventRow) : ℕ := log.countP fun e => e.kind = .jobStarted

def Settles (log : List EventRow) (e : EventRow) : Prop :=
  (∃ s ∈ log, s.kind = .jobStarted ∧ s.attempt = e.attempt) ∨
    (e.kind = .jobSucceeded ∧ e.diagnosticCode = some "inventory_redeemed")

def EventRow.Ends (e : EventRow) : Prop := e.kind = .jobRetryWait ∨ e.kind = .jobSucceeded

/-- What the events about a job say of its row. Attempts are counted up to `i64Max`. -/
structure Recorded (log : List EventRow) (state : JobState) (attempt : ℤ) : Prop where
  silent : log = [] ↔ state = .queued ∧ attempt = 0
  last : ∀ e ∈ log.getLast?, e.Reports state attempt
  starts : attempt = min i64Max (starts log)
  running : state = .running → ∃ s ∈ log, s.kind = .jobStarted ∧ s.attempt = some attempt
  settled : ∀ before e, before ++ [e] <+: log → e.Ends → Settles before e

theorem recorded_nil : Recorded [] .queued 0 where
  silent := by simp
  last := by simp
  starts := by decide
  running := nofun
  settled before e h := by simp at h

theorem Recorded.append {log : List EventRow} {state state' : JobState} {attempt attempt' : ℤ}
    {e : EventRow} (h : Recorded log state attempt) (hrep : e.Reports state' attempt')
    (hqueued : state' ≠ .queued) (hstarts : attempt' = min i64Max (Expiry.starts (log ++ [e])))
    (hrunn : state' = .running → e.kind = .jobStarted) (hset : e.Ends → Settles log e) :
    Recorded (log ++ [e]) state' attempt' where
  silent := by simp [hqueued]
  last := by simpa using hrep
  starts := hstarts
  running hrun := ⟨e, by simp, hrunn hrun, hrep.attempt⟩
  settled before e' hprefix hends := by
    rcases List.prefix_concat_iff.1 hprefix with heq | hprefix
    · obtain ⟨rfl, rfl⟩ := List.append_inj' heq rfl |>.imp_right List.singleton_inj.1
      exact hset hends
    · exact h.settled before e' hprefix hends

section Events

variable {log : List EventRow} {state : JobState} {attempt : ℤ} {e : EventRow}

theorem starts_append (log : List EventRow) (e : EventRow) :
    starts (log ++ [e]) = starts log + if e.kind = .jobStarted then 1 else 0 := by
  simp [starts, List.countP_append, List.countP_cons]

theorem Recorded.start (h : Recorded log state attempt) (hkind : e.kind = .jobStarted)
    (hrep : e.Reports .running (saturatingAdd attempt 1)) :
    Recorded (log ++ [e]) .running (saturatingAdd attempt 1) := by
  refine h.append hrep nofun ?_ (fun _ => hkind) ?_
  · have hstarts := h.starts
    have hmax : (0 : ℤ) ≤ i64Max := by decide
    rw [saturatingAdd_one_of_nonneg (by omega), starts_append, if_pos hkind]
    omega
  · rintro (hretry | hsuc)
    · cases hkind.symm.trans hretry
    · cases hkind.symm.trans hsuc

theorem Recorded.settle {state' : JobState} (h : Recorded log .running attempt)
    (hkind : e.kind ≠ .jobStarted) (hrep : e.Reports state' attempt)
    (hstate : state' ≠ .queued ∧ state' ≠ .running) : Recorded (log ++ [e]) state' attempt := by
  refine h.append hrep hstate.1 ?_ (fun hrun => absurd hrun hstate.2) fun _ => .inl ?_
  · rw [starts_append, if_neg hkind, Nat.add_zero]
    exact h.starts
  · rw [hrep.attempt]
    exact h.running rfl

theorem Recorded.redeem (h : Recorded log state attempt) (hkind : e.kind = .jobSucceeded)
    (hcode : e.diagnosticCode = some "inventory_redeemed") (hrep : e.Reports .succeeded attempt) :
    Recorded (log ++ [e]) .succeeded attempt := by
  refine h.append hrep nofun ?_ nofun fun _ => .inr ⟨hkind, hcode⟩
  rw [starts_append, if_neg (by rw [hkind]; nofun), Nat.add_zero]
  exact h.starts

end Events

def Logged (l : Ledger) : Prop :=
  ∀ r ∈ l.db.jobs, Recorded (l.db.eventsOf r.jobId) r.state r.attempt

section Effects

variable {U : UuidSource} {l l' : Ledger}

theorem Logged.rewrite {p : JobRow → Bool} {f : JobRow → JobRow}
    (hjobs : l'.db.jobs = Table.update p f l.db.jobs) (hid : ∀ r, (f r).jobId = r.jobId)
    (hrow : ∀ r ∈ l.db.jobs, Recorded (l'.db.eventsOf r.jobId) (if p r then f r else r).state
      (if p r then f r else r).attempt) : Logged l' := by
  intro r hr
  rw [hjobs] at hr
  obtain ⟨q, hq, ⟨hp, rfl⟩ | ⟨hp, rfl⟩⟩ := Table.mem_update.1 hr
  · have hrec := hrow q hq
    rw [if_pos hp] at hrec
    rwa [hid]
  · have hrec := hrow r hq
    rwa [if_neg (by simp [hp])] at hrec

theorem Logged.still {p : JobRow → Bool} {f : JobRow → JobRow} (h : Logged l)
    (es : List EventRow) (hjobs : l'.db.jobs = Table.update p f l.db.jobs)
    (hf : ∀ r, (f r).jobId = r.jobId ∧ (f r).state = r.state ∧ (f r).attempt = r.attempt)
    (hevents : l'.db.events = l.db.events ++ es) (hes : ∀ e ∈ es, e.jobId = none) : Logged l' := by
  refine Logged.rewrite hjobs (fun r => (hf r).1) fun r hr => ?_
  have hlog : l'.db.eventsOf r.jobId = l.db.eventsOf r.jobId := by
    rw [Db.eventsOf, hevents]
    refine Log.about_append_of_ne fun e he heq => ?_
    cases (hes e he).symm.trans heq
  have hsame : (if p r then f r else r).state = r.state ∧
      (if p r then f r else r).attempt = r.attempt := by
    split
    · exact (hf r).2
    · exact ⟨rfl, rfl⟩
  rw [hlog, hsame.1, hsame.2]
  exact h r hr

theorem eventsOf_append (h : Sound U l) {r q : JobRow} (hr : r ∈ l.db.jobs) (hq : q ∈ l.db.jobs)
    {e : EventRow} (hjob : e.jobId = some r.jobId) (hevents : l'.db.events = l.db.events ++ [e]) :
    (q = r ∧ l'.db.eventsOf q.jobId = l.db.eventsOf q.jobId ++ [e]) ∨
      (q.jobId ≠ r.jobId ∧ l'.db.eventsOf q.jobId = l.db.eventsOf q.jobId) := by
  unfold Db.eventsOf
  rw [hevents]
  by_cases hid : q.jobId = r.jobId
  · exact .inl ⟨h.eq_of_jobId hq hr hid, Log.about_append_of_eq (by rw [hjob, hid])⟩
  · refine .inr ⟨hid, Log.about_append_of_ne fun e' he' heq => hid ?_⟩
    rw [List.mem_singleton.1 he', hjob] at heq
    exact (Option.some.inj heq).symm

theorem Logged.quiet (hs : Sound U l) (h : Logged l) (hq : Quiet U l l') : Logged l' := by
  cases hq with
  | idle jobs events =>
    obtain ⟨es, hes, hnone⟩ := events
    exact h.still es (p := fun _ => false) (f := id) (by simpa [Table.update] using jobs)
      (fun _ => ⟨rfl, rfl, rfl⟩) hes hnone
  | redeem r mem live stamp e kind jobId jobs events drawn reports code =>
    refine Logged.rewrite jobs (fun _ => rfl) fun q hq => ?_
    rcases eventsOf_append hs mem hq jobId events with ⟨rfl, hlog⟩ | ⟨hne, hlog⟩
    · rw [hlog, if_pos (by simp)]
      exact (h q hq).redeem kind code reports
    · rw [hlog, if_neg (by simpa using hne)]
      exact h q hq
  | insert accountId stamp credit expires new jobs events =>
    have hlog : ∀ id, l'.db.eventsOf id = l.db.eventsOf id := fun id => by
      rw [Db.eventsOf, events, Db.eventsOf]
    rw [Logged, jobs]
    refine List.forall_mem_append.2 ⟨fun r hr => ?_, List.forall_mem_singleton.2 ?_⟩
    · rw [hlog]
      exact h r hr
    · -- no event is about a job whose id was not drawn before
      have hnone : l'.db.eventsOf (U.v4 l.drawn) = [] := by
        rw [hlog]
        refine Log.about_eq_nil fun e he heq => not_drawn_v4 U l ?_
        exact hs.eventDrawn e he _ heq
      change Recorded (l'.db.eventsOf (U.v4 l.drawn)) .queued 0
      rw [hnone]
      exact recorded_nil
  | refresh _ _ _ jobs events =>
    exact h.still [] jobs (fun _ => ⟨rfl, rfl, rfl⟩) (by simpa using events) (by simp)
  | withdraw _ _ jobs events =>
    exact h.still [] jobs (fun _ => ⟨rfl, rfl, rfl⟩) (by simpa using events) (by simp)

theorem Logged.quiets (hs : Sound U l) (h : Logged l) (hq : ReflTransGen (Quiet U) l l') :
    Sound U l' ∧ Logged l' := by
  induction hq with
  | refl => exact ⟨hs, h⟩
  | tail _ hlast ih => exact ⟨ih.1.quiet hlast, ih.2.quiet ih.1 hlast⟩

theorem Logged.effect (hs : Sound U l) (h : Logged l) {op : Op} {a : Answer}
    (he : Effect U l op l' a) : Logged l' := by
  cases he with
  | quiet _ _ _ steps => exact (h.quiets hs steps).2
  | repeated => exact h
  | claimed _ _ now r _ _ e mem due kind jobId jobs events drawn reports =>
    refine Logged.rewrite jobs (fun _ => rfl) fun q hq => ?_
    rcases eventsOf_append hs mem hq jobId events with ⟨rfl, hlog⟩ | ⟨hne, hlog⟩
    · rw [hlog, if_pos (by simp)]
      exact (h q hq).start kind reports
    · rw [hlog, if_neg (by simpa using hne)]
      exact h q hq
  | settled c now r _ e mem running id token kind jobId jobs events drawn reports =>
    rw [← id] at jobId
    refine Logged.rewrite jobs (fun _ => rfl) fun q hq => ?_
    rcases eventsOf_append hs mem hq jobId events with ⟨rfl, hlog⟩ | ⟨hne, hlog⟩
    · rw [hlog, if_pos (by simp [id, token])]
      have hrec := h q hq
      rw [running] at hrec
      refine hrec.settle ?_ reports ?_
      · rw [kind]
        split <;> nofun
      · unfold JobRow.settle
        dsimp only
        split <;> exact ⟨nofun, nofun⟩
    · rw [hlog, if_neg (by simp [← id, hne])]
      exact h q hq

end Effects

def Op.failed : Op → Answer
  | .claim _ _ _ => .claimed (.error .persistence)
  | _ => .done (.error .persistence)

/-- The numbers of the log end at `i64Max`: an insertion after that fails, and with it the
transaction. -/
def keyedStep (U : UuidSource) (l : Ledger) (op : Op) : Ledger × Answer :=
  if ((step U l op).1.db.events.length : ℤ) ≤ i64Max then step U l op else (l, op.failed)

def store (U : UuidSource) : Machine Ledger Op Answer := ⟨keyedStep U⟩

structure Kept (U : UuidSource) (l : Ledger) : Prop where
  sound : Sound U l
  logged : Logged l
  room : (l.db.events.length : ℤ) ≤ i64Max

theorem kept_init (U : UuidSource) : Kept U Ledger.init where
  sound := sound_init U
  logged := by simp [Logged, Ledger.init, Db.empty]
  room := by decide

theorem Kept.keyedStep {U : UuidSource} {l : Ledger} (h : Kept U l) (op : Op) :
    Kept U (Expiry.keyedStep U l op).1 := by
  unfold Expiry.keyedStep
  split
  · rename_i hroom
    have heffect := step_effect U l op
    exact ⟨h.sound.effect heffect, h.logged.effect h.sound heffect, hroom⟩
  · exact h

theorem kept_run (U : UuidSource) (ops : List Op) : Kept U ((store U).run Ledger.init ops) :=
  Machine.invariant_run (fun _ op h => h.keyedStep op) ops (kept_init U)

structure Consistent (db : Db) (r : JobRow) : Prop where
  silent : db.eventsOf r.jobId = [] ↔ r.state = .queued ∧ r.attempt = 0
  last : ∀ e ∈ (db.eventsOf r.jobId).getLast?, e.state = some r.state ∧ e.attempt = some r.attempt
  starts : (starts (db.eventsOf r.jobId) : ℤ) = r.attempt
  settled : ∀ before e, before ++ [e] <+: db.eventsOf r.jobId → e.Ends → Settles before e

theorem Kept.consistent {U : UuidSource} {l : Ledger} (h : Kept U l) {r : JobRow}
    (hr : r ∈ l.db.jobs) : Consistent l.db r := by
  have hrec := h.logged r hr
  refine ⟨hrec.silent, fun e he => ?_, ?_, hrec.settled⟩
  · have hrep := hrec.last e he
    exact ⟨hrep.state, hrep.attempt⟩
  · -- the log has a number for every start, so the attempts are not cut off
    have hfew : Expiry.starts (l.db.eventsOf r.jobId) ≤ l.db.events.length :=
      List.countP_le_length.trans (List.length_filter_le _ _)
    have hroom := h.room
    have hstarts := hrec.starts
    omega

def written (U : UuidSource) (l : Ledger) (op : Op) : List EventRow :=
  (keyedStep U l op).1.db.events.drop l.db.events.length

theorem Kept.started {U : UuidSource} {l : Ledger} (h : Kept U l) {op : Op}
    (hop : ∀ o now, op ≠ .observe o now) {e : EventRow} (he : e ∈ written U l op) {id : String}
    (hid : e.jobId = some id) (hends : e.Ends) :
    ∃ s ∈ l.db.eventsOf id, s.kind = .jobStarted ∧ s.attempt = e.attempt := by
  unfold written Expiry.keyedStep at he
  split at he
  swap
  · simp at he
  have hwrit : ∀ {es : List EventRow}, (step U l op).1.db.events = l.db.events ++ es → e ∈ es := by
    intro es hes
    rwa [hes, List.drop_left] at he
  have heffect := step_effect U l op
  generalize (step U l op).1 = l', (step U l op).2 = a at heffect hwrit
  cases heffect with
  | quiet _ _ _ _ _ _ unnamed =>
    obtain ⟨es, hes, hnone⟩ := unnamed hop
    cases (hnone e (hwrit hes)).symm.trans hid
  | repeated => simpa using hwrit (List.append_nil _).symm
  | claimed _ _ _ _ _ _ _ _ _ kind _ _ events =>
    obtain rfl := List.mem_singleton.1 (hwrit events)
    rcases hends with hretry | hsuc
    · cases kind.symm.trans hretry
    · cases kind.symm.trans hsuc
  | settled c now r _ _ mem running hjob _ kind jobId _ events _ reports =>
    obtain rfl := List.mem_singleton.1 (hwrit events)
    obtain rfl : r.jobId = id := hjob.trans (Option.some.inj (jobId.symm.trans hid))
    obtain ⟨s, hs, hkind, hatt⟩ := (h.logged r mem).running running
    exact ⟨s, hs, hkind, hatt.trans reports.attempt.symm⟩

/-- **The log determines the jobs**, and an attempt is ended only after its start, except by an
observation. -/
theorem log_determines_jobs (U : UuidSource) (ops : List Op) :
    let l := (store U).run Ledger.init ops
    (∀ r ∈ l.db.jobs, Consistent l.db r) ∧
    ∀ op, (∀ o now, op ≠ .observe o now) → ∀ e ∈ written U l op, ∀ id, e.jobId = some id → e.Ends →
      ∃ s ∈ l.db.eventsOf id, s.kind = .jobStarted ∧ s.attempt = e.attempt := by
  intro l
  have hkept : Kept U l := kept_run U ops
  refine ⟨fun r hr => hkept.consistent hr, ?_⟩
  intro op hop e he id hid hends
  exact hkept.started hop he hid hends

example : (((store .binary).run Ledger.init (setup ++ [claimOp, retryOp "u01", claimOp])).db.eventsOf
    "u").map (fun e => (e.kind, e.attempt)) =
      [(.jobStarted, some 1), (.jobRetryWait, some 1), (.jobStarted, some 2)] := by
  decide +kernel

end CodexMarathon.Expiry
