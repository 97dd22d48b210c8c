/-
**The life of a job and its events.**

A job is queued, may start, and then succeeds, fails or is interrupted; one that is queued or was
interrupted can be cancelled.  The events about a job are exactly these transitions, whatever
processes work on the database and wherever they are lost: between the reading and the transaction
of `reconcile_running_jobs` a job never goes back to `running`.
-/

import CodexMarathon.Jobs.Store
import CodexMarathon.Lib.Log
import CodexMarathon.Lib.Result
import Mathlib.Data.List.Chain

namespace CodexMarathon

open Table

namespace Jobs

open Expiry (AccountdError EventKind JobState EventInput EventRow validateEventInput)

variable {f : JobRow → JobRow} {q : Interrupted} {moved : Bool} {jobId : String}

inductive Edge : JobState → JobState → Prop
  | start : Edge .queued .running
  | succeed : Edge .running .succeeded
  | fail : Edge .running .failed
  | interrupt : Edge .running .retryWait
  | cancelQueued : Edge .queued .cancelled
  | cancelWaiting : Edge .retryWait .cancelled

def Terminal : JobState → Prop
  | .succeeded | .failed | .cancelled => True
  | .queued | .running | .retryWait => False

theorem Edge.not_terminal {s s' : JobState} (h : Edge s s') : ¬ Terminal s := by
  cases h <;> exact id

structure Reports (e : EventRow) (r : JobRow) : Prop where
  jobId : e.jobId = some r.jobId
  state : e.state = some r.state
  attempt : e.attempt = some r.attempt
  generation : e.generation = some r.generation

inductive Change (op : Op) (db : Db) : Db → Prop
  | same : Change op db db
  | appended (input : EventInput) (h : op = .appendEvent input) :
      Change op db { db with events := db.events ++ [input.toRow] }
  | queued (r : JobRow) (e : EventRow) (new : ∀ q ∈ db.jobs, q.jobId ≠ r.jobId)
      (state : r.state = .queued) (reports : Reports e r) :
      Change op db ⟨db.jobs ++ [r], db.events ++ [e]⟩
  | moved (r : JobRow) (p : JobRow → Bool) (f : JobRow → JobRow) (e : EventRow)
      (mem : r ∈ db.jobs) (selected : p r = true)
      (only : ∀ q ∈ db.jobs, p q = true → q.jobId = r.jobId)
      (jobId : ∀ q, (f q).jobId = q.jobId) (generation : ∀ q, (f q).generation = q.generation)
      (edge : Edge r.state (f r).state) (reports : Reports e (f r)) :
      Change op db ⟨Table.update p f db.jobs, db.events ++ [e]⟩

/-- What a reconciliation has read of a job is still its generation. -/
structure Sound (s : System) : Prop where
  ids : Table.KeyUnique JobRow.jobId s.db.jobs
  calls : ∀ process, ∀ call ∈ s.calls process, ∀ q ∈ call.rows,
    ∃ r ∈ s.db.jobs, r.jobId = q.jobId ∧ r.generation = q.generation

section Inversion

variable {op : Op} {db db' : Db} {now : DateTime}

theorem insertEvent_eq_ok {input : EventInput} (h : insertEvent db input = .ok db') :
    db' = { db with events := db.events ++ [input.toRow] } := by
  unfold insertEvent at h
  split at h <;> cases h
  rfl

theorem queueJob_eq_ok {spec : JobSpec} {record : JobRecord}
    (h : db.queueJob spec now = .ok (record, db')) :
    validateJobSpec spec = true ∧ (∀ q ∈ db.jobs, q.jobId ≠ spec.jobId) ∧
      ∃ input, Reports input.toRow (spec.toRow now) ∧
        insertEvent { db with jobs := db.jobs ++ [spec.toRow now] } input = .ok db' := by
  unfold Db.queueJob at h
  split at h
  · cases h
  rename_i hvalid
  split at h
  · cases h
  rename_i hnew
  obtain ⟨db'', hinsert, hpair⟩ := Result.map_eq_ok.1 h
  cases hpair
  refine ⟨by simpa using hvalid, fun q hq hid => hnew ?_, _, ⟨rfl, rfl, rfl, rfl⟩, hinsert⟩
  exact List.any_eq_true.2 ⟨q, hq, decide_eq_true hid⟩

theorem change_move {expected : JobState → Bool} {event : JobRow → EventInput}
    (h : db.move jobId expected f event = .ok (moved, db')) (hjobId : ∀ q, (f q).jobId = q.jobId)
    (hgen : ∀ q, (f q).generation = q.generation)
    (hedge : ∀ r ∈ db.jobs, expected r.state = true → Edge r.state (f r).state)
    (hrep : ∀ r ∈ db.jobs, r.jobId = jobId → Reports (event r).toRow (f r)) : Change op db db' := by
  unfold Db.move at h
  split at h
  · cases h
    exact .same
  rename_i r hr
  obtain ⟨db'', hinsert, hpair⟩ := Result.map_eq_ok.1 h
  cases hpair
  rw [insertEvent_eq_ok hinsert]
  have hmem := List.mem_of_find?_eq_some hr
  have hsel := List.find?_some hr
  have hfound : r.jobId = jobId ∧ expected r.state = true := by simpa using hsel
  refine .moved r _ f _ hmem hsel (fun q _ hq => ?_) hjobId hgen
    (hedge r hmem hfound.2) (hrep r hmem hfound.1)
  have hq : q.jobId = jobId ∧ expected q.state = true := by simpa using hq
  exact hq.1.trans hfound.1.symm

theorem change_transitionJob {expected next : JobState} {diagnostic : Option String}
    {kind : EventKind} (hedge : Edge expected next)
    (h : db.transitionJob jobId expected next diagnostic kind now = .ok (moved, db')) :
    Change op db db' := by
  unfold Db.transitionJob at h
  split at h
  · cases h
  refine change_move h (fun _ => rfl) (fun _ => rfl) (fun r _ hexp => ?_)
    fun r _ hid => ⟨congrArg some hid.symm, rfl, rfl, rfl⟩
  rw [of_decide_eq_true hexp]
  exact hedge

theorem change_cancelJob (h : db.cancelJob jobId now = .ok (moved, db')) : Change op db db' := by
  unfold Db.cancelJob at h
  split at h
  · cases h
  refine change_move h (fun _ => rfl) (fun _ => rfl) (fun r _ hexp => ?_)
    fun r _ hid => ⟨congrArg some hid.symm, rfl, rfl, rfl⟩
  have hstate : r.state = .queued ∨ r.state = .retryWait := by simpa using hexp
  rcases hstate with hstate | hstate <;> rw [hstate]
  · exact .cancelQueued
  · exact .cancelWaiting

theorem Interrupted.settlement_edge {t : Settlement} (h : q.settlement now = some t) :
    Edge .running t.state := by
  unfold Interrupted.settlement at h
  split at h
  · obtain ⟨runAfter, -, rfl⟩ := Option.map_eq_some_iff.1 h
    exact .interrupt
  · cases h
    exact .fail

theorem change_reconcileRow (hids : Table.KeyUnique JobRow.jobId db.jobs)
    (hread : ∃ r ∈ db.jobs, r.jobId = q.jobId ∧ r.generation = q.generation)
    (h : db.reconcileRow q now = .ok (moved, db')) : Change op db db' := by
  unfold Db.reconcileRow at h
  split at h
  · cases h
  rename_i t ht
  refine change_move h (fun _ => rfl) (fun _ => rfl) (fun r _ hexp => ?_) fun r hr hid => ?_
  · rw [of_decide_eq_true hexp]
    exact Interrupted.settlement_edge ht
  · -- the row that was read is the one that is settled, since ids are unique
    obtain ⟨r', hr', hid', hgen⟩ := hread
    obtain rfl := hids.eq_of_mem hr hr' (hid.trans hid'.symm)
    exact ⟨congrArg some hid.symm, rfl, rfl, congrArg some hgen.symm⟩

end Inversion

/-! ### Every operation makes a change -/

def Op.Finishes (id : String) : Op → Prop
  | .markJobSucceeded jobId _ => jobId = id
  | .markJobFailed jobId code _ => jobId = id ∧ validateDiagnostic code = true
  | _ => False

section Steps

variable {s : System} {op : Op} {db db' : Db}

/-- **The transactions of an operation.** What holds before, and after each transaction that it may
commit, holds after it. -/
theorem step_rule {P : Db → Prop} (same : P s.db)
    (queued : ∀ {spec now record db'}, s.db.queueJob spec now = .ok (record, db') → P db')
    (appended : ∀ {input db'}, op = .appendEvent input → insertEvent s.db input = .ok db' → P db')
    (transition : ∀ {jobId expected next diagnostic kind now moved db'}, Edge expected next →
      (expected = .running → op.Finishes jobId) →
      s.db.transitionJob jobId expected next diagnostic kind now = .ok (moved, db') → P db')
    (cancelled : ∀ {jobId now moved db'}, s.db.cancelJob jobId now = .ok (moved, db') → P db')
    (settled : ∀ {process call q now moved db'}, call ∈ s.calls process → q ∈ call.rows →
      s.db.reconcileRow q now = .ok (moved, db') → P db') : P (step s op).1.db := by
  have hcommit : ∀ {res : Except AccountdError (Bool × Db)},
      (∀ moved db', res = .ok (moved, db') → P db') → P (s.commit res).1.db := by
    rintro (e | ⟨moved, db'⟩) h
    · exact same
    · exact h moved db' rfl
  cases op with
  | queueJob spec now =>
    cases h : s.db.queueJob spec now with
    | error e => simpa only [step, h] using same
    | ok result => simpa only [step, h] using queued h
  | markJobRunning jobId now => exact hcommit fun _ _ => transition .start nofun
  | markJobSucceeded jobId now => exact hcommit fun _ _ => transition .succeed fun _ => rfl
  | markJobFailed jobId code now =>
    refine hcommit fun moved db' h => ?_
    unfold Db.markJobFailed at h
    split at h
    · cases h
    · rename_i hcode
      exact transition .fail (fun _ => ⟨rfl, by simpa using hcode⟩) h
  | cancelJob jobId now => exact hcommit fun _ _ => cancelled
  | appendEvent input =>
    cases h : insertEvent s.db input with
    | error e => simpa only [step, h] using same
    | ok db' => simpa only [step, h] using appended rfl h
  | reconcileNext process =>
    simp only [step, System.reconcileNext]
    split
    · exact same
    · exact same
    · rename_i now q rows reconciled hcall
      split
      · rename_i moved db' hrow
        exact settled hcall List.mem_cons_self hrow
      · exact same
  | reconcile process now => exact same
  | crash process => exact same
  | abort => exact same

theorem step_change (hs : Sound s) (op : Op) : Change op s.db (step s op).1.db := by
  refine step_rule .same (fun h => ?_) (fun hop h => ?_)
    (fun hedge _ => change_transitionJob hedge) change_cancelJob fun hcall hq => ?_
  · obtain ⟨-, hnew, input, hrep, hinsert⟩ := queueJob_eq_ok h
    rw [insertEvent_eq_ok hinsert]
    exact .queued _ _ hnew rfl hrep
  · rw [insertEvent_eq_ok h]
    exact .appended _ hop
  · exact change_reconcileRow hs.ids (hs.calls _ _ hcall _ hq)

theorem Change.ids (h : Change op db db') (hids : Table.KeyUnique JobRow.jobId db.jobs) :
    Table.KeyUnique JobRow.jobId db'.jobs := by
  cases h with
  | same => exact hids
  | appended => exact hids
  | queued r e new => exact hids.append_singleton new
  | moved r p f e _ _ _ hjobId => exact hids.update hjobId

theorem Change.persists (h : Change op db db') {r : JobRow} (hr : r ∈ db.jobs) :
    ∃ r' ∈ db'.jobs, r'.jobId = r.jobId ∧ r'.generation = r.generation := by
  cases h with
  | same => exact ⟨r, hr, rfl, rfl⟩
  | appended => exact ⟨r, hr, rfl, rfl⟩
  | queued => exact ⟨r, List.mem_append_left _ hr, rfl, rfl⟩
  | moved _ p f _ _ _ _ hjobId hgen =>
    by_cases hp : p r = true
    · exact ⟨f r, mem_update_of_mem hr hp, hjobId r, hgen r⟩
    · exact ⟨r, mem_update_of_not hr (Bool.eq_false_iff.2 hp), rfl, rfl⟩

theorem mem_interrupted (h : q ∈ db.interrupted) :
    ∃ r ∈ db.jobs, r.jobId = q.jobId ∧ r.generation = q.generation := by
  obtain ⟨r, hr, rfl⟩ := List.mem_map.1 h
  rw [Listing.mem_orderBy, List.mem_filter] at hr
  exact ⟨r, hr.1, rfl, rfl⟩

def Carried (s : System) (process : ℕ) (c : Option Call) : Prop :=
  ∀ call ∈ c, ∀ q ∈ call.rows,
    q ∈ s.db.interrupted ∨ ∃ call' ∈ s.calls process, q ∈ call'.rows

def Kept (s : System) (process : ℕ) (c : Option Call) : Prop :=
  ∀ call ∈ c, ∃ call' ∈ s.calls process, ∀ q ∈ call.rows, q ∈ call'.rows

theorem kept_none (s : System) (process : ℕ) : Kept s process none := fun _ => nofun

theorem calls_commit (res : Except AccountdError (Bool × Db)) :
    (s.commit res).1.calls = s.calls := by
  cases res <;> rfl

theorem calls_reconcileNext (process : ℕ) :
    ∃ c, (s.reconcileNext process).1.calls = Function.update s.calls process c ∧
      Kept s process c := by
  unfold System.reconcileNext
  split
  · rename_i hcall
    exact ⟨none, by rw [← hcall, Function.update_eq_self], kept_none s process⟩
  · exact ⟨none, rfl, kept_none s process⟩
  · rename_i now q rows reconciled hcall
    split
    · refine ⟨_, rfl, fun call hnext => ⟨_, hcall, fun q' hq' => ?_⟩⟩
      obtain rfl := Option.mem_some_iff.1 hnext
      exact List.mem_cons_of_mem _ hq'
    · exact ⟨none, rfl, kept_none s process⟩

theorem step_calls_cases (s : System) (op : Op) :
    ∃ process c, (step s op).1.calls = Function.update s.calls process c ∧ (Kept s process c ∨
        ∃ now, op = .reconcile process now ∧ c = some ⟨now, s.db.interrupted, 0⟩) := by
  -- an operation that leaves the calls alone sets one to what it is
  have hsame : ∀ {s' : System}, s'.calls = s.calls →
      ∃ process c, s'.calls = Function.update s.calls process c ∧
        (Kept s process c ∨
          ∃ now, op = .reconcile process now ∧ c = some ⟨now, s.db.interrupted, 0⟩) :=
    fun h => ⟨0, s.calls 0, by rw [h, Function.update_eq_self],
      .inl fun call hcall => ⟨call, hcall, fun _ hq => hq⟩⟩
  cases op with
  | queueJob spec now =>
    refine hsame ?_
    cases h : s.db.queueJob spec now <;> simp only [step, h]
  | markJobRunning jobId now => exact hsame (calls_commit _)
  | markJobSucceeded jobId now => exact hsame (calls_commit _)
  | markJobFailed jobId code now => exact hsame (calls_commit _)
  | cancelJob jobId now => exact hsame (calls_commit _)
  | appendEvent input =>
    refine hsame ?_
    cases h : insertEvent s.db input <;> simp only [step, h]
  | reconcile process now => exact ⟨process, _, rfl, .inr ⟨now, rfl, rfl⟩⟩
  | reconcileNext process =>
    obtain ⟨c, hcalls, hkept⟩ := calls_reconcileNext process
    exact ⟨process, c, hcalls, .inl hkept⟩
  | crash process => exact ⟨process, none, rfl, .inl (kept_none s process)⟩
  | abort => exact hsame rfl

theorem step_calls (s : System) (op : Op) :
    ∃ process c, (step s op).1.calls = Function.update s.calls process c ∧ Carried s process c := by
  obtain ⟨process, c, hcalls, hkept | ⟨now, -, rfl⟩⟩ := step_calls_cases s op
  · refine ⟨process, c, hcalls, fun call hcall q hq => .inr ?_⟩
    obtain ⟨call', hcall', hrows⟩ := hkept call hcall
    exact ⟨call', hcall', hrows q hq⟩
  · refine ⟨process, _, hcalls, fun call hcall q hq => .inl ?_⟩
    obtain rfl := Option.mem_some_iff.1 hcall
    exact hq

theorem rows_step {process : ℕ} {call : Call} (hcall : call ∈ (step s op).1.calls process)
    (hq : q ∈ call.rows) : q ∈ s.db.interrupted ∨ ∃ call' ∈ s.calls process, q ∈ call'.rows := by
  obtain ⟨process', c, hcalls, hcar⟩ := step_calls s op
  rw [hcalls] at hcall
  by_cases hproc : process = process'
  · subst hproc
    rw [Function.update_self] at hcall
    exact hcar call hcall q hq
  · rw [Function.update_of_ne hproc] at hcall
    exact .inr ⟨call, hcall, hq⟩

theorem Sound.step (hs : Sound s) (op : Op) : Sound (step s op).1 where
  ids := (step_change hs op).ids hs.ids
  calls := by
    intro process call hcall q hq
    have hread : ∃ r ∈ s.db.jobs, r.jobId = q.jobId ∧ r.generation = q.generation := by
      rcases rows_step hcall hq with hq | ⟨call', hcall', hq⟩
      · exact mem_interrupted hq
      · exact hs.calls process call' hcall' q hq
    obtain ⟨r, hr, hid, hgen⟩ := hread
    obtain ⟨r', hr', hid', hgen'⟩ := (step_change hs op).persists hr
    exact ⟨r', hr', hid'.trans hid, hgen'.trans hgen⟩

theorem sound_run (ops : List Op) : Sound (machine.run System.init ops) := by
  refine machine.invariant_run (fun s op hs => hs.step op) ops ?_
  exact ⟨keyUnique_nil _, fun _ _ hcall => absurd hcall (by simp [System.init])⟩

end Steps

/-! ### The events of a job -/

def Db.eventsOf (db : Db) (id : String) : List EventRow := Log.about EventRow.jobId id db.events

/-- The events of a job's life, from its queueing up to the row `r`. -/
inductive Recorded : List EventRow → JobRow → Prop
  | queued {e : EventRow} {r : JobRow} (state : r.state = .queued) (reports : Reports e r) :
      Recorded [e] r
  | moved {es : List EventRow} {e : EventRow} {r r' : JobRow} (before : Recorded es r)
      (edge : Edge r.state r'.state) (reports : Reports e r') : Recorded (es ++ [e]) r'

section Recorded

variable {es : List EventRow} {r : JobRow}

theorem Recorded.last (h : Recorded es r) : ∃ e, es.getLast? = some e ∧ Reports e r := by
  cases h with
  | @queued e _ state reports => exact ⟨e, rfl, reports⟩
  | @moved _ e _ _ before edge reports => exact ⟨e, List.getLast?_concat, reports⟩

theorem Recorded.path (h : Recorded es r) :
    ∃ path : List JobState, es.map (·.state) = path.map some ∧ path.head? = some .queued ∧
      path.IsChain Edge ∧ path.getLast? = some r.state := by
  induction h with
  | @queued e r state reports =>
    exact ⟨[.queued], by simp [reports.state, state], rfl, .singleton _, by rw [state]; rfl⟩
  | @moved es e r r' _ edge reports ih =>
    obtain ⟨path, hstates, hhead, hchain, hlast⟩ := ih
    refine ⟨path ++ [r'.state], ?_, ?_, ?_, List.getLast?_concat⟩
    · rw [List.map_append, hstates, List.map_append]
      simp [reports.state]
    · rw [List.head?_append, hhead]
      rfl
    · refine List.isChain_append.2 ⟨hchain, .singleton _, fun s hs s' hs' => ?_⟩
      rw [hlast, Option.mem_some_iff] at hs
      obtain rfl : r'.state = s' := by simpa using hs'
      exact hs ▸ edge

theorem Recorded.terminal_last (h : Recorded es r) {es₁ es₂ : List EventRow} {e : EventRow}
    {state : JobState} (hes : es = es₁ ++ e :: es₂) (he : e.state = some state)
    (hter : Terminal state) : es₂ = [] := by
  induction h generalizing es₂ with
  | queued =>
    cases es₁ with
    | nil => exact (List.cons.inj hes).2.symm
    | cons _ es₁ => exact absurd (List.cons.inj hes).2 (by simp)
  | @moved es e' r r' before edge reports ih =>
    -- the last event follows one of a state that is left, so `e` is not before it
    rcases List.eq_nil_or_concat es₂ with rfl | ⟨es₂, last, rfl⟩
    · rfl
    · exfalso
      have hlasts : es ++ [e'] = (es₁ ++ e :: es₂) ++ [last] := by simpa using hes
      have hsplit : es = es₁ ++ e :: es₂ := List.append_inj_left' hlasts rfl
      obtain rfl := ih hsplit
      obtain ⟨e'', hlast, hrep⟩ := before.last
      rw [hsplit, List.getLast?_concat] at hlast
      obtain rfl := Option.some.inj hlast
      obtain rfl : state = r.state := Option.some.inj (he.symm.trans hrep.state)
      exact edge.not_terminal hter

end Recorded

structure Follows (id : String) (db : Db) : Prop where
  recorded : ∀ r ∈ db.jobs, r.jobId = id → Recorded (db.eventsOf id) r
  unknown : (∀ r ∈ db.jobs, r.jobId ≠ id) → db.eventsOf id = []

section Follows

variable {id : String} {op : Op} {db db' : Db} {r : JobRow} {e : EventRow}

theorem Follows.frame (h : Follows id db) (hevents : db'.eventsOf id = db.eventsOf id)
    (hrows : ∀ r : JobRow, r.jobId = id → (r ∈ db'.jobs ↔ r ∈ db.jobs)) : Follows id db' where
  recorded r hr hid := hevents ▸ h.recorded r ((hrows r hid).1 hr) hid
  unknown hnone :=
    hevents ▸ h.unknown fun r hr hid => hnone r ((hrows r hid).2 hr) hid

theorem eventsOf_append_of_ne (hname : e.jobId ≠ some id) (jobs : List JobRow) :
    Db.eventsOf ⟨jobs, db.events ++ [e]⟩ id = db.eventsOf id := by
  refine Log.about_append_of_ne fun e' he' => ?_
  rw [List.mem_singleton.1 he']
  exact hname

theorem Follows.queue (h : Follows r.jobId db) (new : ∀ q ∈ db.jobs, q.jobId ≠ r.jobId)
    (state : r.state = .queued) (reports : Reports e r) :
    Follows r.jobId ⟨db.jobs ++ [r], db.events ++ [e]⟩ := by
  have hevents : Db.eventsOf ⟨db.jobs ++ [r], db.events ++ [e]⟩ r.jobId = [e] := by
    have hnone := h.unknown new
    rw [Db.eventsOf] at hnone
    rw [Db.eventsOf, Log.about_append_of_eq reports.jobId, hnone]
    rfl
  refine ⟨fun q hq hqid => ?_, fun hnone => absurd rfl (hnone r (by simp))⟩
  rcases List.mem_append.1 hq with hq | hq
  · exact absurd hqid (new q hq)
  · rw [hevents, List.mem_singleton.1 hq]
    exact .queued state reports

theorem Follows.move {p : JobRow → Bool} (h : Follows r.jobId db)
    (hids : Table.KeyUnique JobRow.jobId db.jobs) (mem : r ∈ db.jobs) (selected : p r = true)
    (hjobId : ∀ q, (f q).jobId = q.jobId) (edge : Edge r.state (f r).state)
    (reports : Reports e (f r)) : Follows r.jobId ⟨update p f db.jobs, db.events ++ [e]⟩ := by
  have hevents : Db.eventsOf ⟨update p f db.jobs, db.events ++ [e]⟩ r.jobId =
      db.eventsOf r.jobId ++ [e] :=
    Log.about_append_of_eq (reports.jobId.trans (congrArg some (hjobId r)))
  refine ⟨fun q' hq' hqid => ?_, fun hnone => ?_⟩
  · obtain ⟨q, hq, ⟨-, rfl⟩ | ⟨hp, rfl⟩⟩ := mem_update.1 hq'
    · obtain rfl := hids.eq_of_mem hq mem ((hjobId q).symm.trans hqid)
      rw [hevents]
      exact .moved (h.recorded q hq rfl) edge reports
    · obtain rfl := hids.eq_of_mem hq mem hqid
      rw [selected] at hp
      cases hp
  · exact absurd (hjobId r) (hnone (f r) (mem_update_of_mem mem selected))

theorem mem_update_other {p : JobRow → Bool} (hother : ∀ q ∈ db.jobs, p q = true → q.jobId ≠ id)
    (hjobId : ∀ q, (f q).jobId = q.jobId) (q : JobRow) (hqid : q.jobId = id) :
    q ∈ update p f db.jobs ↔ q ∈ db.jobs := by
  constructor
  · intro hq
    obtain ⟨q', hq', ⟨hp, rfl⟩ | ⟨-, rfl⟩⟩ := mem_update.1 hq
    · exact absurd ((hjobId q').symm.trans hqid) (hother q' hq' hp)
    · exact hq'
  · intro hq
    refine mem_update_of_not hq ?_
    rw [← Bool.not_eq_true]
    exact fun hp => hother q hq hp hqid

theorem Follows.change (h : Follows id db) (hids : Table.KeyUnique JobRow.jobId db.jobs)
    (hc : Change op db db') (hop : ∀ input, op = .appendEvent input → input.jobId ≠ some id) :
    Follows id db' := by
  cases hc with
  | same => exact h
  | appended input hinput =>
    exact h.frame (eventsOf_append_of_ne (hop input hinput) db.jobs) fun _ _ => Iff.rfl
  | queued r e new state reports =>
    by_cases hid : r.jobId = id
    · subst hid
      exact h.queue new state reports
    · refine h.frame (eventsOf_append_of_ne ?_ _) fun q hqid => ?_
      · rw [reports.jobId]
        exact fun hname => hid (Option.some.inj hname)
      · have hne : q ≠ r := fun hq => hid (hq ▸ hqid)
        simp [hne]
  | moved r p f e mem selected only hjobId hgen edge reports =>
    by_cases hid : r.jobId = id
    · subst hid
      exact h.move hids mem selected hjobId edge reports
    · refine h.frame (eventsOf_append_of_ne ?_ _) (mem_update_other ?_ hjobId)
      · rw [reports.jobId, hjobId]
        exact fun hname => hid (Option.some.inj hname)
      · exact fun q hq hp hqid => hid ((only q hq hp).symm.trans hqid)

end Follows

theorem follows_run {id : String} {ops : List Op}
    (hops : ∀ input, Op.appendEvent input ∈ ops → input.jobId ≠ some id) :
    Follows id (machine.run System.init ops).db := by
  have hrun : Sound (machine.run System.init ops) ∧ Follows id (machine.run System.init ops).db := by
    refine machine.invariant_run_of_forall (I := fun s => Sound s ∧ Follows id s.db)
      (P := fun op => ∀ input, op = .appendEvent input → input.jobId ≠ some id) ?_ ?_ ?_
    · rintro s op hop ⟨hs, hfol⟩
      exact ⟨hs.step op, hfol.change hs.ids (step_change hs op) hop⟩
    · rintro op hop input rfl
      exact hops input hop
    · exact ⟨sound_run [], List.forall_mem_nil _, fun _ => rfl⟩
  exact hrun.2

/-- **The event log determines the job table** for every job in whose name no other producer
appended an event: the states form a path that begins with `queued` and ends with the first final
one. -/
theorem log_determines_job_table (ops : List Op) (r : JobRow)
    (hr : r ∈ (machine.run System.init ops).db.jobs)
    (hops : ∀ input, Op.appendEvent input ∈ ops → input.jobId ≠ some r.jobId) :
    let events := (machine.run System.init ops).db.eventsOf r.jobId
    (∃ e, events.getLast? = some e ∧ e.state = some r.state ∧ e.attempt = some r.attempt ∧
        e.generation = some r.generation) ∧
      (∃ path : List JobState, events.map (·.state) = path.map some ∧
        path.head? = some .queued ∧ path.IsChain Edge) ∧
      ∀ es₁ e es₂ state, events = es₁ ++ e :: es₂ → e.state = some state → Terminal state →
        es₂ = [] := by
  have hrec := (follows_run hops).recorded r hr rfl
  refine ⟨?_, ?_, fun es₁ e es₂ state => hrec.terminal_last⟩
  · obtain ⟨e, hlast, hrep⟩ := hrec.last
    exact ⟨e, hlast, hrep.state, hrep.attempt, hrep.generation⟩
  · obtain ⟨path, hstates, hhead, hchain, -⟩ := hrec.path
    exact ⟨path, hstates, hhead, hchain⟩

def noon : DateTime := .sample

def interruption : List Op :=
  [.queueJob ⟨"job", "quota_refresh", "key", none, noon⟩ noon, .markJobRunning "job" noon,
    .reconcile 0 noon, .reconcile 1 noon, .reconcileNext 1, .reconcileNext 0]

def waitingJob : JobRow :=
  ⟨"job", "quota_refresh", "key", none, .retryWait, 0, 1, 1700000030000, 1700000000000,
    1700000000000, none⟩

theorem log_determines_interrupted_job :
    waitingJob ∈ (machine.run System.init interruption).db.jobs ∧
      ((machine.run System.init interruption).db.eventsOf "job").length = 3 ∧
      ∃ e, ((machine.run System.init interruption).db.eventsOf "job").getLast? = some e ∧
        e.state = some .retryWait ∧ e.attempt = some 1 ∧ e.generation = some 0 := by
  have hmem : waitingJob ∈ (machine.run System.init interruption).db.jobs := by decide +kernel
  refine ⟨hmem, by decide +kernel, (log_determines_job_table interruption waitingJob hmem ?_).1⟩
  simp [interruption]

def Parked (id : String) (db : Db) : Prop :=
  ∃ r ∈ db.jobs, r.jobId = id ∧ (r.state = .retryWait ∨ r.state = .cancelled)

theorem Parked.change {id : String} {op : Op} {db db' : Db} (h : Parked id db)
    (hids : Table.KeyUnique JobRow.jobId db.jobs) (hc : Change op db db') : Parked id db' := by
  obtain ⟨r, hr, hid, hstate⟩ := h
  cases hc with
  | same => exact ⟨r, hr, hid, hstate⟩
  | appended => exact ⟨r, hr, hid, hstate⟩
  | queued => exact ⟨r, List.mem_append_left _ hr, hid, hstate⟩
  | moved q p f e mem selected only hjobId _ edge =>
    cases hp : p r with
    | false => exact ⟨r, mem_update_of_not hr hp, hid, hstate⟩
    | true =>
      obtain rfl := hids.eq_of_mem hr mem (only r hr hp)
      refine ⟨f r, mem_update_of_mem hr hp, (hjobId r).trans hid, .inr ?_⟩
      -- the only transition of a parked job is the cancellation of a waiting one
      rcases hstate with hstate | hstate <;> rw [hstate] at edge
      · generalize (f r).state = s' at edge
        cases edge
        rfl
      · generalize (f r).state = s' at edge
        cases edge

theorem not_running_of_retryWait {s : System} (hs : Sound s) {r : JobRow} (hr : r ∈ s.db.jobs)
    (hstate : r.state = .retryWait) (ops : List Op) :
    ∀ r' ∈ (machine.run s ops).db.jobs, r'.jobId = r.jobId → r'.state ≠ .running := by
  have hrun : Sound (machine.run s ops) ∧ Parked r.jobId (machine.run s ops).db := by
    refine machine.invariant_run (I := fun s => Sound s ∧ Parked r.jobId s.db) ?_ ops
      ⟨hs, r, hr, rfl, .inl hstate⟩
    rintro s op ⟨hs, hparked⟩
    exact ⟨hs.step op, hparked.change hs.ids (step_change hs op)⟩
  obtain ⟨hs', q, hq, hid, hparked⟩ := hrun
  intro r' hr' hid' hrunn
  obtain rfl := hs'.ids.eq_of_mem hr' hq (hid'.trans hid.symm)
  rcases hparked with hparked | hparked <;> rw [hrunn] at hparked <;> cases hparked

/-- **`retry_wait` is a dead end**: the jobs in it can all be brought to run again exactly if there
are none. -/
theorem retry_wait_left_iff (ops : List Op) :
    let s := machine.run System.init ops
    (∀ r ∈ s.db.jobs, r.state = .retryWait →
      ∃ more, ∃ r' ∈ (machine.run s more).db.jobs, r'.jobId = r.jobId ∧ r'.state = .running) ↔
      ∀ r ∈ s.db.jobs, r.state ≠ .retryWait := by
  constructor
  · intro hleft r hr hstate
    obtain ⟨more, r', hr', hid, hrun⟩ := hleft r hr hstate
    exact not_running_of_retryWait (sound_run ops) hr hstate more r' hr' hid hrun
  · exact fun hnone r hr hstate => absurd hstate (hnone r hr)

theorem retry_wait_stuck :
    let s := machine.run System.init interruption
    waitingJob ∈ s.db.jobs ∧ waitingJob.state = .retryWait ∧
      ∀ more, ∀ r' ∈ (machine.run s more).db.jobs, r'.jobId = waitingJob.jobId →
        r'.state ≠ .running := by
  have hmem : waitingJob ∈ (machine.run System.init interruption).db.jobs := by decide +kernel
  exact ⟨hmem, rfl, fun more => not_running_of_retryWait (sound_run interruption) hmem rfl more⟩

end Jobs

end CodexMarathon
