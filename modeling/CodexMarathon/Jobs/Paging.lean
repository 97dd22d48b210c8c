/-
**Following the events of the daemon.**

A consumer reads the events a page at a time with `events_since`, and goes on from `next_after`,
while producers commit more.  An event inside a leap second that ends the last second of `chrono`
can be committed but not read: no instant has its milliseconds.
-/

import CodexMarathon.Jobs.Lifecycle
import CodexMarathon.Lib.Paging

namespace CodexMarathon

open Result

theorem DateTime.isSome_fromTimestampMillis_iff (t : DateTime) :
    (fromTimestampMillis t.timestampMillis).isSome = true ↔
      t.secs < maxSecs ∨ t.nanos < 1000000000 := by
  have hlo := t.minSecs_le
  have hhi := t.le_maxSecs
  have hnanos := t.nanos_lt
  unfold fromTimestampMillis timestampMillis
  split
  · rename_i h
    simp only [Option.isSome_some, true_iff]
    omega
  · rename_i h
    simp only [Option.isSome_none, Bool.false_eq_true, false_iff]
    omega

namespace Jobs

open Expiry (AccountdError EventKind JobState EventInput EventRow validateEventInput)

structure StoredEvent where
  eventId : ℤ
  row : EventRow
deriving DecidableEq

structure EventRecord where
  eventId : ℤ
  kind : EventKind
  occurredAt : DateTime
  accountId : Option String
  jobId : Option String
  state : Option JobState
  generation : Option ℤ
  attempt : Option ℤ
  diagnosticCode : Option String
deriving DecidableEq

structure EventPage where
  after : ℤ
  events : List EventRecord
  nextAfter : ℤ
  hasMore : Bool
deriving DecidableEq

def maxEventLimit : ℕ := 1000

def rowToEvent (e : StoredEvent) : Except AccountdError EventRecord :=
  match DateTime.fromTimestampMillis e.row.occurredAtMs with
  | none => .error .corruptState
  | some occurredAt =>
    .ok
      { eventId := e.eventId
        kind := e.row.kind
        occurredAt := occurredAt
        accountId := e.row.accountId
        jobId := e.row.jobId
        state := e.row.state
        generation := e.row.generation
        attempt := e.row.attempt
        diagnosticCode := e.row.diagnosticCode }

/-- `limit.clamp(1, MAX_EVENT_LIMIT)`. -/
def clampLimit (limit : UInt32) : ℕ := max 1 (min limit.toNat maxEventLimit)

def eventsSince (events : List StoredEvent) (after : ℤ) (limit : UInt32) :
    Except AccountdError EventPage :=
  if after < 0 then .error .invalidRequest
  else
    -- one row more than the page holds tells whether there are more
    let rows := (Listing.orderBy StoredEvent.eventId
      (events.filter (after < ·.eventId))).take (clampLimit limit + 1)
    ((rows.take (clampLimit limit)).mapM rowToEvent).map fun records =>
      { after := after
        events := records
        nextAfter := (records.getLast?.map (·.eventId)).getD after
        hasMore := clampLimit limit < rows.length }

/-! ### The stream -/

/-- The events, and the last id that was assigned (`sqlite_sequence`). -/
structure Stream where
  seq : ℤ
  events : List StoredEvent
deriving DecidableEq

def Stream.empty : Stream := ⟨0, []⟩

/-- `insert_event`. `AUTOINCREMENT` assigns an id beyond the last one. -/
def Stream.insert (st : Stream) (insert : ℕ × EventInput) : Except AccountdError Stream :=
  if validateEventInput insert.2 then
    let id := st.seq + 1 + insert.1
    .ok ⟨id, st.events ++ [⟨id, insert.2.toRow⟩]⟩
  else .error .invalidRequest

def Stream.commit (st : Stream) (inserts : List (ℕ × EventInput)) : Except AccountdError Stream :=
  inserts.foldlM Stream.insert st

structure Stream.InOrder (st : Stream) : Prop where
  increasing : Paging.Increasing StoredEvent.eventId st.events
  le_seq : ∀ e ∈ st.events, e.eventId ≤ st.seq

def Readable (input : EventInput) : Prop :=
  input.occurredAt.secs < maxSecs ∨ input.occurredAt.nanos < 1000000000

theorem rowToEvent_of_readable {input : EventInput} (h : Readable input) (id : ℤ) :
    ∃ record, rowToEvent ⟨id, input.toRow⟩ = .ok record := by
  have hsome := (DateTime.isSome_fromTimestampMillis_iff input.occurredAt).2 h
  obtain ⟨t, ht⟩ := Option.isSome_iff_exists.1 hsome
  simp only [rowToEvent, EventInput.toRow, ht]
  exact ⟨_, rfl⟩

theorem eventId_of_rowToEvent {e : StoredEvent} {record : EventRecord}
    (h : rowToEvent e = .ok record) : record.eventId = e.eventId := by
  unfold rowToEvent at h
  split at h <;> cases h
  rfl

section Stream

variable {st st' : Stream}

theorem Stream.InOrder.insert (h : st.InOrder) {insert : ℕ × EventInput}
    (hinsert : st.insert insert = .ok st') :
    st'.InOrder ∧ st.seq ≤ st'.seq ∧ ∃ e : StoredEvent, st'.events = st.events ++ [e] ∧
      st.seq < e.eventId ∧ e.row = insert.2.toRow := by
  unfold Stream.insert at hinsert
  split at hinsert <;> cases hinsert
  refine ⟨⟨?_, fun e he => ?_⟩, by simp only; omega, _, rfl, by simp only; omega, rfl⟩
  · refine List.pairwise_append.2 ⟨h.increasing, List.pairwise_singleton _ _, fun e he e' he' => ?_⟩
    rw [List.mem_singleton.1 he']
    have := h.le_seq e he
    simp only
    omega
  · rcases List.mem_append.1 he with he | he
    · have := h.le_seq e he
      simp only
      omega
    · rw [List.mem_singleton.1 he]

theorem Stream.InOrder.commit (h : st.InOrder) {inserts : List (ℕ × EventInput)}
    (hcommit : st.commit inserts = .ok st') :
    st'.InOrder ∧ ∃ new, st'.events = st.events ++ new ∧ ∀ e ∈ new,
      st.seq < e.eventId ∧ ∃ i ∈ inserts, e.row = i.2.toRow := by
  induction inserts generalizing st with
  | nil =>
    cases hcommit
    exact ⟨h, [], (List.append_nil _).symm, List.forall_mem_nil _⟩
  | cons i inserts ih =>
    rw [Stream.commit, List.foldlM_cons] at hcommit
    obtain ⟨m, hm, hrest⟩ := bind_eq_ok.1 hcommit
    obtain ⟨hmid, hseq, e, hevents, hlt, hrow⟩ := h.insert hm
    obtain ⟨horder, new, hnew, hmem⟩ := ih hmid hrest
    refine ⟨horder, e :: new, by rw [hnew, hevents, List.append_assoc]; rfl, ?_⟩
    refine List.forall_mem_cons.2 ⟨⟨hlt, i, List.mem_cons_self, hrow⟩, fun e' he' => ?_⟩
    obtain ⟨hlt', i', hi', hrow'⟩ := hmem e' he'
    exact ⟨hseq.trans_lt hlt', i', List.mem_cons_of_mem _ hi', hrow'⟩

end Stream

def Db.stream (db : Db) : Stream :=
  ⟨db.events.length, db.events.mapIdx fun i row => ⟨i + 1, row⟩⟩

def Inserts (db db' : Db) : Prop :=
  db'.events = db.events ∨
    ∃ input, validateEventInput input = true ∧ db'.events = db.events ++ [input.toRow]

section Producers

variable {s : System} {db db' : Db}

theorem inserts_insertEvent (jobs : List JobRow) {input : EventInput}
    (h : insertEvent { db with jobs := jobs } input = .ok db') : Inserts db db' := by
  unfold insertEvent at h
  split at h <;> cases h
  rename_i hvalid
  exact .inr ⟨input, hvalid, rfl⟩

theorem inserts_move {jobId : String} {expected : JobState → Bool} {f : JobRow → JobRow}
    {event : JobRow → EventInput} {moved : Bool}
    (h : db.move jobId expected f event = .ok (moved, db')) : Inserts db db' := by
  unfold Db.move at h
  split at h
  · cases h
    exact .inl rfl
  · obtain ⟨db'', hinsert, hpair⟩ := map_eq_ok.1 h
    cases hpair
    exact inserts_insertEvent _ hinsert

theorem inserts_step (s : System) (op : Op) : Inserts s.db (step s op).1.db := by
  refine step_rule (.inl rfl) (fun hqueue => ?_) (fun _ hinsert => ?_) (fun _ _ htran => ?_)
    (fun hcancel => ?_) fun _ _ hrow => ?_
  · obtain ⟨-, -, input, -, hinsert⟩ := queueJob_eq_ok hqueue
    exact inserts_insertEvent _ hinsert
  · exact inserts_insertEvent s.db.jobs hinsert
  · unfold Db.transitionJob at htran
    split at htran
    · cases htran
    · exact inserts_move htran
  · unfold Db.cancelJob at hcancel
    split at hcancel
    · cases hcancel
    · exact inserts_move hcancel
  · unfold Db.reconcileRow at hrow
    split at hrow
    · cases hrow
    · exact inserts_move hrow

theorem commits_step (s : System) (op : Op) :
    ∃ inserts, s.db.stream.commit inserts = .ok (step s op).1.db.stream := by
  rcases inserts_step s op with hsame | ⟨input, hvalid, hevents⟩
  · refine ⟨[], ?_⟩
    rw [Db.stream, Db.stream, hsame]
    rfl
  · refine ⟨[(0, input)], ?_⟩
    have hinsert : s.db.stream.insert (0, input) = .ok (step s op).1.db.stream := by
      rw [Stream.insert, if_pos hvalid, Db.stream, Db.stream, hevents]
      simp [List.mapIdx_append]
    rw [Stream.commit, List.foldlM_cons, hinsert]
    rfl

end Producers

/-! ### A consumer -/

structure Feed where
  stream : Stream
  cursor : ℤ
  received : List EventRecord
deriving DecidableEq

def Feed.init (after : ℤ) : Feed := ⟨.empty, after, []⟩

/-- `commit` is a transaction of any producer, `read` the next page of the consumer. -/
inductive FeedOp
  | commit (inserts : List (ℕ × EventInput))
  | read (limit : UInt32)

inductive FeedAnswer
  | committed (result : Except AccountdError Unit)
  | page (result : Except AccountdError EventPage)

def feedStep (s : Feed) : FeedOp → Feed × FeedAnswer
  | .commit inserts =>
    match s.stream.commit inserts with
    | .ok stream => ({ s with stream := stream }, .committed (.ok ()))
    | .error e => (s, .committed (.error e))
  | .read limit =>
    match eventsSince s.stream.events s.cursor limit with
    | .ok page =>
      ({ s with cursor := page.nextAfter, received := s.received ++ page.events },
        .page (.ok page))
    | .error e => (s, .page (.error e))

def feed : Machine Feed FeedOp FeedAnswer := ⟨feedStep⟩

def Decodes (events : List StoredEvent) (records : List EventRecord) : Prop :=
  List.Forall₂ (fun e record => rowToEvent e = .ok record) events records

def FeedOp.Readable : FeedOp → Prop
  | .commit inserts => ∀ i ∈ inserts, Jobs.Readable i.2
  | .read _ => True

def FeedOp.isRead : FeedOp → Bool
  | .commit _ => false
  | .read _ => true

structure Follow (start : ℤ) (s : Feed) : Prop where
  nonneg : 0 ≤ start
  order : s.stream.InOrder
  readable : ∀ e ∈ s.stream.events, ∃ record, rowToEvent e = .ok record
  reading : ∃ read, Paging.Reading StoredEvent.eventId start s.stream.events s.cursor read ∧
    Decodes read s.received

section Pages

variable {events : List StoredEvent} {after : ℤ} {limit : UInt32}

theorem one_le_clampLimit (limit : UInt32) : 1 ≤ clampLimit limit := Nat.le_max_left ..

theorem orderBy_filter (h : Paging.Increasing StoredEvent.eventId events) :
    Listing.orderBy StoredEvent.eventId (events.filter (after < ·.eventId)) =
      Paging.after StoredEvent.eventId after events := by
  refine List.Pairwise.insertionSort_eq ?_
  exact (h.after.imp fun {e e'} hlt => hlt.le : (Paging.after _ after events).Pairwise _)

theorem Decodes.getLast? {es : List StoredEvent} {records : List EventRecord}
    (h : Decodes es records) : records.getLast?.map (·.eventId) = es.getLast?.map (·.eventId) := by
  induction h with
  | nil => rfl
  | @cons e record es records hrow hrest ih =>
    cases hrest with
    | nil => simp [eventId_of_rowToEvent hrow]
    | cons => simpa [List.getLast?_cons_cons] using ih

theorem eventsSince_eq (horder : Paging.Increasing StoredEvent.eventId events) (hafter : 0 ≤ after)
    (hread : ∀ e ∈ events, ∃ record, rowToEvent e = .ok record) (limit : UInt32) :
    let rows := (Paging.after StoredEvent.eventId after events).take (clampLimit limit)
    ∃ page, eventsSince events after limit = .ok page ∧ Decodes rows page.events ∧
      page.nextAfter = Paging.next StoredEvent.eventId after rows ∧
      (page.hasMore = true ↔
        clampLimit limit < (Paging.after StoredEvent.eventId after events).length) := by
  intro rows
  have hrows : ∃ records, rows.mapM rowToEvent = .ok records := by
    refine exists_mapM_iff.2 fun e he => hread e ?_
    exact (Paging.mem_after.1 (List.mem_of_mem_take he)).1
  obtain ⟨records, hrec⟩ := hrows
  have hdec : Decodes rows records := mapM_eq_ok.1 hrec
  have htake : ((Paging.after StoredEvent.eventId after events).take (clampLimit limit + 1)).take
      (clampLimit limit) = rows := by
    rw [List.take_take, min_eq_left (Nat.le_succ _)]
  unfold eventsSince
  rw [if_neg (not_lt.2 hafter), orderBy_filter horder]
  simp only [htake, hrec, Except.map]
  refine ⟨_, rfl, hdec, ?_, ?_⟩
  · simp only [Paging.next, hdec.getLast?]
  · simp only [List.length_take, decide_eq_true_eq]
    omega

theorem take_clampLimit_ne_nil (h : Paging.after StoredEvent.eventId after events ≠ []) :
    (Paging.after StoredEvent.eventId after events).take (clampLimit limit) ≠ [] := by
  have hpos := one_le_clampLimit limit
  rw [Ne, List.take_eq_nil_iff, not_or]
  exact ⟨by omega, h⟩

theorem lt_length_after_iff (horder : Paging.Increasing StoredEvent.eventId events) :
    let rows := (Paging.after StoredEvent.eventId after events).take (clampLimit limit)
    clampLimit limit < (Paging.after StoredEvent.eventId after events).length ↔
      ∃ e ∈ events, Paging.next StoredEvent.eventId after rows < e.eventId := by
  intro rows
  have hsplit : Paging.after StoredEvent.eventId after events =
      rows ++ (Paging.after StoredEvent.eventId after events).drop (clampLimit limit) :=
    (List.take_append_drop _ _).symm
  by_cases hnil : Paging.after StoredEvent.eventId after events = []
  · -- nothing is after the cursor, and the cursor stays
    have hrows : rows = [] := by simp [rows, hnil]
    rw [hnil, hrows]
    simp only [List.length_nil, Nat.not_lt_zero, false_iff, Paging.next]
    rintro ⟨e, he, hlt⟩
    have hmem : e ∈ Paging.after StoredEvent.eventId after events := Paging.mem_after.2 ⟨he, hlt⟩
    rw [hnil] at hmem
    exact absurd hmem List.not_mem_nil
  · have hrest := (Paging.after_next horder hsplit).resolve_left (take_clampLimit_ne_nil hnil)
    have hlater : (∃ e ∈ events, Paging.next StoredEvent.eventId after rows < e.eventId) ↔
        (Paging.after StoredEvent.eventId after events).drop (clampLimit limit) ≠ [] := by
      rw [← hrest, ← List.length_pos_iff, List.length_pos_iff_exists_mem]
      simp only [Paging.mem_after]
    rw [hlater, Ne, List.drop_eq_nil_iff, not_le]

end Pages

section Follow

variable {start : ℤ} {s : Feed}

theorem Follow.read (h : Follow start s) (limit : UInt32) : ∃ page, feed.step s (.read limit) =
        ({ s with cursor := page.nextAfter, received := s.received ++ page.events },
          .page (.ok page)) ∧
      Follow start { s with cursor := page.nextAfter, received := s.received ++ page.events } ∧
      (page.hasMore = true ↔ ∃ e ∈ s.stream.events, page.nextAfter < e.eventId) ∧
      (∀ bound, Paging.ahead StoredEvent.eventId page.nextAfter bound s.stream.events ≤
        Paging.ahead StoredEvent.eventId s.cursor bound s.stream.events - 1) := by
  obtain ⟨read, hread, hdec⟩ := h.reading
  have hcursor : 0 ≤ s.cursor := h.nonneg.trans hread.le_cursor
  obtain ⟨page, hpage, hrows, hnext, hmore⟩ :=
    eventsSince_eq h.order.increasing hcursor h.readable limit
  have hsplit : Paging.after StoredEvent.eventId s.cursor s.stream.events =
      (Paging.after StoredEvent.eventId s.cursor s.stream.events).take (clampLimit limit) ++
        (Paging.after StoredEvent.eventId s.cursor s.stream.events).drop (clampLimit limit) :=
    (List.take_append_drop _ _).symm
  refine ⟨page, ?_, ⟨h.nonneg, h.order, h.readable, ?_⟩, ?_, fun bound => ?_⟩
  · simp only [feed, feedStep, hpage]
  · refine ⟨_, hnext ▸ hread.turn hsplit, ?_⟩
    exact List.rel_append hdec hrows
  · rw [hmore, hnext]
    exact lt_length_after_iff h.order.increasing
  · rw [hnext]
    by_cases hnil : Paging.after StoredEvent.eventId s.cursor s.stream.events = []
    · have hzero : Paging.ahead StoredEvent.eventId s.cursor bound s.stream.events = 0 := by
        rw [Paging.ahead, hnil]
        rfl
      have hsame : Paging.next StoredEvent.eventId s.cursor
          ((Paging.after StoredEvent.eventId s.cursor s.stream.events).take (clampLimit limit)) =
            s.cursor := by
        rw [hnil, List.take_nil]
        rfl
      rw [hsame, hzero]
    · exact Paging.ahead_next h.order.increasing hsplit (take_clampLimit_ne_nil hnil)

theorem Follow.commit (h : Follow start s) {inserts : List (ℕ × EventInput)} {stream : Stream}
    (hins : ∀ i ∈ inserts, Readable i.2) (hcommit : s.stream.commit inserts = .ok stream) :
    Follow start { s with stream := stream } ∧
      ∃ new, stream.events = s.stream.events ++ new ∧ ∀ e ∈ new, s.stream.seq < e.eventId := by
  obtain ⟨horder, new, hevents, hnew⟩ := h.order.commit hcommit
  obtain ⟨read, hread, hdec⟩ := h.reading
  refine ⟨⟨h.nonneg, horder, fun e he => ?_, read, ?_, hdec⟩, new, hevents,
    fun e he => (hnew e he).1⟩
  · rw [hevents] at he
    rcases List.mem_append.1 he with he | he
    · exact h.readable e he
    · obtain ⟨-, i, hi, hrow⟩ := hnew e he
      obtain ⟨id, row⟩ := e
      obtain rfl : row = i.2.toRow := hrow
      exact rowToEvent_of_readable (hins i hi) id
  · simp only [hevents]
    exact hread.grow (hevents ▸ horder.increasing)

theorem Follow.step (h : Follow start s) {op : FeedOp} (hop : op.Readable) :
    Follow start (feed.step s op).1 := by
  cases op with
  | read limit =>
    obtain ⟨page, hstep, hfollow, -⟩ := h.read limit
    rw [hstep]
    exact hfollow
  | commit inserts =>
    simp only [feed, feedStep]
    cases hcommit : s.stream.commit inserts with
    | error e => exact h
    | ok stream => exact (h.commit hop hcommit).1

theorem follow_run (hstart : 0 ≤ start) {ops : List FeedOp} (hops : ∀ op ∈ ops, op.Readable) :
    Follow start (feed.run (Feed.init start) ops) := by
  refine feed.invariant_run_of_forall (I := Follow start) (fun s op hop h => h.step hop) hops ?_
  exact ⟨hstart, ⟨List.Pairwise.nil, List.forall_mem_nil _⟩, List.forall_mem_nil _, [],
    Paging.reading_start List.Pairwise.nil, .nil⟩

theorem ahead_run {ops : List FeedOp} (hops : ∀ op ∈ ops, op.Readable) (h : Follow start s)
    {e : StoredEvent} (he : e ∈ s.stream.events) : e ∈ (feed.run s ops).stream.events ∧
      Paging.ahead StoredEvent.eventId (feed.run s ops).cursor e.eventId
          (feed.run s ops).stream.events ≤
        Paging.ahead StoredEvent.eventId s.cursor e.eventId s.stream.events -
          ops.countP FeedOp.isRead := by
  induction ops generalizing s with
  | nil => exact ⟨he, by simp⟩
  | cons op ops ih =>
    rw [List.forall_mem_cons] at hops
    have hnext := h.step hops.1
    -- one step keeps the event, and a page brings it nearer
    have hone : e ∈ (feed.step s op).1.stream.events ∧
        Paging.ahead StoredEvent.eventId (feed.step s op).1.cursor e.eventId
            (feed.step s op).1.stream.events ≤
          Paging.ahead StoredEvent.eventId s.cursor e.eventId s.stream.events -
            [op].countP FeedOp.isRead := by
      cases op with
      | read limit =>
        obtain ⟨page, hstep, -, -, hahead⟩ := h.read limit
        rw [hstep]
        exact ⟨he, hahead e.eventId⟩
      | commit inserts =>
        simp only [feed, feedStep]
        cases hcommit : s.stream.commit inserts with
        | error e => exact ⟨he, by simp [FeedOp.isRead]⟩
        | ok stream =>
          obtain ⟨-, new, hevents, hnew⟩ := h.commit hops.1 hcommit
          simp only [hevents]
          refine ⟨List.mem_append_left _ he, ?_⟩
          rw [Paging.ahead_append fun e' he' =>
            (h.order.le_seq e he).trans_lt (hnew e' he')]
          simp [FeedOp.isRead]
    obtain ⟨hmem, hahead⟩ := ih hops.2 hnext hone.1
    refine ⟨hmem, hahead.trans ?_⟩
    have hcount : (op :: ops).countP FeedOp.isRead =
        ops.countP FeedOp.isRead + [op].countP FeedOp.isRead := by
      rw [List.countP_cons, List.countP_singleton]
    rw [hcount]
    have := hone.2
    omega

theorem Decodes.map_eventId {es : List StoredEvent} {records : List EventRecord}
    (h : Decodes es records) : records.map (·.eventId) = es.map (·.eventId) := by
  induction h with
  | nil => rfl
  | cons hrow _ ih => rw [List.map_cons, List.map_cons, ih, eventId_of_rowToEvent hrow]

theorem Decodes.exists_mem {es : List StoredEvent} {records : List EventRecord}
    (h : Decodes es records) {e : StoredEvent} (he : e ∈ es) :
    ∃ record ∈ records, rowToEvent e = .ok record := by
  induction h with
  | nil => exact absurd he List.not_mem_nil
  | cons hrow _ ih =>
    rcases List.mem_cons.1 he with rfl | he
    · exact ⟨_, List.mem_cons_self, hrow⟩
    · obtain ⟨record, hmem, hrecord⟩ := ih he
      exact ⟨record, List.mem_cons_of_mem _ hmem, hrecord⟩

end Follow

/-- **A consumer that follows `next_after` receives every event once and in order**, from any
cursor, with any limits, while producers commit events that can be read back:

* what was received are the events up to the cursor, with increasing ids;
* the next page says that there are more exactly if an event after its `next_after` is committed;
* every event is received after at most as many further pages as there are events up to it. -/
theorem events_followed (start : ℤ) (hstart : 0 ≤ start) (ops : List FeedOp)
    (hops : ∀ op ∈ ops, op.Readable) :
    let s := feed.run (Feed.init start) ops
    Decodes (s.stream.events.filter fun e => start < e.eventId ∧ e.eventId ≤ s.cursor) s.received ∧
      (s.received.map (·.eventId)).Pairwise (· < ·) ∧
      (∀ limit, ∃ page, (feed.step s (.read limit)).2 = .page (.ok page) ∧
        (feed.step s (.read limit)).1 =
          { s with cursor := page.nextAfter, received := s.received ++ page.events } ∧
        (page.hasMore = true ↔ ∃ e ∈ s.stream.events, page.nextAfter < e.eventId) ∧
        (page.hasMore = false →
          Decodes (s.stream.events.filter (start < ·.eventId)) (s.received ++ page.events))) ∧
      ∀ e ∈ s.stream.events, start < e.eventId → ∀ more : List FeedOp,
        (∀ op ∈ more, op.Readable) →
        (s.stream.events.filter fun e' => s.cursor < e'.eventId ∧ e'.eventId ≤ e.eventId).length ≤
          more.countP FeedOp.isRead →
        ∃ record ∈ (feed.run s more).received, rowToEvent e = .ok record := by
  intro s
  have hfollow : Follow start s := follow_run hstart hops
  obtain ⟨read, hread, hdec⟩ := hfollow.reading
  refine ⟨?_, ?_, fun limit => ?_, fun e he hafter more hmore hpages => ?_⟩
  · rw [← hread.read_eq]
    exact hdec
  · rw [hdec.map_eventId, List.pairwise_map, hread.read_eq]
    exact hfollow.order.increasing.sublist List.filter_sublist
  · obtain ⟨page, hstep, hnext, hhas, -⟩ := hfollow.read limit
    refine ⟨page, by rw [hstep], by rw [hstep], hhas, fun hlast => ?_⟩
    obtain ⟨read', hread', hdec'⟩ := hnext.reading
    -- no event is after the next cursor, so what was read is everything
    have hnone : Paging.after StoredEvent.eventId page.nextAfter s.stream.events = [] := by
      rw [List.eq_nil_iff_forall_not_mem]
      intro e he
      have htrue := hhas.2 ⟨e, Paging.mem_after.1 he⟩
      rw [hlast] at htrue
      cases htrue
    have hexact := hread'.exact
    rw [hnone, List.append_nil] at hexact
    rw [hexact] at hdec'
    exact hdec'
  · obtain ⟨hmem, hahead⟩ := ahead_run hmore hfollow he
    obtain ⟨read', hread', hdec'⟩ :=
      (feed.invariant_run_of_forall (I := Follow start) (fun s op hop h => h.step hop) hmore
        hfollow).reading
    have hcount : Paging.ahead StoredEvent.eventId s.cursor e.eventId s.stream.events =
        (s.stream.events.filter fun e' =>
          s.cursor < e'.eventId ∧ e'.eventId ≤ e.eventId).length := by
      rw [Paging.ahead, Paging.after, List.countP_filter, List.countP_eq_length_filter]
      congr 1
      refine List.filter_congr fun r _ => ?_
      simp [and_comm]
    have hzero : Paging.ahead StoredEvent.eventId (feed.run s more).cursor e.eventId
        (feed.run s more).stream.events = 0 := by omega
    exact hdec'.exists_mem (hread'.mem_of_ahead_eq_zero hmem hafter hzero)

def heartbeat (now : DateTime) : EventInput := { kind := .executorReady, occurredAt := now }

def readings : List FeedOp :=
  [.commit [(0, heartbeat noon), (0, heartbeat noon)], .read 1, .commit [(3, heartbeat noon)],
    .read 0]

theorem events_followed_sample : (∀ op ∈ readings, op.Readable) ∧
      ((feed.run (Feed.init 0) readings).received.map (·.eventId)) = [1, 2] ∧
      ∃ record ∈ (feed.run (feed.run (Feed.init 0) readings) [.read 1000]).received,
        rowToEvent ⟨6, (heartbeat noon).toRow⟩ = .ok record := by
  have hnoon : Readable (heartbeat noon) := .inr (by decide)
  have hread : ∀ op ∈ readings, op.Readable := by
    simp [readings, FeedOp.Readable, hnoon]
  refine ⟨hread, by decide +kernel, ?_⟩
  refine (events_followed 0 le_rfl readings hread).2.2.2 ⟨6, (heartbeat noon).toRow⟩ ?_ (by decide)
    [.read 1000] (by simp [FeedOp.Readable]) ?_
  · decide +kernel
  · decide +kernel

def lastLeapSecond : DateTime := ⟨maxSecs, 1000000000, by decide, le_rfl, by decide⟩

/-- **An event that cannot be read back** is committed, and no page gets past it. -/
theorem unreadable_event :
    let s := feed.run (Feed.init 0) [.commit [(0, heartbeat lastLeapSecond)], .read 100]
    s.stream.events = [⟨1, (heartbeat lastLeapSecond).toRow⟩] ∧ s.received = [] ∧
      (feed.step s (.read 100)).2 = .page (.error .corruptState) :=
  ⟨by decide +kernel, by decide +kernel, rfl⟩

end Jobs

end CodexMarathon
