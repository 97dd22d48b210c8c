/-
**Whose rate limits are stored.**

A session merges the rate limits it is returned into its latest ones, and sends those with every
token count.  The service stores them under the account that is cached when it handles the event,
which does not say whose they are.  The accounts that the model keeps beside the limits are looked
at by no step.
-/

import CodexMarathon.Policy.Telemetry
import CodexMarathon.Auth.Login
import CodexMarathon.Service.Credentials
import CodexMarathon.Service.Process

namespace CodexMarathon

open Auth

structure LimitWindow where
  window : RateLimitWindow
  resetsAt : Option ℤ
deriving DecidableEq

/-- `RateLimitSnapshot`, as far as the service reads it. The plan is the text to which it is
serialised. -/
structure RateLimits where
  limitId : Option String
  limitName : Option String
  primary : Option LimitWindow
  secondary : Option LimitWindow
  planType : Option String
deriving DecidableEq

def RateLimits.snapshot (limits : RateLimits) : RateLimitSnapshot where
  primary := limits.primary.map (·.window)
  secondary := limits.secondary.map (·.window)

def mergeRateLimitFields (previous : Option RateLimits) (limits : RateLimits) : RateLimits :=
  { limits with
    limitId := some (limits.limitId.getD "codex")
    planType := limits.planType.or (previous.bind (·.planType)) }

/-! ### Telemetry -/

structure UsageWindow where
  kind : WindowKind
  usedPercent : F64.Percent
  windowDurationMins : Option ℕ
  resetsAt : Option DateTime
  observedAt : DateTime
  freshness : Freshness
deriving DecidableEq

structure LimitTelemetry where
  limitId : String
  limitName : String
  planType : String
  windows : List UsageWindow
deriving DecidableEq

structure AccountTelemetry where
  accountId : String
  limits : List (String × LimitTelemetry)
  observedAt : DateTime
  usable : Bool
  resetCapability : QuotaResetCapability
  source : String
deriving DecidableEq

def DateTime.fromTimestamp (secs : ℤ) : Option DateTime :=
  if h : minSecs ≤ secs ∧ secs ≤ maxSecs then some (.ofSecs secs h.1 h.2) else none

/-- One window of `quota_telemetry`; a usage that is not finite is left out. -/
def usageWindow (kind : WindowKind) (observedAt : DateTime) (limit : LimitWindow) :
    Option UsageWindow :=
  (normalizedQuotaUsedPercent limit.window).map fun usedPercent =>
    { kind, usedPercent
      windowDurationMins := limit.window.windowMinutes.bind fun minutes =>
        if 0 ≤ minutes then some minutes.toNat else none
      resetsAt := limit.resetsAt.bind DateTime.fromTimestamp
      observedAt
      freshness := .fresh }

def RateLimits.usageWindows (limits : RateLimits) (observedAt : DateTime) : List UsageWindow :=
  (limits.primary.bind (usageWindow .primary observedAt)).toList ++
    (limits.secondary.bind (usageWindow .secondary observedAt)).toList

def quotaTelemetry (accountId : String) (limits : RateLimits) (observedAt : DateTime) :
    Option AccountTelemetry :=
  match limits.usageWindows observedAt with
  | [] => none
  | windows =>
    let limitId := limits.limitId.getD "codex"
    some
      { accountId
        limits := [(limitId,
          { limitId
            limitName := limits.limitName.getD ""
            planType := limits.planType.getD ""
            windows })]
        observedAt
        usable := true
        resetCapability := .unavailable
        source := "app-server/token-count" }

theorem mem_windows_of_classify {snapshot : RateLimitSnapshot} {window : RateLimitWindow}
    (h : (classifySnapshotWindows snapshot).1 = some window ∨
      (classifySnapshotWindows snapshot).2 = some window) : window ∈ snapshot.windows := by
  have hlast : ∀ c w, snapshot.lastOfClass c = some w → w ∈ snapshot.windows := by
    intro c w hc
    exact List.mem_of_mem_filter (List.mem_of_getLast? hc)
  have hgetD : ∀ c w, w ∈ snapshot.windows →
      (snapshot.lastOfClass c).getD w ∈ snapshot.windows := by
    intro c w hw
    cases hc : snapshot.lastOfClass c with
    | none => exact hw
    | some last => exact hlast c last hc
  have hprim : ∀ w, snapshot.primary = some w → w ∈ snapshot.windows := by
    intro w hw
    simp [RateLimitSnapshot.windows, hw]
  have hsec : ∀ w, snapshot.secondary = some w → w ∈ snapshot.windows := by
    intro w hw
    simp [RateLimitSnapshot.windows, hw]
  unfold classifySnapshotWindows at h
  grind

theorem exists_window_of_quotaObservation {snapshot : RateLimitSnapshot}
    {observed : F64.Percent × Bool} (h : quotaObservation snapshot = some observed) :
    ∃ window ∈ snapshot.windows, normalizedQuotaUsedPercent window = some observed.1 := by
  rcases Option.or_eq_some_iff.1 h with hweekly | ⟨-, hfiveHour⟩
  · obtain ⟨used, hused, rfl⟩ := Option.map_eq_some_iff.1 hweekly
    obtain ⟨window, hwindow, hwused⟩ := Option.bind_eq_some_iff.1 hused
    exact ⟨window, mem_windows_of_classify (.inr hwindow), hwused⟩
  · obtain ⟨used, hused, rfl⟩ := Option.map_eq_some_iff.1 hfiveHour
    obtain ⟨window, hwindow, hwused⟩ := Option.bind_eq_some_iff.1 hused
    exact ⟨window, mem_windows_of_classify (.inl hwindow), hwused⟩

theorem quotaTelemetry_isSome {limits : RateLimits} {observed : F64.Percent × Bool}
    (h : quotaObservation limits.snapshot = some observed) (id : String) (now : DateTime) :
    ∃ t, quotaTelemetry id limits now = some t := by
  obtain ⟨window, hwindow, hused⟩ := exists_window_of_quotaObservation h
  have hne : limits.usageWindows now ≠ [] := by
    simp only [RateLimitSnapshot.windows, RateLimits.snapshot, List.mem_append,
      Option.mem_toList, Option.map_eq_some_iff] at hwindow
    rcases hwindow with ⟨limit, hlimit, rfl⟩ | ⟨limit, hlimit, rfl⟩ <;>
      simp [RateLimits.usageWindows, hlimit, usageWindow, hused]
  unfold quotaTelemetry
  split
  · contradiction
  · exact ⟨_, rfl⟩

inductive QuotaRecord
  | telemetry (t : AccountTelemetry)
  | quota (account : String) (quota : CachedQuota)
  | failover (source : String)
deriving DecidableEq

def QuotaRecord.account : QuotaRecord → String
  | .telemetry t => t.accountId
  | .quota account _ => account
  | .failover source => source

/-! ### Sessions -/

/-- The accounts whose requests returned the windows, and the plan, which can be older. -/
structure Observed where
  limits : RateLimits
  account : Option String
  planAccount : Option String

namespace Observed

def merge (previous : Option Observed) (account : Option String) (limits : RateLimits) :
    Observed where
  limits := mergeRateLimitFields (previous.map (·.limits)) limits
  account
  planAccount := if limits.planType.isSome then account else previous.bind (·.planAccount)

def sources (o : Observed) : QuotaRecord → List (Option String)
  | .telemetry _ => o.account :: if o.limits.planType.isSome then [o.planAccount] else []
  | _ => [o.account]

def Of (o : Observed) (account : Option String) : Prop :=
  o.account = account ∧ (o.limits.planType.isSome → o.planAccount = account)

instance (o : Observed) (account : Option String) : Decidable (o.Of account) :=
  inferInstanceAs (Decidable (_ ∧ _))

theorem Of.merge {previous : Option Observed} {account : Option String}
    (h : ∀ o ∈ previous, o.Of account) (limits : RateLimits) :
    (Observed.merge previous account limits).Of account := by
  refine ⟨rfl, fun hplan => ?_⟩
  simp only [Observed.merge, mergeRateLimitFields] at hplan ⊢
  split_ifs with hnew
  · rfl
  · cases previous with
    | none => simp_all
    | some o => exact (h o rfl).2 (by simp_all)

theorem forall_sources_iff (o : Observed) (t : AccountTelemetry) (account : Option String) :
    (∀ source ∈ o.sources (.telemetry t), source = account) ↔ o.Of account := by
  unfold sources Of
  split_ifs with hplan <;> simp [hplan]

end Observed

/-- The latest limits, and those of the token counts that are not handled yet, oldest first. -/
structure Session where
  latest : Option Observed
  sent : List (Option Observed)

variable [Externals]

namespace Process

variable (p : Process) (limits : RateLimits)

def recordsFor (id : String) (usedPercent : F64.Percent) (isWeekly : Bool) : List QuotaRecord :=
  ((quotaTelemetry id limits p.world.clock).map .telemetry).toList ++
    match p.quotas with
    | none => []
    | some _ =>
      .quota id ⟨usedPercent, p.world.clock, isWeekly⟩ ::
        if !isWeekly || !quotaRequiresFailover usedPercent || p.autoFailoverInFlight then []
        else [.failover id]

def records : List QuotaRecord :=
  match p.world.cachedAccount, quotaObservation limits.snapshot with
  | some id, some (usedPercent, isWeekly) => p.recordsFor limits id usedPercent isWeekly
  | _, _ => []

/-- The effect of a record on the process; the quota store is not part of it. -/
def keep : QuotaRecord → Process
  | .telemetry _ => p
  | .quota id quota => { p with quotas := p.quotas.map (·.insert id quota) }
  | .failover source =>
    { p with
      autoFailoverInFlight := true
      tasks := p.tasks ++ [⟨some source, false, Service.failoverTask source⟩] }

theorem foldl_keep_recordsFor (id : String) (usedPercent : F64.Percent) (isWeekly : Bool)
    (hcached : p.world.cachedAccount = some id)
    (hobs : quotaObservation limits.snapshot = some (usedPercent, isWeekly)) :
    (p.recordsFor limits id usedPercent isWeekly).foldl keep p =
      p.observeRateLimits limits.snapshot := by
  obtain ⟨t, ht⟩ := quotaTelemetry_isSome hobs id p.world.clock
  unfold recordsFor observeRateLimits
  rw [ht, hcached, hobs]
  cases hquotas : p.quotas with
  | none => rfl
  | some quotas =>
    simp only [Option.map_some, Option.toList_some, List.foldl_append, List.foldl_cons,
      List.foldl_nil, keep, hquotas]
    split_ifs <;> rfl

theorem foldl_keep_records :
    (p.records limits).foldl keep p = p.observeRateLimits limits.snapshot := by
  unfold records
  split
  · rename_i id usedPercent isWeekly hcached hobs
    exact p.foldl_keep_recordsFor limits id usedPercent isWeekly hcached hobs
  · rename_i hnone
    unfold observeRateLimits
    split
    · rename_i id usedPercent isWeekly quotas hcached hobs hquotas
      exact absurd hobs (hnone id usedPercent isWeekly hcached)
    · rfl

variable {p limits}

theorem cachedAccount_of_mem_records {record : QuotaRecord} (h : record ∈ p.records limits) :
    p.world.cachedAccount = some record.account := by
  unfold records at h
  split at h
  · rename_i id usedPercent isWeekly hcached hobs
    rw [hcached]
    rcases List.mem_append.1 h with h | h
    · obtain ⟨t, ht, rfl⟩ := Option.map_eq_some_iff.1 (Option.mem_toList.1 h)
      unfold quotaTelemetry at ht
      split at ht <;> cases ht
      rfl
    · split at h
      · cases h
      · rcases List.mem_cons.1 h with rfl | h
        · rfl
        · split_ifs at h
          · cases h
          · cases List.mem_singleton.1 h
            rfl
  · cases h

theorem exists_telemetry_of_mem_records {record : QuotaRecord} (h : record ∈ p.records limits) :
    ∃ t, QuotaRecord.telemetry t ∈ p.records limits := by
  unfold records at h ⊢
  split at h
  · rename_i id usedPercent isWeekly hcached hobs
    obtain ⟨t, ht⟩ := quotaTelemetry_isSome hobs id p.world.clock
    exact ⟨t, List.mem_append_left _ (by simp [ht])⟩
  · cases h

end Process

/-! ### The server -/

/-- For each request to the provider its session and the account of its credentials. -/
structure Server where
  process : Process
  sessions : ℕ → Session
  requests : List (ℕ × Option String)

inductive ServerEvent
  | request (session : ℕ) (answer : AuthAnswer)
  | limits (n : ℕ) (limits : RateLimits)
  | tokenCount (session : ℕ)
  | handle (session : ℕ)
  | credentials (op : CredentialOp)
  | switch (target : String)
  | advance (n : ℕ)
  | closeTurns
  | clock (now : DateTime)
  | stores (store : Store)

namespace Server

variable (s : Server)

def cachedAccount : Option String := s.process.world.cachedAccount

def onSession (n : ℕ) (f : Session → Session) : Server :=
  { s with sessions := Function.update s.sessions n (f (s.sessions n)) }

def onProcess (e : ProcessEvent) : Server := { s with process := (s.process.step e).1 }

def observed : ServerEvent → Option Observed
  | .handle session => (s.sessions session).sent.head?.join
  | _ => none

def request (session : ℕ) (answer : AuthAnswer) : Server :=
  let w := s.process.world
  { s with
    process.world.native := (w.native.auth w.config answer).2
    requests := s.requests ++ [(session, w.native.authAccount w.config answer)] }

def receive (limits : RateLimits) : Option (ℕ × Option String) → Server
  | none => s
  | some (session, account) =>
    s.onSession session fun ses => { ses with latest := some (.merge ses.latest account limits) }

def observe : Option Observed → Server
  | none => s
  | some o => s.onProcess (.observe o.limits.snapshot)

def next : ServerEvent → Server
  | .request session answer => s.request session answer
  | .limits n limits => s.receive limits s.requests[n]?
  | .tokenCount session => s.onSession session fun ses => { ses with sent := ses.sent ++ [ses.latest] }
  | .handle session =>
    (s.onSession session fun ses => { ses with sent := ses.sent.tail }).observe
      (s.observed (.handle session))
  | .credentials op => { s with process.world := op.apply s.process.world }
  | .switch target => s.onProcess (.request target)
  | .advance n => s.onProcess (.advance n)
  | .closeTurns => s.onProcess .closeTurns
  | .clock now => s.onProcess (.clock now)
  | .stores store => s.onProcess (.stores store)

def start (w : World) : Server := ⟨.start w, fun _ => ⟨none, []⟩, []⟩

end Server

structure Entry where
  record : QuotaRecord
  sources : List (Option String)
deriving DecidableEq

def Entry.Attributed (entry : Entry) : Prop :=
  ∀ source ∈ entry.sources, source = some entry.record.account

instance (entry : Entry) : Decidable entry.Attributed :=
  inferInstanceAs (Decidable (∀ source ∈ _, _))

def Process.entries (p : Process) (o : Observed) : List Entry :=
  (p.records o.limits).map fun record => ⟨record, o.sources record⟩

def serverMachine : Machine Server ServerEvent (List Entry) :=
  ⟨fun s e => (s.next e, (s.observed e).elim [] s.process.entries)⟩

theorem serverMachine_step (s : Server) (e : ServerEvent) :
    serverMachine.step s e = (s.next e, (s.observed e).elim [] s.process.entries) := rfl

namespace Server

def Attributed (s : Server) (e : ServerEvent) : Prop :=
  ∀ entry ∈ (serverMachine.step s e).2, entry.Attributed

/-- Limits are given to the service while the account whose requests returned them is cached. -/
def InTime (s : Server) (e : ServerEvent) : Prop :=
  ∀ o ∈ s.observed e, s.process.records o.limits ≠ [] → o.Of s.cachedAccount

def KeepsAccount (s : Server) (e : ServerEvent) : Prop :=
  (serverMachine.step s e).1.cachedAccount = s.cachedAccount

instance (s : Server) : DecidablePred s.Attributed :=
  fun e => inferInstanceAs (Decidable (∀ entry ∈ (serverMachine.step s e).2, _))

instance (s : Server) : DecidablePred s.KeepsAccount :=
  fun _ => inferInstanceAs (Decidable (_ = _))

theorem attributed_iff_inTime (s : Server) (e : ServerEvent) : s.Attributed e ↔ s.InTime e := by
  unfold Attributed InTime
  rw [serverMachine_step]
  cases s.observed e with
  | none => simp
  | some o =>
    simp only [Option.elim_some, Process.entries, List.forall_mem_map, Entry.Attributed,
      Option.mem_some_iff, forall_eq']
    constructor
    · intro hall hne
      obtain ⟨record, hrecord⟩ := List.exists_mem_of_ne_nil _ hne
      -- telemetry has every value that is kept
      obtain ⟨t, ht⟩ := Process.exists_telemetry_of_mem_records hrecord
      rw [cachedAccount, Process.cachedAccount_of_mem_records ht]
      exact (o.forall_sources_iff t _).1 (hall _ ht)
    · intro hin record hrecord
      have hof := hin (List.ne_nil_of_mem hrecord)
      rw [cachedAccount, Process.cachedAccount_of_mem_records hrecord] at hof
      cases record with
      | telemetry t => exact (o.forall_sources_iff t _).2 hof
      | _ => exact List.forall_mem_singleton.2 hof.1

end Server

/-! ### Runs that keep their account -/

def Session.Only (account : Option String) (ses : Session) : Prop :=
  (∀ o ∈ ses.latest, o.Of account) ∧ ∀ sent ∈ ses.sent, ∀ o ∈ sent, o.Of account

namespace Server

structure Only (account : Option String) (s : Server) : Prop where
  cached : s.cachedAccount = account
  requests : ∀ request ∈ s.requests, request.2 = account
  sessions : ∀ n, (s.sessions n).Only account

variable {s : Server} {account : Option String}

theorem only_start (w : World) : (start w).Only w.cachedAccount := by
  refine ⟨rfl, List.forall_mem_nil _, fun _ => ⟨?_, List.forall_mem_nil _⟩⟩
  rintro o ⟨⟩

theorem sessions_onSession (n : ℕ) (f : Session → Session)
    (h : ∀ m, (s.sessions m).Only account) (hf : (f (s.sessions n)).Only account) (m : ℕ) :
    ((s.onSession n f).sessions m).Only account := by
  by_cases hm : m = n
  · subst hm
    simpa [onSession] using hf
  · simpa [onSession, hm] using h m

theorem observe_sessions (o : Option Observed) : (s.observe o).sessions = s.sessions := by
  cases o <;> rfl

theorem requests_next (hs : s.Only account) {e : ServerEvent} (hkeeps : s.KeepsAccount e) :
    ∀ request ∈ (s.next e).requests, request.2 = account := by
  cases e with
  | request session answer =>
    refine List.forall_mem_append.2 ⟨hs.requests, List.forall_mem_singleton.2 ?_⟩
    rcases AuthManager.auth_account s.process.world.config answer s.process.world.native with h | h
    · exact (h.trans hkeeps).trans hs.cached
    · exact h.trans hs.cached
  | limits n limits =>
    rw [next]
    unfold receive
    split <;> exact hs.requests
  | handle session =>
    rw [next]
    unfold observe
    split <;> exact hs.requests
  | _ => exact hs.requests

theorem sessions_next (hs : s.Only account) (e : ServerEvent) (n : ℕ) :
    ((s.next e).sessions n).Only account := by
  cases e with
  | limits i limits =>
    rw [next]
    cases hreq : s.requests[i]? with
    | none => exact hs.sessions n
    | some request =>
      obtain ⟨session, source⟩ := request
      obtain rfl : source = account := hs.requests _ (List.mem_of_getElem? hreq)
      have hses := hs.sessions session
      rw [receive]
      refine sessions_onSession _ _ hs.sessions ⟨?_, hses.2⟩ n
      rintro _ ⟨⟩
      exact .merge hses.1 limits
  | tokenCount session =>
    have hses := hs.sessions session
    rw [next]
    exact sessions_onSession _ _ hs.sessions
      ⟨hses.1, List.forall_mem_append.2 ⟨hses.2, List.forall_mem_singleton.2 hses.1⟩⟩ n
  | handle session =>
    have hses := hs.sessions session
    rw [next, observe_sessions]
    exact sessions_onSession _ _ hs.sessions
      ⟨hses.1, fun sent hsent => hses.2 sent (List.mem_of_mem_tail hsent)⟩ n
  | _ => exact hs.sessions n

theorem only_step (hs : s.Only account) {e : ServerEvent} (hkeeps : s.KeepsAccount e) :
    (serverMachine.step s e).1.Only account :=
  ⟨hkeeps.trans hs.cached, requests_next hs hkeeps, sessions_next hs e⟩

theorem inTime_of_only (hs : s.Only account) (e : ServerEvent) : s.InTime e := by
  intro o ho _
  rw [hs.cached]
  cases e with
  | handle session =>
    have hhead : (s.sessions session).sent.head? = some (some o) := Option.join_eq_some_iff.1 ho
    exact (hs.sessions session).2 _ (List.mem_of_head? hhead) o rfl
  | _ => cases ho

end Server

/-- **Quota attribution**: what the service keeps for an account comes from its requests exactly if
its limits are given to the service in time. -/
theorem quota_attributed (w : World) (events : List ServerEvent) :
    (serverMachine.Each Server.Attributed (.start w) events ↔
      serverMachine.Each Server.InTime (.start w) events) ∧
    (serverMachine.Each Server.KeepsAccount (.start w) events →
      serverMachine.Each Server.Attributed (.start w) events) := by
  constructor
  · rw [show Server.Attributed = Server.InTime from
      funext₂ fun s e => propext (s.attributed_iff_inTime e)]
  · intro hkeeps
    exact Machine.each_of_each (I := Server.Only w.cachedAccount)
      (fun s e hstep hs =>
        ⟨Server.only_step hs hstep, (s.attributed_iff_inTime e).2 (Server.inTime_of_only hs e)⟩)
      hkeeps (Server.only_start w)

def RateLimits.weeklySample (percent : ℚ≥0) : RateLimits where
  limitId := none
  limitName := none
  primary := none
  secondary := some ⟨⟨.finite false percent, some weeklyWindowMinutes⟩, none⟩
  planType := none

def keptFor (w : World) (events : List ServerEvent) : List (String × List (Option String)) :=
  ((serverMachine.history (.start w) events).flatMap (·.2)).map fun entry =>
    (entry.record.account, entry.sources)

/-- A turn whose limits are handled before it ends; the failover that they start finds no target. -/
def observingTurn : List ServerEvent :=
  [.credentials (.runningTurns 1), .request 0 .sample, .limits 0 (.weeklySample spentSample),
    .tokenCount 0, .handle 0, .credentials (.runningTurns 0)] ++ List.replicate 6 (.advance 0)

/-- Then a client switches to `b`, and the next turn sends a token count with the limits of `a`. -/
def turnAfterSwitch : List ServerEvent :=
  observingTurn ++ .switch "b" :: List.replicate 16 (.advance 1) ++
    [.credentials (.runningTurns 1), .request 0 .sample, .tokenCount 0, .handle 0]

def turnDuringLogin : List ServerEvent :=
  [.credentials (.runningTurns 1), .request 0 .sample, .credentials (.login (.sample "b" "1")),
    .limits 0 (.weeklySample spentSample), .tokenCount 0, .handle 0]

omit [Externals] in
/-- Telemetry, a quota and a failover for `b` come from what was returned to `a`. -/
theorem quota_of_other_account :
    letI := Externals.sample
    keptFor .sample turnAfterSwitch =
        List.replicate 3 ("a", [some "a"]) ++ List.replicate 3 ("b", [some "a"]) ∧
      keptFor .sample turnDuringLogin = List.replicate 3 ("b", [some "a"]) ∧
      ¬ serverMachine.Each Server.Attributed (.start .sample) turnAfterSwitch ∧
      ¬ serverMachine.Each Server.Attributed (.start .sample) turnDuringLogin := by
  decide +kernel

omit [Externals] in
theorem quota_attributed_sample :
    letI := Externals.sample
    keptFor .sample observingTurn = List.replicate 3 ("a", [some "a"]) ∧
      serverMachine.Each Server.Attributed (.start .sample) observingTurn := by
  let := Externals.sample
  exact ⟨by decide, (quota_attributed .sample observingTurn).2 (by decide)⟩

end CodexMarathon
