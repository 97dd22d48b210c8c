/-
**Observed quotas, and the target of a failover.**

The windows of a rate-limit snapshot are told apart by their durations.  The service remembers the
weekly usage of the current account, or else the five-hour one, and a failover picks the registered
account with the least usage that was observed lately.
-/

import CodexMarathon.Store.Accounts
import Mathlib.Algebra.Order.Field.Rat
import Mathlib.Data.NNRat.Defs

namespace CodexMarathon

/-- `f64`, with the payload of a NaN left out. -/
inductive F64
  | nan
  | infinite (negative : Bool)
  | finite (negative : Bool) (magnitude : ℚ≥0)
deriving DecidableEq

namespace F64

/-- A percentage: a finite number from 0 to 100; zero may carry a sign. -/
structure Percent where
  negative : Bool
  magnitude : ℚ≥0
  le_hundred : magnitude ≤ 100
  sign : negative = true → magnitude = 0
deriving DecidableEq

/-- `clamp(0.0, 100.0)` of a finite number; it leaves a negative zero as it is. -/
def clampPercent (negative : Bool) (magnitude : ℚ≥0) : Percent :=
  if magnitude = 0 then ⟨negative, 0, zero_le, fun _ => rfl⟩
  else if negative then ⟨false, 0, zero_le, nofun⟩
  else if hle : magnitude ≤ 100 then ⟨false, magnitude, hle, nofun⟩
  else ⟨false, 100, le_rfl, nofun⟩

/-- `total_cmp` of percentages: a negative zero comes before the other zero. -/
def Percent.totalLt (a b : Percent) : Bool :=
  a.magnitude < b.magnitude || (a.magnitude = b.magnitude && a.negative && !b.negative)

end F64

/-! ### Windows -/

structure RateLimitWindow where
  usedPercent : F64
  windowMinutes : Option ℤ
deriving DecidableEq

structure RateLimitSnapshot where
  primary : Option RateLimitWindow
  secondary : Option RateLimitWindow
deriving DecidableEq

inductive QuotaWindowClass
  | fiveHour
  | weekly
deriving DecidableEq, Repr

def fiveHourWindowMinutes : ℤ := 5 * 60

def weeklyWindowMinutes : ℤ := 7 * 24 * 60

def quotaWindowClass (window : RateLimitWindow) : Option QuotaWindowClass :=
  if window.windowMinutes = some fiveHourWindowMinutes then some .fiveHour
  else if window.windowMinutes = some weeklyWindowMinutes then some .weekly
  else none

namespace RateLimitSnapshot

def windows (snapshot : RateLimitSnapshot) : List RateLimitWindow :=
  snapshot.primary.toList ++ snapshot.secondary.toList

def hasUnknownDuration (snapshot : RateLimitSnapshot) : Bool :=
  snapshot.windows.any fun window =>
    window.windowMinutes.any fun minutes =>
      minutes ≠ fiveHourWindowMinutes && minutes ≠ weeklyWindowMinutes

def lastOfClass (snapshot : RateLimitSnapshot) (c : QuotaWindowClass) : Option RateLimitWindow :=
  (snapshot.windows.filter fun window => quotaWindowClass window = some c).getLast?

end RateLimitSnapshot

/-- `classify_snapshot_windows`. A window without a duration takes the role of its slot only if both
slots are filled and the other one does not contradict. -/
def classifySnapshotWindows (snapshot : RateLimitSnapshot) :
    Option RateLimitWindow × Option RateLimitWindow :=
  let fiveHour := snapshot.lastOfClass .fiveHour
  let weekly := snapshot.lastOfClass .weekly
  if snapshot.hasUnknownDuration then (fiveHour, weekly)
  else
    match snapshot.primary, snapshot.secondary with
    | some primary, some secondary =>
      if primary.windowMinutes = none ∧ secondary.windowMinutes = none then
        (some (fiveHour.getD primary), some (weekly.getD secondary))
      else if primary.windowMinutes = none ∧ quotaWindowClass secondary = some .weekly ∧
          fiveHour = none then
        (some primary, weekly)
      else if secondary.windowMinutes = none ∧ quotaWindowClass primary = some .fiveHour ∧
          weekly = none then
        (fiveHour, some secondary)
      else (fiveHour, weekly)
    | _, _ => (fiveHour, weekly)

def normalizedQuotaUsedPercent (window : RateLimitWindow) : Option F64.Percent :=
  match window.usedPercent with
  | .finite negative magnitude => some (F64.clampPercent negative magnitude)
  | _ => none

/-- `quota_observation`: the usage, and whether it is the weekly one. -/
def quotaObservation (snapshot : RateLimitSnapshot) : Option (F64.Percent × Bool) :=
  let (fiveHour, weekly) := classifySnapshotWindows snapshot
  ((weekly.bind normalizedQuotaUsedPercent).map (·, true)).or
    ((fiveHour.bind normalizedQuotaUsedPercent).map (·, false))

def autoFailoverUsedPercent : ℚ≥0 := 90

def spentSample : ℚ≥0 := 95

def quotaRequiresFailover (usedPercent : F64.Percent) : Bool :=
  autoFailoverUsedPercent < usedPercent.magnitude

/-! ### The target -/

structure CachedQuota where
  usedPercent : F64.Percent
  observedAt : DateTime
  isWeekly : Bool
deriving DecidableEq

abbrev Quotas : Type := AList fun _ : String => CachedQuota

def elapsedNanos (now t : DateTime) : ℤ :=
  (now.secs - t.secs) * 1000000000 + ((now.nanos : ℤ) - t.nanos)

def autoFailoverTelemetryTtl : ℤ := 5 * 60 * 1000000000

def CachedQuota.fresh (quota : CachedQuota) (now : DateTime) : Bool :=
  decide (¬ now < quota.observedAt) && elapsedNanos now quota.observedAt < autoFailoverTelemetryTtl

def eligibleUsage (quotas : Quotas) (now : DateTime) (id : String) : Option F64.Percent := do
  let quota ← quotas.lookup id
  if quota.isWeekly && quota.fresh now &&
      decide (quota.usedPercent.magnitude ≤ autoFailoverUsedPercent) then
    some quota.usedPercent
  else none

def betterTarget (left right : String × F64.Percent) : String × F64.Percent :=
  if right.2.totalLt left.2 || (right.2 = left.2 && right.1 < left.1) then right else left

def preselected (state : RegistryState) (source : String) : List AccountRecord :=
  if state.enabled then
    state.records.filter fun account => account.id ≠ source && account.credentialHealth = .healthy
  else []

def selectAutoTarget (present : List AccountRecord) (quotas : Quotas) (now : DateTime) :
    Option String :=
  let eligible := present.filterMap fun account =>
    (eligibleUsage quotas now account.id).map (account.id, ·)
  match eligible with
  | [] => none
  | first :: rest => some (rest.foldl betterTarget first).1

theorem foldl_betterTarget_mem (first : String × F64.Percent) (rest : List (String × F64.Percent)) :
    rest.foldl betterTarget first ∈ first :: rest := by
  induction rest generalizing first with
  | nil => exact List.mem_singleton.2 rfl
  | cons next rest ih =>
    rw [List.foldl_cons]
    rcases List.mem_cons.1 (ih (betterTarget first next)) with h | h
    · rw [h]
      unfold betterTarget
      split_ifs <;> simp
    · exact List.mem_cons_of_mem _ (List.mem_cons_of_mem _ h)

theorem selectAutoTarget_mem {present : List AccountRecord} {quotas : Quotas} {now : DateTime}
    {target : String} (h : selectAutoTarget present quotas now = some target) :
    (∃ account ∈ present, account.id = target) ∧ eligibleUsage quotas now target ≠ none := by
  unfold selectAutoTarget at h
  simp only at h
  split at h
  · cases h
  rename_i first rest helig
  cases h
  have hmem := foldl_betterTarget_mem first rest
  rw [← helig] at hmem
  obtain ⟨account, hacc, husage⟩ := List.mem_filterMap.1 hmem
  obtain ⟨usage, helig, heq⟩ := Option.map_eq_some_iff.1 husage
  rw [← heq]
  exact ⟨⟨account, hacc, rfl⟩, by simp [helig]⟩

theorem selectAutoTarget_ne {state : RegistryState} {source : String}
    {present : List AccountRecord} {quotas : Quotas} {now : DateTime} {target : String}
    (hpres : present ⊆ preselected state source)
    (h : selectAutoTarget present quotas now = some target) :
    target ≠ source ∧ ∃ account ∈ state.records, account.id = target := by
  obtain ⟨⟨account, hacc, rfl⟩, -⟩ := selectAutoTarget_mem h
  have hmem := hpres hacc
  unfold preselected at hmem
  split_ifs at hmem
  · obtain ⟨hrec, hpassed⟩ := List.mem_filter.1 hmem
    rw [Bool.and_eq_true, decide_eq_true_eq] at hpassed
    exact ⟨hpassed.1, account, hrec, rfl⟩
  · cases hmem

end CodexMarathon
