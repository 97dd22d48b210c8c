/-
**Quota telemetry.**

What a provider has reported of the quotas of an account, and what it says at a given time: whether
the account can be selected, how much of its quotas is used, and when the first exhausted quota is
reset.
-/

import CodexMarathon.Lib.Listing
import CodexMarathon.Lib.Result
import CodexMarathon.Primitives
import Mathlib.Data.Prod.Lex

namespace CodexMarathon

/-- The order is that of `total_cmp`; nothing is assumed that relates it to the operations. -/
class Float64 (P : Type) extends LinearOrder P where
  const : ℕ → P
  add : P → P → P
  /-- `f64::max` and `f64::min`. -/
  larger : P → P → P
  smaller : P → P → P
  isFinite : P → Bool
  /-- `>` and `>=`. -/
  above : P → P → Bool
  atLeast : P → P → Bool

instance : Float64 ℕ where
  const n := n
  add := (· + ·)
  larger := max
  smaller := min
  isFinite _ := true
  above a b := b < a
  atLeast a b := b ≤ a

namespace DateTime

theorem minSecs_le_maxSecs : minSecs ≤ maxSecs := by decide

def minUtc : DateTime := .ofSecs minSecs (Int.le_refl _) minSecs_le_maxSecs

/-- `-`, in nanoseconds: a leap second counts from the second after it on. -/
def since (t earlier : DateTime) : ℤ :=
  let leap : ℤ :=
    if earlier.secs % 86400 < t.secs % 86400 ∧ 1000000000 ≤ earlier.nanos then 1
    else if t.secs % 86400 < earlier.secs % 86400 ∧ 1000000000 ≤ t.nanos then -1
    else 0
  (t.secs - earlier.secs + leap) * 1000000000 + (t.nanos - earlier.nanos)

def key (t : DateTime) : ℤ ×ₗ ℕ := toLex (t.secs, t.nanos)

theorem lt_iff_key_lt {a b : DateTime} : a < b ↔ a.key < b.key := by
  unfold key
  rw [Prod.Lex.toLex_lt_toLex]
  rfl

end DateTime

inductive WindowKind
  | primary
  | secondary
deriving DecidableEq, Repr

inductive Freshness
  | fresh
  | stale
deriving DecidableEq, Repr

inductive QuotaResetCapability
  | unavailable
  | available (creditId : Option String)
deriving DecidableEq

namespace Policy

open Float64

variable {P : Type}

def earliest (instants : List DateTime) : Option DateTime :=
  (Listing.orderBy DateTime.key instants).head?

structure Earliest (S : Set DateTime) (first : Option DateTime) : Prop where
  mem : ∀ t, first = some t → t ∈ S
  least : ∀ t ∈ S, ∃ m, first = some m ∧ ¬ t < m

theorem earliest_filterMap {α : Type} {l : List α} {f : α → Option DateTime}
    {S : α → Set DateTime} (h : ∀ a ∈ l, Earliest (S a) (f a)) :
    Earliest {t | ∃ a ∈ l, t ∈ S a} (earliest (l.filterMap f)) := by
  constructor
  · intro t ht
    have hmem := (Listing.mem_orderBy _).1 (List.mem_of_mem_head? ht)
    obtain ⟨a, ha, hf⟩ := List.mem_filterMap.1 hmem
    exact ⟨a, ha, (h a ha).mem t hf⟩
  · rintro t ⟨a, ha, ht⟩
    obtain ⟨m, hm, hle⟩ := (h a ha).least t ht
    have hmem : m ∈ l.filterMap f := List.mem_filterMap.2 ⟨a, ha, hm⟩
    obtain ⟨first, rest, horder, -, hleast⟩ := Listing.orderBy_cons (k := DateTime.key) hmem
    rw [DateTime.lt_iff_key_lt, not_lt] at hle
    refine ⟨first, by rw [earliest, horder, List.head?_cons], ?_⟩
    rw [DateTime.lt_iff_key_lt, not_lt]
    exact (hleast m hmem).trans hle

theorem Earliest.congr {S T : Set DateTime} {first : Option DateTime} (h : Earliest S first)
    (hST : ∀ t, t ∈ S ↔ t ∈ T) : Earliest T first :=
  ⟨fun t ht => (hST t).1 (h.mem t ht), fun t ht => h.least t ((hST t).2 ht)⟩

/-! ### Windows -/

structure UsageWindow (P : Type) where
  kind : WindowKind
  usedPercent : P
  windowDurationMins : Option ℕ
  resetsAt : Option DateTime
  observedAt : DateTime
  freshness : Freshness
deriving DecidableEq

structure LimitTelemetry (P : Type) where
  limitId : String
  limitName : String
  planType : String
  windows : List (UsageWindow P)
deriving DecidableEq

/-- Telemetry of an account; the limits are in the order of their keys. -/
structure AccountTelemetry (P : Type) where
  accountId : String
  limits : List (String × LimitTelemetry P)
  observedAt : DateTime
  usable : Bool
  resetCapability : QuotaResetCapability
  source : String
deriving DecidableEq

structure Thresholds (P : Type) where
  primaryPercent : P
  secondaryPercent : P

structure CandidateRank (P : Type) where
  accountId : String
  secondaryUsedPercent : P
  primaryUsedPercent : P
  maxUsedPercent : P
  totalUsedPercent : P

def isRecent (observedAt now : DateTime) (maxAge : Option ℤ) : Bool :=
  maxAge.all fun bound => bound ≤ 0 || now.since observedAt < bound

namespace UsageWindow

variable (w : UsageWindow P) (now : DateTime)

def isFreshAt (maxAge : Option ℤ) : Bool :=
  if w.freshness = .stale || w.resetsAt.any (fun reset => !decide (now < reset)) ||
      now < w.observedAt then false
  else isRecent w.observedAt now maxAge

def isExhausted [Float64 P] : Bool := atLeast w.usedPercent (const 100)

def futureResetAt : Option DateTime := w.resetsAt.filter (now < ·)

end UsageWindow

section

variable [Float64 P]

namespace Thresholds

def normalizedPercent (p : P) : P :=
  if atLeast (const 0) p then const 90 else smaller p (const 100)

def normalized (t : Thresholds P) : Thresholds P :=
  ⟨normalizedPercent t.primaryPercent, normalizedPercent t.secondaryPercent⟩

end Thresholds

def CandidateRank.key (r : CandidateRank P) : P ×ₗ P ×ₗ P ×ₗ P ×ₗ String :=
  toLex (r.secondaryUsedPercent, toLex (r.primaryUsedPercent, toLex (r.maxUsedPercent,
    toLex (r.totalUsedPercent, r.accountId))))

/-! ### Accounts -/

def checkWindow (now : DateTime) (maxAge : Option ℤ) (kinds : Bool × Bool) (w : UsageWindow P) :
    Except String (Bool × Bool) := do
  let (seen, kinds) := match w.kind with
    | .primary => (kinds.1, (true, kinds.2))
    | .secondary => (kinds.2, (kinds.1, true))
  Result.require (!seen) "rate-limit bucket has duplicate window kinds"
  Result.require (isFinite w.usedPercent) "rate-limit usage is not finite"
  Result.require (w.isFreshAt now maxAge) "rate-limit window is stale"
  Result.require (!w.isExhausted) "rate-limit window is exhausted"
  pure kinds

namespace AccountTelemetry

variable (a : AccountTelemetry P) (now : DateTime)

def windows : List (UsageWindow P) := a.limits.flatMap (·.2.windows)

def completeFreshCapacity (maxAge : Option ℤ) : Except String Unit := do
  Result.require a.usable "account telemetry is unusable"
  Result.require (!a.accountId.isEmpty) "account telemetry has no account id"
  Result.require (!a.limits.isEmpty) "account telemetry has no rate-limit buckets"
  Result.require (!maxAge.any fun bound =>
      0 < bound && (now < a.observedAt || bound ≤ now.since a.observedAt))
    "account telemetry is outside the freshness bound"
  a.limits.forM fun limit => do
    Result.require (!limit.2.windows.isEmpty) "rate-limit bucket has no windows"
    let _ ← limit.2.windows.foldlM (checkWindow now maxAge) (false, false)

def thresholdReached (t : Thresholds P) : Bool :=
  a.windows.any fun w => match w.kind with
    | .primary => above w.usedPercent t.primaryPercent
    | .secondary => above w.usedPercent t.secondaryPercent

def earliestFutureResetWithAge (maxAge : Option ℤ) : Option DateTime :=
  if !a.usable || now < a.observedAt || !isRecent a.observedAt now maxAge then none
  else earliest ((a.windows.filter fun w => w.isExhausted && w.isFreshAt now maxAge).filterMap
    (·.futureResetAt now))

def addWindow (r : CandidateRank P) (w : UsageWindow P) : CandidateRank P :=
  let r := { r with
    maxUsedPercent := larger r.maxUsedPercent w.usedPercent
    totalUsedPercent := add r.totalUsedPercent w.usedPercent }
  match w.kind with
  | .primary => { r with primaryUsedPercent := larger r.primaryUsedPercent w.usedPercent }
  | .secondary =>
    { r with secondaryUsedPercent := larger r.secondaryUsedPercent w.usedPercent }

def rank : CandidateRank P :=
  a.windows.foldl addWindow ⟨a.accountId, const 0, const 0, const 0, const 0⟩

theorem accountId_foldl_addWindow (r : CandidateRank P) (ws : List (UsageWindow P)) :
    (ws.foldl addWindow r).accountId = r.accountId := by
  induction ws generalizing r with
  | nil => rfl
  | cons w ws ih =>
    rw [List.foldl_cons, ih]
    cases h : w.kind <;> simp [addWindow, h]

@[simp] theorem accountId_rank : a.rank.accountId = a.accountId :=
  accountId_foldl_addWindow _ _

/-- The resets of exhausted, fresh windows, if the account is usable and was observed neither in the
future nor too long ago. -/
def resets (maxAge : Option ℤ) : Set DateTime :=
  {t | a.usable = true ∧ ¬ now < a.observedAt ∧ isRecent a.observedAt now maxAge = true ∧
    ∃ w ∈ a.windows, w.isExhausted = true ∧ w.isFreshAt now maxAge = true ∧
      w.resetsAt = some t ∧ now < t}

theorem earliest_reset (maxAge : Option ℤ) :
    Earliest (a.resets now maxAge) (a.earliestFutureResetWithAge now maxAge) := by
  unfold earliestFutureResetWithAge
  split_ifs with h
  · constructor
    · intro t ht
      simp at ht
    · rintro t ⟨husable, hobs, hrecent, -⟩
      simp [husable, hobs, hrecent] at h
  · refine (earliest_filterMap (S := fun w => {t | w.resetsAt = some t ∧ now < t}) ?_).congr ?_
    · intro w _
      constructor
      · intro t ht
        simpa [UsageWindow.futureResetAt, Option.filter_eq_some_iff] using ht
      · rintro t ⟨ht, hnow⟩
        refine ⟨t, by simp [UsageWindow.futureResetAt, ht, hnow], ?_⟩
        rw [DateTime.lt_iff_key_lt]
        exact lt_irrefl _
    · intro t
      simp only [Bool.not_eq_true, Bool.or_eq_false_iff, Bool.not_eq_false', decide_eq_false_iff_not] at h
      simp [resets, h.1.1, h.1.2, h.2, and_assoc]

end AccountTelemetry

end

end Policy

end CodexMarathon
