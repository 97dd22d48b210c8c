/-
**The choice of an account.**

The policy is given what is known of all accounts and says what to do: stay, move to another
account, or wait.  It is a chain of early exits; each of them is told apart here by the accounts
that can be selected.
-/

import CodexMarathon.Policy.Telemetry

namespace CodexMarathon.Policy

open Float64 Listing

variable {P : Type}

/-! ### The policy -/

inductive PolicyTrigger
  | manual
  | proactiveThreshold
  | usageLimitExceeded
  | resetRevalidation
deriving DecidableEq

inductive PolicyDecisionType
  | stay
  | transition
  | waitForReset
  | noTelemetry
  | cooldown
deriving DecidableEq

structure PolicyConfig (P : Type) where
  thresholds : Thresholds P
  freshnessTtl : ℤ
  cooldown : ℤ

structure PolicyInput (P : Type) where
  accounts : List (AccountTelemetry P)
  activeAccountId : Option String
  trigger : PolicyTrigger
  thresholds : Option (Thresholds P)
  cooldownUntil : Option DateTime
  pendingTargetId : Option String
  now : DateTime

structure PolicyDecision (P : Type) where
  kind : PolicyDecisionType
  trigger : PolicyTrigger
  activeAccountId : Option String
  accountId : Option String
  reason : String
  resetAt : Option DateTime
  retryAt : Option DateTime
  rank : Option (CandidateRank P)

def addAccount (unique : List (AccountTelemetry P)) (a : AccountTelemetry P) :
    List (AccountTelemetry P) :=
  if a.accountId.isEmpty || unique.any (·.accountId == a.accountId) then unique else unique ++ [a]

def deduplicateAccounts (accounts : List (AccountTelemetry P)) : List (AccountTelemetry P) :=
  accounts.foldl addAccount []

variable [Float64 P]

def PolicyConfig.normalized (config : PolicyConfig P) : PolicyConfig P where
  thresholds := config.thresholds.normalized
  freshnessTtl := if config.freshnessTtl ≤ 0 then 300000000000 else config.freshnessTtl
  cooldown := if config.cooldown ≤ 0 then 60000000000 else config.cooldown

def chooseCandidate (accounts : List (AccountTelemetry P)) : Option (AccountTelemetry P) :=
  (orderBy (·.rank.key) accounts).head?

def AccountTelemetry.isEligible (a : AccountTelemetry P) (now : DateTime) (ttl : ℤ) : Bool :=
  (a.completeFreshCapacity now (some ttl)).isOk

namespace PolicyInput

variable (input : PolicyInput P) (accounts : List (AccountTelemetry P)) (now : DateTime) (ttl : ℤ)
  (thresholds : Thresholds P)

def decision (kind : PolicyDecisionType) (reason : String) : PolicyDecision P where
  kind
  trigger := input.trigger
  activeAccountId := input.activeAccountId
  accountId := none
  reason
  resetAt := none
  retryAt := none
  rank := none

def candidates : List (AccountTelemetry P) :=
  let eligible := accounts.filter (·.isEligible now ttl)
  if input.activeAccountId.isNone ∧ input.trigger = .manual then eligible
  else (eligible.filter fun a => input.activeAccountId ≠ some a.accountId).filter fun a =>
    input.trigger ≠ .proactiveThreshold || !a.thresholdReached thresholds

def moveTo (a : AccountTelemetry P) : PolicyDecision P :=
  let cooldownUntil := input.cooldownUntil.getD .minUtc
  if input.trigger ≠ .manual ∧ now < cooldownUntil then
    { input.decision .cooldown "switch cooldown is active" with
      accountId := some a.accountId
      retryAt := some cooldownUntil
      rank := some a.rank }
  else
    let reason := match input.trigger with
      | .usageLimitExceeded => "UsageLimitExceeded requires a fresh replacement account"
      | .proactiveThreshold => "active account crossed the configured usage threshold"
      | _ => "fresh account has lower quota pressure"
    { input.decision .transition reason with
      accountId := some a.accountId
      rank := some a.rank }

def remain (activeEligible : Bool) : PolicyDecision P :=
  if accounts.filter (·.isEligible now ttl) ≠ [] ∧ (input.trigger = .proactiveThreshold ∨
      activeEligible ∧ input.trigger ≠ .usageLimitExceeded) then
    input.decision .stay "no lower-pressure replacement account is available"
  else
    match earliest (accounts.filterMap (·.earliestFutureResetWithAge now (some ttl))) with
    | some resetAt =>
      { input.decision .waitForReset "all accounts are exhausted; wait for the earliest reset" with
        resetAt := some resetAt
        retryAt := some resetAt }
    | none => input.decision .noTelemetry "no fresh complete account telemetry is available"

def proceed (activeEligible : Bool) : PolicyDecision P :=
  match input.pendingTargetId.filter (!·.isEmpty) with
  | some target =>
    { input.decision .cooldown "a transition is already in flight" with
      accountId := some target
      retryAt := input.cooldownUntil }
  | none =>
    match chooseCandidate (input.candidates accounts now ttl thresholds) with
    | some a => input.moveTo now a
    | none => input.remain accounts now ttl activeEligible

def decide : PolicyDecision P :=
  let active := input.activeAccountId.bind fun id => accounts.find? (·.accountId == id)
  let activeEligible := active.any (·.isEligible now ttl)
  if input.trigger = .proactiveThreshold ∧ active.isSome ∧ activeEligible ∧
      active.any (·.thresholdReached thresholds) = false then
    input.decision .stay "active account is below configured thresholds"
  else input.proceed accounts now ttl thresholds activeEligible

end PolicyInput

def evaluate (clock : DateTime) (input : PolicyInput P) (config : PolicyConfig P) :
    PolicyDecision P :=
  let config := config.normalized
  input.decide (orderBy (·.accountId) (deduplicateAccounts input.accounts))
    (if input.now.isZero then clock else input.now) config.freshnessTtl
    (input.thresholds.getD config.thresholds).normalized

/-- `a` has an id, and is the first of `accounts` with it. -/
def Considered (accounts : List (AccountTelemetry P)) (a : AccountTelemetry P) : Prop :=
  a.accountId ≠ "" ∧ accounts.find? (·.accountId == a.accountId) = some a

omit [Float64 P] in
theorem Considered.eq {accounts : List (AccountTelemetry P)} {a b : AccountTelemetry P}
    (ha : Considered accounts a) (hb : Considered accounts b) (h : a.accountId = b.accountId) :
    a = b :=
  Option.some.inj (ha.2.symm.trans (h ▸ hb.2))

omit [Float64 P] in
theorem mem_foldl_addAccount {accounts unique : List (AccountTelemetry P)} {a : AccountTelemetry P} :
    a ∈ accounts.foldl addAccount unique ↔
      a ∈ unique ∨ (∀ b ∈ unique, b.accountId ≠ a.accountId) ∧ Considered accounts a := by
  -- what was kept so far decides which of the later accounts are dropped
  induction accounts generalizing unique with
  | nil => simp [Considered]
  | cons b accounts ih =>
    rw [List.foldl_cons, ih, addAccount]
    simp only [Bool.or_eq_true, String.isEmpty_iff, List.any_eq_true, beq_iff_eq]
    split_ifs with hdrop
    · refine or_congr_right (and_congr_right fun hnew => and_congr_right fun hid => ?_)
      have hne : b.accountId ≠ a.accountId := by
        intro heq
        rcases hdrop with h | ⟨c, hc, h⟩
        · exact hid (heq ▸ h)
        · exact hnew c hc (h.trans heq)
      rw [List.find?_cons_of_neg (by simpa using hne)]
    · push Not at hdrop
      by_cases heq : b.accountId = a.accountId
      · have hfirst : Considered (b :: accounts) a ↔ b = a := by
          rw [Considered, List.find?_cons_of_pos (by simpa using heq), Option.some.injEq]
          exact and_iff_right (heq ▸ hdrop.1)
        rw [hfirst]
        grind
      · have hlater : Considered (b :: accounts) a ↔ Considered accounts a := by
          rw [Considered, List.find?_cons_of_neg (by simpa using heq), Considered]
        rw [hlater]
        grind

omit [Float64 P] in
theorem nodup_deduplicateAccounts (accounts : List (AccountTelemetry P)) :
    (deduplicateAccounts accounts).Nodup := by
  refine List.foldlRecOn accounts addAccount (motive := List.Nodup) .nil ?_
  intro unique hunique a _
  unfold addAccount
  split_ifs with hold
  · exact hunique
  · rw [← List.concat_eq_append]
    refine hunique.concat fun ha => hold ?_
    simpa using .inr ⟨a, ha, rfl⟩

/-! ### The candidates -/

theorem AccountTelemetry.isEligible_iff {a : AccountTelemetry P} {now : DateTime} {ttl : ℤ} :
    a.isEligible now ttl = true ↔ a.completeFreshCapacity now (some ttl) = .ok () := by
  unfold isEligible
  cases a.completeFreshCapacity now (some ttl) <;> simp [Except.isOk, Except.toBool]

theorem accountId_eq_of_key_eq {a b : AccountTelemetry P} (h : a.rank.key = b.rank.key) :
    a.accountId = b.accountId := by
  have hid : a.rank.accountId = b.rank.accountId :=
    congrArg (fun k => (ofLex (ofLex (ofLex (ofLex k).2).2).2).2) h
  simpa using hid

theorem chooseCandidate_eq_some_iff {l : List (AccountTelemetry P)} {a : AccountTelemetry P}
    (h : ∀ a ∈ l, ∀ b ∈ l, a.accountId = b.accountId → a = b) :
    chooseCandidate l = some a ↔ a ∈ l ∧ ∀ b ∈ l, a.rank.key ≤ b.rank.key := by
  have hfirst : ∀ b ∈ l, ∃ c ∈ l, chooseCandidate l = some c ∧ ∀ d ∈ l, c.rank.key ≤ d.rank.key := by
    intro b hb
    obtain ⟨c, rest, horder, hc, hleast⟩ := orderBy_cons (k := fun a => a.rank.key) hb
    exact ⟨c, hc, by simp [chooseCandidate, horder], hleast⟩
  constructor
  · intro ha
    have hmem : a ∈ l := (mem_orderBy _).1 (List.mem_of_head? ha)
    obtain ⟨c, -, hc, hleast⟩ := hfirst a hmem
    cases ha.symm.trans hc
    exact ⟨hmem, hleast⟩
  · rintro ⟨ha, hleast⟩
    obtain ⟨c, hmem, hc, hle⟩ := hfirst a ha
    have hkey : c.rank.key = a.rank.key := le_antisymm (hle a ha) (hleast c hmem)
    rw [hc, h c hmem a ha (accountId_eq_of_key_eq hkey)]

theorem chooseCandidate_eq_none_iff {l : List (AccountTelemetry P)} :
    chooseCandidate l = none ↔ ∀ a, a ∉ l := by
  rw [chooseCandidate, List.head?_eq_none_iff, List.eq_nil_iff_forall_not_mem]
  simp only [mem_orderBy]

namespace PolicyInput

variable (input : PolicyInput P) (config : PolicyConfig P)

def limits : Thresholds P := (input.thresholds.getD config.normalized.thresholds).normalized

def ordered : List (AccountTelemetry P) :=
  orderBy (·.accountId) (deduplicateAccounts input.accounts)

def Fresh (a : AccountTelemetry P) : Prop :=
  a.completeFreshCapacity input.now (some config.normalized.freshnessTtl) = .ok ()

def ActiveBelow : Prop :=
  ∃ a, Considered input.accounts a ∧ input.activeAccountId = some a.accountId ∧
    input.Fresh config a ∧ a.thresholdReached (input.limits config) = false

structure Candidate (a : AccountTelemetry P) : Prop where
  considered : Considered input.accounts a
  other : input.activeAccountId ≠ some a.accountId
  fresh : input.Fresh config a
  below : input.trigger = .proactiveThreshold → a.thresholdReached (input.limits config) = false

def Least (a : AccountTelemetry P) : Prop :=
  input.Candidate config a ∧ ∀ b, input.Candidate config b → a.rank.key ≤ b.rank.key

def Unpledged : Prop := input.pendingTargetId = none ∨ input.pendingTargetId = some ""

def CooledDown : Prop :=
  input.trigger = .manual ∨ ∀ t, input.cooldownUntil = some t → ¬ input.now < t

def resets : Set DateTime :=
  {t | ∃ a, Considered input.accounts a ∧
    t ∈ a.resets input.now (some config.normalized.freshnessTtl)}

variable {input config} {a : AccountTelemetry P}

omit [Float64 P] in
theorem mem_ordered : a ∈ input.ordered ↔ Considered input.accounts a := by
  rw [ordered, mem_orderBy, deduplicateAccounts]
  simp [mem_foldl_addAccount]

theorem mem_candidates : a ∈ input.candidates input.ordered input.now config.normalized.freshnessTtl
      (input.limits config) ↔ input.Candidate config a := by
  have hiff : input.Candidate config a ↔ (Considered input.accounts a ∧ input.Fresh config a) ∧
      input.activeAccountId ≠ some a.accountId ∧
      (input.trigger = .proactiveThreshold → a.thresholdReached (input.limits config) = false) :=
    ⟨fun h => ⟨⟨h.considered, h.fresh⟩, h.other, h.below⟩, fun h => ⟨h.1.1, h.2.1, h.1.2, h.2.2⟩⟩
  rw [hiff, ← mem_ordered, Fresh, ← AccountTelemetry.isEligible_iff, candidates]
  split_ifs with h
  · -- without an active account, a manual choice is among all
    simp [Option.isNone_iff_eq_none.1 h.1, h.2]
  · simp only [List.mem_filter, decide_eq_true_eq, Bool.or_eq_true, Bool.not_eq_true', and_assoc,
      ne_eq, imp_iff_not_or]

omit [Float64 P] in
theorem active_eq_some_iff :
    (input.activeAccountId.bind fun id => input.ordered.find? (·.accountId == id)) = some a ↔
      Considered input.accounts a ∧ input.activeAccountId = some a.accountId := by
  rw [Option.bind_eq_some_iff]
  constructor
  · rintro ⟨id, hid, hfind⟩
    have heq : a.accountId = id := by simpa using List.find?_some hfind
    exact ⟨mem_ordered.1 (List.mem_of_find?_eq_some hfind), heq ▸ hid⟩
  · rintro ⟨ha, hid⟩
    refine ⟨a.accountId, hid, ?_⟩
    cases hfind : input.ordered.find? (·.accountId == a.accountId) with
    | none => simpa using List.find?_eq_none.1 hfind a (mem_ordered.2 ha)
    | some b =>
      have hb := mem_ordered.1 (List.mem_of_find?_eq_some hfind)
      rw [hb.eq ha (by simpa using List.find?_some hfind)]

end PolicyInput

section Exits

variable {input : PolicyInput P} {config : PolicyConfig P} {clock : DateTime}

theorem evaluate_of_activeBelow (hnow : input.now.isZero = false)
    (htrigger : input.trigger = .proactiveThreshold) (h : input.ActiveBelow config) :
    (evaluate clock input config).kind = .stay := by
  obtain ⟨a, ha, hid, hfresh, hbelow⟩ := h
  have hactive := PolicyInput.active_eq_some_iff.2 ⟨ha, hid⟩
  rw [PolicyInput.ordered] at hactive
  rw [PolicyInput.Fresh, ← AccountTelemetry.isEligible_iff] at hfresh
  rw [PolicyInput.limits] at hbelow
  simp [evaluate, PolicyInput.decide, PolicyInput.decision, hnow, hactive, htrigger, hfresh, hbelow]

theorem evaluate_of_not_activeBelow (clock : DateTime) (hnow : input.now.isZero = false)
    (h : ¬ (input.trigger = .proactiveThreshold ∧ input.ActiveBelow config)) :
    ∃ activeEligible, evaluate clock input config = input.proceed input.ordered input.now
      config.normalized.freshnessTtl (input.limits config) activeEligible := by
  unfold evaluate PolicyInput.decide
  rw [hnow, if_neg Bool.false_ne_true]
  refine ⟨_, if_neg ?_⟩
  rintro ⟨htrigger, hsome, hfresh, hbelow⟩
  obtain ⟨a, ha⟩ := Option.isSome_iff_exists.1 hsome
  rw [ha, Option.any_some] at hfresh hbelow
  obtain ⟨hcons, hid⟩ := PolicyInput.active_eq_some_iff.1 ha
  exact h ⟨htrigger, a, hcons, hid, AccountTelemetry.isEligible_iff.1 hfresh, hbelow⟩

theorem evaluate_cases (clock : DateTime) (hnow : input.now.isZero = false)
    (h : ¬ (input.trigger = .proactiveThreshold ∧ input.ActiveBelow config)) :
    ¬ input.Unpledged ∧ (evaluate clock input config).kind = .cooldown ∨ input.Unpledged ∧
      ((∃ a, input.Least config a ∧ evaluate clock input config = input.moveTo input.now a) ∨
        (∀ a, ¬ input.Candidate config a) ∧ ∃ activeEligible, evaluate clock input config =
          input.remain input.ordered input.now config.normalized.freshnessTtl activeEligible) := by
  obtain ⟨activeEligible, heq⟩ := evaluate_of_not_activeBelow clock hnow h
  rw [heq, PolicyInput.proceed]
  cases hpending : input.pendingTargetId.filter (!·.isEmpty) with
  | some target =>
    refine .inl ⟨?_, rfl⟩
    rintro (h | h) <;> simp [h] at hpending
  | none =>
    have hnone : input.Unpledged := by
      unfold PolicyInput.Unpledged
      cases hid : input.pendingTargetId <;> simp_all
    refine .inr ⟨hnone, ?_⟩
    cases hchoice : chooseCandidate (input.candidates input.ordered input.now
        config.normalized.freshnessTtl (input.limits config)) with
    | none =>
      refine .inr ⟨fun a ha => ?_, activeEligible, rfl⟩
      exact chooseCandidate_eq_none_iff.1 hchoice a (PolicyInput.mem_candidates.2 ha)
    | some a =>
      rw [chooseCandidate_eq_some_iff] at hchoice
      · simp only [PolicyInput.mem_candidates] at hchoice
        exact .inl ⟨a, hchoice, rfl⟩
      · intro a ha b hb
        simp only [PolicyInput.mem_candidates] at ha hb
        exact ha.considered.eq hb.considered

theorem moveTo_accountId (a : AccountTelemetry P) :
    (input.moveTo input.now a).accountId = some a.accountId := by
  simp only [PolicyInput.moveTo]
  split_ifs <;> rfl

theorem moveTo_kind (input : PolicyInput P) (a : AccountTelemetry P) :
    (input.moveTo input.now a).kind = .transition ∧ input.CooledDown ∨
      (input.moveTo input.now a).kind = .cooldown ∧ ¬ input.CooledDown := by
  have hmin : ¬ input.now < DateTime.minUtc := by
    have hsecs := input.now.minSecs_le
    rintro (h | ⟨-, h⟩)
    · exact absurd h hsecs.not_gt
    · exact absurd h (Nat.not_lt_zero _)
  unfold PolicyInput.moveTo PolicyInput.CooledDown
  cases hcool : input.cooldownUntil with
  | none => simp [hmin, PolicyInput.decision]
  | some t => grind [PolicyInput.decision]

theorem remain_cases (input : PolicyInput P) (config : PolicyConfig P) (activeEligible : Bool) :
    let d := input.remain input.ordered input.now config.normalized.freshnessTtl activeEligible
    d.kind = .stay ∧ input.trigger ≠ .usageLimitExceeded ∨
      (input.trigger = .proactiveThreshold →
        ∀ a, Considered input.accounts a → ¬ input.Fresh config a) ∧
      ∃ first, Earliest (input.resets config) first ∧ d.resetAt = first ∧
        d.kind = if first.isSome then .waitForReset else .noTelemetry := by
  simp only [PolicyInput.remain]
  by_cases h : input.ordered.filter (·.isEligible input.now config.normalized.freshnessTtl) ≠ [] ∧
      (input.trigger = .proactiveThreshold ∨ activeEligible ∧ input.trigger ≠ .usageLimitExceeded)
  · rw [if_pos h]
    refine .inl ⟨rfl, ?_⟩
    rcases h.2 with h | h
    · simp [h]
    · exact h.2
  · rw [if_neg h]
    have hfirst : Earliest (input.resets config) (earliest (input.ordered.filterMap
        (·.earliestFutureResetWithAge input.now (some config.normalized.freshnessTtl)))) :=
      (earliest_filterMap fun a _ => a.earliest_reset _ _).congr fun t => by
        simp [PolicyInput.resets, PolicyInput.mem_ordered]
    refine .inr ⟨?_, _, hfirst, ?_⟩
    · intro htrigger a ha hfresh
      refine h ⟨List.ne_nil_of_mem (List.mem_filter.2 ⟨PolicyInput.mem_ordered.2 ha, ?_⟩),
        .inl htrigger⟩
      exact AccountTelemetry.isEligible_iff.2 hfresh
    · cases earliest (input.ordered.filterMap
        (·.earliestFutureResetWithAge input.now (some config.normalized.freshnessTtl))) <;>
        simp [PolicyInput.decision]

end Exits

section Decisions

variable (clock : DateTime) (input : PolicyInput P) (config : PolicyConfig P)

/-- **The policy moves to the candidate with the least usage**, if no move is pending, the active
account is not to be kept and no cooldown lasts. -/
theorem evaluate_transition_iff (hnow : input.now.isZero = false) (id : String) :
    (evaluate clock input config).kind = .transition ∧
        (evaluate clock input config).accountId = some id ↔
      input.Unpledged ∧ ¬ (input.trigger = .proactiveThreshold ∧ input.ActiveBelow config) ∧
      input.CooledDown ∧ ∃ a, a.accountId = id ∧ input.Least config a := by
  by_cases hstay : input.trigger = .proactiveThreshold ∧ input.ActiveBelow config
  · simp [evaluate_of_activeBelow hnow hstay.1 hstay.2, hstay]
  rcases evaluate_cases clock hnow hstay with
    ⟨hpledged, hkind⟩ | ⟨hpledged, ⟨a, ha, heq⟩ | ⟨hnone, activeEligible, heq⟩⟩
  · simp [hkind, hpledged]
  · have hunique : (∃ b, b.accountId = id ∧ input.Least config b) ↔ a.accountId = id := by
      constructor
      · rintro ⟨b, rfl, hb⟩
        exact accountId_eq_of_key_eq (le_antisymm (ha.2 b hb.1) (hb.2 a ha.1))
      · exact fun h => ⟨a, h, ha⟩
    rw [heq, moveTo_accountId, hunique, Option.some.injEq]
    rcases moveTo_kind input a with ⟨hkind, hcool⟩ | ⟨hkind, hcool⟩
    · simp only [hkind, hpledged, hstay, hcool, not_false_eq_true, true_and]
    · simp [hkind, hcool]
  · rw [heq]
    constructor
    · rintro ⟨hkind, -⟩
      rcases remain_cases input config activeEligible with
        ⟨hstays, -⟩ | ⟨-, first, -, -, hfirst⟩
      · simp [hstays] at hkind
      · cases first <;> simp [hfirst] at hkind
    · rintro ⟨-, -, -, a, -, ha, -⟩
      exact absurd ha (hnone a)

/-- **The policy waits only where no other account can be selected**, for the earliest reset of an
exhausted window. -/
theorem evaluate_waits (hnow : input.now.isZero = false) (hpending : input.Unpledged) :
    let d := evaluate clock input config
    (d.kind = .waitForReset ∨ d.kind = .noTelemetry →
      ∀ a, Considered input.accounts a → input.Fresh config a →
        input.activeAccountId = some a.accountId) ∧
    (d.kind = .waitForReset → ∃ t, d.resetAt = some t ∧ t ∈ input.resets config ∧
      ∀ t' ∈ input.resets config, ¬ t' < t) ∧
    (d.kind = .noTelemetry → input.resets config = ∅) ∧
    (input.trigger = .usageLimitExceeded → d.kind ≠ .stay) := by
  intro d
  by_cases hstay : input.trigger = .proactiveThreshold ∧ input.ActiveBelow config
  · simp [d, evaluate_of_activeBelow hnow hstay.1 hstay.2, hstay.1]
  rcases evaluate_cases clock hnow hstay with
    ⟨hpledged, -⟩ | ⟨-, ⟨a, ha, heq⟩ | ⟨hnone, activeEligible, heq⟩⟩
  · exact absurd hpending hpledged
  · rcases moveTo_kind input a with ⟨hkind, -⟩ | ⟨hkind, -⟩ <;> simp [d, heq, hkind]
  · simp only [d, heq]
    rcases remain_cases input config activeEligible with
      ⟨hkind, htrigger⟩ | ⟨hproactive, first, hfirst, hreset, hkind⟩
    · simp [hkind, htrigger]
    · have hother : ∀ a, Considered input.accounts a → input.Fresh config a →
          input.activeAccountId = some a.accountId := by
        intro a ha hfresh
        by_contra hid
        refine hnone a ⟨ha, hid, hfresh, fun htrigger => ?_⟩
        exact absurd hfresh (hproactive htrigger a ha)
      rw [hkind, hreset]
      cases first with
      | some t =>
        refine ⟨fun _ => hother, fun _ => ⟨t, rfl, hfirst.mem t rfl, ?_⟩, by simp, by simp⟩
        intro t' ht'
        obtain ⟨m, hm, hle⟩ := hfirst.least t' ht'
        cases hm
        exact hle
      | none =>
        refine ⟨fun _ => hother, by simp, fun _ => Set.eq_empty_of_forall_notMem ?_, by simp⟩
        intro t ht
        obtain ⟨m, hm, -⟩ := hfirst.least t ht
        cases hm

end Decisions

/-- **The policy decides by the first record of each account**: neither the order of the records
nor a later record of the same account matters. -/
theorem evaluate_congr (clock : DateTime) (input : PolicyInput P) (config : PolicyConfig P)
    (accounts : List (AccountTelemetry P))
    (h : ∀ id ≠ "", accounts.find? (·.accountId == id) = input.accounts.find? (·.accountId == id)) :
    evaluate clock { input with accounts } config = evaluate clock input config := by
  have hmem : ∀ a, a ∈ PolicyInput.ordered { input with accounts } ↔ a ∈ input.ordered := by
    intro a
    rw [PolicyInput.mem_ordered, PolicyInput.mem_ordered]
    exact and_congr_right fun hid => by rw [h _ hid]
  have hnodup : ∀ input : PolicyInput P, input.ordered.Nodup := fun input =>
    (perm_orderBy _ _).nodup_iff.2 (nodup_deduplicateAccounts _)
  -- the ids put the same accounts in the same order
  have hordered : PolicyInput.ordered { input with accounts } = input.ordered := by
    refine ((List.perm_ext_iff_of_nodup (hnodup _) (hnodup _)).2 hmem).eq_of_pairwise
      (fun a b ha hb hab hba => ?_) (pairwise_orderBy _ _) (pairwise_orderBy _ _)
    exact (PolicyInput.mem_ordered.1 ((hmem a).1 ha)).eq (PolicyInput.mem_ordered.1 hb)
      (le_antisymm hab hba)
  change PolicyInput.decide _ (PolicyInput.ordered { input with accounts }) _ _ _ = _
  rw [hordered]
  rfl

def accountSample (id : String) (usedPercent secs : ℕ) : AccountTelemetry ℕ where
  accountId := id
  limits := [("codex", ⟨"codex", "", "",
    [⟨.primary, usedPercent, none, DateTime.sample.addSecs secs, .sample, .fresh⟩]⟩)]
  observedAt := .sample
  usable := true
  resetCapability := .unavailable
  source := ""

def inputSample (accounts : List (AccountTelemetry ℕ)) : PolicyInput ℕ :=
  ⟨accounts, none, .usageLimitExceeded, none, none, none, .sample⟩

def configSample : PolicyConfig ℕ := ⟨⟨90, 90⟩, 0, 0⟩

theorem evaluate_transition_iff_sample : ∃ a, a.accountId = "b" ∧
    (inputSample [accountSample "a" 100 1, accountSample "b" 10 1]).Least configSample a :=
  ((evaluate_transition_iff .sample _ _ rfl "b").1 (by decide +kernel)).2.2.2

theorem evaluate_waits_sample :
    let input := inputSample [accountSample "a" 100 2, accountSample "b" 100 1]
    ∃ t, (evaluate .sample input configSample).resetAt = some t ∧ t ∈ input.resets configSample ∧
      ∀ t' ∈ input.resets configSample, ¬ t' < t :=
  (evaluate_waits .sample _ _ rfl (.inl rfl)).2.1 (by decide +kernel)

theorem evaluate_congr_sample :
    let accounts := [accountSample "b" 10 1, accountSample "a" 100 1, accountSample "b" 0 2]
    let input := inputSample [accountSample "a" 100 1, accountSample "b" 10 1]
    evaluate .sample { input with accounts } configSample = evaluate .sample input configSample := by
  refine evaluate_congr .sample _ configSample _ fun id hid => ?_
  simp only [inputSample, List.find?_cons, accountSample]
  grind

/-- **A second record of an account does not count**: its window is reset earlier than the policy
says. -/
theorem evaluate_ignores_duplicate :
    let second := accountSample "a" 100 1
    let d := evaluate .sample (inputSample [accountSample "a" 100 2, second]) configSample
    d.kind = .waitForReset ∧ d.resetAt = DateTime.sample.addSecs 2 ∧
      second.earliestFutureResetWithAge .sample (some configSample.normalized.freshnessTtl) =
        DateTime.sample.addSecs 1 := by
  decide +kernel

end CodexMarathon.Policy
