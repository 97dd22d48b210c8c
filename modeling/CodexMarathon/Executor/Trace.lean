/-
**The trace of an operation of the executor.**

An operation on an account does two things that cannot be taken back: it stages the credentials of an
inactive account in a home of their own, where they may be refreshed, and it sends requests to consume
a credit.  Both are justified by what the operation has seen before.
-/

import CodexMarathon.Executor.Program
import CodexMarathon.Lib.Trace
import Mathlib.Data.List.Induction

namespace CodexMarathon

open Auth Expiry Result Prog

variable [Externals]

inductive CallKind
  | plain
  | issue
  | write
  | stage
  | send
deriving DecidableEq, Repr

def ExecutorCall.kind : ExecutorCall → CallKind
  | .auth | .refreshToken => .issue
  | .store .lockExclusive | .store .stateLocked | .store (.loadLocked _) => .plain
  | .store _ => .write
  | .saveAuth _ => .stage
  | .consumeCredit _ _ _ => .send
  | _ => .plain

def ExecutorCall.Plain (c : ExecutorCall) : Prop := c.kind = .plain

def ExecutorCall.Quiet (c : ExecutorCall) : Prop := c.kind ≠ .stage ∧ c.kind ≠ .send

variable {c : ExecutorCall} {j : ExpiryJob} {code : String} {client : Client} {α : Type}

theorem ExecutorCall.Plain.quiet (h : c.Plain) : c.Quiet := by
  constructor
  · exact fun h' => nomatch h.symm.trans h'
  · exact fun h' => nomatch h.symm.trans h'

abbrev ExecutorTrace : Type := List (Prog.Event ExecutorCall ExecutorCall.Ans)

variable {t' : ExecutorTrace}

namespace Executor

open Prog (Event Emits Returns Traced Makes)

/-! ### Parts that neither stage nor send -/

section Makes

variable (cfg : Config)

theorem makes_store {P : ExecutorCall → Prop} {c : StoreCall} (hc : P (.store c)) :
    Makes P (store c code) fun _ => True :=
  makes_orFail ⟨hc, fun _ => trivial⟩

theorem makes_canonical (path : Option String) :
    Makes ExecutorCall.Plain (liftM (canonical path) : ExecutorM (Option String)) fun _ => True := by
  cases path with
  | none => exact makes_pure trivial
  | some path => exact makes_perform rfl

theorem makes_enabled : Makes ExecutorCall.Plain (enabled cfg) fun _ => True := by
  refine makes_bind (makes_orFail ⟨rfl, fun _ => trivial⟩) fun status _ => ?_
  refine makes_bind (makes_canonical status.codexHome) fun daemonHome _ => ?_
  refine makes_bind (makes_canonical (some cfg.codexHome)) fun expectedHome _ => ?_
  exact makes_bind makes_guard fun _ _ => makes_pure trivial

theorem makes_requireEnabled : Makes ExecutorCall.Plain (requireEnabled cfg) fun _ => True :=
  makes_bind (makes_enabled cfg) fun _ _ => makes_guard

theorem makes_refreshQuota (id : String) (client : Client) :
    Makes ExecutorCall.Plain (refreshQuota id client) fun _ => True := by
  refine makes_bind (makes_orFail ⟨rfl, fun _ => trivial⟩) fun response _ => ?_
  refine makes_bind makes_guard fun _ _ => ?_
  exact makes_bind (makes_perform rfl) fun _ _ =>
    makes_orFail ⟨rfl, fun _ => trivial⟩

theorem makes_refreshQuotaIf (refresh : Bool) (id : String) (client : Client) :
    Makes ExecutorCall.Plain (liftM (refreshQuotaIf refresh id client) : ExecutorM Unit)
      fun _ => True := by
  refine makes_lift ?_
  cases refresh with
  | false => exact trivial
  | true =>
    exact calls_bind.2
      (Prog.Calls.mono (makes_refreshQuota id client) (fun _ h => h) fun _ _ => trivial)

theorem makes_clientFromCache (native : NativeConfig) (id : String) :
    Makes ExecutorCall.Plain (clientFromCache native id) fun _ => True := by
  refine makes_bind (makes_perform rfl) fun cached _ => ?_
  refine makes_bind makes_guard fun auth _ => ?_
  exact makes_bind makes_guard fun _ _ => makes_pure trivial

theorem makes_persistAuth (id : String) : Makes ExecutorCall.Quiet (persistAuth id) fun _ => True := by
  have hplain : ∀ {c : ExecutorCall}, c.Plain → c.Quiet := ExecutorCall.Plain.quiet
  refine makes_bind (makes_orFail ⟨hplain rfl, fun _ => trivial⟩) fun updated _ => ?_
  refine makes_bind makes_guard fun snapshot _ => ?_
  refine makes_bind (makes_store (hplain rfl)) fun state _ => ?_
  refine makes_bind makes_guard fun account _ => ?_
  refine makes_bind (makes_perform (hplain rfl)) fun current _ => ?_
  split_ifs
  · exact makes_pure trivial
  · exact makes_bind (makes_store ⟨nofun, nofun⟩) fun _ _ => makes_store ⟨nofun, nofun⟩

end Makes

omit [Externals] in
theorem answered_eq_ok {x : Timed α} {a : α} : answered code x = .ok a ↔ x = .answered a := by
  cases x <;> simp [answered]

/-! ### What justifies staging and sending -/

/-- The credentials `auth` of `id` are about to be staged, after reads only. -/
structure Stages (id : String) (auth : AuthDotJson) (t : ExecutorTrace) (state : RegistryState)
    (account : AccountRecord) (snapshot : AuthSnapshot) : Prop where
  reads : ∀ e ∈ t, e.1.Plain
  registry : ⟨.store .stateLocked, .ok state⟩ ∈ t
  enabled : state.enabled = true
  registered : state.get? id = some account
  inactive : state.activeAccountId ≠ id
  vault : ⟨.store (.loadLocked account.effectiveRef), .ok snapshot⟩ ∈ t
  document : Externals.decodeAuth snapshot.bytes = some auth
  identity : snapshotIdentity auth = some id

def Handed (auth : CodexAuth) (t : ExecutorTrace) : Prop :=
  ⟨.auth, .answered (some auth)⟩ ∈ t ∨ ⟨.authCached, some auth⟩ ∈ t

def EnabledCheck (cfg : Config) (t : ExecutorTrace) : Prop := Returns t (enabled cfg).run (.ok true)

/-- The inventory lists the credit with its expiry, or does not list it and the job was attempted
before. -/
def Allows (job : ExpiryJob) (credits : List ExpiryCredit) : Prop :=
  (∃ credit, credits.find? (fun credit => credit.creditId = job.creditId) = some credit ∧
    credit.status = "available" ∧
    credit.expiresAt.map (·.timestampMillis) = some job.expiresAt.timestampMillis) ∨
  (credits.find? (fun credit => credit.creditId = job.creditId) = none ∧ 1 < job.attempt)

def Considered (cfg : Config) (job : ExpiryJob) (t : ExecutorTrace) : Prop :=
  ∃ before client inventory between now,
    t = before ++ ⟨.listCredits client, .ok inventory⟩ :: (between ++ [⟨.now, now⟩]) ∧
      now < job.expiresAt ∧ Allows job (inventory.map (mapCredit cfg))

def Unsent (t : ExecutorTrace) : Prop := ∀ e ∈ t, e.1.kind ≠ .send

/-- One request was refused as unauthorized, and `enabled` was checked since. -/
def Refused (cfg : Config) (t : ExecutorTrace) : Prop :=
  ∃ before client key credit between check,
    t = before ++ ⟨.consumeCredit client key credit, .error .unauthorized⟩ :: (between ++ check) ∧
      Unsent before ∧ Unsent between ∧ Unsent check ∧ EnabledCheck cfg check

/-- A request for the credit of a job is justified by the trace before it. -/
structure Authorized (cfg : Config) (id : String) (job : ExpiryJob) (client : Client)
    (key credit : String) (t : ExecutorTrace) : Prop where
  key_eq : key = job.idempotencyKey
  credit_eq : credit = job.creditId
  handed : Handed client.auth t
  account : client.auth.getAccountId = some id
  considered : ∃ before check after,
    t = before ++ check ++ after ∧ Considered cfg job before ∧ EnabledCheck cfg check
  first_or_refused : Unsent t ∨ Refused cfg t

/-- **The protocol of an operation.** -/
def Justified (cfg : Config) (id : String) (job : Option ExpiryJob) :
    ExecutorCall → ExecutorTrace → Prop
  | .saveAuth auth, t => ∃ state account snapshot, Stages id auth t state account snapshot
  | .consumeCredit client key credit, t =>
    ∃ j, job = some j ∧ Authorized cfg id j client key credit t
  | _, _ => True


section Walk

variable {cfg : Config} {id : String} {job : Option ExpiryJob} {t : ExecutorTrace}

theorem justified_of_quiet (hc : c.Quiet) : Justified cfg id job c t := by
  cases c with
  | saveAuth auth => exact absurd rfl hc.1
  | consumeCredit client key credit => exact absurd rfl hc.2
  | _ => exact trivial

theorem unsent_append : Unsent (t ++ t') ↔ Unsent t ∧ Unsent t' :=
  List.forall_mem_append

theorem unsent_singleton {e : Event ExecutorCall ExecutorCall.Ans} (h : e.1.kind ≠ .send) :
    Unsent [e] :=
  List.forall_mem_singleton.2 h

theorem Handed.append_left {auth : CodexAuth} (h : Handed auth t) : Handed auth (t ++ t') :=
  h.imp (List.mem_append_left _) (List.mem_append_left _)

theorem Handed.append_right {auth : CodexAuth} (h : Handed auth t') : Handed auth (t ++ t') :=
  h.imp (List.mem_append_right _) (List.mem_append_right _)

/-! ### The operation keeps the protocol -/

theorem traced_call (hc : c.Quiet) :
    Traced (Justified cfg id job) (liftM (call c) : ExecutorM c.Ans) (fun a m => m = [⟨c, a⟩]) t :=
  traced_perform (justified_of_quiet hc) fun _ => rfl

theorem traced_store {c : StoreCall} (hc : (ExecutorCall.store c).Quiet) :
    Traced (Justified cfg id job) (store c code) (fun a m => m = [⟨.store c, .ok a⟩]) t := by
  refine traced_orFail (justified_of_quiet hc) ?_
  rintro x a (rfl : x = .ok a)
  rfl

theorem traced_guard {x : Except String α} :
    Traced (Justified cfg id job) (liftM x : ExecutorM α) (fun a m => x = .ok a ∧ m = []) t :=
  safe_lift trivial fun _ ha => ⟨[], (List.append_nil t).symm, ha, rfl⟩

theorem traced_quiet {p : ExecutorM α} {Q : α → Prop} (h : Makes ExecutorCall.Quiet p Q) :
    Traced (Justified cfg id job) p (fun _ m => Unsent m) t :=
  (h.traced fun _ _ => justified_of_quiet).mono fun _ _ h e he => (h.2.1 e he).2

theorem traced_requireEnabled : Traced (Justified cfg id job) (requireEnabled cfg)
      (fun _ m => (∀ e ∈ m, e.1.Plain) ∧ EnabledCheck cfg m) t := by
  refine traced_bind ((makes_enabled cfg).traced fun _ _ h => justified_of_quiet h.quiet) ?_
  rintro isEnabled m ⟨-, hplain, hret⟩
  refine traced_guard.mono ?_
  rintro _ _ ⟨hcheck, rfl⟩
  obtain rfl := require_eq_ok.1 hcheck
  rw [List.append_nil]
  exact ⟨hplain, hret⟩

theorem traced_unsent {p : ExecutorM α} {R : α → ExecutorTrace → Prop}
    (h : Traced (Justified cfg id job) p (fun a m => (∀ e ∈ m, e.1.Plain) ∧ R a m) t) :
    Traced (Justified cfg id job) p (fun a m => Unsent m ∧ R a m) t :=
  h.mono fun _ _ h => ⟨fun e he => (h.1 e he).quiet.2, h.2⟩

def OfAccount (id : String) (auth : CodexAuth) (t : ExecutorTrace) : Prop :=
  Handed auth t ∧ auth.getAccountId = some id

theorem traced_clientFromCache (native : NativeConfig) :
    Traced (Justified cfg id job) (clientFromCache native id)
      (fun client m => Unsent m ∧ OfAccount id client.auth m) t := by
  refine traced_bind (traced_call (ExecutorCall.Plain.quiet rfl)) ?_
  rintro cached _ rfl
  refine traced_bind traced_guard ?_
  rintro auth _ ⟨hauth, rfl⟩
  refine traced_bind traced_guard ?_
  rintro _ _ ⟨hid, rfl⟩
  obtain rfl := okOr_eq_ok.1 hauth
  refine traced_pure ⟨unsent_singleton nofun, .inr (List.mem_singleton_self _), ?_⟩
  exact require_eq_ok.1 hid

theorem traced_recoverUnauthorized (native : NativeConfig) :
    Traced (Justified cfg id job) (recoverUnauthorized cfg native id)
      (fun client m => Unsent m ∧ OfAccount id client.auth m) t := by
  refine traced_bind (traced_unsent traced_requireEnabled) ?_
  rintro _ m₁ ⟨h₁, -⟩
  refine traced_bind (traced_call ⟨nofun, nofun⟩) ?_
  rintro refreshed _ rfl
  refine traced_bind traced_guard ?_
  rintro _ _ ⟨-, rfl⟩
  refine traced_bind traced_guard ?_
  rintro _ _ ⟨-, rfl⟩
  refine traced_bind (traced_quiet (makes_persistAuth id)) fun _ m₂ h₂ => ?_
  refine (traced_clientFromCache native).mono ?_
  rintro client m₃ ⟨h₃, hhanded, hid⟩
  refine ⟨?_, ?_, hid⟩
  · simp only [unsent_append]
    exact ⟨h₁, unsent_singleton nofun, List.forall_mem_nil _, List.forall_mem_nil _, h₂, h₃⟩
  · exact .append_right (.append_right (.append_right (.append_right (.append_right hhanded))))

theorem traced_openAuth (active : Bool) : Traced (Justified cfg id job) (openAuth active id)
      (fun auth m => Unsent m ∧ OfAccount id auth m) t := by
  refine traced_bind (traced_call (ExecutorCall.Plain.quiet rfl)) ?_
  rintro opened _ rfl
  refine traced_bind traced_guard ?_
  rintro opened _ ⟨-, rfl⟩
  refine traced_bind traced_guard ?_
  rintro _ _ ⟨-, rfl⟩
  refine traced_bind (traced_call (ExecutorCall.Plain.quiet rfl)) ?_
  rintro cached _ rfl
  refine traced_bind traced_guard ?_
  rintro _ _ ⟨-, rfl⟩
  refine traced_bind (traced_call ⟨nofun, nofun⟩) ?_
  rintro answer _ rfl
  refine traced_bind traced_guard ?_
  rintro found _ ⟨hanswer, rfl⟩
  refine traced_bind traced_guard ?_
  rintro auth _ ⟨hfound, rfl⟩
  refine traced_bind traced_guard ?_
  rintro _ _ ⟨hid, rfl⟩
  refine traced_bind traced_guard ?_
  rintro _ _ ⟨-, rfl⟩
  obtain rfl := okOr_eq_ok.1 hfound
  obtain rfl := answered_eq_ok.1 hanswer
  refine traced_pure ⟨?_, .inl ?_, require_eq_ok.1 hid⟩
  · simp only [List.nil_append, List.append_nil, unsent_append]
    exact ⟨unsent_singleton nofun, unsent_singleton nofun, unsent_singleton nofun⟩
  · simp

structure Read (id : String) (t : ExecutorTrace) (state : RegistryState)
    (account : AccountRecord) : Prop where
  reads : ∀ e ∈ t, e.1.Plain
  registry : ⟨.store .stateLocked, .ok state⟩ ∈ t
  enabled : state.enabled = true
  registered : state.get? id = some account

theorem traced_stageInactive {state : RegistryState} {account : AccountRecord}
    (hread : Read id t state account) (hinac : state.activeAccountId ≠ id) :
    Traced (Justified cfg id job) (stageInactive account id) (fun _ m => Unsent m) t := by
  refine traced_bind (traced_store (ExecutorCall.Plain.quiet rfl)) ?_
  rintro snapshot _ rfl
  refine traced_bind traced_guard ?_
  rintro auth _ ⟨hauth, rfl⟩
  refine traced_bind traced_guard ?_
  rintro _ _ ⟨hid, rfl⟩
  refine traced_bind (R := fun _ m => ∃ a, m = [⟨.tempdir, a⟩])
    (traced_orFail trivial fun x _ _ => ⟨x, rfl⟩) ?_
  rintro _ _ ⟨created, rfl⟩
  refine traced_orFail ⟨state, account, snapshot, ?_⟩ fun x _ _ => ?_
  · refine ⟨?_, ?_, hread.enabled, hread.registered, hinac, ?_, okOr_eq_ok.1 hauth,
      require_eq_ok.1 hid⟩
    · simp only [List.append_nil, List.forall_mem_append, List.forall_mem_singleton]
      exact ⟨⟨hread.reads, rfl⟩, rfl⟩
    · simp [hread.registry]
    · simp
  · simp only [List.nil_append, unsent_append]
    exact ⟨unsent_singleton nofun, unsent_singleton nofun, unsent_singleton nofun⟩

theorem traced_listCredits (native : NativeConfig) (hclient : OfAccount id client.auth t) :
    Traced (Justified cfg id job) (listCredits cfg native id client)
      (fun r m => Unsent m ∧ OfAccount id r.2.auth (t ++ m) ∧
        ∃ before client, m = before ++ [⟨.listCredits client, .ok r.1⟩]) t := by
  refine traced_bind (traced_call (ExecutorCall.Plain.quiet rfl)) ?_
  rintro (failure | inventory) _ rfl
  · cases failure with
    | unauthorized =>
      refine traced_bind (traced_recoverUnauthorized native) ?_
      rintro client' m ⟨hm, hhanded, hid⟩
      refine traced_bind (R := fun inventory m => m = [⟨.listCredits client', .ok inventory⟩])
        (traced_orFail trivial ?_) ?_
      · rintro x a (rfl : x = .ok a)
        rfl
      rintro inventory _ rfl
      refine traced_pure
        ⟨?_, ⟨?_, hid⟩, ⟨.listCredits client, .error .unauthorized⟩ :: m, client', rfl⟩
      · simp only [List.append_nil, unsent_append]
        exact ⟨unsent_singleton nofun, hm, unsent_singleton nofun⟩
      · exact .append_right (.append_right (.append_left hhanded))
    | _ => exact traced_throw
  · refine traced_pure ⟨?_, ⟨?_, hclient.2⟩, [], client, rfl⟩
    · exact unsent_singleton nofun
    · exact hclient.1.append_left

theorem traced_consumeCredit (native : NativeConfig) (hclient : OfAccount id client.auth t)
    (hunsent : Unsent t)
    (hcon : ∃ before check after, t = before ++ check ++ after ∧ Considered cfg j before ∧ EnabledCheck cfg check) :
    Traced (Justified cfg id (some j)) (consumeCredit cfg native id client j)
      (fun _ _ => True) t := by
  obtain ⟨before, check, after, rfl, hbefore, hcheck⟩ := hcon
  refine traced_bind (traced_perform ?_ fun _ => rfl) ?_
  · exact ⟨j, rfl, rfl, rfl, hclient.1, hclient.2, ⟨before, check, after, rfl, hbefore, hcheck⟩,
      .inl hunsent⟩
  rintro (failure | code) _ rfl
  · cases failure with
    | unauthorized =>
      refine traced_bind (traced_recoverUnauthorized native) ?_
      rintro client' m ⟨hm, hhanded, hid⟩
      refine traced_bind (traced_unsent traced_requireEnabled) ?_
      rintro _ m' ⟨hm', henab⟩
      refine traced_orFail ⟨j, rfl, rfl, rfl, ?_, hid, ⟨before, check, after ++
        ⟨.consumeCredit client j.idempotencyKey j.creditId, .error .unauthorized⟩ :: (m ++ m'),
        by simp, hbefore, hcheck⟩, .inr ?_⟩ fun _ _ _ => trivial
      · exact .append_left (.append_right hhanded)
      · exact ⟨_, client, j.idempotencyKey, j.creditId, m, m', by simp, hunsent, hm, hm', henab⟩
    | _ => exact traced_throw
  · exact traced_pure trivial

omit [Externals] in
theorem creditAction_eq_submit {credits : List ExpiryCredit} {now : DateTime}
    (h : creditAction credits j now = .ok .submit) : now < j.expiresAt ∧ Allows j credits := by
  unfold creditAction at h
  split_ifs at h with hnow
  refine ⟨hnow, ?_⟩
  unfold Allows
  cases hfind : credits.find? fun credit => credit.creditId = j.creditId with
  | none =>
    rw [hfind, creditActionOf] at h
    split_ifs at h with hatt
    exact .inr ⟨rfl, hatt⟩
  | some credit =>
    rw [hfind, creditActionOf] at h
    split_ifs at h with hred havail
    · cases h
    · exact .inl ⟨credit, rfl, havail⟩

theorem traced_submitJob (native : NativeConfig) (hclient : OfAccount id client.auth t)
    (hunsent : Unsent t) {action : CreditAction} (hcon : action = .submit → Considered cfg j t) :
    Traced (Justified cfg id (some j)) (submitJob cfg native id client j action)
      (fun _ _ => True) t := by
  cases action with
  | alreadyRedeemed => exact traced_pure trivial
  | submit =>
    refine traced_bind (traced_unsent traced_requireEnabled) ?_
    rintro _ check ⟨hunsent', hcheck⟩
    refine traced_bind (traced_consumeCredit native ⟨hclient.1.append_left, hclient.2⟩
      (unsent_append.2 ⟨hunsent, hunsent'⟩)
      ⟨t, check, [], (List.append_nil _).symm, hcon rfl, hcheck⟩) ?_
    exact fun _ _ _ => traced_pure trivial

theorem traced_observeAndSubmit (native : NativeConfig) {reader : Client}
    {inventory : List RateLimitResetCreditDetails} {before : ExecutorTrace}
    (hclient : OfAccount id client.auth t) (hunsent : Unsent t)
    (ht : t = before ++ [⟨.listCredits reader, .ok inventory⟩]) : Traced (Justified cfg id job)
      (observeAndSubmit cfg native id job client (inventory.map (mapCredit cfg)))
      (fun _ _ => True) t := by
  refine traced_bind (traced_unsent traced_requireEnabled) ?_
  rintro _ m ⟨hm, -⟩
  refine traced_bind (traced_call (ExecutorCall.Plain.quiet rfl)) ?_
  rintro observedAt _ rfl
  refine traced_bind (R := fun _ m => ∃ a, m = [⟨.expiryObserve _, a⟩])
    (traced_orFail trivial fun x _ _ => ⟨x, rfl⟩) ?_
  rintro _ _ ⟨observed, rfl⟩
  cases job with
  | none => exact traced_pure trivial
  | some j =>
    refine traced_bind (traced_call (ExecutorCall.Plain.quiet rfl)) ?_
    rintro now _ rfl
    refine traced_bind traced_guard ?_
    rintro action _ ⟨haction, rfl⟩
    rw [List.append_nil]
    refine (traced_submitJob native ?_ ?_ ?_).mono fun _ _ _ => trivial
    · exact ⟨.append_left (.append_left (.append_left (.append_left hclient.1))), hclient.2⟩
    · simp only [unsent_append]
      exact ⟨⟨⟨⟨hunsent, hm⟩, unsent_singleton nofun⟩, unsent_singleton nofun⟩,
        unsent_singleton nofun⟩
    · rintro rfl
      obtain ⟨hnow, hallows⟩ := creditAction_eq_submit haction
      refine ⟨before, reader, inventory, m ++ [⟨.now, observedAt⟩, ⟨.expiryObserve _, observed⟩],
        now, ?_, hnow, hallows⟩
      simp [ht]

theorem traced_accountOperation (refresh : Bool) :
    Traced (Justified cfg id job) (accountOperation cfg id job refresh) (fun _ _ => True) [] := by
  refine traced_bind traced_requireEnabled ?_
  rintro _ m₁ ⟨hm₁, -⟩
  refine traced_bind (traced_store (ExecutorCall.Plain.quiet rfl)) ?_
  rintro _ _ rfl
  refine traced_bind (traced_store (ExecutorCall.Plain.quiet rfl)) ?_
  rintro state _ rfl
  refine traced_bind traced_guard ?_
  rintro _ _ ⟨henab, rfl⟩
  refine traced_bind traced_guard ?_
  rintro account _ ⟨hacc, rfl⟩
  refine traced_bind (R := fun _ m => ∃ a, m = [⟨.nativeConfig, a⟩])
    (traced_orFail trivial fun x _ _ => ⟨x, rfl⟩) ?_
  rintro native _ ⟨config, rfl⟩
  -- from here on, the trace so far is `t`
  have hread : Read id ([] ++ m₁ ++ [⟨.store .lockExclusive, .ok ()⟩] ++
      [⟨.store .stateLocked, .ok state⟩] ++ [] ++ [] ++ [⟨.nativeConfig, config⟩]) state account := by
    refine ⟨?_, by simp, require_eq_ok.1 henab, okOr_eq_ok.1 hacc⟩
    simp only [List.nil_append, List.append_nil, List.forall_mem_append, List.forall_mem_singleton]
    exact ⟨⟨⟨hm₁, rfl⟩, rfl⟩, rfl⟩
  have hsent : Unsent _ := fun e he => (hread.reads e he).quiet.2
  generalize [] ++ m₁ ++ _ ++ _ ++ _ ++ _ ++ _ = t at hread hsent ⊢
  refine traced_bind (R := fun _ m => Unsent m) ?_ fun _ m₂ hm₂ => ?_
  · unfold stage
    split_ifs with hactive
    · exact traced_pure (List.forall_mem_nil _)
    · exact traced_stageInactive hread hactive
  refine traced_bind (traced_openAuth _) ?_
  rintro auth m₃ ⟨hm₃, hhanded, hid⟩
  refine traced_bind (traced_quiet (makes_persistAuth id)) fun _ m₄ hm₄ => ?_
  refine traced_bind (traced_quiet ((makes_refreshQuotaIf refresh id _).mono fun _ =>
    ExecutorCall.Plain.quiet)) fun _ m₅ hm₅ => ?_
  refine traced_bind (traced_listCredits native
    ⟨.append_left (.append_left (.append_right hhanded)), hid⟩) ?_
  rintro ⟨inventory, client⟩ m₆ ⟨hm₆, hclient, before, reader, rfl⟩
  refine (traced_observeAndSubmit native hclient ?_ (List.append_assoc _ _ _).symm).mono
    fun _ _ _ => trivial
  simp only [unsent_append] at hm₆ ⊢
  exact ⟨⟨⟨⟨⟨hsent, hm₂⟩, hm₃⟩, hm₄⟩, hm₅⟩, hm₆⟩

end Walk

section Requests

variable {cfg : Config} {id : String} {job : ExpiryJob} {t : ExecutorTrace}

def sends (e : Event ExecutorCall ExecutorCall.Ans) : Bool := e.1.kind = .send

theorem Unsent.countP_eq_zero (h : Unsent t) : t.countP sends = 0 :=
  List.countP_eq_zero.2 fun e he hsends => h e he (of_decide_eq_true hsends)

theorem Authorized.countP_le {key credit : String} (h : Authorized cfg id job client key credit t) :
    t.countP sends ≤ 1 := by
  rcases h.first_or_refused with hunsent | ⟨before, _, _, _, between, check, rfl, h₁, h₂, h₃, -⟩
  · rw [hunsent.countP_eq_zero]
    exact zero_le_one
  · simp [h₁.countP_eq_zero, h₂.countP_eq_zero, h₃.countP_eq_zero, sends, ExecutorCall.kind]

theorem countP_sends_le
    (h : ∀ t₁ client key credit a t₂, t = t₁ ++ ⟨.consumeCredit client key credit, a⟩ :: t₂ →
      Authorized cfg id job client key credit t₁) : t.countP sends ≤ 2 := by
  induction t using List.reverseRecOn with
  | nil => exact zero_le_two
  | append_singleton t e ih =>
    rw [List.countP_append]
    by_cases hsend : e.1.kind = .send
    · -- the last event is a request, and the trace before it justifies it
      obtain ⟨c, a⟩ := e
      cases c with
      | consumeCredit client key credit =>
        have := (h t client key credit a [] rfl).countP_le
        exact Nat.add_le_add this (List.countP_le_length.trans_eq rfl)
      | store c => cases c <;> cases hsend
      | _ => cases hsend
    · have : [e].countP sends = 0 :=
        Unsent.countP_eq_zero (unsent_singleton hsend)
      rw [this]
      refine ih fun t₁ client key credit a t₂ ht => ?_
      exact h t₁ client key credit a (t₂ ++ [e]) (by simp [ht])

/-- **The requests of an operation**: at most two, each for the credit of the job, under its key, as
its account, after an inventory that allows it and a check since; the second only after the first
was refused as unauthorized. -/
theorem consume_authorized (cfg : Config) (job : ExpiryJob) (refresh : Bool) (t : ExecutorTrace)
    (ht : Emits t (accountOperation cfg job.accountId (some job) refresh).run) :
    t.countP sends ≤ 2 ∧
      ∀ t₁ client key credit a t₂, t = t₁ ++ ⟨.consumeCredit client key credit, a⟩ :: t₂ →
        Authorized cfg job.accountId job client key credit t₁ := by
  have haut : ∀ t₁ client key credit a t₂,
      t = t₁ ++ ⟨.consumeCredit client key credit, a⟩ :: t₂ →
      Authorized cfg job.accountId job client key credit t₁ := by
    intro t₁ client key credit a t₂ hsplit
    have hsafe : Traced (Justified cfg job.accountId (some job)) _ (fun _ _ => True) [] :=
      traced_accountOperation refresh
    obtain ⟨_, ⟨⟩, h⟩ := Prog.Safe.emits hsafe ht t₁ _ a t₂ hsplit
    exact h
  exact ⟨countP_sends_le haut, haut⟩

end Requests

structure Bench where
  store : Store
  home : AuthDotJson
  refusals : ℕ

namespace Bench

def inventory : List RateLimitResetCreditDetails :=
  [⟨"credit", "codex_rate_limits", "available", some "later"⟩]

def later : DateTime := .ofSecs 3600 (by decide) (by decide)

def config : Config := ⟨"home", fun _ => some later⟩

def perform (s : Store) (c : StoreCall) : c.Ans × Store :=
  match s.exec HexText.zeros c with
  | .ok (v, s') => (.ok v, s')
  | .error e => (.error e, s)

def exec : (c : ExecutorCall) → Bench → c.Ans × Bench
  | .expiryStatus, s => (.ok ⟨some "home", true⟩, s)
  | .expiryHeartbeat, s => (.ok (), s)
  | .expiryClaim, s => (.ok none, s)
  | .expiryObserve _, s => (.ok (), s)
  | .expiryComplete _, s => (.ok (), s)
  | .canonicalize path, s => (some path, s)
  | .previewState, s => (s.store.stateLocked, s)
  | .store c, s => ((perform s.store c).1, { s with store := (perform s.store c).2 })
  | .nativeConfig, s => (.ok ⟨"url"⟩, s)
  | .tempdir, s => (.ok (), s)
  | .saveAuth auth, s => (.ok (), { s with home := auth })
  | .openManager _, s => (.answered (.ok ()), s)
  | .authCached, s => (some (.chatgpt (some s.home)), s)
  | .auth, s => (.answered (some (.chatgpt (some s.home))), s)
  | .refreshToken, s => (.answered (.ok ()), s)
  | .snapshotForTransition _, s => (AuthTransitionSnapshot.fromAuthDotJson s.home, s)
  | .listCredits _, s => (.ok inventory, s)
  | .consumeCredit _ _ _, s =>
    if s.refusals = 0 then (.ok .reset, s)
    else (.error .unauthorized, { s with refusals := s.refusals - 1 })
  | .getRateLimits _, s => (.ok ⟨none, .null⟩, s)
  | .upsertQuota _ _ _, s => (.ok (), s)
  | .now, s => (.epoch, s)
  | .instant, s => (0, s)
  | .deadline, s => (false, s)
  | .sleep, s => ((), s)

def job : ExpiryJob := ⟨"job", "b", "credit", "key", "token", later, 1⟩

end Bench

omit [Externals] in
theorem consume_authorized_sample :
    letI := Externals.sample
    let t := Prog.record Bench.exec (accountOperation Bench.config "b" (some Bench.job) true).run
      ⟨.sample, .sample "a" "1", 1⟩
    t.countP sends = 2 ∧
      ∀ t₁ client key credit a t₂, t = t₁ ++ ⟨.consumeCredit client key credit, a⟩ :: t₂ →
        Authorized Bench.config "b" Bench.job client key credit t₁ := by
  let := Externals.sample
  exact ⟨by decide, (consume_authorized _ Bench.job _ _ (emits_record _ _ _)).2⟩

end Executor

end CodexMarathon
