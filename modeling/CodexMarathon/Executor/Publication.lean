/-
**Refreshed credentials of an operation.**

While an operation holds the state lock, the provider may issue new tokens.  They live in the home
of the manager, which goes away with the operation, until `persist_auth` has made the registry refer
to a vault entry that holds them.
-/

import CodexMarathon.Executor.Staging
import CodexMarathon.Store.Consistency

namespace CodexMarathon

open Auth Expiry Result Prog Store

variable [Externals]

/-! ### Tokens on their way -/

/-- The stores, the document in the home of the manager, and the last document with tokens that the
provider has issued. -/
structure Custody where
  store : Store
  home : Option AuthDotJson
  issued : Option AuthDotJson

structure Publishable (id : String) (auth : AuthDotJson) : Prop where
  account : (CodexAuth.chatgpt (some auth)).getAccountId = some id
  document : ∃ bytes snapshot, Externals.encodeAuth auth = some bytes ∧
    AuthSnapshot.fromBytes (some id) bytes = .ok snapshot

namespace Custody

def Published (id : String) (s : Custody) : Prop :=
  ∀ auth, s.issued = some auth →
    ∃ bytes, Externals.encodeAuth auth = some bytes ∧ s.store.yields id = some bytes

def receive (s : Custody) (auth : AuthDotJson) : Custody :=
  { s with home := some auth, issued := some auth }

def Issues (s s' : Custody) : Prop := ∃ auth, s' = s.receive auth ∨ s' = { s with issued := some auth }

def Step : (c : ExecutorCall) → Custody → c.Ans → Custody → Prop
  | .store c, s, a, s' => ∃ store, s.store.Answers c a store ∧ s' = { s with store }
  | .saveAuth auth, s, a, s' =>
    (a = .ok () ∧ s' = { s with home := some auth }) ∨ ((∃ e, a = .error e) ∧ s' = s)
  | .auth, s, _, s' => s' = s ∨ s.Issues s'
  | .refreshToken, s, _, s' => s' = s ∨ s.Issues s'
  | .snapshotForTransition _, s, a, s' =>
    s' = s ∧ ∀ updated, a = .ok updated → s.home = some updated.authDotJson
  | _, s, _, s' => s' = s

/-- **The step loses no tokens**: what is issued is handed over, and until it is published,
publishing succeeds and no deadline passes. -/
def Careful (id : String) : (c : ExecutorCall) → Custody → c.Ans → Custody → Prop
  | .auth, s, a, s' =>
    s' = s ∨ ∃ auth, s' = s.receive auth ∧ Publishable id auth ∧
      a = .answered (some (.chatgpt (some auth)))
  | .refreshToken, s, a, s' =>
    s' = s ∨ ∃ auth, s' = s.receive auth ∧ Publishable id auth ∧ a = .answered (.ok ())
  | .snapshotForTransition _, s, a, _ => s.Published id ∨ ∃ updated, a = .ok updated
  | .store .stateLocked, s, a, _ => s.Published id ∨ ∃ state, a = .ok state
  | .store (.saveFreshLocked _), s, a, _ => s.Published id ∨ ∃ key, a = .ok key
  | .store (.replaceLocked _), s, a, _ => s.Published id ∨ a = .ok ()
  | .deadline, s, passed, _ => passed = true → s.Published id
  | _, _, _, _ => True

end Custody

def custody (id : String) : Prog.Semantics ExecutorCall ExecutorCall.Ans Custody where
  pre _ _ := True
  rel c s a s' := Custody.Step c s a s' ∧ Custody.Careful id c s a s'

section Stores

variable {s s' s'' : Store} {id key : String} {snapshot : AuthSnapshot} {bytes : Bytes}

theorem Store.Fresh.yields (h : s.Fresh s' snapshot key) (hs : s.yields id = some bytes) :
    s'.yields id = some bytes := by
  obtain ⟨state, account, loaded, hstate, hacc, hload, rfl⟩ := yields_eq_some_iff.1 hs
  have hne : account.effectiveRef ≠ key := by
    rintro rfl
    exact nomatch h.free.symm.trans (loadLocked_eq_ok hload).2.1
  refine yields_eq_some_iff.2 ⟨state, account, loaded, ?_, hacc, ?_, rfl⟩
  · rw [← hstate, stateLocked, h.registry, stateLocked]
  · rw [loadLocked_congr (h.other _ hne)]
    exact hload

theorem Store.Fresh.yields_replaced {state : RegistryState} {account : AccountRecord} {nonce : Nonce}
    {v : Unit} (h : s.Fresh s' snapshot key) (hrep : s'.exec nonce
      (.replaceLocked (state.insert id { account with credentialRef := key })) = .ok (v, s'')) :
    s''.yields id = some snapshot.bytes := by
  obtain ⟨_, hrep, hpair⟩ := map_eq_ok.1 hrep
  cases hpair
  obtain ⟨hread, hvault⟩ := replaceLocked_eq_ok hrep
  refine yields_eq_some_iff.2 ⟨_, _, snapshot, hread, RegistryState.get?_insert_self, ?_, rfl⟩
  rw [effectiveRef_of_generatedRef h.generated, loadLocked_congr (congrFun hvault key)]
  exact h.load

end Stores

namespace Executor

open Prog (Makes)
open Custody (Published)

/-! ### What an operation keeps -/

/-- Tokens that were issued are in the home of the manager and can be published. -/
structure Held (id : String) (s : Custody) : Prop where
  registered : ∃ state account, s.store.stateLocked = .ok state ∧ state.get? id = some account
  kept : ∀ auth, s.issued = some auth → s.home = some auth ∧ Publishable id auth

def Calm (id : String) (s : Custody) : Prop := Held id s ∧ s.Published id

section Walk

variable {α β : Type} {cfg : Config} {id : String} {s : Custody}

theorem Custody.published_of_none (h : s.issued = none) : s.Published id := by
  intro auth hauth
  rw [h] at hauth
  cases hauth

theorem custody_rel_plain {c : ExecutorCall} {a : c.Ans} {s' : Custody} (hc : c.Plain)
    (h : (custody id).rel c s a s') : s' = s := by
  cases c with
  | store c =>
    obtain ⟨⟨store, h, rfl⟩, -⟩ := h
    rw [h.plain hc]
  | snapshotForTransition expected => exact h.1.1
  | saveAuth _ | auth | refreshToken => cases hc
  | _ => exact h.1

variable {p : ExecutorM α}

theorem safe_plain {Q : α → Prop} (h : Makes ExecutorCall.Plain p Q) :
    p.run.Safe (custody id) (Prog.Outcome (fun a s' => Q a ∧ s' = s) (· = s)) s := by
  refine h.safe (fun _ _ _ _ => trivial) ?_ rfl
  rintro c _ a s' hc rfl hrel
  exact custody_rel_plain hc hrel

def KeepsCalm (id : String) (p : ExecutorM α) : Prop :=
  ∀ s, Calm id s → p.run.Safe (custody id) (Prog.Outcome (fun _ => Calm id) (Published id)) s

theorem keepsCalm_bind {f : α → ExecutorM β} (hp : KeepsCalm id p)
    (hf : ∀ a, KeepsCalm id (f a)) : KeepsCalm id (p >>= f) :=
  fun s hs => safe_seq (hp s hs) fun a s' hs' => hf a s' hs'

theorem keepsCalm_of_plain {Q : α → Prop} (h : Makes ExecutorCall.Plain p Q) : KeepsCalm id p := by
  intro s hs
  refine (safe_plain h).mono ?_
  rintro (e | a) s' hs'
  · exact hs' ▸ hs.2
  · exact hs'.2 ▸ hs

theorem keepsCalm_pure {a : α} : KeepsCalm id (pure a) :=
  keepsCalm_of_plain (Q := fun _ => True) (makes_pure trivial)

theorem keepsCalm_throw {code : String} : KeepsCalm id (throw code : ExecutorM α) :=
  keepsCalm_of_plain (Q := fun _ => True) makes_throw

theorem keepsCalm_call {c : ExecutorCall} (hc : c.Plain) :
    KeepsCalm id (liftM (call c) : ExecutorM c.Ans) :=
  keepsCalm_of_plain (makes_perform hc)

/-! ### Persisting -/

theorem authDocument_of_publishable {updated : AuthTransitionSnapshot}
    (h : Publishable id updated.authDotJson) : ∃ snapshot, authDocument id updated = .ok snapshot := by
  obtain ⟨bytes, snapshot, hbytes, hsnap⟩ := h.document
  obtain ⟨tokens, htokens, hid⟩ := Option.bind_eq_some_iff.1 h.account
  refine ⟨snapshot, bind_eq_ok.2 ⟨(), ?_, bind_eq_ok.2 ⟨bytes, ?_, ?_⟩⟩⟩
  · exact require_eq_ok.2 (Option.bind_eq_some_iff.2 ⟨tokens, htokens, by rw [hid]; rfl⟩)
  · exact okOr_eq_ok.2 hbytes
  · exact mapError_eq_ok.2 hsnap

def Documents (s : Custody) (snapshot : AuthSnapshot) : Prop :=
  ∀ auth, s.issued = some auth → Externals.encodeAuth auth = some snapshot.bytes

theorem Documents.published {snapshot : AuthSnapshot} (h : Documents s snapshot)
    (hs : s.store.yields id = some snapshot.bytes) : s.Published id :=
  fun auth hauth => ⟨snapshot.bytes, h auth hauth, hs⟩

theorem Documents.calm {snapshot : AuthSnapshot} {store : Store} (h : Documents s snapshot)
    (hs : Held id s) (hyields : store.yields id = some snapshot.bytes) :
    Calm id { s with store } := by
  obtain ⟨state, account, _, hstate, hacc, -, -⟩ := yields_eq_some_iff.1 hyields
  exact ⟨⟨⟨state, account, hstate, hacc⟩, hs.kept⟩, fun auth hauth =>
    ⟨snapshot.bytes, h auth hauth, hyields⟩⟩

theorem safe_publishAuth_custody {snapshot : AuthSnapshot} {state : RegistryState} {account : AccountRecord}
    (hs : Held id s) (hdoc : Documents s snapshot) :
    (publishAuth id snapshot state account).run.Safe (custody id)
      (Prog.Outcome (fun _ => Calm id) (Published id)) s := by
  refine safe_seq
    (Q := fun key s' => ∃ store, s' = { s with store } ∧ s.store.Fresh store snapshot key) ?_ ?_
  · -- the save: a failure is only possible where nothing is on its way, and leaves it so
    refine safe_orFail ⟨trivial, ?_⟩
    rintro (e | key) _ ⟨⟨store, hanswer, rfl⟩, hcar⟩
    · have hpub : s.Published id := hcar.resolve_right (by rintro ⟨_, ⟨⟩⟩)
      rcases hanswer with ⟨_, _, -, ⟨⟩⟩ | ⟨-, rfl | ⟨nonce, key, hexec⟩⟩
      · exact hpub
      · intro auth hauth
        obtain ⟨bytes, hbytes, hyields⟩ := hpub auth hauth
        exact ⟨bytes, hbytes, (saveFreshLocked_eq_ok hexec).yields hyields⟩
    · obtain ⟨nonce, hexec⟩ := hanswer.exec_eq
      exact ⟨store, rfl, saveFreshLocked_eq_ok hexec⟩
  · rintro key _ ⟨store, rfl, hfresh⟩
    refine safe_orFail ⟨trivial, ?_⟩
    rintro (e | ⟨⟩) _ ⟨⟨store', hanswer, rfl⟩, hcar⟩
    · rcases hanswer with ⟨_, _, -, ⟨⟩⟩ | ⟨-, rfl | ⟨nonce, _, hexec⟩⟩
      · exact hcar.resolve_right nofun
      · exact (hdoc.calm hs (hfresh.yields_replaced hexec)).2
    · obtain ⟨nonce, hexec⟩ := hanswer.exec_eq
      exact hdoc.calm hs (hfresh.yields_replaced hexec)

theorem safe_persistAuth_custody (hs : Held id s) :
    (persistAuth id).run.Safe (custody id) (Prog.Outcome (fun _ => Calm id) (Published id)) s := by
  refine safe_seq
    (Q := fun updated s' => s = s' ∧ s.home = some updated.authDotJson) ?_ ?_
  · refine safe_orFail ⟨trivial, ?_⟩
    rintro (e | updated) _ ⟨⟨rfl, hhome⟩, hcar⟩
    · exact hcar.resolve_right (by rintro ⟨_, ⟨⟩⟩)
    · exact ⟨rfl, hhome updated rfl⟩
  rintro updated _ ⟨rfl, hhome⟩
  have hissued : ∀ auth, s.issued = some auth → auth = updated.authDotJson := fun auth hauth =>
    Option.some_inj.1 ((hs.kept auth hauth).1.symm.trans hhome)
  refine safe_seq
    (Q := fun snapshot s' => s = s' ∧ authDocument id updated = .ok snapshot)
    (safe_checked ?_ fun _ h => ⟨rfl, h⟩) ?_
  · -- a document that cannot be published was not issued
    intro e he auth hauth
    have hpub := (hs.kept auth hauth).2
    rw [hissued auth hauth] at hpub
    obtain ⟨snapshot, hsnap⟩ := authDocument_of_publishable hpub
    exact nomatch he.symm.trans hsnap
  rintro snapshot _ ⟨rfl, hsnap⟩
  have hdoc : Documents s snapshot := fun auth hauth =>
    hissued auth hauth ▸ (authDocument_eq_ok hsnap).1
  refine safe_seq
    (Q := fun state s' => s = s' ∧ s.store.stateLocked = .ok state) ?_ ?_
  · refine safe_orFail ⟨trivial, ?_⟩
    rintro (e | state) _ ⟨⟨store, hanswer, rfl⟩, hcar⟩
    · rw [hanswer.plain rfl]
      exact hcar.resolve_right (by rintro ⟨_, ⟨⟩⟩)
    · rw [hanswer.plain rfl]
      exact ⟨rfl, hanswer.stateLocked⟩
  rintro state _ ⟨rfl, hstate⟩
  obtain ⟨state', account, hstate', hacc⟩ := hs.registered
  cases hstate.symm.trans hstate'
  refine safe_seq (Q := fun account' s' => s = s' ∧ account = account')
    (safe_checked ?_ ?_) ?_
  · intro e he
    rw [hacc] at he
    cases he
  · intro account' h
    exact ⟨rfl, Option.some_inj.1 (hacc.symm.trans (okOr_eq_ok.1 h))⟩
  rintro _ _ ⟨rfl, rfl⟩
  refine safe_seq (Q := fun current s' => s = s' ∧
    ∀ loaded, current = .ok loaded → s.store.loadLocked account.effectiveRef = .ok loaded)
    (safe_liftProg ⟨trivial, ?_⟩) ?_
  · rintro current _ ⟨⟨store, hanswer, rfl⟩, -⟩
    rw [hanswer.plain rfl]
    refine ⟨rfl, ?_⟩
    rintro loaded rfl
    exact hanswer.loadLocked
  rintro current _ ⟨rfl, hload⟩
  split_ifs with hcur
  · cases current with
    | error e => cases hcur
    | ok loaded =>
      cases hcur
      exact ⟨hs, hdoc.published (yields_eq_some_iff.2
        ⟨state, account, snapshot, hstate, hacc, hload snapshot rfl, rfl⟩)⟩
  · exact safe_publishAuth_custody hs hdoc

theorem Held.receive {auth : AuthDotJson} (hs : Held id s) (hauth : Publishable id auth) :
    Held id (s.receive auth) := by
  refine ⟨hs.registered, ?_⟩
  rintro _ ⟨⟩
  exact ⟨rfl, hauth⟩

theorem safe_openAuth (active : Bool) (hs : Calm id s) : (openAuth active id).run.Safe (custody id)
      (Prog.Outcome (fun _ => Held id) (Published id)) s := by
  refine safe_seq (keepsCalm_call (c := .openManager active) rfl s hs) fun opened s hs => ?_
  refine safe_seq (keepsCalm_of_plain makes_guard s hs) fun opened s hs => ?_
  refine safe_seq (keepsCalm_of_plain makes_guard s hs) fun _ s hs => ?_
  refine safe_seq (keepsCalm_call (c := .authCached) rfl s hs) fun cached s hs => ?_
  refine safe_seq (keepsCalm_of_plain makes_guard s hs) fun _ s hs => ?_
  refine safe_seq (Q := fun answer s' => Calm id s' ∨
    (Held id s' ∧ ∃ auth, Publishable id auth ∧ answer = .answered (some (.chatgpt (some auth)))))
    (safe_liftProg ⟨trivial, ?_⟩) ?_
  · rintro answer s' ⟨-, rfl | ⟨auth, rfl, hauth, rfl⟩⟩
    · exact .inl hs
    · exact .inr ⟨hs.1.receive hauth, auth, hauth, rfl⟩
  rintro answer s (hs | ⟨hs, auth, hauth, rfl⟩)
  · -- nothing was issued, so any check may fail
    refine (keepsCalm_of_plain (Q := fun _ => True) ?_ s hs).mono fun r s h => h.mono (fun _ h => h.1) fun h => h
    refine makes_bind makes_guard fun auth _ => ?_
    refine makes_bind makes_guard fun auth _ => ?_
    refine makes_bind makes_guard fun _ _ => ?_
    exact makes_bind makes_guard fun _ _ => makes_pure trivial
  · -- what was issued passes them
    refine safe_seq (Q := fun found s' => s = s' ∧ found = some (.chatgpt (some auth)))
      ⟨rfl, rfl⟩ ?_
    rintro _ _ ⟨rfl, rfl⟩
    refine safe_seq (Q := fun found s' => s = s' ∧ found = .chatgpt (some auth))
      ⟨rfl, rfl⟩ ?_
    rintro _ _ ⟨rfl, rfl⟩
    refine safe_seq (safe_checked ?_ fun _ _ => rfl) ?_
    · intro e he
      have hpass : requireIdentity (CodexAuth.chatgpt (some auth)).getAccountId id = .ok () :=
        require_eq_ok.2 hauth.account
      exact nomatch he.symm.trans hpass
    rintro _ _ rfl
    exact hs

theorem keepsCalm_recoverUnauthorized (native : NativeConfig) :
    KeepsCalm id (recoverUnauthorized cfg native id) := by
  refine keepsCalm_bind (keepsCalm_of_plain (makes_requireEnabled cfg)) fun _ s hs => ?_
  refine safe_seq (Q := fun answer s' => Calm id s' ∨
    (Held id s' ∧ answer = .answered (.ok ()))) (safe_liftProg ⟨trivial, ?_⟩) ?_
  · rintro answer s' ⟨-, rfl | ⟨auth, rfl, hauth, rfl⟩⟩
    · exact .inl hs
    · exact .inr ⟨hs.1.receive hauth, rfl⟩
  have hrest : ∀ s, Held id s → (do
      persistAuth id
      clientFromCache native id : ExecutorM Client).run.Safe (custody id)
        (Prog.Outcome (fun _ => Calm id) (Published id)) s := fun s hs =>
    safe_seq (safe_persistAuth_custody hs) fun _ s hs =>
      keepsCalm_of_plain (makes_clientFromCache native id) s hs
  rintro answer s (hs | ⟨hs, rfl⟩)
  · refine safe_seq (keepsCalm_of_plain makes_guard s hs) fun _ s hs => ?_
    refine safe_seq (keepsCalm_of_plain makes_guard s hs) fun _ s hs => ?_
    exact hrest s hs.1
  · exact hrest s hs

theorem keepsCalm_listCredits (native : NativeConfig) (client : Client) :
    KeepsCalm id (listCredits cfg native id client) := by
  refine keepsCalm_bind (keepsCalm_call rfl) fun result => ?_
  rcases result with failure | inventory
  · cases failure with
    | unauthorized =>
      refine keepsCalm_bind (keepsCalm_recoverUnauthorized native) fun client => ?_
      exact keepsCalm_bind (keepsCalm_of_plain (makes_orFail ⟨rfl, fun _ => trivial⟩))
        fun _ => keepsCalm_pure
    | _ => exact keepsCalm_throw
  · exact keepsCalm_pure

/-! ### The operation -/

theorem safe_consume {client : Client} {key credit : String} (hs : Calm id s) :
    (call (.consumeCredit client key credit)).Safe (custody id) (fun _ => Calm id) s :=
  ⟨trivial, fun _ _ h => h.1 ▸ hs⟩

theorem keepsCalm_consumeCredit (native : NativeConfig) (client : Client) (job : ExpiryJob) :
    KeepsCalm id (consumeCredit cfg native id client job) := by
  intro s hs
  refine safe_seq (safe_liftProg (safe_consume hs)) fun result s hs => ?_
  rcases result with failure | code
  · cases failure with
    | unauthorized =>
      refine keepsCalm_bind (keepsCalm_recoverUnauthorized native) (fun client => ?_) s hs
      refine keepsCalm_bind (keepsCalm_of_plain (makes_requireEnabled cfg)) fun _ s hs => ?_
      refine safe_orFail ((safe_consume hs).mono ?_)
      rintro (e | code) s hs
      · exact hs.2
      · exact hs
    | _ => exact keepsCalm_throw s hs
  · exact keepsCalm_pure s hs

theorem keepsCalm_submitJob (native : NativeConfig) (client : Client) (job : ExpiryJob)
    (action : CreditAction) : KeepsCalm id (submitJob cfg native id client job action) := by
  cases action with
  | alreadyRedeemed => exact keepsCalm_pure
  | submit =>
    refine keepsCalm_bind (keepsCalm_of_plain (makes_requireEnabled cfg)) fun _ => ?_
    exact keepsCalm_bind (keepsCalm_consumeCredit native client job) fun _ => keepsCalm_pure

theorem keepsCalm_observeAndSubmit (native : NativeConfig) (job : Option ExpiryJob)
    (client : Client) (credits : List ExpiryCredit) :
    KeepsCalm id (observeAndSubmit cfg native id job client credits) := by
  refine keepsCalm_bind (keepsCalm_of_plain (makes_requireEnabled cfg)) fun _ => ?_
  refine keepsCalm_bind (keepsCalm_call rfl) fun observedAt => ?_
  refine keepsCalm_bind (keepsCalm_of_plain (makes_orFail ⟨rfl, fun _ => trivial⟩)) fun _ => ?_
  cases job with
  | none => exact keepsCalm_pure
  | some job =>
    refine keepsCalm_bind (keepsCalm_call rfl) fun now => ?_
    refine keepsCalm_bind (keepsCalm_of_plain makes_guard) fun action => ?_
    exact keepsCalm_submitJob native client job action

structure Idle (id : String) (s : Custody) : Prop where
  registered : ∃ state account, s.store.stateLocked = .ok state ∧ state.get? id = some account
  unissued : s.issued = none

theorem Idle.calm (h : Idle id s) : Calm id s := by
  refine ⟨⟨h.registered, ?_⟩, Custody.published_of_none h.unissued⟩
  intro auth hauth
  rw [h.unissued] at hauth
  cases hauth

theorem safe_stage (state : RegistryState) (account : AccountRecord) (hs : Idle id s) :
    (stage state account id).run.Safe (custody id)
      (Prog.Outcome (fun _ => Idle id) (Published id)) s := by
  have hplain : ∀ {α : Type} {p : ExecutorM α} {s : Custody}, Idle id s →
      Makes ExecutorCall.Plain p (fun _ => True) →
      p.run.Safe (custody id) (Prog.Outcome (fun _ => Idle id) (Published id)) s := by
    intro α p s hs hp
    refine (safe_plain hp).mono ?_
    rintro (e | a) s' hs'
    · exact hs' ▸ hs.calm.2
    · exact hs'.2 ▸ hs
  unfold stage
  split_ifs
  · exact hs
  refine safe_seq (hplain hs (makes_store rfl)) fun snapshot s hs => ?_
  refine safe_seq (hplain hs makes_guard) fun auth s hs => ?_
  refine safe_seq (hplain hs makes_guard) fun _ s hs => ?_
  refine safe_seq
    (hplain hs (makes_orFail ⟨rfl, fun _ => trivial⟩)) fun _ s hs => ?_
  refine safe_orFail ⟨trivial, ?_⟩
  rintro a s' ⟨⟨rfl, rfl⟩ | ⟨⟨e, rfl⟩, rfl⟩, -⟩
  · exact ⟨hs.registered, hs.unissued⟩
  · exact hs.calm.2

theorem safe_accountOperation (job : Option ExpiryJob) (refresh : Bool) (hs : s.issued = none) :
    (accountOperation cfg id job refresh).run.Safe (custody id)
      (Prog.Outcome (fun _ => Published id) (Published id)) s := by
  have hreads : ∀ {α : Type} {p : ExecutorM α} {s : Custody}, s.issued = none →
      Makes ExecutorCall.Plain p (fun _ => True) →
      p.run.Safe (custody id) (Prog.Outcome (fun _ s' => s'.issued = none) (Published id)) s := by
    intro α p s hs hp
    refine (safe_plain hp).mono ?_
    rintro (e | a) s' hs'
    · exact hs' ▸ Custody.published_of_none hs
    · exact hs'.2 ▸ hs
  refine safe_seq (hreads hs (makes_requireEnabled cfg)) fun _ s hs => ?_
  refine safe_seq (hreads hs (makes_store rfl)) fun _ s hs => ?_
  refine safe_seq
    (Q := fun state s' => s'.issued = none ∧ s'.store.stateLocked = .ok state) ?_ ?_
  · refine safe_orFail ⟨trivial, ?_⟩
    rintro (e | state) _ ⟨⟨store, hanswer, rfl⟩, -⟩
    · exact Custody.published_of_none hs
    · refine ⟨hs, ?_⟩
      change store.stateLocked = .ok state
      rw [hanswer.plain rfl]
      exact hanswer.stateLocked
  rintro state s ⟨hs, hstate⟩
  have hnone : s.Published id := Custody.published_of_none hs
  refine safe_then (safe_lift hnone fun _ _ => ?_)
  refine safe_seq (Q := fun _ => Idle id) (safe_lift hnone ?_) ?_
  · intro account hacc
    exact ⟨⟨state, account, hstate, okOr_eq_ok.1 hacc⟩, hs⟩
  intro account s hs
  refine safe_seq (Q := fun _ => Idle id) ?_ fun native s hs => ?_
  · refine safe_orFail ⟨trivial, ?_⟩
    rintro (e | native) _ ⟨rfl, -⟩
    · exact hs.calm.2
    · exact hs
  refine safe_seq (safe_stage state account hs) fun _ s hs => ?_
  refine safe_seq (safe_openAuth _ hs.calm) fun auth s hs => ?_
  refine safe_seq (safe_persistAuth_custody hs) fun _ s hs => ?_
  refine safe_seq
    (keepsCalm_of_plain (makes_refreshQuotaIf refresh id _) s hs) fun _ s hs => ?_
  refine safe_seq (keepsCalm_listCredits native _ s hs) fun r s hs => ?_
  refine (keepsCalm_observeAndSubmit native job _ _ s hs).mono ?_
  exact fun r s h => h.mono (fun _ h => h.2) fun h => h

end Walk

/-- **Tokens are published when the lock is released**, however the operation ends, if no step loses
tokens. -/
theorem issued_published (cfg : Config) (id : String) (job : Option ExpiryJob) (refresh : Bool)
    (store : Store) (home : Option AuthDotJson) :
    (timeout (accountOperation cfg id job refresh)).Safe (custody id) (fun _ s => s.Published id)
      ⟨store, home, none⟩ := by
  have hsafe : (accountOperation cfg id job refresh).run.Safe (custody id)
      (Prog.Outcome (fun _ => Published id) (Published id)) ⟨store, home, none⟩ :=
    safe_accountOperation job refresh rfl
  refine (safe_cut_of_passed (I := Published id) (fun _ => trivial) ?_ hsafe).mono ?_
  · rintro s passed s' ⟨rfl, hcar⟩
    exact ⟨rfl, hcar⟩
  · rintro (_ | e | outcome) s ⟨hret, hdrop⟩
    · exact hdrop rfl
    · exact hret _ rfl
    · exact hret _ rfl

def fullVault : (c : ExecutorCall) → Custody → c.Ans × Custody
  | .auth, s =>
    (.answered (some (.chatgpt (some (.sample "b" "2")))), s.receive (.sample "b" "2"))
  | .saveAuth auth, s => (.ok (), { s with home := some auth })
  | .snapshotForTransition _, s =>
    ((Result.okOr s.home ⟨.notFound, ""⟩).bind AuthTransitionSnapshot.fromAuthDotJson, s)
  | .refreshToken, s => (.timeout, s)
  | .store (.saveFreshLocked _), s => (.error .unsafePath, s)
  | .store c, s => ((Bench.perform s.store c).1, { s with store := (Bench.perform s.store c).2 })
  | c, s => ((Bench.exec c ⟨s.store, .sample "b" "1", 0⟩).1, s)

theorem answers_perform (s : Store) (c : StoreCall) :
    s.Answers c (Bench.perform s c).1 (Bench.perform s c).2 := by
  unfold Bench.perform
  split
  · rename_i v s' h
    exact .inl ⟨_, v, h, rfl⟩
  · exact .inr ⟨⟨_, rfl⟩, .inl rfl⟩

theorem step_fullVault (c : ExecutorCall) (s : Custody) :
    Custody.Step c s (fullVault c s).1 (fullVault c s).2 := by
  cases c with
  | auth => exact .inr ⟨_, .inl rfl⟩
  | saveAuth auth => exact .inl ⟨rfl, rfl⟩
  | snapshotForTransition expected =>
    refine ⟨rfl, ?_⟩
    intro updated hupd
    obtain ⟨auth, hauth, h⟩ := bind_eq_ok.1 hupd
    rw [okOr_eq_ok.1 hauth, AuthTransitionSnapshot.fromAuthDotJson_eq_ok h]
  | refreshToken => exact .inl rfl
  | store c =>
    cases c with
    | saveFreshLocked snapshot => exact ⟨s.store, .inr ⟨⟨_, rfl⟩, .inl rfl⟩, rfl⟩
    | _ => exact ⟨_, answers_perform s.store _, rfl⟩
  | _ => rfl

omit [Externals] in
/-- The refreshed tokens of `b` cannot be saved: the vault is left with tokens that are void. -/
theorem issued_lost :
    letI := Externals.sample
    let r := Prog.run fullVault (timeout (accountOperation Bench.config "b" none false))
      ⟨.sample, none, none⟩
    (∀ c s, Custody.Step c s (fullVault c s).1 (fullVault c s).2) ∧
      (Store.sample.stateLocked.toOption.map (·.activeAccountId) = some "a") ∧
      r.1 = some (.error "vault_save_failed") ∧ r.2.issued = some (.sample "b" "2") ∧
      ¬ r.2.Published "b" := by
  let := Externals.sample
  refine ⟨step_fullVault, by decide, by decide +kernel, by decide +kernel, ?_⟩
  intro h
  obtain ⟨bytes, hencode, hyields⟩ := h (.sample "b" "2") (by decide +kernel)
  exact absurd (hencode.trans hyields.symm) (by decide +kernel)

end Executor

end CodexMarathon
