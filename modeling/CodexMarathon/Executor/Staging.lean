/-
**Whose credentials are staged.**

Staged credentials may be refreshed, which invalidates the tokens that any other home has of the
account; so those of the native login must not be staged.  The executor decides by the active marker
of the registry, which a native login leaves alone.
-/

import CodexMarathon.Executor.Trace
import CodexMarathon.Service.Operations

namespace CodexMarathon

open Auth Expiry Result Prog

variable [Externals]

inductive SessionEvent
  | setEnabled (enabled : Bool)
  | importCurrent (aliasName : String)
  | switch (target : String)
  | checkpointCurrent (expectedAccountId : String) (expectedAuthGeneration : UInt64)
  | login (auth : AuthDotJson)
  | logout
  | faults (store : StoreCall → Option DomainError) (auth : AuthCall → Option IoError)

namespace World

def restore (w : World) (auth : Option AuthDotJson) : World :=
  { w with native := ({ w.native with storage := .ok auth }.reloadWithStatus w.config).2 }

def handle (w : World) : SessionEvent → World
  | .setEnabled enabled => (w.run (Service.setEnabled enabled)).2
  | .importCurrent aliasName => (w.run (Service.importCurrent aliasName)).2
  | .switch target => (w.run (Service.switch target)).2
  | .checkpointCurrent id generation => (w.run (Service.checkpointCurrent id generation)).2
  | .login auth => w.restore (some auth)
  | .logout => w.restore none
  | .faults storeFault authFault => { w with storeFault, authFault }

end World

def session : Machine World SessionEvent Unit := ⟨fun w e => (w.handle e, ())⟩

def Store.Answers (s : Store) (c : StoreCall) (a : c.Ans) (s' : Store) : Prop :=
  (∃ nonce v, s.exec nonce c = .ok (v, s') ∧ a = .ok v) ∨
    ((∃ e, a = .error e) ∧ (s' = s ∨ ∃ nonce v, s.exec nonce c = .ok (v, s')))

namespace Store

variable {s s' : Store} {c : StoreCall} {nonce : Nonce}

theorem exec_plain {v : c.Val} (hc : (ExecutorCall.store c).Plain)
    (h : s.exec nonce c = .ok (v, s')) : s' = s := by
  cases c with
  | lockExclusive =>
    cases h
    rfl
  | stateLocked | loadLocked _ =>
    obtain ⟨_, -, h⟩ := map_eq_ok.1 h
    cases h
    rfl
  | _ => cases hc

theorem Answers.plain {a : c.Ans} (h : s.Answers c a s') (hc : (ExecutorCall.store c).Plain) :
    s' = s := by
  rcases h with ⟨nonce, v, h, -⟩ | ⟨-, h | ⟨nonce, v, h⟩⟩
  · exact exec_plain hc h
  · exact h
  · exact exec_plain hc h

theorem Answers.exec_eq {v : c.Val} (h : s.Answers c (.ok v) s') :
    ∃ nonce, s.exec nonce c = .ok (v, s') := by
  rcases h with ⟨nonce, v', h, hv⟩ | ⟨⟨e, he⟩, -⟩
  · cases hv
    exact ⟨nonce, h⟩
  · cases he

theorem Answers.stateLocked {state : RegistryState}
    (h : s.Answers .stateLocked (.ok state) s') : s.stateLocked = .ok state := by
  obtain ⟨nonce, h⟩ := h.exec_eq
  obtain ⟨_, hread, hpair⟩ := map_eq_ok.1 h
  cases hpair
  exact hread

theorem Answers.loadLocked {key : String} {snapshot : AuthSnapshot}
    (h : s.Answers (.loadLocked key) (.ok snapshot) s') : s.loadLocked key = .ok snapshot := by
  obtain ⟨nonce, h⟩ := h.exec_eq
  obtain ⟨_, hread, hpair⟩ := map_eq_ok.1 h
  cases hpair
  exact hread

theorem answers_of_exec {v : c.Val} (h : ∀ nonce, s.exec nonce c = .ok (v, s')) :
    s.Answers c (.ok v) s' :=
  .inl ⟨HexText.zeros, v, h _, rfl⟩

end Store

namespace Executor

open Prog (Returns)

/-- Where `stored` is logged in natively, credentials of `id` may only be staged if that is another
account. -/
def stagingSemantics (stored : Option String) (id : String) :
    Prog.Semantics ExecutorCall ExecutorCall.Ans Store where
  pre c _ := c.kind = .stage → stored ≠ some id
  rel
    | .store c, s, a, s' => s.Answers c a s'
    | _, s, _, s' => s' = s

def Stageable (s : Store) (id : String) : Prop :=
  ∃ state account snapshot auth, s.stateLocked = .ok state ∧ state.enabled = true ∧
    state.get? id = some account ∧ state.activeAccountId ≠ id ∧
    s.loadLocked account.effectiveRef = .ok snapshot ∧
    Externals.decodeAuth snapshot.bytes = some auth ∧ snapshotIdentity auth = some id

section Staging

variable {cfg : Config} {id : String} {job : Option ExpiryJob} {stored : Option String}
  {s s' : Store} {t : ExecutorTrace}

theorem follows_plain (h : Prog.Follows (stagingSemantics stored id) s t s')
    (ht : ∀ e ∈ t, e.1.Plain) : ∀ e ∈ t, (stagingSemantics stored id).rel e.1 s e.2 s := by
  induction t generalizing s with
  | nil => exact List.forall_mem_nil _
  | cons e t ih =>
    obtain ⟨s₁, hrel, h⟩ := h
    obtain ⟨he, ht⟩ := List.forall_mem_cons.1 ht
    obtain rfl : s₁ = s := by
      obtain ⟨c, a⟩ := e
      cases c with
      | store c => exact Store.Answers.plain hrel he
      | _ => exact hrel
    exact List.forall_mem_cons.2 ⟨hrel, ih h ht⟩

theorem Stages.stageable {auth : AuthDotJson} {state : RegistryState} {account : AccountRecord}
    {snapshot : AuthSnapshot} (h : Stages id auth t state account snapshot)
    (hfol : Prog.Follows (stagingSemantics stored id) s t s') : Stageable s id := by
  have hreads := follows_plain hfol h.reads
  have hreg : s.Answers .stateLocked (.ok state) s := hreads _ h.registry
  have hvault : s.Answers (.loadLocked account.effectiveRef) (.ok snapshot) s := hreads _ h.vault
  exact ⟨state, account, snapshot, auth, hreg.stateLocked, h.enabled, h.registered, h.inactive,
    hvault.loadLocked, h.document, h.identity⟩

theorem returns_requireEnabled (cfg : Config) :
    Returns [⟨.expiryStatus, .ok ⟨some "", true⟩⟩, ⟨.canonicalize "", some ""⟩,
      ⟨.canonicalize cfg.codexHome, some ""⟩] (requireEnabled cfg).run (.ok ()) :=
  ⟨_, rfl, _, rfl, _, rfl, rfl⟩

theorem not_safe_of_stageable {refresh : Bool} {Q : Except String ExpiryOutcome → Store → Prop}
    (h : Stageable s id) :
    ¬ (accountOperation cfg id job refresh).run.Safe (stagingSemantics (some id) id) Q s := by
  obtain ⟨state, account, snapshot, auth, hstate, henab, hacc, hinac, hload, hdecode,
    hiden⟩ := h
  have hlock : s.Answers .lockExclusive (.ok ()) s := Store.answers_of_exec fun _ => rfl
  have hreg : s.Answers .stateLocked (.ok state) s :=
    Store.answers_of_exec fun _ => map_eq_ok.2 ⟨state, hstate, rfl⟩
  have hvault : s.Answers (.loadLocked account.effectiveRef) (.ok snapshot) s :=
    Store.answers_of_exec fun _ => map_eq_ok.2 ⟨snapshot, hload, rfl⟩
  have hnative : Prog.Follows (stagingSemantics (some id) id) s [⟨.nativeConfig, .ok ⟨""⟩⟩] s :=
    ⟨s, rfl, rfl⟩
  have hcreat : Prog.Follows (stagingSemantics (some id) id) s [⟨.tempdir, .ok ()⟩] s :=
    ⟨s, rfl, rfl⟩
  intro hsafe
  have hsafe := hsafe.resume_ok (returns_requireEnabled cfg) ⟨s, rfl, s, rfl, s, rfl, rfl⟩
  have hsafe := hsafe.resume_ok (returns_orFail rfl) ⟨s, hlock, rfl⟩
  have hsafe := hsafe.resume_ok (returns_orFail rfl) ⟨s, hreg, rfl⟩
  have hsafe := hsafe.resume_ok (returns_check (a := ()) (require_eq_ok.2 henab)) rfl
  have hsafe := hsafe.resume_ok (returns_check (okOr_eq_ok.2 hacc)) rfl
  have hsafe := hsafe.resume_ok (returns_orFail rfl) hnative
  rw [stage, if_neg hinac, ExceptT.run_bind, safe_bind] at hsafe
  have hsafe := hsafe.resume_ok (returns_orFail rfl) ⟨s, hvault, rfl⟩
  have hsafe := hsafe.resume_ok (returns_check (okOr_eq_ok.2 hdecode)) rfl
  have hsafe := hsafe.resume_ok
    (returns_check (a := ()) (require_eq_ok.2 hiden)) rfl
  have hsafe := hsafe.resume_ok (returns_orFail rfl) hcreat
  exact hsafe.1 rfl rfl

end Staging

/-- **When an operation only stages another account than the native one**: exactly if the native
account is not `id`, or `id` cannot be staged. -/
theorem stages_other_account_iff (cfg : Config) (id : String) (job : Option ExpiryJob)
    (refresh : Bool) (w : World) :
    (accountOperation cfg id job refresh).run.Safe (stagingSemantics w.storedAccount id)
        (fun _ _ => True) w.store ↔ (w.storedAccount = some id → ¬ Stageable w.store id) := by
  constructor
  · intro hsafe hstored hstag
    rw [hstored] at hsafe
    exact not_safe_of_stageable hstag hsafe
  · intro h
    have htraced : Prog.Traced (Justified cfg id job) _ (fun _ _ => True) [] :=
      traced_accountOperation refresh
    refine (Prog.Safe.follow htraced ?_ rfl).mono
      fun _ _ _ => trivial
    intro c t s hfol hjus hkind hstored
    cases c with
    | saveAuth auth =>
      obtain ⟨state, account, snapshot, hstages⟩ := hjus
      exact h hstored (hstages.stageable hfol)
    | store c => cases c <;> cases hkind
    | _ => cases hkind

def fresh : @World .sample :=
  letI := Externals.sample
  { World.sample with
    store := { registry := none, vault := fun _ => none }
    native :=
      { AuthManager.sample (.sample "a" "1") with
        inner := { auth := none, permanentRefreshFailure := none }
        storage := .ok none }
    nonces := fun n =>
      if n = 0 then HexText.zeros
      else HexText.ones }

omit [Externals] in
/-- The user logs in natively as `b` while `a` is active: an operation on `b` stages the live
credentials. -/
theorem stages_live_account :
    letI := Externals.sample
    let w := session.run fresh
      [.setEnabled true, .login (.sample "a" "1"), .importCurrent "first", .login (.sample "b" "1"),
        .importCurrent "second", .switch "a", .login (.sample "b" "2")]
    w.storedAccount = some "b" ∧
      (Prog.record Bench.exec (accountOperation Bench.config "b" none false).run
        ⟨w.store, .sample "b" "1", 0⟩).any (fun e => e.1.kind = .stage) = true := by
  decide +kernel

end Executor

end CodexMarathon
