/-
**Registry and vault stay together.**

The references of the registry are own ids or generated and no two accounts share one, and whoever
could be loaded at some time in the past can still be loaded, with the credentials of that time or
with credentials that were written for the same account since.
-/

import CodexMarathon.Store.Files
import CodexMarathon.Store.Keys

namespace CodexMarathon

open Auth Result RegistryState StoreCall

variable [Externals]

variable {account : AccountRecord} {c : StoreCall} {more : List (String × Bytes)} {bytes : Bytes}

omit [Externals] in
theorem referenced_of_get? {state : RegistryState} {id : String}
    (h : state.get? id = some account) : referenced state account.effectiveRef = true := by
  refine List.any_eq_true.2 ⟨account, mem_records_of_get? h, ?_⟩
  unfold AccountRecord.effectiveRef
  split_ifs with hempty <;> simp [hempty]

theorem generatedRef_freshKey (nonce : Nonce) (id : String) :
    generatedRef (freshKey nonce id) = true :=
  generatedRef_of_form ⟨nonce, rfl⟩

omit [Externals] in
theorem effectiveRef_of_generatedRef {key : String} (h : generatedRef key = true)
    (record : AccountRecord) :
    ({ record with credentialRef := key } : AccountRecord).effectiveRef = key := by
  have hne : key.isEmpty = false := by
    rw [String.isEmpty_eq_false_iff]
    rintro rfl
    cases h
  simp [AccountRecord.effectiveRef, hne]

/-! ### Loading -/

theorem Store.loadLocked_congr {s s' : Store} {key : String} (h : s'.vault key = s.vault key) :
    s'.loadLocked key = s.loadLocked key := by
  unfold Store.loadLocked
  rw [h]

def ownerOf (key : String) (bytes : Bytes) : String :=
  match embeddedIdentity bytes with
  | .ok (some id) => id
  | _ => key

theorem ownerOf_of_embedded {key id : String} {snapshot : AuthSnapshot}
    (h : snapshot.embeddedAccountId = some id) : ownerOf key snapshot.bytes = id := by
  rw [ownerOf, snapshot.embedded_eq, h]

def Store.yields (s : Store) (id : String) : Option Bytes := do
  let state ← s.stateLocked.toOption
  let account ← state.get? id
  let snapshot ← (s.loadLocked account.effectiveRef).toOption
  pure snapshot.bytes

theorem Store.yields_eq_some_iff {s : Store} {id : String} :
    s.yields id = some bytes ↔ ∃ state account snapshot, s.stateLocked = .ok state ∧
      state.get? id = some account ∧ s.loadLocked account.effectiveRef = .ok snapshot ∧
      snapshot.bytes = bytes := by
  simp [Store.yields, Option.bind_eq_some_iff, toOption_eq_some]

structure Store.Fresh (s s' : Store) (snapshot : AuthSnapshot) (key : String) : Prop where
  generated : generatedRef key = true
  free : s.vault key = none
  load : s'.loadLocked key = .ok snapshot
  registry : s'.registry = s.registry
  other : ∀ key', key' ≠ key → s'.vault key' = s.vault key'

section SaveFresh

variable {s s' : Store} {nonce : Nonce} {snapshot : AuthSnapshot} {key : String}

theorem Store.saveFreshLocked_key (h : s.saveFreshLocked nonce snapshot = .ok (key, s')) :
    ∃ id, snapshot.embeddedAccountId = some id ∧ key = freshKey nonce id := by
  obtain ⟨id, hid, h⟩ := bind_eq_ok.1 h
  have h := ok_of_bind h
  obtain ⟨saved, -, h⟩ := bind_eq_ok.1 h
  exact ⟨id, okOr_eq_ok.1 hid, (Prod.mk.inj (Except.ok.inj h)).1.symm⟩

theorem Store.saveFreshLocked_eq_ok (h : s.saveFreshLocked nonce snapshot = .ok (key, s')) :
    s.Fresh s' snapshot key := by
  obtain ⟨id, -, h⟩ := bind_eq_ok.1 h
  obtain ⟨⟨⟩, hfree, h⟩ := bind_eq_ok.1 h
  obtain ⟨store, hsave, h⟩ := bind_eq_ok.1 h
  obtain ⟨rfl, rfl⟩ := Prod.mk.inj (Except.ok.inj h)
  obtain ⟨-, -, hupdate⟩ := Store.saveLocked_eq_ok hsave
  refine ⟨generatedRef_freshKey nonce id, require_eq_ok.1 hfree,
    Store.loadLocked_saveLocked hsave, ?_, ?_⟩
  · rw [hupdate]
  · intro key' hne
    rw [hupdate]
    exact Function.update_of_ne hne _ _

end SaveFresh

/-! ### The invariant -/

namespace Stores

variable (s : Stores)

/-- The operations put a document for `id` in place that consists of `bytes`. -/
def WroteFor (id : String) (bytes : Bytes) : Prop :=
  ∃ key, (pathFor key, bytes) ∈ s.published ∧ ownerOf key bytes = id

def Serve (account : AccountRecord) (id : String) (bytes : Bytes) : Prop :=
  ∃ snapshot, s.store.loadLocked account.effectiveRef = .ok snapshot ∧
    (snapshot.bytes = bytes ∨ s.WroteFor id snapshot.bytes)

end Stores

/-- References are own ids or generated ones, and no two accounts share one. -/
structure RegistryState.Separate (state : RegistryState) : Prop where
  own : ∀ id account, state.get? id = some account →
    account.effectiveRef = id ∨ generatedRef account.effectiveRef = true
  distinct : ∀ id id' account account', state.get? id = some account →
    state.get? id' = some account' → account.effectiveRef = account'.effectiveRef → id = id'

namespace Stores

structure Serves (base : String → Option Bytes) (s : Stores) (state : RegistryState) : Prop where
  separate : state.Separate
  keeps : ∀ id bytes, base id = some bytes →
    ∃ account, state.get? id = some account ∧ s.Serve account id bytes

def Intact (base : String → Option Bytes) (s : Stores) : Prop :=
  ∃ state, s.store.stateLocked = .ok state ∧ s.Serves base state

/-- A registry in memory that the vault serves; it differs from the one on disk only in accounts
whose references are taken. -/
structure Staged (base : String → Option Bytes) (s : Stores) (disk state : RegistryState) :
    Prop where
  stateLocked : s.store.stateLocked = .ok disk
  onDisk : s.Serves base disk
  serves : s.Serves base state
  taken : ∀ id account, state.get? id = some account →
    disk.get? id = some account ∨ s.store.vault account.effectiveRef ≠ none

variable {base : String → Option Bytes} {s s' : Stores} {state disk : RegistryState}

theorem Serve.frame {id : String} (h : s.Serve account id bytes)
    (hvault : s'.store.vault account.effectiveRef = s.store.vault account.effectiveRef)
    (hpub : s'.published = s.published ++ more) : s'.Serve account id bytes := by
  obtain ⟨snapshot, hload, hbytes⟩ := h
  refine ⟨snapshot, ?_, hbytes.imp_right fun ⟨key, hkey, howner⟩ =>
    ⟨key, hpub ▸ List.mem_append_left _ hkey, howner⟩⟩
  rw [Store.loadLocked_congr hvault]
  exact hload

theorem Serves.frame (h : s.Serves base state)
    (hvault : ∀ id account, state.get? id = some account → s'.store.vault account.effectiveRef = s.store.vault account.effectiveRef)
    (hpub : s'.published = s.published ++ more) : s'.Serves base state where
  separate := h.separate
  keeps id bytes hid := by
    obtain ⟨account, hacc, hserve⟩ := h.keeps id bytes hid
    exact ⟨account, hacc, hserve.frame (hvault id account hacc) hpub⟩

theorem Serves.of_accounts {state' : RegistryState} (h : s.Serves base state)
    (hacc : state'.accounts = state.accounts) : s.Serves base state' := by
  have hget : ∀ id, state'.get? id = state.get? id := by
    intro id
    unfold get?
    rw [hacc]
  refine ⟨⟨fun id account h' => h.separate.own id account (hget id ▸ h'), ?_⟩, ?_⟩
  · intro id id' account account' hid hid'
    exact h.separate.distinct id id' account account' (hget id ▸ hid) (hget id' ▸ hid')
  · intro id bytes hbytes
    obtain ⟨account, hacco, hserve⟩ := h.keeps id bytes hbytes
    exact ⟨account, (hget id).trans hacco, hserve⟩

theorem Staged.intact (h : s.Staged base disk state) : s.Intact base :=
  ⟨disk, h.stateLocked, h.onDisk⟩

theorem Staged.of_accounts {state' : RegistryState} (h : s.Staged base disk state)
    (hacc : state'.accounts = state.accounts) : s.Staged base disk state' := by
  refine ⟨h.stateLocked, h.onDisk, h.serves.of_accounts hacc, ?_⟩
  intro id account hacco
  refine h.taken id account ?_
  unfold get? at hacco ⊢
  rw [← hacc]
  exact hacco

theorem staged_of_stateLocked (h : s.Intact base) (hstate : s.store.stateLocked = .ok state) :
    s.Staged base state state := by
  obtain ⟨state', hstate', hserves⟩ := h
  rw [hstate] at hstate'
  cases hstate'
  exact ⟨hstate, hserves, hserves, fun _ _ h => .inl h⟩

/-! ### What the operations of the stores do to it -/

theorem Done.eq {v : c.Val} (h : s.Done c v s') (hpubl : c.publishes v = [])
    (hstore : ∀ nonce v store, s.store.exec nonce c = .ok (v, store) → store = s.store) :
    s' = s := by
  obtain ⟨nonce, -, hexec, hpub⟩ := h
  have h₁ := hstore nonce v _ hexec
  rw [hpubl, List.append_nil] at hpub
  obtain ⟨store, published⟩ := s'
  cases h₁
  cases hpub
  rfl

theorem of_outcome {a : c.Ans} {P : Stores → Prop} (h : Prog.Outcome (s.Done c) (s.Left c) a s')
    (hs : P s) (hdone : ∀ v, s.Done c v s' → P s') : P s' := by
  cases a with
  | ok v => exact hdone v h
  | error e =>
    rcases h with rfl | ⟨v, h⟩
    · exact hs
    · exact hdone v h

structure SavedFresh (s s' : Stores) (snapshot : AuthSnapshot) (key : String) : Prop where
  named : snapshot.embeddedAccountId ≠ none
  generated : generatedRef key = true
  free : s.store.vault key = none
  unused : ∀ state, s.store.stateLocked = .ok state → referenced state key = false
  load : s'.store.loadLocked key = .ok snapshot
  registry : s'.store.registry = s.store.registry
  other : ∀ key', key' ≠ key → s'.store.vault key' = s.store.vault key'
  published : s'.published = s.published ++ [(pathFor key, snapshot.bytes)]

theorem Done.savedFresh {snapshot : AuthSnapshot} {key : String}
    (h : s.Done (.saveFreshLocked snapshot) key s') : SavedFresh s s' snapshot key := by
  obtain ⟨nonce, hunused, hexec, hpub⟩ := h
  obtain ⟨id, hid, rfl⟩ := Store.saveFreshLocked_key hexec
  have hsaved := Store.saveFreshLocked_eq_ok hexec
  refine ⟨?_, hsaved.generated, hsaved.free, ?_, hsaved.load, hsaved.registry, hsaved.other,
    hpub⟩
  · rw [hid]
    nofun
  · intro state hstate
    exact hunused Nat.one_ne_zero state hstate id

section Fresh

variable {snapshot : AuthSnapshot} {key id : String}

theorem SavedFresh.vault (h : SavedFresh s s' snapshot key) :
    s'.store.vault key = some snapshot.bytes := (Store.loadLocked_eq_ok h.load).2.1

theorem Staged.ref_ne_fresh (hs : s.Staged base disk state) (h : SavedFresh s s' snapshot key)
    {id : String} (hacc : state.get? id = some account) : account.effectiveRef ≠ key := by
  rintro rfl
  rcases hs.taken id account hacc with hdisk | htaken
  · have := h.unused disk hs.stateLocked
    rw [referenced_of_get? hdisk] at this
    cases this
  · exact htaken h.free

theorem Staged.saved (hs : s.Staged base disk state) (h : SavedFresh s s' snapshot key) :
    s'.Staged base disk state := by
  have hdisk : s.Staged base disk disk := staged_of_stateLocked hs.intact hs.stateLocked
  refine ⟨?_, ?_, ?_, ?_⟩
  · rw [← hs.stateLocked, Store.stateLocked, h.registry, Store.stateLocked]
  · exact hs.onDisk.frame (fun id account h' => h.other _ (hdisk.ref_ne_fresh h h')) h.published
  · exact hs.serves.frame (fun id account h' => h.other _ (hs.ref_ne_fresh h h')) h.published
  · intro id account hacc
    rw [h.other _ (hs.ref_ne_fresh h hacc)]
    exact hs.taken id account hacc

theorem Staged.insert (hs : s.Staged base disk state) (h : SavedFresh s s' snapshot key)
    (hid : snapshot.embeddedAccountId = some id) (record : AccountRecord) :
    s'.Staged base disk (state.insert id { record with credentialRef := key }) := by
  have hsaved := hs.saved h
  have href := effectiveRef_of_generatedRef h.generated record
  -- an account of the new registry is the one that was inserted, or was there
  have hget : ∀ id' account,
      (state.insert id { record with credentialRef := key }).get? id' = some account →
      (id' = id ∧ account.effectiveRef = key) ∨ state.get? id' = some account := by
    intro id' account hacc
    rcases eq_or_ne id' id with rfl | hne
    · rw [get?_insert_self] at hacc
      cases hacc
      exact .inl ⟨rfl, href⟩
    · rw [get?_insert_of_ne hne] at hacc
      exact .inr hacc
  refine ⟨hsaved.stateLocked, hsaved.onDisk, ⟨⟨?_, ?_⟩, ?_⟩, ?_⟩
  · intro id' account hacc
    rcases hget id' account hacc with ⟨-, h'⟩ | h'
    · exact .inr (h' ▸ h.generated)
    · exact hs.serves.separate.own id' account h'
  · intro id₁ id₂ a₁ a₂ h₁ h₂ heq
    rcases hget id₁ a₁ h₁ with ⟨e₁, k₁⟩ | g₁ <;> rcases hget id₂ a₂ h₂ with ⟨e₂, k₂⟩ | g₂
    · rw [e₁, e₂]
    · exact absurd (heq.symm.trans k₁) (hs.ref_ne_fresh h g₂)
    · exact absurd (heq.trans k₂) (hs.ref_ne_fresh h g₁)
    · exact hs.serves.separate.distinct id₁ id₂ a₁ a₂ g₁ g₂ heq
  · intro id' bytes hbytes
    rcases eq_or_ne id' id with rfl | hne
    · refine ⟨_, get?_insert_self, snapshot, ?_, .inr ⟨key, ?_, ownerOf_of_embedded hid⟩⟩
      · rw [href]
        exact h.load
      · rw [h.published]
        exact List.mem_append_right _ (List.mem_singleton.2 rfl)
    · obtain ⟨account, hacc, hserve⟩ := hsaved.serves.keeps id' bytes hbytes
      exact ⟨account, (get?_insert_of_ne hne).trans hacc, hserve⟩
  · intro id' account hacc
    rcases hget id' account hacc with ⟨-, h'⟩ | h'
    · rw [h', h.vault]
      exact .inr nofun
    · exact hsaved.taken id' account h'

end Fresh

namespace Crash

theorem lockExclusive {a : lockExclusive.Ans} (h : s.Crash .lockExclusive a s') : s' = s := by
  have hdone : ∀ {v}, s.Done .lockExclusive v s' → s' = s := fun h =>
    h.eq rfl (by rintro nonce v store ⟨⟩; rfl)
  exact of_outcome (P := (· = s)) h rfl fun _ h => hdone h

theorem stateLocked {a : stateLocked.Ans} (h : s.Crash .stateLocked a s') :
    s' = s ∧ ∀ state, a = .ok state → s.store.stateLocked = .ok state := by
  have hdone : ∀ {v : RegistryState}, s.Done .stateLocked v s' → s' = s := fun h => h.eq rfl (by
    intro nonce v store hexec
    obtain ⟨state, -, h⟩ := map_eq_ok.1 hexec
    cases h
    rfl)
  cases a with
  | ok v =>
    refine ⟨hdone h, ?_⟩
    rintro _ ⟨⟩
    obtain ⟨nonce, -, hexec, -⟩ := h
    obtain ⟨state, hstate, heq⟩ := map_eq_ok.1 hexec
    rw [← show state = v from congrArg Prod.fst heq]
    exact hstate
  | error e => exact ⟨h.elim id fun ⟨_, h⟩ => hdone h, nofun⟩

theorem loadLocked {key : String} {a : (loadLocked key).Ans}
    (h : s.Crash (.loadLocked key) a s') : s' = s := by
  have hdone : ∀ {v : AuthSnapshot}, s.Done (.loadLocked key) v s' → s' = s := fun h => h.eq rfl (by
    intro nonce v store hexec
    obtain ⟨state, -, h⟩ := map_eq_ok.1 hexec
    cases h
    rfl)
  exact of_outcome (P := (· = s)) h rfl fun _ h => hdone h

theorem staged_collect {a : (collectOrphansLocked disk).Ans}
    (hs : s.Staged base disk disk) (h : s.Crash (.collectOrphansLocked disk) a s') :
    s'.Staged base disk disk := by
  have hcol : s.Collected disk s' := h
  have hserves : s'.Serves base disk := by
    refine hs.onDisk.frame ?_ (by rw [hcol.published, List.append_nil])
    intro id account hacc
    refine (hcol.vault account.effectiveRef).resolve_right ?_
    rintro ⟨-, href, -⟩
    rw [referenced_of_get? hacc] at href
    cases href
  refine ⟨?_, hserves, hserves, fun _ _ h => .inl h⟩
  rw [← hs.stateLocked, Store.stateLocked, hcol.registry, Store.stateLocked]

theorem staged_saveFresh {snapshot : AuthSnapshot} {id : String}
    {a : (saveFreshLocked snapshot).Ans}
    (hid : snapshot.embeddedAccountId = none ∨ snapshot.embeddedAccountId = some id)
    (hs : s.Staged base disk state) (h : s.Crash (.saveFreshLocked snapshot) a s') :
    s'.Intact base ∧ ∀ key, a = .ok key → ∀ record : AccountRecord,
      s'.Staged base disk (state.insert id { record with credentialRef := key }) := by
  cases a with
  | ok key =>
    have hdone : s.Done (.saveFreshLocked snapshot) key s' := h
    refine ⟨(hs.saved hdone.savedFresh).intact, ?_⟩
    rintro _ ⟨⟩ record
    exact hs.insert hdone.savedFresh (hid.resolve_left hdone.savedFresh.named) record
  | error e =>
    refine ⟨?_, nofun⟩
    rcases h with rfl | ⟨key, h⟩
    · exact hs.intact
    · exact (hs.saved h.savedFresh).intact

theorem intact_replace {a : (replaceLocked state).Ans} (hs : s.Staged base disk state)
    (h : s.Crash (.replaceLocked state) a s') : s'.Intact base := by
  have hdone : ∀ {v : Unit}, s.Done (.replaceLocked state) v s' → s'.Intact base := by
    rintro v ⟨nonce, -, hexec, hpub⟩
    obtain ⟨store, hstore, heq⟩ := map_eq_ok.1 hexec
    obtain ⟨-, rfl⟩ := Prod.mk.inj heq
    obtain ⟨hread, hvault⟩ := Store.replaceLocked_eq_ok hstore
    have hserves : s'.Serves base state := hs.serves.frame (fun _ _ _ => by rw [hvault]) hpub
    exact ⟨_, hread, hserves.of_accounts rfl⟩
  exact of_outcome h hs.intact fun _ h => hdone h

/-- A call that changes nothing but the registry, and there no account. -/
theorem intact_of_accounts {a : c.Ans} (hs : s.Intact base) (hpubl : ∀ v, c.publishes v = [])
    (h : Prog.Outcome (s.Done c) (s.Left c) a s')
    (hexec : ∀ nonce v store, s.store.exec nonce c = .ok (v, store) → ∃ state state' : RegistryState,
      s.store.stateLocked = .ok state ∧ store.stateLocked = .ok state' ∧
        state'.accounts = state.accounts ∧ store.vault = s.store.vault) :
    s'.Intact base := by
  refine of_outcome h hs ?_
  rintro v ⟨nonce, -, hdone, hpub⟩
  obtain ⟨state, state', hstate, hstate', hacc, hvault⟩ := hexec nonce v _ hdone
  have hstaged := staged_of_stateLocked hs hstate
  rw [hpubl] at hpub
  have hserves : s'.Serves base state :=
    hstaged.serves.frame (fun _ _ _ => by rw [hvault]) hpub
  exact ⟨state', hstate', hserves.of_accounts hacc⟩

theorem intact_setActive {id : String} {a : (setActiveLocked id).Ans}
    (hs : s.Intact base) (h : s.Crash (.setActiveLocked id) a s') : s'.Intact base := by
  refine intact_of_accounts hs (fun _ => rfl) h fun nonce v store hexec => ?_
  obtain ⟨store', hstore, heq⟩ := map_eq_ok.1 hexec
  obtain ⟨-, rfl⟩ := Prod.mk.inj heq
  obtain ⟨state, hstate, hread, hvault⟩ := Store.setActiveLocked_eq_ok hstore
  exact ⟨state, _, hstate, hread, rfl, hvault⟩

theorem intact_setEnabled {enabled : Bool} {a : (setEnabled enabled).Ans}
    (hs : s.Intact base) (h : s.Crash (.setEnabled enabled) a s') : s'.Intact base := by
  refine intact_of_accounts hs (fun _ => rfl) h fun nonce v store hexec => ?_
  obtain ⟨store', hstore, heq⟩ := map_eq_ok.1 hexec
  obtain ⟨-, rfl⟩ := Prod.mk.inj heq
  obtain ⟨state, hstate, hstore⟩ := bind_eq_ok.1 hstore
  obtain ⟨hread, hvault⟩ := Store.replaceLocked_eq_ok hstore
  exact ⟨state, _, hstate, hread, rfl, hvault⟩

end Crash

def SelfReferring (id : String) : Prop :=
  generatedRef id = true ∧ refDigest id = (Externals.sha256 id).text

/-- The key over which credentials of `id` are saved: that of the account if it is registered, and
`id` otherwise. -/
def SavedUnder (state : RegistryState) (id key : String) : Prop :=
  (∃ account, state.get? id = some account ∧ account.effectiveRef = key) ∨
    state.get? id = none ∧ key = id

theorem eq_of_savedUnder {id key : String} {snapshot : AuthSnapshot} (hstate : state.Separate)
    (hkey : SavedUnder state id key) (hself : ¬ SelfReferring id)
    (hid : snapshot.embeddedAccountId = none ∨ snapshot.embeddedAccountId = some id)
    (hcheck : checkRef key snapshot = .ok ()) {id' : String}
    (hacc : state.get? id' = some account) (href : account.effectiveRef = key) :
    id' = id ∧ ownerOf key snapshot.bytes = id := by
  -- under a generated key, the document names the account, and the key was made for that
  have hemb : generatedRef key = true → snapshot.embeddedAccountId = some id ∧
      refDigest key = (Externals.sha256 id).text := by
    intro hgen
    rw [checkRef, if_pos hgen] at hcheck
    obtain ⟨id'', hid'', hdigest⟩ := bind_eq_ok.1 hcheck
    rw [okOr_eq_ok] at hid''
    rcases hid with h | h
    · rw [h] at hid''
      cases hid''
    · rw [h] at hid''
      cases hid''
      exact ⟨h, require_eq_ok.1 hdigest⟩
  have hown := hstate.own id' account hacc
  rw [href] at hown
  have heq : id' = id := by
    rcases hkey with ⟨account', hacc', href'⟩ | ⟨hnone, rfl⟩
    · exact hstate.distinct id' id account account' hacc hacc' (href.trans href'.symm)
    · rcases hown with rfl | hgen
      · rfl
      · exact absurd ⟨hgen, (hemb hgen).2⟩ hself
  refine ⟨heq, ?_⟩
  rcases hid with h | h
  · rw [show ownerOf key snapshot.bytes = key by rw [ownerOf, snapshot.embedded_eq, h]]
    rcases hown with hown | hgen
    · rw [hown, heq]
    · rw [(hemb hgen).1] at h
      cases h
  · exact ownerOf_of_embedded h

theorem Crash.staged_saveLocked {id key : String} {snapshot : AuthSnapshot}
    {a : (saveLocked key snapshot).Ans} (hs : s.Staged base disk disk)
    (hkey : SavedUnder disk id key) (hself : ¬ SelfReferring id)
    (hid : snapshot.embeddedAccountId = none ∨ snapshot.embeddedAccountId = some id)
    (h : s.Crash (.saveLocked key snapshot) a s') : s'.Staged base disk disk := by
  have hdone : ∀ {v : Unit}, s.Done (.saveLocked key snapshot) v s' → s'.Staged base disk disk := by
    rintro v ⟨nonce, -, hexec, hpub⟩
    obtain ⟨store, hstore, heq⟩ := map_eq_ok.1 hexec
    obtain ⟨-, rfl⟩ := Prod.mk.inj heq
    have hload := Store.loadLocked_saveLocked hstore
    obtain ⟨-, hcheck, hupdate⟩ := Store.saveLocked_eq_ok hstore
    have hstate : s'.store.stateLocked = .ok disk := by
      rw [← hs.stateLocked, Store.stateLocked, hupdate, Store.stateLocked]
    refine staged_of_stateLocked ⟨disk, hstate, hs.onDisk.separate, ?_⟩ hstate
    intro id' bytes hbytes
    obtain ⟨account, hacc, hserve⟩ := hs.onDisk.keeps id' bytes hbytes
    refine ⟨account, hacc, ?_⟩
    rcases eq_or_ne account.effectiveRef key with href | hne
    · obtain ⟨rfl, howner⟩ :=
        eq_of_savedUnder hs.onDisk.separate hkey hself hid hcheck hacc href
      refine ⟨snapshot, href ▸ hload, .inr ⟨key, ?_, howner⟩⟩
      rw [hpub]
      exact List.mem_append_right _ (List.mem_singleton.2 rfl)
    · refine hserve.frame ?_ hpub
      rw [hupdate]
      exact Function.update_of_ne hne _ _
  exact of_outcome (P := fun s => s.Staged base disk disk) h hs fun _ h => hdone h

end Stores

end CodexMarathon
