/-
**The vault over a run.**

Any sequence of saves, deletions and loads runs on a vault directory in which others put what they
like: files with any contents, links, nothing at all.  Every call on the disk may fail, and the
random part of a fresh key may be anything.
-/

import CodexMarathon.Lib.Trace
import CodexMarathon.Store.Files
import CodexMarathon.Store.Keys

namespace CodexMarathon

open Auth Files Result Prog

variable [Externals]

/-! ### Operations -/

def OnDisk.delete (key : String) : DiskM Unit := do
  lockExclusive
  validateAccountId key
  rejectUnsafeFile .vault (pathFor key)
  Prog.orFail (call (.file .vault (.remove (pathFor key)))) fun e =>
    if e.kind = .notFound then .snapshotNotFound else .io e

inductive VaultOp
  | saveLocked (key : String) (snapshot : AuthSnapshot)
  | saveFreshLocked (snapshot : AuthSnapshot)
  | delete (key : String)
  | loadLocked (key : String)
  | others (name : String) (entry : Option (Entry Bytes))

abbrev VaultOp.Ans : VaultOp → Type
  | .saveLocked _ _ | .delete _ => Except DomainError Unit
  | .saveFreshLocked _ => Except DomainError String
  | .loadLocked _ => Except DomainError AuthSnapshot
  | .others _ _ => Unit

def Disk.putVault (d : Disk) (name : String) (entry : Option (Entry Bytes)) : Disk :=
  Function.update d .vault
    { d .vault with entries := Function.update (d .vault).entries name entry }

def DiskCall.AnyEffect : (c : DiskCall) → Disk → c.Ans → Disk → Prop
  | .random, d, _, d' => d' = d
  | c, d, a, d' => c.Effect d a d'

def VaultOp.Exec : (op : VaultOp) → Disk → op.Ans → Disk → Prop
  | .saveLocked key snapshot => Prog.Runs DiskCall.AnyEffect (OnDisk.saveLocked key snapshot).run
  | .saveFreshLocked snapshot => Prog.Runs DiskCall.AnyEffect (OnDisk.saveFreshLocked snapshot).run
  | .delete key => Prog.Runs DiskCall.AnyEffect (OnDisk.delete key).run
  | .loadLocked key => Prog.Runs DiskCall.AnyEffect (OnDisk.loadLocked key).run
  | .others name entry => fun d _ d' => d' = d.putVault name entry

def VaultOp.Touches (key : String) : VaultOp → Prop
  | .saveLocked key' _ | .delete key' => key' = key
  | .others name _ => name = pathFor key
  | .saveFreshLocked _ | .loadLocked _ => False

abbrev VaultEvent : Type := (op : VaultOp) × op.Ans

def History : Disk → List VaultEvent → Disk → Prop
  | d, [], d' => d' = d
  | d, e :: es, d' => ∃ d₁, e.1.Exec d e.2 d₁ ∧ History d₁ es d'

def Saves (key : String) (snapshot : AuthSnapshot) (e : VaultEvent) : Prop :=
  e = ⟨.saveLocked key snapshot, .ok ()⟩ ∨ e = ⟨.saveFreshLocked snapshot, .ok key⟩

def vaultSemantics : Prog.Semantics DiskCall DiskCall.Ans Disk := ⟨fun _ _ => True, DiskCall.AnyEffect⟩

namespace OnDisk

variable {α : Type} {dir : Dir} {d d' : Disk} {key : String} {snapshot : AuthSnapshot}

omit [Externals] in
theorem makes_file (c : Call dir.Contents) : Prog.Makes (· ≠ .random) (file dir c) fun _ => True :=
  makes_orFail ⟨nofun, fun _ => trivial⟩

omit [Externals] in
theorem makes_rejectUnsafeFile (name : String) :
    Prog.Makes (· ≠ .random) (rejectUnsafeFile dir name) fun _ => True :=
  makes_bind (makes_file _) fun _ _ => makes_guard

omit [Externals] in
theorem makes_atomicWrite (path : String) (contents : dir.Contents) :
    Prog.Makes (· ≠ .random) (atomicWrite dir path contents) fun _ => True := by
  refine makes_bind (makes_file _) fun _ _ => ?_
  refine makes_bind (makes_rejectUnsafeFile path) fun _ _ => ?_
  refine makes_bind (makes_lift ⟨nofun, fun _ => trivial⟩)
    fun stamp _ => ?_
  have hfile : ∀ c : Call dir.Contents,
      Prog.Calls (· ≠ .random) (call (.file dir c)) fun _ => True :=
    fun _ => ⟨nofun, fun _ => trivial⟩
  exact makes_orFail (calls_subst hfile _)

theorem makes_saveLocked (key : String) (snapshot : AuthSnapshot) :
    Prog.Makes (· ≠ .random) (saveLocked key snapshot) fun _ => True := by
  refine makes_bind makes_guard fun _ _ => ?_
  refine makes_bind makes_guard fun _ _ => ?_
  refine makes_bind (makes_file _) fun _ _ => ?_
  exact makes_atomicWrite _ _

theorem makes_loadLocked (key : String) :
    Prog.Makes (· ≠ .random) (loadLocked key) fun _ => True := by
  refine makes_bind makes_guard fun _ _ => ?_
  refine makes_bind (makes_bind (makes_file _) fun _ _ =>
    makes_bind (makes_rejectUnsafeFile _) fun _ _ => makes_file _) fun _ _ => ?_
  refine makes_bind makes_guard fun _ _ => ?_
  refine makes_bind makes_guard fun _ _ => ?_
  refine makes_bind makes_guard fun _ _ => ?_
  exact makes_pure trivial

theorem anyEffect_ne_random (c : DiskCall) (d : Disk) (a : c.Ans) (d' : Disk) (hne : c ≠ .random)
    (h : c.AnyEffect d a d') : c.Effect d a d' := by
  cases c with
  | random => exact absurd rfl hne
  | lock | file | orphan | stamp => exact h

/-! ### What the operations do -/

omit [Externals] in
theorem vault_eq_some_iff {bytes : Bytes} : d.stores.store.vault key = some bytes ↔
      (d .vault).entries (pathFor key) = some (.file bytes) := by
  change ((d .vault).entries (pathFor key)).bind Entry.contents? = some bytes ↔ _
  rw [Option.bind_eq_some_iff]
  constructor
  · rintro ⟨entry, hentry, hcon⟩
    cases entry with
    | file contents =>
      cases hcon
      exact hentry
    | other => cases hcon
  · intro hentry
    exact ⟨_, hentry, rfl⟩

variable {c : Call dir.Contents}

theorem ends_file {Q : c.Val IoError → Disk → Prop}
    {E : DomainError → Disk → Prop} (hc : c.quiet = true) (hE : ∀ e, E (.io e) d)
    (hQ : ∀ x, c.Effect (d dir) (.ok x) (d dir) → Q x d) :
    (file dir c).run.Safe vaultSemantics (Prog.Ends Q E) d := by
  refine ⟨trivial, ?_⟩
  rintro a _ ⟨v, heffect, rfl⟩
  cases heffect.eq_of_quiet hc
  rw [Function.update_eq_self]
  cases a with
  | error e => exact hE e
  | ok x => exact hQ x heffect

theorem ends_rejectUnsafeFile {name : String} {E : DomainError → Disk → Prop}
    (hio : ∀ e, E (.io e) d) (hfor : (d dir).entries name = some .other → E .unsafePath d) :
    (rejectUnsafeFile dir name).run.Safe vaultSemantics
      (Prog.Ends (fun _ d' => d = d' ∧ (d dir).entries name ≠ some .other) E) d := by
  refine safe_ends_bind
    (Q := fun kind d' => d = d' ∧ kind = ((d dir).entries name).map Entry.kind)
    (ends_file rfl hio fun kind h => ⟨rfl, h.2 kind rfl⟩) ?_
  rintro kind _ ⟨rfl, rfl⟩
  have hkind : ((d dir).entries name).map Entry.kind = some .other ↔
      (d dir).entries name = some .other := by
    rcases (d dir).entries name with _ | _ | _ <;> simp [Entry.kind]
  refine safe_ends_check ?_ fun _ h => ⟨rfl, mt hkind.2 (require_eq_ok.1 h)⟩
  intro e he
  obtain ⟨hother, rfl⟩ := require_eq_error.1 he
  exact hfor (hkind.1 (not_not.1 hother))

theorem loadLocked_runs {a : Except DomainError AuthSnapshot}
    (h : Prog.Runs DiskCall.AnyEffect (loadLocked key).run d a d') :
    d' = d ∧ ∀ s, a = .ok s → d.stores.store.loadLocked key = .ok s := by
  refine Prog.Safe.of_runs (M := vaultSemantics)
    (Q := fun a d' => d' = d ∧ ∀ s, a = .ok s → d.stores.store.loadLocked key = .ok s)
    (Prog.Safe.of_calls (M := diskSemantics fun _ => True) ?_ (makes_loadLocked key)
      (fun _ _ _ _ => trivial) anyEffect_ne_random) h
  refine (safe_loadLocked (Q := fun s d' => d' = d ∧ d.stores.store.loadLocked key = .ok s)
    (E := fun d' => d' = d) trivial rfl fun s hs => ⟨rfl, hs⟩).mono ?_
  rintro (e | s) d' hd'
  · exact ⟨hd', nofun⟩
  · refine ⟨hd'.1, ?_⟩
    rintro _ ⟨⟩
    exact hd'.2

theorem ends_loadLocked (hkey : validateAccountId key = .ok ())
    (hfile : d.stores.store.vault key = some snapshot.bytes)
    (hcheck : checkRef key snapshot = .ok ()) : (loadLocked key).run.Safe vaultSemantics
      (Prog.Ends (fun s _ => s = snapshot) fun e _ => ∃ io, e = .io io) d := by
  rw [vault_eq_some_iff] at hfile
  refine safe_ends_bind (Q := fun _ d' => d = d') (safe_ends_ok hkey rfl) ?_
  rintro ⟨⟩ _ rfl
  refine safe_ends_bind (Q := fun contents d' => d = d' ∧ contents = some snapshot.bytes) ?_ ?_
  · refine safe_ends_bind
      (ends_file rfl (fun e => ⟨e, rfl⟩) fun _ _ => rfl) ?_
    rintro ⟨⟩ _ rfl
    refine safe_ends_bind
      (ends_rejectUnsafeFile (fun e => ⟨e, rfl⟩) fun hother => by rw [hother] at hfile; cases hfile) ?_
    rintro ⟨⟩ _ ⟨rfl, -⟩
    refine ends_file rfl (fun e => ⟨e, rfl⟩) ?_
    rintro (_ | contents) ⟨-, hnone, hsome⟩
    · rw [hnone rfl] at hfile
      cases hfile
    · rw [hsome contents rfl] at hfile
      cases hfile
      exact ⟨rfl, rfl⟩
  rintro _ _ ⟨rfl, rfl⟩
  refine safe_ends_bind (Q := fun bytes d' => d = d' ∧ bytes = snapshot.bytes)
    (safe_ends_ok rfl ⟨rfl, rfl⟩) ?_
  rintro _ _ ⟨rfl, rfl⟩
  refine safe_ends_bind (Q := fun s d' => d = d' ∧ s = snapshot)
    (safe_ends_ok (AuthSnapshot.fromBytes_bytes snapshot) ⟨rfl, rfl⟩) ?_
  rintro _ _ ⟨rfl, rfl⟩
  refine safe_ends_bind (Q := fun _ d' => d = d') (safe_ends_ok hcheck rfl) ?_
  rintro ⟨⟩ _ rfl
  exact rfl

theorem ends_saveLocked_of_not_bound (h : ¬ Bound key snapshot) :
    (saveLocked key snapshot).run.Safe vaultSemantics
      (Prog.Ends (fun _ _ => False) fun _ d' => d' = d) d := by
  refine safe_ends_bind (Q := fun _ d' => d = d' ∧ validateAccountId key = .ok ())
    (safe_ends_check (fun _ _ => rfl) fun _ hkey => ⟨rfl, hkey⟩) ?_
  rintro ⟨⟩ _ ⟨rfl, hkey⟩
  refine safe_ends_bind (Q := fun _ _ => False)
    (safe_ends_check (fun _ _ => rfl) fun _ hcheck => h ((checkRef_eq_ok_iff hkey).1 hcheck)) ?_
  rintro _ _ ⟨⟩

theorem ends_saveLocked_entry : (saveLocked key snapshot).run.Safe vaultSemantics
      (Prog.Ends (fun _ _ => (d .vault).entries (pathFor key) ≠ some .other) fun _ _ => True) d := by
  refine safe_ends_bind
    (safe_ends_check (fun _ _ => trivial) fun _ _ => rfl) ?_
  rintro ⟨⟩ _ rfl
  refine safe_ends_bind
    (safe_ends_check (fun _ _ => trivial) fun _ _ => rfl) ?_
  rintro ⟨⟩ _ rfl
  refine safe_ends_bind
    (ends_file rfl (fun _ => trivial) fun _ _ => rfl) ?_
  rintro ⟨⟩ _ rfl
  refine safe_ends_bind
    (ends_file rfl (fun _ => trivial) fun _ _ => rfl) ?_
  rintro ⟨⟩ _ rfl
  refine safe_ends_bind (ends_rejectUnsafeFile (fun _ => trivial) fun _ => trivial) ?_
  rintro ⟨⟩ _ ⟨rfl, hentry⟩
  refine safe_of_forall (fun _ _ => trivial) ?_
  rintro (e | ⟨⟩) _
  · exact trivial
  · exact hentry

def KeepsFiles (d d' : Disk) : Prop :=
  ∀ key bytes, d.stores.store.vault key = some bytes → d'.stores.store.vault key = some bytes

theorem vault_of_saved {s' : Stores} (h : d.stores.Saved key snapshot s') :
    s'.store.vault = Function.update d.stores.store.vault key (some snapshot.bytes) := by
  obtain ⟨store, hsave, rfl⟩ := h
  rw [(Store.saveLocked_eq_ok hsave).2.2]

theorem keepsFiles_of_saved (h : d.stores.Saved key snapshot d'.stores)
    (hfree : d.stores.store.vault key = none) : KeepsFiles d d' := by
  intro key' bytes hbytes
  rw [vault_of_saved h, Function.update_of_ne _ _ _, hbytes]
  rintro rfl
  rw [hfree] at hbytes
  cases hbytes

theorem ends_saveLocked : (saveLocked key snapshot).run.Safe vaultSemantics (Prog.Ends
        (fun _ d' => (d .vault).entries (pathFor key) ≠ some .other ∧
          d.stores.Saved key snapshot d'.stores)
        fun _ d' => d'.stores = d.stores ∨ d.stores.Saved key snapshot d'.stores) d := by
  have hdisk : (saveLocked key snapshot).run.Safe (diskSemantics fun _ => True) _ d :=
    safe_saveLocked trivial fun _ _ => trivial
  have hsave := hdisk.of_calls (N := vaultSemantics) (makes_saveLocked key snapshot)
    (fun _ _ _ _ => trivial) anyEffect_ne_random
  refine (ends_saveLocked_entry.and hsave).mono ?_
  rintro (e | ⟨⟩) d' ⟨hentry, hd'⟩
  · exact hd'
  · exact ⟨hentry, hd'⟩

theorem ends_saveFreshLocked : (saveFreshLocked snapshot).run.Safe vaultSemantics (Prog.Ends
        (fun key d' => (∃ id nonce, snapshot.embeddedAccountId = some id ∧ key = freshKey nonce id) ∧
          (d .vault).entries (pathFor key) = none ∧ d.stores.Saved key snapshot d'.stores)
        fun _ d' => KeepsFiles d d') d := by
  have hkeeps : KeepsFiles d d := fun _ _ h => h
  refine safe_ends_bind (Q := fun id d' => d = d' ∧ snapshot.embeddedAccountId = some id)
    (safe_ends_check (fun _ _ => hkeeps) fun _ h => ⟨rfl, okOr_eq_ok.1 h⟩) ?_
  rintro id _ ⟨rfl, hid⟩
  refine safe_ends_bind
    (safe_ends_liftProg ⟨trivial, fun _ _ h => h.symm⟩) ?_
  rintro nonce _ rfl
  refine safe_ends_bind
    (Q := fun there d' => d = d' ∧
      ∀ bytes, (d .vault).entries (pathFor (freshKey nonce id)) = some (.file bytes) → there = true)
    (ends_file rfl (fun _ => hkeeps) fun there h => ⟨rfl, (h.2 there rfl).2⟩) ?_
  rintro there _ ⟨rfl, hthere⟩
  refine safe_ends_bind (Q := fun _ d' => d = d' ∧ there = false)
    (safe_ends_check (fun _ _ => hkeeps) fun _ h => ⟨rfl, require_eq_ok.1 h⟩) ?_
  rintro ⟨⟩ _ ⟨rfl, rfl⟩
  -- no file stands under the key, so that what is saved there replaces none
  have hfree : d.stores.store.vault (freshKey nonce id) = none := by
    cases hvault : d.stores.store.vault (freshKey nonce id) with
    | none => rfl
    | some bytes => cases hthere bytes (vault_eq_some_iff.1 hvault)
  refine safe_ends_bind
    (Q := fun _ d' => (d .vault).entries (pathFor (freshKey nonce id)) ≠ some .other ∧
      d.stores.Saved (freshKey nonce id) snapshot d'.stores)
    (ends_saveLocked.mono ?_) ?_
  · rintro (e | ⟨⟩) d' h
    · rcases h with h | h
      · intro key' bytes hbytes
        rwa [h]
      · exact keepsFiles_of_saved h hfree
    · exact h
  rintro ⟨⟩ d' ⟨hentry, hsaved⟩
  refine safe_ends_bind
    (ends_file rfl (fun _ => keepsFiles_of_saved hsaved hfree) fun _ _ => rfl) ?_
  rintro ⟨⟩ _ rfl
  refine ⟨⟨id, nonce, hid, rfl⟩, ?_, hsaved⟩
  cases hget : (d .vault).entries (pathFor (freshKey nonce id)) with
  | none => rfl
  | some entry =>
    cases entry with
    | file bytes => cases hthere bytes hget
    | other => exact absurd hget hentry

def SameOff (key : String) (d d' : Disk) : Prop :=
  ∀ key', key' ≠ key → d'.stores.store.vault key' = d.stores.store.vault key'

theorem ends_delete : (delete key).run.Safe vaultSemantics
      (Prog.Ends (fun _ d' => SameOff key d d') fun _ d' => SameOff key d d') d := by
  have hsame : SameOff key d d := fun _ _ => rfl
  refine safe_ends_bind (Q := fun _ d' => d = d') ?_ ?_
  · refine safe_ends_bind
      (ends_file rfl (fun _ => hsame) fun _ _ => rfl) ?_
    rintro ⟨⟩ _ rfl
    refine ⟨trivial, ?_⟩
    rintro (e | ⟨⟩) _ rfl
    · exact hsame
    · rfl
  rintro ⟨⟩ _ rfl
  refine safe_ends_bind
    (safe_ends_check (fun _ _ => hsame) fun _ _ => rfl) ?_
  rintro ⟨⟩ _ rfl
  refine safe_ends_bind (ends_rejectUnsafeFile (fun _ => hsame) fun _ => hsame) ?_
  rintro ⟨⟩ _ ⟨rfl, -⟩
  refine ⟨trivial, ?_⟩
  rintro a _ ⟨v, heffect, rfl⟩
  have hother : SameOff key d (Function.update d .vault v) := by
    intro key' hne
    have hname : pathFor key' ≠ pathFor key := fun h => hne (pathFor_injective h)
    rcases heffect with ⟨rfl, -⟩ | rfl
    · rw [Function.update_eq_self]
    · simp [Disk.stores, Volume.drop, hname]
  cases a with
  | error e => exact hother
  | ok => exact hother

theorem runs_look {x : c.Val IoError} (h : c.Effect (d dir) (.ok x) (d dir)) :
    Prog.Runs DiskCall.AnyEffect (file dir c).run d (.ok x) d :=
  runs_orFail ⟨.ok x, _, ⟨_, h, (Function.update_eq_self dir d).symm⟩, rfl, rfl⟩

theorem runs_rejectUnsafeFile {name : String} (h : (d dir).entries name ≠ some .other) :
    Prog.Runs DiskCall.AnyEffect (rejectUnsafeFile dir name).run d (.ok ()) d := by
  refine runs_seq (runs_look ⟨rfl, fun _ hkind => (Except.ok.inj hkind).symm⟩) ?_
  refine runs_except_ok (require_eq_ok.2 ?_)
  intro hkind
  obtain ⟨entry, hentry, hother⟩ := Option.map_eq_some_iff.1 hkind
  cases entry with
  | file contents => cases hother
  | other => exact h hentry

theorem runs_subst_file (dir : Dir) (d : Disk)
    {p : Prog (Call dir.Contents) (Call.Ans IoError) α} {a : α} {v w : Volume dir.Contents} (h : Prog.Runs Call.Effect p v a w) :
    Prog.Runs DiskCall.AnyEffect (p.subst fun c => call (.file dir c)) (Function.update d dir v) a
      (Function.update d dir w) := by
  induction p generalizing v with
  | ret b =>
    obtain ⟨rfl, rfl⟩ := h
    exact ⟨rfl, rfl⟩
  | call c k ih =>
    obtain ⟨x, v', heffect, h⟩ := h
    refine ⟨x, Function.update d dir v', ⟨v', ?_, ?_⟩, ih x h⟩
    · rwa [Function.update_self]
    · rw [Function.update_idem]

theorem exists_saveLocked (stamp : ℕ × ℕ) (hkey : validateAccountId key = .ok ())
    (hbound : Bound key snapshot) (hentry : (d .vault).entries (pathFor key) ≠ some .other)
    (hfree : (d .vault).entries (temporary (pathFor key) stamp) = none) :
    ∃ d', Prog.Runs DiskCall.AnyEffect (saveLocked key snapshot).run d (.ok ()) d' := by
  have hcheck := (checkRef_eq_ok_iff hkey).2 hbound
  obtain ⟨w, hrep⟩ : ∃ w, Prog.Runs Call.Effect
      (replaceVia (temporary (pathFor key) stamp) (pathFor key) snapshot.bytes :
        FileM Bytes IoError Unit).run (d .vault) (.ok ()) w := ⟨_, runs_replaceVia hfree⟩
  have hdisk := runs_subst_file .vault d hrep
  rw [Function.update_eq_self] at hdisk
  refine ⟨Function.update d .vault w, runs_seq (runs_except_ok hkey) ?_⟩
  refine runs_seq (runs_except_ok hcheck) ?_
  refine runs_seq (a := ()) (runs_look rfl) ?_
  refine runs_seq (a := ()) (runs_look rfl) ?_
  refine runs_seq (runs_rejectUnsafeFile hentry) ?_
  exact runs_seq ⟨stamp, d, rfl, rfl, rfl⟩
    (runs_orFail hdisk)

theorem exists_loadLocked (hkey : validateAccountId key = .ok ()) (hbound : Bound key snapshot)
    (hfile : d.stores.store.vault key = some snapshot.bytes) :
    Prog.Runs DiskCall.AnyEffect (loadLocked key).run d (.ok snapshot) d := by
  have hcheck := (checkRef_eq_ok_iff hkey).2 hbound
  rw [vault_eq_some_iff] at hfile
  have hread : (Call.read (pathFor key)).Effect (d .vault)
      (.ok (some snapshot.bytes) : Except IoError (Option Bytes)) (d .vault) := by
    refine ⟨rfl, nofun, ?_⟩
    rintro _ ⟨⟩
    exact hfile
  refine runs_seq (runs_except_ok hkey) ?_
  refine runs_seq (a := some snapshot.bytes) (t := d) ?_ ?_
  · refine runs_seq (a := ()) (runs_look rfl) ?_
    refine runs_seq (runs_rejectUnsafeFile ?_) (runs_look hread)
    rw [hfile]
    nofun
  refine runs_seq (runs_except_ok rfl) ?_
  refine runs_seq (runs_except_ok (AuthSnapshot.fromBytes_bytes snapshot)) ?_
  exact runs_seq (runs_except_ok hcheck) ⟨rfl, rfl⟩

end OnDisk

variable {d d' d'' : Disk} {key : String} {snapshot : AuthSnapshot}

theorem VaultOp.Exec.keeps {op : VaultOp} {a : op.Ans} {bytes : Bytes} (h : op.Exec d a d')
    (htouc : ¬ op.Touches key) (hfile : d.stores.store.vault key = some bytes) :
    d'.stores.store.vault key = some bytes := by
  cases op with
  | saveLocked key' snapshot' =>
    have hne : key ≠ key' := fun heq => htouc heq.symm
    have hend := OnDisk.ends_saveLocked.of_runs h
    have hkept : d'.stores = d.stores ∨ d.stores.Saved key' snapshot' d'.stores := by
      cases a with
      | error e => exact hend
      | ok => exact .inr hend.2
    rcases hkept with heq | hsaved
    · rwa [heq]
    · rwa [OnDisk.vault_of_saved hsaved, Function.update_of_ne hne]
  | saveFreshLocked snapshot' =>
    have hend := OnDisk.ends_saveFreshLocked.of_runs h
    cases a with
    | error e => exact hend key bytes hfile
    | ok key' =>
      obtain ⟨-, hfree, hsaved⟩ := hend
      refine OnDisk.keepsFiles_of_saved hsaved ?_ key bytes hfile
      change ((d .vault).entries (pathFor key')).bind Entry.contents? = none
      rw [hfree]
      rfl
  | delete key' =>
    have hend : OnDisk.SameOff key' d d' := by
      have := OnDisk.ends_delete.of_runs h
      cases a <;> exact this
    rwa [hend key fun heq => htouc heq.symm]
  | loadLocked key' =>
    rwa [(OnDisk.loadLocked_runs h).1]
  | others name entry =>
    have hname : pathFor key ≠ name := fun heq => htouc heq.symm
    cases h
    rw [OnDisk.vault_eq_some_iff] at hfile ⊢
    simpa [Disk.putVault, hname] using hfile

theorem History.keeps {es : List VaultEvent} {bytes : Bytes} (h : History d es d')
    (htouc : ∀ e ∈ es, ¬ e.1.Touches key) (hfile : d.stores.store.vault key = some bytes) :
    d'.stores.store.vault key = some bytes := by
  induction es generalizing d with
  | nil =>
    cases h
    exact hfile
  | cons e es ih =>
    obtain ⟨d₁, hexec, hrest⟩ := h
    obtain ⟨hhead, htail⟩ := List.forall_mem_cons.1 htouc
    exact ih hrest htail (hexec.keeps hhead hfile)

theorem Saves.exec {e : VaultEvent} (hsaves : Saves key snapshot e) (h : e.1.Exec d e.2 d') :
    d.stores.Saved key snapshot d'.stores := by
  rcases hsaves with rfl | rfl
  · exact (OnDisk.ends_saveLocked.of_runs h).2
  · exact (OnDisk.ends_saveFreshLocked.of_runs h).2.2

/-- **The vault over a run.** What is loaded is bound to its key; what was saved is what every load
returns until the key is touched; a save of an unbound document changes nothing; and a fresh save
returns a generated key under which nothing stood. -/
theorem vault_bound (d : Disk) :
    (∀ key s d', (VaultOp.loadLocked key).Exec d (.ok s) d' → Bound key s) ∧
    (∀ key s e d₁ es d₂ a d₃, Saves key s e → e.1.Exec d e.2 d₁ → History d₁ es d₂ →
      (∀ e ∈ es, ¬ e.1.Touches key) → (VaultOp.loadLocked key).Exec d₂ a d₃ →
      a = .ok s ∨ ∃ io, a = .error (.io io)) ∧
    (∀ key s a d', ¬ Bound key s → (VaultOp.saveLocked key s).Exec d a d' →
      (∃ e, a = .error e) ∧ d' = d) ∧ (∀ s key d', (VaultOp.saveFreshLocked s).Exec d (.ok key) d' →
      (∃ digest, GeneratedForm key digest) ∧ (d .vault).entries (pathFor key) = none) := by
  refine ⟨?_, ?_, ?_, ?_⟩
  · intro key s d' h
    obtain ⟨hkey, -, hcheck⟩ := Store.loadLocked_eq_ok ((OnDisk.loadLocked_runs h).2 s rfl)
    exact (checkRef_eq_ok_iff hkey).1 hcheck
  · intro key s e d₁ es d₂ a d₃ hsaves hsave hrun htouc hload
    obtain ⟨store, hstore, hd₁⟩ := hsaves.exec hsave
    obtain ⟨hkey, hcheck, rfl⟩ := Store.saveLocked_eq_ok hstore
    have hfile : d₁.stores.store.vault key = some s.bytes := by
      rw [hd₁]
      exact Function.update_self ..
    have hend := (OnDisk.ends_loadLocked hkey (hrun.keeps htouc hfile) hcheck).of_runs hload
    cases a with
    | ok s' => exact .inl (congrArg Except.ok hend)
    | error e =>
      obtain ⟨io, rfl⟩ := hend
      exact .inr ⟨io, rfl⟩
  · intro key s a d' hbound h
    have hend := (OnDisk.ends_saveLocked_of_not_bound hbound).of_runs h
    cases a with
    | ok => exact hend.elim
    | error e => exact ⟨⟨e, rfl⟩, hend⟩
  · intro s key d' h
    obtain ⟨⟨id, nonce, -, rfl⟩, hfree, -⟩ := OnDisk.ends_saveFreshLocked.of_runs h
    exact ⟨⟨_, nonce, rfl⟩, hfree⟩

def Disk.empty : Disk := fun _ => ⟨fun _ => none, []⟩

omit [Externals] in
theorem vault_bound_sample :
    letI := Externals.sample
    ∃ (s : AuthSnapshot) (d₁ : Disk), s.embeddedAccountId = some "b" ∧
      (VaultOp.saveLocked "b" s).Exec .empty (.ok ()) d₁ ∧
      (VaultOp.loadLocked "b").Exec d₁ (.ok s) d₁ ∧ Bound "b" s := by
  let := Externals.sample
  let s : AuthSnapshot := ⟨some "b", asciiBytes "b", rfl⟩
  have hkey : validateAccountId "b" = .ok () := rfl
  have hbound : Bound "b" s := (checkRef_eq_ok_iff hkey).1 rfl
  obtain ⟨d₁, hsave⟩ := OnDisk.exists_saveLocked (d := .empty) (0, 0) hkey hbound nofun rfl
  have hfile : d₁.stores.store.vault "b" = some s.bytes := by
    rw [OnDisk.vault_of_saved (OnDisk.ends_saveLocked.of_runs hsave).2, Function.update_self]
  have hload := OnDisk.exists_loadLocked hkey hbound hfile
  exact ⟨s, d₁, rfl, hsave, hload, (vault_bound d₁).1 "b" s d₁ hload⟩

end CodexMarathon
