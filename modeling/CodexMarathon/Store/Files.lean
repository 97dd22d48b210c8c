/-
**The stores as files.**

The registry is the file `accounts.json` of the state directory, the document under a key of the
vault the file `<key>.json` of the vault directory.  Each operation takes effect as a whole or not
at all, except for the collection, which takes orphans away one by one.
-/

import CodexMarathon.Lib.Files
import CodexMarathon.Service.World

namespace CodexMarathon

open Auth Files Result Prog

variable {key name : String}

/-! ### Names -/

def pathFor (key : String) : String := key ++ ".json"

def stripSuffix (suffix text : List Char) : Option (List Char) :=
  if suffix <:+ text then some (text.take (text.length - suffix.length)) else none

/-- `str::split_once`: what stands before and after the first occurrence of a pattern. -/
def splitOnce (pattern : List Char) : List Char → Option (List Char × List Char)
  | [] => if pattern = [] then some ([], []) else none
  | c :: text =>
    if pattern <+: c :: text then some ([], (c :: text).drop pattern.length)
    else (splitOnce pattern text).map fun parts => (c :: parts.1, parts.2)

/-- `Path::file_stem`: the name up to its last dot, unless nothing stands before that. -/
def fileStem (name : String) : String :=
  match (name.toList.reverse.dropWhile (· ≠ '.')).drop 1 with
  | [] => name
  | stem => String.ofList stem.reverse

/-- The temporary name of `atomic_write`, for a process and a time. -/
def temporary (path : String) (stamp : ℕ × ℕ) : String :=
  fileStem path ++ "." ++ "tmp-" ++ toString stamp.1 ++ "-" ++ toString stamp.2

def isStamp (suffix : List Char) : Bool :=
  !suffix.isEmpty && suffix.all fun c => c.isDigit || c = '-'

def temporaryKey (name : String) : Option String :=
  ((splitOnce ".tmp-".toList name.toList).filter fun parts => isStamp parts.2).map fun parts =>
    String.ofList parts.1

def entryKey (name : String) : Option String :=
  ((stripSuffix ".json".toList name.toList).map String.ofList).or (temporaryKey name)

/-- The document of a generated key that the registry does not refer to, or a temporary of any
generated key. -/
def orphaned (state : RegistryState) (name : String) : Bool :=
  match entryKey name with
  | none => false
  | some key => generatedRef key && ((temporaryKey name).isSome || !referenced state key)

theorem pathFor_injective {key' : String} (h : pathFor key = pathFor key') : key = key' :=
  (String.append_left_inj ".json").1 h

theorem getLast?_pathFor (key : String) : (pathFor key).toList.getLast? = some 'n' := by
  rw [pathFor, String.toList_append, List.getLast?_append]
  rfl

theorem stripSuffix_eq_some {suffix text rest : List Char} (h : stripSuffix suffix text = some rest) :
    text = rest ++ suffix := by
  unfold stripSuffix at h
  split at h
  · rename_i hsuffix
    obtain ⟨head, rfl⟩ := hsuffix
    cases h
    simp
  · cases h

theorem eq_pathFor_of_stripSuffix {rest : List Char}
    (h : stripSuffix ".json".toList name.toList = some rest) :
    name = pathFor (String.ofList rest) := by
  have hname := stripSuffix_eq_some h
  rw [← String.toList_inj, hname, pathFor, String.toList_append]
  simp

theorem splitOnce_eq_some {pattern text head tail : List Char}
    (h : splitOnce pattern text = some (head, tail)) : text = head ++ pattern ++ tail := by
  induction text generalizing head with
  | nil =>
    unfold splitOnce at h
    split at h
    · cases h
      simp [*]
    · cases h
  | cons c text ih =>
    unfold splitOnce at h
    split at h
    · rename_i hprefix
      obtain ⟨rest, hrest⟩ := hprefix
      cases h
      simp [← hrest]
    · obtain ⟨⟨head', tail'⟩, hparts, h⟩ := Option.map_eq_some_iff.1 h
      cases h
      simp [ih hparts]

theorem getLast?_of_isStamp (head : List Char) {suffix : List Char} (h : isStamp suffix = true) :
    ∃ c, (head ++ suffix).getLast? = some c ∧ c ≠ 'n' := by
  obtain ⟨hne, hall⟩ := Bool.and_eq_true_iff.1 h
  have hne : suffix ≠ [] := by simpa using hne
  refine ⟨suffix.getLast hne, ?_, ?_⟩
  · rw [List.getLast?_append_of_ne_nil _ hne, List.getLast?_eq_some_getLast hne]
  · intro hn
    have := List.all_eq_true.1 hall _ (List.getLast_mem hne)
    rw [hn] at this
    revert this
    decide

theorem isStamp_temporary (stamp : ℕ × ℕ) :
    isStamp (toString stamp.1 ++ "-" ++ toString stamp.2).toList = true := by
  have hdigits : ∀ n : ℕ, (toString n).toList.all (fun c => c.isDigit || c = '-') = true := by
    intro n
    rw [List.all_eq_true]
    intro c hc
    have : c ∈ Nat.toDigits 10 n := by simpa using hc
    simp [Nat.isDigit_of_mem_toDigits (by decide) (by decide) this]
  unfold isStamp
  rw [String.toList_append, String.toList_append, List.all_append, List.all_append, hdigits, hdigits]
  simp

theorem temporary_ne_pathFor (path : String) (stamp : ℕ × ℕ) (key : String) :
    temporary path stamp ≠ pathFor key := by
  intro h
  have hlast := getLast?_pathFor key
  obtain ⟨c, hc, hne⟩ := getLast?_of_isStamp (fileStem path ++ "." ++ "tmp-").toList
    (isStamp_temporary stamp)
  rw [← String.toList_append, ← String.append_assoc, ← String.append_assoc] at hc
  rw [← h, temporary, hc] at hlast
  exact hne (Option.some_inj.1 hlast)

def Disposable (name : String) : Prop :=
  ∃ key, generatedRef key = true ∧
    (name = pathFor key ∨
      ∃ suffix, isStamp suffix = true ∧ name.toList = key.toList ++ ".tmp-".toList ++ suffix)

/-- **What the collection removes** belongs to a generated key, to which the registry does not
refer. -/
theorem orphaned_cases {state : RegistryState} (h : orphaned state name = true) :
    Disposable name ∧ ∀ key, name = pathFor key →
      generatedRef key = true ∧ referenced state key = false := by
  unfold orphaned at h
  split at h
  · cases h
  rename_i key hkey
  obtain ⟨hgen, h⟩ := Bool.and_eq_true_iff.1 h
  cases htem : temporaryKey name with
  | none =>
    rw [htem, Option.isSome_none, Bool.false_or, Bool.not_eq_true'] at h
    unfold entryKey at hkey
    rw [htem, Option.or_none, Option.map_eq_some_iff] at hkey
    obtain ⟨rest, hrest, rfl⟩ := hkey
    have hname := eq_pathFor_of_stripSuffix hrest
    refine ⟨⟨_, hgen, .inl hname⟩, ?_⟩
    intro key hkey
    rw [pathFor_injective (hkey.symm.trans hname)]
    exact ⟨hgen, h⟩
  | some key' =>
    unfold temporaryKey at htem
    obtain ⟨⟨head, suffix⟩, hparts, rfl⟩ := Option.map_eq_some_iff.1 htem
    obtain ⟨hsplit, hstamp⟩ := Option.filter_eq_some_iff.1 hparts
    have hname := splitOnce_eq_some hsplit
    obtain ⟨c, hc, hne⟩ := getLast?_of_isStamp (head ++ ".tmp-".toList) hstamp
    have hpath : ∀ key, name ≠ pathFor key := by
      rintro key rfl
      rw [← hname, getLast?_pathFor] at hc
      exact hne (Option.some_inj.1 hc).symm
    refine ⟨⟨key, hgen, .inr ⟨suffix, hstamp, ?_⟩⟩, fun key h => absurd h (hpath key)⟩
    -- the name does not end in `.json`, so its key is that of the temporary
    have hstrip : stripSuffix ".json".toList name.toList = none := by
      cases hrest : stripSuffix ".json".toList name.toList with
      | none => rfl
      | some rest => exact absurd (eq_pathFor_of_stripSuffix hrest) (hpath (String.ofList rest))
    unfold entryKey at hkey
    rw [hstrip, Option.map_none, Option.none_or, temporaryKey, hparts] at hkey
    cases hkey
    rw [String.toList_ofList]
    exact hname

/-! ### The disk -/

inductive Dir
  | state
  | vault
deriving DecidableEq, Repr

abbrev Dir.Contents : Dir → Type
  | .state => RegistryFile
  | .vault => Bytes

abbrev Disk : Type := (dir : Dir) → Volume dir.Contents

def registryName : String := pathFor "accounts"

inductive DiskCall
  | lock
  | file (dir : Dir) (c : Call dir.Contents)
  | orphan (name : String)
  | random
  | stamp

abbrev DiskCall.Ans : DiskCall → Type
  | .lock | .orphan _ => Except IoError Unit
  | .file _ c => c.Ans IoError
  | .random => Nonce
  | .stamp => ℕ × ℕ

abbrev DiskM (α : Type) : Type := ExceptT DomainError (Prog DiskCall DiskCall.Ans) α

namespace OnDisk

variable {α : Type}

def call (c : DiskCall) : Prog DiskCall DiskCall.Ans c.Ans := Prog.perform c

def file (dir : Dir) (c : Call dir.Contents) : DiskM (c.Val IoError) :=
  Prog.orFail (call (.file dir c)) .io

def inDir (dir : Dir) (p : FileM dir.Contents IoError α) : DiskM α :=
  Prog.orFail (p.run.subst fun c => call (.file dir c)) .io

def rejectUnsafeFile (dir : Dir) (name : String) : DiskM Unit := do
  let kind ← file dir (.inspect name)
  (Result.require (kind ≠ some .other) .unsafePath : Except DomainError Unit)

def openRegular (dir : Dir) (name : String) : DiskM (Option dir.Contents) := do
  file dir .components
  rejectUnsafeFile dir name
  file dir (.read name)

def atomicWrite (dir : Dir) (path : String) (contents : dir.Contents) : DiskM Unit := do
  file dir .prepare
  rejectUnsafeFile dir path
  let stamp ← call .stamp
  inDir dir (replaceVia (temporary path stamp) path contents)

def lockExclusive : DiskM Unit := do
  file .state .prepare
  Prog.orFail (call .lock) .io

def loadUnlocked : DiskM RegistryState := do
  let contents ← openRegular .state registryName
  CodexMarathon.loadUnlocked contents

variable [Externals]

def saveUnlocked (state : RegistryState) : DiskM Unit := do
  let contents ← (CodexMarathon.saveUnlocked Externals.registryJsonLength state :
    Except DomainError RegistryFile)
  file .state .prepare
  atomicWrite .state registryName contents

def setActiveLocked (id : String) : DiskM Unit := do
  let state ← loadUnlocked
  (Result.require (state.get? id).isSome .accountNotFound : Except DomainError Unit)
  saveUnlocked { state with activeAccountId := id }

def setEnabled (enabled : Bool) : DiskM Unit := do
  lockExclusive
  let state ← loadUnlocked
  saveUnlocked { state with enabled }

/-! ### The vault -/

def loadLocked (key : String) : DiskM AuthSnapshot := do
  validateAccountId key
  let contents ← openRegular .vault (pathFor key)
  let bytes ← (Result.okOr contents .snapshotNotFound : Except DomainError Bytes)
  let snapshot ← AuthSnapshot.fromBytes none bytes
  checkRef key snapshot
  pure snapshot

def saveLocked (key : String) (snapshot : AuthSnapshot) : DiskM Unit := do
  validateAccountId key
  checkRef key snapshot
  file .vault .prepare
  atomicWrite .vault (pathFor key) snapshot.bytes

def saveFreshLocked (snapshot : AuthSnapshot) : DiskM String := do
  let id ← (Result.okOr snapshot.embeddedAccountId .snapshotAccountMismatch :
    Except DomainError String)
  let nonce ← call .random
  let there ← file .vault (.tryExists (pathFor (freshKey nonce id)))
  (Result.require (there = false) .unsafePath : Except DomainError Unit)
  saveLocked (freshKey nonce id) snapshot
  file .state .sync
  pure (freshKey nonce id)

def removeOrphan (name : String) : DiskM Unit := do
  let kind ← file .vault (.inspect name)
  (Result.require (kind = some .file) .unsafePath : Except DomainError Unit)
  Prog.orFail (call (.orphan name)) .io

def collectEntry (state : RegistryState) (entry : Except IoError (Option String)) : DiskM Unit := do
  let name ← (entry.mapError .io : Except DomainError (Option String))
  match name with
  | none => pure ()
  | some name => if orphaned state name then removeOrphan name else pure ()

def collectEntries (state : RegistryState) : List (Except IoError (Option String)) → DiskM Unit
  | [] => file .vault .sync
  | entry :: entries => do
      collectEntry state entry
      collectEntries state entries

def collectOrphansLocked (state : RegistryState) : DiskM Unit := do
  file .vault .components
  let listing ← file .vault .list
  match listing with
  | none => pure ()
  | some entries => collectEntries state entries

end OnDisk

variable [Externals]

/-- **The operations of the stores, as programs on the disk.** -/
def StoreCall.onDisk : (c : StoreCall) → Prog DiskCall DiskCall.Ans c.Ans
  | .lockExclusive => OnDisk.lockExclusive.run
  | .stateLocked => OnDisk.loadUnlocked.run
  | .replaceLocked state => (OnDisk.saveUnlocked state).run
  | .setActiveLocked id => (OnDisk.setActiveLocked id).run
  | .setEnabled enabled => (OnDisk.setEnabled enabled).run
  | .loadLocked key => (OnDisk.loadLocked key).run
  | .saveLocked key snapshot => (OnDisk.saveLocked key snapshot).run
  | .saveFreshLocked snapshot => (OnDisk.saveFreshLocked snapshot).run
  | .collectOrphansLocked state => (OnDisk.collectOrphansLocked state).run

/-- The stores, and every document that was put in place, with its name. -/
structure Stores where
  store : Store
  published : List (String × Bytes)

/-- An entry that is no file reads as one that cannot be parsed. -/
def registryEntry : Option (Entry RegistryFile) → Option RegistryFile
  | none => none
  | some (.file contents) => some contents
  | some .other => some { size := 1, document := none }

def Disk.stores (d : Disk) : Stores where
  store :=
    { registry := registryEntry ((d .state).entries registryName)
      vault := fun key => ((d .vault).entries (pathFor key)).bind Entry.contents? }
  published := (d .vault).placed

def StoreCall.publishes : (c : StoreCall) → c.Val → List (String × Bytes)
  | .saveLocked key snapshot, _ => [(pathFor key, snapshot.bytes)]
  | .saveFreshLocked snapshot, key => [(pathFor key, snapshot.bytes)]
  | _, _ => []

namespace Stores

variable (s : Stores)

def Unused (nonce : Nonce) : Prop :=
  ∀ state, s.store.stateLocked = .ok state → ∀ id, referenced state (freshKey nonce id) = false

def Done (c : StoreCall) (v : c.Val) (s' : Stores) : Prop :=
  ∃ nonce, (c.draws ≠ 0 → s.Unused nonce) ∧ s.store.exec nonce c = .ok (v, s'.store) ∧
    s'.published = s.published ++ c.publishes v

def Left (c : StoreCall) (s' : Stores) : Prop := s' = s ∨ ∃ v, s.Done c v s'

def Replaced (state : RegistryState) (s' : Stores) : Prop :=
  ∃ store, s.store.replaceLocked state = .ok store ∧ s' = { s with store }

def Saved (key : String) (snapshot : AuthSnapshot) (s' : Stores) : Prop :=
  ∃ store, s.store.saveLocked key snapshot = .ok store ∧
    s' = { store, published := s.published ++ [(pathFor key, snapshot.bytes)] }

structure Collected (state : RegistryState) (s' : Stores) : Prop where
  registry : s'.store.registry = s.store.registry
  published : s'.published = s.published
  vault : ∀ key, s'.store.vault key = s.store.vault key ∨
    generatedRef key = true ∧ referenced state key = false ∧ s'.store.vault key = none

/-- What an operation may leave if it is interrupted is what it may leave if it fails. -/
def Crash : (c : StoreCall) → c.Ans → Stores → Prop
  | .collectOrphansLocked state, _, s' => s.Collected state s'
  | c, a, s' => Prog.Outcome (s.Done c) (s.Left c) a s'

end Stores

def DiskCall.Effect : (c : DiskCall) → Disk → c.Ans → Disk → Prop
  | .lock, d, _, d' => d' = d
  | .file dir c, d, a, d' => ∃ v, c.Effect (d dir) a v ∧ d' = Function.update d dir v
  | .orphan name, d, a, d' =>
    ∃ v, (Call.remove name).Effect (d .vault) a v ∧ d' = Function.update d .vault v
  | .random, d, nonce, d' => d' = d ∧ d.stores.Unused nonce
  | .stamp, d, _, d' => d' = d

/-- A name that belongs to a generated key, but not the document of a key that the registry refers
to. -/
def DiskCall.Allowed (s : Stores) : DiskCall → Prop
  | .orphan name =>
    Disposable name ∧ ∀ state, s.store.stateLocked = .ok state →
      ∀ key, referenced state key = true → name ≠ pathFor key
  | _ => True

def diskSemantics (I : Stores → Prop) : Prog.Semantics DiskCall DiskCall.Ans Disk :=
  ⟨fun c d => I d.stores ∧ c.Allowed d.stores, DiskCall.Effect⟩

namespace OnDisk

variable {I : Stores → Prop} {α : Type} {dir : Dir} {d : Disk} {E : Disk → Prop}

theorem safe_file {c : Call dir.Contents} {Q : c.Val IoError → Disk → Prop} (hc : c.quiet = true)
    (hI : I d.stores) (hE : E d) (hQ : ∀ x, c.Effect (d dir) (.ok x) (d dir) → Q x d) :
    (file dir c).run.Safe (diskSemantics I) (Prog.Outcome Q E) d := by
  refine safe_orFail ⟨⟨hI, trivial⟩, ?_⟩
  rintro a _ ⟨v, heffect, rfl⟩
  cases heffect.eq_of_quiet hc
  rw [Function.update_eq_self]
  cases a with
  | error e => exact hE
  | ok x => exact hQ x heffect

theorem safe_subst_file {p : Prog (Call dir.Contents) (Call.Ans IoError) α}
    {Q : α → Disk → Prop} {v : Volume dir.Contents}
    (h : p.Safe (Files.semantics fun v => I (Disk.stores (Function.update d dir v)))
      (fun a v => Q a (Function.update d dir v)) v) :
    (p.subst fun c => call (.file dir c)).Safe (diskSemantics I) Q (Function.update d dir v) := by
  induction p generalizing v with
  | ret a => exact h
  | call c k ih =>
    refine ⟨⟨h.1, trivial⟩, ?_⟩
    rintro a _ ⟨v', heffect, rfl⟩
    rw [Function.update_self] at heffect
    rw [Function.update_idem]
    exact ih a (h.2 a v' heffect)

theorem safe_inDir {p : FileM dir.Contents IoError α} {Q : α → Disk → Prop}
    (h : p.run.Safe (Files.semantics fun v => I (Disk.stores (Function.update d dir v)))
      (Prog.Outcome (fun a v => Q a (Function.update d dir v))
        (fun v => E (Function.update d dir v))) (d dir)) :
    (inDir dir p).run.Safe (diskSemantics I) (Prog.Outcome Q E) d := by
  refine safe_orFail ?_
  have hd : Function.update d dir (d dir) = d := Function.update_eq_self dir d
  rw [← hd]
  refine safe_subst_file (h.mono ?_)
  rintro (e | a) v hv
  · exact hv
  · exact hv

theorem safe_rejectUnsafeFile {Q : Unit → Disk → Prop} (hI : I d.stores) (hE : E d) (hQ : Q () d) :
    (rejectUnsafeFile dir name).run.Safe (diskSemantics I) (Prog.Outcome Q E) d := by
  refine safe_then (safe_file rfl hI hE fun kind _ => ?_)
  exact safe_lift hE fun _ _ => hQ

theorem safe_openRegular {Q : Option dir.Contents → Disk → Prop} (hI : I d.stores) (hE : E d)
    (hQ : ∀ contents, (d dir).entries name = contents.map Entry.file → Q contents d) :
    (openRegular dir name).run.Safe (diskSemantics I) (Prog.Outcome Q E) d := by
  refine safe_then (safe_file rfl hI hE fun _ _ => ?_)
  refine safe_seq (Q := fun _ d' => d = d') (safe_rejectUnsafeFile hI hE rfl) ?_
  rintro ⟨⟩ _ rfl
  refine safe_file rfl hI hE ?_
  rintro (_ | contents) ⟨-, hnone, hsome⟩
  · exact hQ none (hnone rfl)
  · exact hQ (some contents) (hsome contents rfl)

def write (d : Disk) (dir : Dir) (path : String) (contents : dir.Contents) : Disk :=
  Function.update d dir ((d dir).place path contents)

omit [Externals] in
theorem stores_eq_of_agreeOff {v w : Volume dir.Contents} {path : String} {stamp : ℕ × ℕ}
    (h : v.AgreeOff (temporary path stamp) w) :
    Disk.stores (Function.update d dir w) = Disk.stores (Function.update d dir v) := by
  have hname : ∀ key, w.entries (pathFor key) = v.entries (pathFor key) := fun key =>
    h.entries _ (temporary_ne_pathFor path stamp key).symm
  cases dir with
  | state => simp [Disk.stores, registryName, hname]
  | vault => simp [Disk.stores, hname, h.placed]

theorem safe_atomicWrite {path : String} {contents : dir.Contents} {P : Stores → Prop}
    (hbefore : I d.stores) (hafter : I (write d dir path contents).stores)
    (hP : P (write d dir path contents).stores) :
    (atomicWrite dir path contents).run.Safe (diskSemantics I)
      (Prog.Outcome (fun _ d' => P d'.stores) (fun d' => d'.stores = d.stores ∨ P d'.stores)) d := by
  refine safe_then (safe_file rfl hbefore (.inl rfl) fun _ _ => ?_)
  refine safe_seq (Q := fun _ d' => d = d')
    (safe_rejectUnsafeFile hbefore (.inl rfl) rfl) ?_
  rintro ⟨⟩ _ rfl
  refine safe_seq
    (safe_liftProg ⟨⟨hbefore, trivial⟩, fun _ _ h => h.symm⟩) ?_
  rintro stamp _ rfl
  have hold : ∀ {w : Volume dir.Contents}, (d dir).AgreeOff (temporary path stamp) w →
      Disk.stores (Function.update d dir w) = d.stores := by
    intro w hw
    rw [stores_eq_of_agreeOff hw, Function.update_eq_self]
  have hnew : ∀ {w : Volume dir.Contents}, ((d dir).place path contents).AgreeOff
      (temporary path stamp) w → P (Disk.stores (Function.update d dir w)) := by
    intro w hw
    rw [stores_eq_of_agreeOff hw]
    exact hP
  refine safe_inDir ((safe_replaceVia ?_).mono ?_)
  · rintro w (hw | hw)
    · rw [hold hw]
      exact hbefore
    · rw [stores_eq_of_agreeOff hw]
      exact hafter
  · rintro (e | ⟨⟩) w hw
    · exact hw.imp hold hnew
    · exact hnew hw

omit [Externals] in
theorem stores_write_vault (d : Disk) (key : String) (bytes : Bytes) :
    (write d .vault (pathFor key) bytes).stores =
      { store :=
          { d.stores.store with vault := Function.update d.stores.store.vault key (some bytes) }
        published := d.stores.published ++ [(pathFor key, bytes)] } := by
  have hvault : ∀ key', ((((d .vault).place (pathFor key) bytes).entries (pathFor key')).bind
      Entry.contents?) = Function.update d.stores.store.vault key (some bytes) key' := by
    intro key'
    rcases eq_or_ne key' key with rfl | hne
    · simp [Volume.place, Volume.put, Entry.contents?]
    · have hname : pathFor key' ≠ pathFor key := fun h => hne (pathFor_injective h)
      simp [Volume.place, Volume.put, hname, hne, Disk.stores]
  simp [write, Disk.stores] at hvault ⊢
  exact ⟨funext hvault, rfl⟩

theorem safe_lockExclusive {Q : Unit → Disk → Prop} (hI : I d.stores) (hE : E d) (hQ : Q () d) :
    lockExclusive.run.Safe (diskSemantics I) (Prog.Outcome Q E) d := by
  refine safe_then (safe_file rfl hI hE fun _ _ => ?_)
  refine safe_orFail ⟨⟨hI, trivial⟩, ?_⟩
  rintro (e | ⟨⟩) _ rfl
  · exact hE
  · exact hQ

theorem safe_loadUnlocked {Q : RegistryState → Disk → Prop} (hI : I d.stores) (hE : E d)
    (hQ : ∀ state, d.stores.store.stateLocked = .ok state → Q state d) :
    loadUnlocked.run.Safe (diskSemantics I) (Prog.Outcome Q E) d := by
  refine safe_then (safe_openRegular hI hE fun contents hcon => ?_)
  refine safe_lift hE ?_
  intro state hstate
  refine hQ state ?_
  change CodexMarathon.loadUnlocked (registryEntry ((d .state).entries registryName)) = _
  rw [hcon]
  cases contents <;> exact hstate

theorem safe_saveUnlocked {state : RegistryState} (hbefore : I d.stores)
    (hafter : ∀ s', d.stores.Replaced state s' → I s') :
    (saveUnlocked state).run.Safe (diskSemantics I)
      (Prog.Outcome (fun _ d' => d.stores.Replaced state d'.stores)
        (fun d' => d'.stores = d.stores ∨ d.stores.Replaced state d'.stores)) d := by
  refine safe_seq
    (Q := fun contents d' => d = d' ∧ d.stores.Replaced state
      (write d .state registryName contents).stores)
    (safe_lift (.inl rfl) ?_) ?_
  · intro contents hcon
    exact ⟨rfl, _, bind_eq_ok.2 ⟨contents, hcon, rfl⟩,
      by simp [write, Disk.stores, Volume.place, Volume.put, registryEntry]⟩
  rintro contents _ ⟨rfl, hcon⟩
  refine safe_then (safe_file rfl hbefore (.inl rfl) fun _ _ => ?_)
  exact safe_atomicWrite hbefore (hafter _ hcon) hcon

theorem safe_loadLocked {Q : AuthSnapshot → Disk → Prop} (hI : I d.stores) (hE : E d)
    (hQ : ∀ snapshot, d.stores.store.loadLocked key = .ok snapshot → Q snapshot d) :
    (loadLocked key).run.Safe (diskSemantics I) (Prog.Outcome Q E) d := by
  refine safe_then (safe_lift hE fun _ hkey => ?_)
  refine safe_then (safe_openRegular hI hE fun contents hcon => ?_)
  refine safe_then (safe_lift hE fun bytes h => ?_)
  obtain rfl := okOr_eq_ok.1 h
  refine safe_then (safe_lift hE fun snapshot hsnap => ?_)
  refine safe_then (safe_lift hE fun _ hcheck => ?_)
  refine hQ snapshot (Store.loadLocked_of_checkRef hkey ?_ hcheck)
  change ((d .vault).entries (pathFor key)).bind Entry.contents? = _
  rw [hcon, (AuthSnapshot.fromBytes_eq_ok hsnap).1]
  rfl

theorem safe_saveLocked {snapshot : AuthSnapshot} (hbefore : I d.stores)
    (hafter : ∀ s', d.stores.Saved key snapshot s' → I s') :
    (saveLocked key snapshot).run.Safe (diskSemantics I)
      (Prog.Outcome (fun _ d' => d.stores.Saved key snapshot d'.stores)
        (fun d' => d'.stores = d.stores ∨ d.stores.Saved key snapshot d'.stores)) d := by
  refine safe_then (safe_lift (.inl rfl) fun _ hkey => ?_)
  refine safe_then (safe_lift (.inl rfl) fun _ hcheck => ?_)
  have hsaved : d.stores.Saved key snapshot (write d .vault (pathFor key) snapshot.bytes).stores :=
    ⟨_, bind_eq_ok.2 ⟨(), hkey, bind_eq_ok.2 ⟨(), hcheck, rfl⟩⟩,
      stores_write_vault d key snapshot.bytes⟩
  refine safe_then (safe_file rfl hbefore (.inl rfl) fun _ _ => ?_)
  exact safe_atomicWrite hbefore (hafter _ hsaved) hsaved

theorem safe_saveFreshLocked {snapshot : AuthSnapshot}
    (hI : ∀ s', d.stores.Left (.saveFreshLocked snapshot) s' → I s') :
    (saveFreshLocked snapshot).run.Safe (diskSemantics I)
      (Prog.Outcome (fun key d' => d.stores.Done (.saveFreshLocked snapshot) key d'.stores)
        (fun d' => d.stores.Left (.saveFreshLocked snapshot) d'.stores)) d := by
  have hbefore : I d.stores := hI _ (.inl rfl)
  refine safe_then (safe_lift (.inl rfl) fun id h => ?_)
  have hid := okOr_eq_ok.1 h
  refine safe_seq (Q := fun nonce d' => d = d' ∧ d.stores.Unused nonce)
    (safe_liftProg ⟨⟨hbefore, trivial⟩, fun _ _ h => ⟨h.1.symm, h.2⟩⟩) ?_
  rintro nonce _ ⟨rfl, hnonce⟩
  refine safe_seq
    (Q := fun there d' => d = d' ∧
      (there = false → d.stores.store.vault (freshKey nonce id) = none))
    (safe_file rfl hbefore (.inl rfl) ?_) ?_
  · rintro there ⟨-, hthere⟩
    refine ⟨rfl, fun hfalse => ?_⟩
    -- no file stands there, whatever else does
    change ((d .vault).entries (pathFor (freshKey nonce id))).bind Entry.contents? = none
    rcases hentry : (d .vault).entries (pathFor (freshKey nonce id)) with _ | (x | _)
    · rfl
    · have := (hthere there rfl).2 x hentry
      rw [hfalse] at this
      cases this
    · rfl
  rintro there _ ⟨rfl, hthere⟩
  refine safe_then (safe_lift (.inl rfl) fun _ h => ?_)
  have hfree := hthere (require_eq_ok.1 h)
  have hdone : ∀ {s'}, d.stores.Saved (freshKey nonce id) snapshot s' →
      d.stores.Done (.saveFreshLocked snapshot) (freshKey nonce id) s' := by
    rintro _ ⟨store, hstore, rfl⟩
    refine ⟨nonce, fun _ => hnonce, ?_, rfl⟩
    refine bind_eq_ok.2 ⟨id, okOr_eq_ok.2 hid, ?_⟩
    refine bind_eq_ok.2 ⟨(), require_eq_ok.2 hfree, ?_⟩
    exact bind_eq_ok.2 ⟨store, hstore, rfl⟩
  refine safe_seq
    (Q := fun _ d' => d.stores.Done (.saveFreshLocked snapshot) (freshKey nonce id) d'.stores)
    ((safe_saveLocked hbefore fun s' h => hI s' (.inr ⟨_, hdone h⟩)).mono ?_) ?_
  · intro r d' h
    exact h.mono (fun _ h => hdone h) (Or.imp_right fun h => ⟨_, hdone h⟩)
  rintro ⟨⟩ d' h
  have hleft : d.stores.Left (.saveFreshLocked snapshot) d'.stores := .inr ⟨_, h⟩
  refine safe_then (safe_file rfl (hI _ hleft) hleft fun _ _ => ?_)
  exact h

variable {s : Stores} {state : RegistryState}

omit [Externals] in
theorem collected_drop (h : s.Collected state d.stores) (hname : orphaned state name = true) :
    s.Collected state (Disk.stores (Function.update d .vault ((d .vault).drop name))) where
  registry := by
    rw [← h.registry]
    simp [Disk.stores]
  published := by
    rw [← h.published]
    simp [Disk.stores, Volume.drop]
  vault key := by
    rcases eq_or_ne (pathFor key) name with hkey | hkey
    · obtain ⟨hgen, href⟩ := (orphaned_cases hname).2 key hkey.symm
      exact .inr ⟨hgen, href, by simp [Disk.stores, Volume.drop, hkey]⟩
    · refine (h.vault key).imp ?_ ?_
      all_goals simp [Disk.stores, Volume.drop, hkey]

theorem safe_collectEntry {entry : Except IoError (Option String)}
    (hI : ∀ s', s.Collected state s' → I s') (hstate : s.store.stateLocked = .ok state)
    (h : s.Collected state d.stores) : (collectEntry state entry).run.Safe (diskSemantics I)
      (Prog.Outcome (fun _ d' => s.Collected state d'.stores)
        (fun d' => s.Collected state d'.stores)) d := by
  refine safe_then (safe_lift h fun x _ => ?_)
  rcases x with _ | name
  · exact h
  change (if orphaned state name then removeOrphan name else pure ()).run.Safe _ _ d
  split_ifs with hname
  · refine safe_then (safe_file rfl (hI _ h) h fun kind _ => ?_)
    refine safe_then (safe_lift h fun _ _ => ?_)
    obtain ⟨hdis, hpath⟩ := orphaned_cases hname
    refine safe_orFail ⟨⟨hI _ h, hdis, ?_⟩, ?_⟩
    · intro state' hstate' key hkey hname
      have hread : d.stores.store.stateLocked = s.store.stateLocked := by
        rw [Store.stateLocked, h.registry, Store.stateLocked]
      rw [hread, hstate] at hstate'
      cases hstate'
      rw [(hpath key hname).2] at hkey
      cases hkey
    · have hleft : ∀ {a : Except IoError Unit} {v},
          (Call.remove name).Effect (d .vault) a v →
          s.Collected state (Disk.stores (Function.update d .vault v)) := by
        rintro a v (⟨rfl, -⟩ | rfl)
        · rw [Function.update_eq_self]
          exact h
        · exact collected_drop h hname
      rintro (e | ⟨⟩) _ ⟨v, heffect, rfl⟩
      · exact hleft heffect
      · exact hleft heffect
  · exact h

theorem safe_collectOrphansLocked (hI : ∀ s', d.stores.Collected state s' → I s')
    (hstate : d.stores.store.stateLocked = .ok state) :
    (collectOrphansLocked state).run.Safe (diskSemantics I)
      (Prog.Outcome (fun _ d' => d.stores.Collected state d'.stores)
        (fun d' => d.stores.Collected state d'.stores)) d := by
  have hstart : d.stores.Collected state d.stores := ⟨rfl, rfl, fun _ => .inl rfl⟩
  refine safe_then (safe_file rfl (hI _ hstart) hstart fun _ _ => ?_)
  refine safe_then (safe_file rfl (hI _ hstart) hstart fun x _ => ?_)
  rcases x with _ | entries
  · exact hstart
  have hloop : ∀ (entries : List (Except IoError (Option String))) (d' : Disk),
      d.stores.Collected state d'.stores →
      (collectEntries state entries).run.Safe (diskSemantics I)
        (Prog.Outcome (fun _ d' => d.stores.Collected state d'.stores)
          (fun d' => d.stores.Collected state d'.stores)) d' := by
    intro entries
    induction entries with
    | nil =>
      intro d' h
      exact safe_file rfl (hI _ h) h fun _ _ => h
    | cons entry entries ih =>
      intro d' h
      exact safe_seq (safe_collectEntry hI hstate h) fun _ d'' h => ih d'' h
  exact hloop entries d hstart

end OnDisk

namespace StoreCall

variable {I : Stores → Prop} {d : Disk}

theorem done_of_exec {s s' : Stores} {c : StoreCall} {v : c.Val} (hc : c.draws = 0)
    (hexec : s.store.exec default c = .ok (v, s'.store))
    (hpub : s'.published = s.published ++ c.publishes v) : s.Done c v s' :=
  ⟨default, fun h => absurd hc h, hexec, hpub⟩

theorem safe_atomic (c : StoreCall) (hc : ∀ state, c ≠ .collectOrphansLocked state)
    (hI : ∀ s', d.stores.Left c s' → I s') :
    c.onDisk.Safe (diskSemantics I) (Prog.Outcome (fun v d' => d.stores.Done c v d'.stores)
      (fun d' => d.stores.Left c d'.stores)) d := by
  have hbefore : I d.stores := hI _ (.inl rfl)
  -- operations that only read publish nothing
  have hnot : d.stores.published = d.stores.published ++ [] := (List.append_nil _).symm
  cases c with
  | collectOrphansLocked state => exact absurd rfl (hc state)
  | lockExclusive =>
    exact OnDisk.safe_lockExclusive hbefore (.inl rfl) (done_of_exec rfl rfl hnot)
  | stateLocked =>
    refine OnDisk.safe_loadUnlocked hbefore (.inl rfl) ?_
    intro state hstate
    exact done_of_exec rfl (map_eq_ok.2 ⟨state, hstate, rfl⟩) hnot
  | loadLocked key =>
    refine OnDisk.safe_loadLocked hbefore (.inl rfl) ?_
    intro snapshot hsnap
    exact done_of_exec rfl (map_eq_ok.2 ⟨snapshot, hsnap, rfl⟩) hnot
  | saveFreshLocked snapshot => exact OnDisk.safe_saveFreshLocked hI
  | saveLocked key snapshot =>
    have hdone : ∀ {s'}, d.stores.Saved key snapshot s' →
        d.stores.Done (.saveLocked key snapshot) () s' := by
      rintro _ ⟨store, hstore, rfl⟩
      exact done_of_exec rfl (map_eq_ok.2 ⟨store, hstore, rfl⟩) rfl
    refine (OnDisk.safe_saveLocked hbefore fun s' h => hI s' (.inr ⟨_, hdone h⟩)).mono ?_
    intro r d' h
    exact h.mono (fun _ h => hdone h) (Or.imp_right fun h => ⟨_, hdone h⟩)
  | replaceLocked state =>
    have hdone : ∀ {s'}, d.stores.Replaced state s' →
        d.stores.Done (.replaceLocked state) () s' := by
      rintro _ ⟨store, hstore, rfl⟩
      exact done_of_exec rfl (map_eq_ok.2 ⟨store, hstore, rfl⟩) hnot
    refine (OnDisk.safe_saveUnlocked hbefore fun s' h => hI s' (.inr ⟨_, hdone h⟩)).mono ?_
    intro r d' h
    exact h.mono (fun _ h => hdone h) (Or.imp_right fun h => ⟨_, hdone h⟩)
  | setActiveLocked id =>
    refine safe_then (OnDisk.safe_loadUnlocked hbefore (.inl rfl) fun state hstate => ?_)
    refine safe_then (safe_lift (.inl rfl) fun _ hget => ?_)
    have hdone : ∀ {s'}, d.stores.Replaced { state with activeAccountId := id } s' →
        d.stores.Done (.setActiveLocked id) () s' := by
      rintro _ ⟨store, hstore, rfl⟩
      refine done_of_exec rfl (map_eq_ok.2 ⟨store, ?_, rfl⟩) hnot
      exact bind_eq_ok.2 ⟨state, hstate, bind_eq_ok.2 ⟨(), hget, hstore⟩⟩
    refine (OnDisk.safe_saveUnlocked hbefore fun s' h => hI s' (.inr ⟨_, hdone h⟩)).mono ?_
    intro r d' h
    exact h.mono (fun _ h => hdone h) (Or.imp_right fun h => ⟨_, hdone h⟩)
  | setEnabled enabled =>
    refine safe_seq (Q := fun _ d' => d = d')
      (OnDisk.safe_lockExclusive hbefore (.inl rfl) rfl) ?_
    rintro ⟨⟩ _ rfl
    refine safe_then (OnDisk.safe_loadUnlocked hbefore (.inl rfl) fun state hstate => ?_)
    have hdone : ∀ {s'}, d.stores.Replaced { state with enabled } s' →
        d.stores.Done (.setEnabled enabled) () s' := by
      rintro _ ⟨store, hstore, rfl⟩
      refine done_of_exec rfl (map_eq_ok.2 ⟨store, ?_, rfl⟩) hnot
      exact bind_eq_ok.2 ⟨state, hstate, hstore⟩
    refine (OnDisk.safe_saveUnlocked hbefore fun s' h => hI s' (.inr ⟨_, hdone h⟩)).mono ?_
    intro r d' h
    exact h.mono (fun _ h => hdone h) (Or.imp_right fun h => ⟨_, hdone h⟩)

theorem safe_onDisk (c : StoreCall)
    (hcol : ∀ state, c = .collectOrphansLocked state → d.stores.store.stateLocked = .ok state)
    (hI : ∀ a s', d.stores.Crash c a s' → I s') :
    c.onDisk.Safe (diskSemantics I) (fun a d' => d.stores.Crash c a d'.stores) d := by
  cases c with
  | collectOrphansLocked state =>
    refine (OnDisk.safe_collectOrphansLocked (fun s' h => hI (.ok ()) s' h)
      (hcol state rfl)).mono ?_
    rintro (e | ⟨⟩) d' h <;> exact h
  | _ =>
    refine (safe_atomic _ (by rintro state ⟨⟩) fun s' h => hI (.error .unsafePath) s' h).mono ?_
    rintro (e | v) d' h <;> exact h

end StoreCall

end CodexMarathon
