/-
**Importing a backup of accounts.**

An import validates a whole backup, plans what becomes of every account under the policy for
conflicts, and then saves the credentials under fresh references and publishes the planned registry
once.  A dry run stops after the plan.
-/

import CodexMarathon.Store.Files

namespace CodexMarathon.Transfer

open Auth Result RegistryState

def maxAccounts : ℕ := 256

def maxPassphraseBytes : ℕ := 1024

inductive TransferError
  | selection
  | format
  | limit
  | passphrase
  | passphraseMismatch
  | decryption
  | encryption
  | unsafePath
  | outputExists
  | aliasConflict
  | activeAccount
  | busy
  | state
  | io
  | commitUncertain
deriving DecidableEq, Repr

def stateError : DomainError → TransferError
  | .io error => if error.kind = .wouldBlock then .busy else .state
  | .unsafePath => .unsafePath
  | _ => .state

inductive ConflictPolicy
  | skip
  | replace
  | rename
deriving DecidableEq, Repr

structure AccountSummary where
  id : String
  aliasName : String
deriving DecidableEq, Repr

structure ImportReport where
  imported : List AccountSummary
  replaced : List AccountSummary
  skipped : List AccountSummary
  dryRun : Bool
deriving DecidableEq, Repr

structure BackupAccount where
  id : String
  aliasName : String
  snapshot : String
deriving DecidableEq, Repr

structure Manifest where
  format : String
  version : ℕ
  createdAt : String
  exporterVersion : String
  accounts : List BackupAccount
deriving DecidableEq, Repr

structure Config where
  decodeBase64 : String → Option Bytes
  parsesRfc3339 : String → Bool

def isGraphic (c : Char) : Bool := '!' ≤ c && c ≤ '~'

variable [Externals]

/-- A turn of the loop of `validate_manifest`: the entries before it are `seen`. -/
def validateEntry (cfg : Config) (now : DateTime) (seen : List BackupAccount)
    (entry : BackupAccount) : Except TransferError (AccountRecord × AuthSnapshot) := do
  (validateAccountId entry.id).mapError fun _ => .format
  (validateAlias entry.aliasName).mapError fun _ => .format
  Result.require
    (!seen.any (fun other => other.id = entry.id)
      && (entry.aliasName.isEmpty || !seen.any fun other => other.aliasName = entry.aliasName))
    .format
  Result.require (entry.snapshot.utf8ByteSize ≤ (maxSnapshotBytes + 2) / 3 * 4) .limit
  let bytes ← Result.okOr (cfg.decodeBase64 entry.snapshot) .format
  Result.require (bytes.length ≤ maxSnapshotBytes) .limit
  let snapshot ← (AuthSnapshot.fromBytes (some entry.id) bytes).mapError fun _ => .format
  Result.require (snapshot.embeddedAccountId = some entry.id) .format
  let record ← (AccountRecord.new entry.id entry.aliasName now).mapError fun _ => .format
  pure (record, snapshot)

def validateEntries (cfg : Config) (times : ℕ → DateTime) (seen : List BackupAccount) :
    List BackupAccount → Except TransferError (List (AccountRecord × AuthSnapshot))
  | [] => .ok []
  | entry :: rest => do
      let validated ← validateEntry cfg (times seen.length) seen entry
      let others ← validateEntries cfg times (entry :: seen) rest
      pure (validated :: others)

def validateManifest (cfg : Config) (times : ℕ → DateTime) (manifest : Manifest) :
    Except TransferError (List (AccountRecord × AuthSnapshot)) := do
  Result.require (manifest.version = 1 ∧ manifest.format = "codexmarathon-accounts") .format
  Result.require
    (cfg.parsesRfc3339 manifest.createdAt && !manifest.exporterVersion.isEmpty
      && manifest.exporterVersion.utf8ByteSize ≤ 128
      && manifest.exporterVersion.toList.all isGraphic)
    .format
  Result.require (manifest.accounts ≠ [] ∧ manifest.accounts.length ≤ maxAccounts) .limit
  validateEntries cfg times [] manifest.accounts

/-! ### The plan -/

def collides (planned : RegistryState) (id aliasName : String) : Bool :=
  !aliasName.isEmpty
    && planned.records.any fun other => other.id ≠ id && other.aliasName = aliasName

def fitPrefix (room : ℕ) : List Char → Except TransferError (List Char)
  | [] => if room ≤ 256 then .ok [] else .error .format
  | c :: rest =>
    if (String.ofList (c :: rest)).utf8ByteSize + room ≤ 256 then .ok (c :: rest)
    else fitPrefix room rest

def numbered (base : String) (n : ℕ) : Except TransferError String := do
  let suffix := " (" ++ toString n ++ ")"
  let stem ← fitPrefix suffix.utf8ByteSize base.toList.reverse
  pure (String.ofList stem.reverse ++ suffix)

def findAlias (taken : String → Bool) (base : String) : List ℕ → Except TransferError String
  | [] => .error .aliasConflict
  | n :: rest => do
      let candidate ← numbered base n
      if taken candidate then findAlias taken base rest else pure candidate

structure Plan where
  planned : RegistryState
  changes : List (AccountRecord × AuthSnapshot)
  report : ImportReport

namespace Plan

def skip (plan : Plan) (account : AccountRecord) : Plan :=
  { plan with report :=
      { plan.report with
        skipped := plan.report.skipped ++ [⟨account.id, account.aliasName⟩] } }

def accept (plan : Plan) (existing : Bool) (account : AccountRecord) (snapshot : AuthSnapshot) :
    Plan where
  planned := plan.planned.insert account.id account
  changes := plan.changes ++ [(account, snapshot)]
  report :=
    if existing then
      { plan.report with replaced := plan.report.replaced ++ [⟨account.id, account.aliasName⟩] }
    else
      { plan.report with imported := plan.report.imported ++ [⟨account.id, account.aliasName⟩] }

end Plan

def resolveCollision (conflict : ConflictPolicy) (plan : Plan) (existing : Bool)
    (account : AccountRecord) (snapshot : AuthSnapshot) : Except TransferError Plan :=
  match conflict with
  | .skip => .ok (plan.skip account)
  | .replace => .error .aliasConflict
  | .rename => do
      let aliasName ← findAlias (collides plan.planned account.id) account.aliasName
        (List.range' 2 (plan.planned.records.length + maxAccounts + 1))
      pure (plan.accept existing { account with aliasName } snapshot)

/-- A turn of `plan_import`, where `active` is the active account. -/
def planEntry (active : String) (conflict : ConflictPolicy) (plan : Plan)
    (entry : AccountRecord × AuthSnapshot) : Except TransferError Plan :=
  let account := entry.1
  let existing := (plan.planned.get? account.id).isSome
  if existing ∧ conflict ≠ .replace then .ok (plan.skip account)
  else if existing ∧ active = account.id then .error .activeAccount
  else if collides plan.planned account.id account.aliasName then
    resolveCollision conflict plan existing account entry.2
  else .ok (plan.accept existing account entry.2)

def aliases (planned : RegistryState) : List String :=
  (planned.records.map (·.aliasName)).filter fun aliasName => !aliasName.isEmpty

def planImport (state : RegistryState) (entries : List (AccountRecord × AuthSnapshot))
    (conflict : ConflictPolicy) (dryRun : Bool) :
    Except TransferError (ImportReport × List (AccountRecord × AuthSnapshot)) := do
  let plan ← entries.foldlM (planEntry state.activeAccountId conflict)
    { planned := state, changes := [], report := ⟨[], [], [], dryRun⟩ }
  Result.require (aliases plan.planned).Nodup .aliasConflict
  pure (plan.report, plan.changes)

/-! ### What is accepted of a backup -/

def Named (entry : AccountRecord × AuthSnapshot) : Prop :=
  entry.2.embeddedAccountId = some entry.1.id

structure Archived (cfg : Config) (account : BackupAccount) (entry : AccountRecord × AuthSnapshot) :
    Prop where
  id : entry.1.id = account.id
  aliasName : entry.1.aliasName = account.aliasName
  bytes : cfg.decodeBase64 account.snapshot = some entry.2.bytes
  named : Named entry

def Apart (a b : BackupAccount) : Prop :=
  a.id ≠ b.id ∧ (b.aliasName ≠ "" → a.aliasName ≠ b.aliasName)

variable {accounts seen : List BackupAccount} {manifest : Manifest} {conflict : ConflictPolicy}
  {state : RegistryState} {entry : AccountRecord × AuthSnapshot} {active : String}
  {entries changes : List (AccountRecord × AuthSnapshot)} {cfg : Config} {times : ℕ → DateTime}

omit [Externals] in
theorem apart_iff {account : BackupAccount} : (!seen.any (fun other => other.id = account.id)
      && (account.aliasName.isEmpty
        || !seen.any fun other => other.aliasName = account.aliasName)) = true ↔
      ∀ other ∈ seen, Apart other account := by
  simp only [Bool.and_eq_true, Bool.or_eq_true, Bool.not_eq_true', List.any_eq_false,
    decide_eq_true_eq, String.isEmpty_iff, Apart]
  by_cases hempty : account.aliasName = ""
  · simp [hempty]
  · simp [hempty, forall_and]

structure Accepted (cfg : Config) (now : DateTime) (seen : List BackupAccount)
    (account : BackupAccount) (entry : AccountRecord × AuthSnapshot) : Prop where
  id : validateAccountId account.id = .ok ()
  aliasName : validateAlias account.aliasName = .ok ()
  apart : ∀ other ∈ seen, Apart other account
  text : account.snapshot.utf8ByteSize ≤ (maxSnapshotBytes + 2) / 3 * 4
  decoded : cfg.decodeBase64 account.snapshot = some entry.2.bytes
  bytes : entry.2.bytes.length ≤ maxSnapshotBytes
  snapshot : AuthSnapshot.fromBytes (some account.id) entry.2.bytes = .ok entry.2
  named : entry.2.embeddedAccountId = some account.id
  record : AccountRecord.new account.id account.aliasName now = .ok entry.1

theorem validateEntry_eq_ok_iff {now : DateTime} {account : BackupAccount} :
    validateEntry cfg now seen account = .ok entry ↔ Accepted cfg now seen account entry := by
  constructor
  · intro h
    obtain ⟨⟨⟩, hid, h⟩ := bind_eq_ok.1 h
    obtain ⟨⟨⟩, halias, h⟩ := bind_eq_ok.1 h
    obtain ⟨⟨⟩, hapart, h⟩ := bind_eq_ok.1 h
    obtain ⟨⟨⟩, htext, h⟩ := bind_eq_ok.1 h
    obtain ⟨bytes, hdec, h⟩ := bind_eq_ok.1 h
    obtain ⟨⟨⟩, hbytes, h⟩ := bind_eq_ok.1 h
    obtain ⟨snapshot, hsnap, h⟩ := bind_eq_ok.1 h
    obtain ⟨⟨⟩, hnamed, h⟩ := bind_eq_ok.1 h
    obtain ⟨record, hrecord, h⟩ := bind_eq_ok.1 h
    cases h
    rw [mapError_eq_ok] at hid halias hsnap hrecord
    rw [require_eq_ok] at hapart htext hbytes hnamed
    rw [okOr_eq_ok] at hdec
    obtain rfl := (AuthSnapshot.fromBytes_eq_ok hsnap).1
    exact ⟨hid, halias, apart_iff.1 hapart, htext, hdec, hbytes, hsnap, hnamed, hrecord⟩
  · intro h
    refine bind_eq_ok.2 ⟨(), mapError_eq_ok.2 h.id, ?_⟩
    refine bind_eq_ok.2 ⟨(), mapError_eq_ok.2 h.aliasName, ?_⟩
    refine bind_eq_ok.2 ⟨(), require_eq_ok.2 (apart_iff.2 h.apart), ?_⟩
    refine bind_eq_ok.2 ⟨(), require_eq_ok.2 h.text, ?_⟩
    refine bind_eq_ok.2 ⟨entry.2.bytes, okOr_eq_ok.2 h.decoded, ?_⟩
    refine bind_eq_ok.2 ⟨(), require_eq_ok.2 h.bytes, ?_⟩
    refine bind_eq_ok.2 ⟨entry.2, mapError_eq_ok.2 h.snapshot, ?_⟩
    refine bind_eq_ok.2 ⟨(), require_eq_ok.2 h.named, ?_⟩
    exact bind_eq_ok.2 ⟨entry.1, mapError_eq_ok.2 h.record, rfl⟩

theorem Accepted.archived {now : DateTime} {account : BackupAccount}
    (h : Accepted cfg now seen account entry) : Archived cfg account entry := by
  obtain ⟨hid, halias⟩ := AccountRecord.new_eq_ok h.record
  exact ⟨hid, halias, h.decoded, h.named.trans (congrArg some hid.symm)⟩

def Checked (cfg : Config) (account : BackupAccount) (entry : AccountRecord × AuthSnapshot) : Prop :=
  ∃ now seen, Accepted cfg now seen account entry

theorem validateEntries_eq_ok (h : validateEntries cfg times seen accounts = .ok entries) :
    List.Forall₂ (Checked cfg) accounts entries ∧ (accounts.map (·.id)).Nodup ∧
      ∀ other ∈ seen, ∀ account ∈ accounts, other.id ≠ account.id := by
  induction accounts generalizing seen entries with
  | nil =>
    cases h
    exact ⟨.nil, List.nodup_nil, fun _ _ _ h => nomatch h⟩
  | cons account accounts ih =>
    obtain ⟨entry, hentry, h⟩ := bind_eq_ok.1 h
    obtain ⟨others, hothers, h⟩ := bind_eq_ok.1 h
    cases h
    have hacc := validateEntry_eq_ok_iff.1 hentry
    obtain ⟨hothers, hnodup, hseen⟩ := ih hothers
    refine ⟨.cons ⟨_, _, hacc⟩ hothers, List.nodup_cons.2 ⟨?_, hnodup⟩, ?_⟩
    · intro hmem
      obtain ⟨later, hlater, heq⟩ := List.mem_map.1 hmem
      exact hseen account List.mem_cons_self later hlater heq.symm
    · intro other hother
      exact List.forall_mem_cons.2
        ⟨(hacc.apart other hother).1, hseen other (List.mem_cons_of_mem _ hother)⟩

theorem Archived.map_eq {β : Type} {f : BackupAccount → β} {g : AccountRecord × AuthSnapshot → β}
    (hfg : ∀ {account entry}, Archived cfg account entry → f account = g entry)
    (h : List.Forall₂ (Archived cfg) accounts entries) : accounts.map f = entries.map g := by
  induction h with
  | nil => rfl
  | cons h _ ih => rw [List.map_cons, List.map_cons, hfg h, ih]

theorem exists_of_mem {R : BackupAccount → AccountRecord × AuthSnapshot → Prop}
    (h : List.Forall₂ R accounts entries) (hentry : entry ∈ entries) :
    ∃ account ∈ accounts, R account entry := by
  induction h with
  | nil => cases hentry
  | cons h _ ih =>
    rcases List.mem_cons.1 hentry with rfl | hentry
    · exact ⟨_, List.mem_cons_self, h⟩
    · obtain ⟨account, hacc, harc⟩ := ih hentry
      exact ⟨account, List.mem_cons_of_mem _ hacc, harc⟩

theorem checked_of_validateManifest (h : validateManifest cfg times manifest = .ok entries) :
    manifest.accounts.length ≤ maxAccounts ∧ List.Forall₂ (Checked cfg) manifest.accounts entries ∧
      (manifest.accounts.map (·.id)).Nodup := by
  have h := ok_of_bind h
  have h := ok_of_bind h
  obtain ⟨⟨⟩, hcount, h⟩ := bind_eq_ok.1 h
  obtain ⟨hchec, hnodup, -⟩ := validateEntries_eq_ok h
  exact ⟨(require_eq_ok.1 hcount).2, hchec, hnodup⟩

theorem validateManifest_eq_ok (h : validateManifest cfg times manifest = .ok entries) :
    List.Forall₂ (Archived cfg) manifest.accounts entries ∧ (entries.map (·.1.id)).Nodup := by
  obtain ⟨-, hchec, hnodup⟩ := checked_of_validateManifest h
  have harc := hchec.imp fun _ _ h => h.choose_spec.choose_spec.archived
  refine ⟨harc, ?_⟩
  rw [← Archived.map_eq (fun h => h.id.symm) harc]
  exact hnodup

theorem named_of_validateManifest (h : validateManifest cfg times manifest = .ok entries) :
    ∀ entry ∈ entries, Named entry := by
  intro entry hentry
  obtain ⟨account, -, harc⟩ := exists_of_mem (validateManifest_eq_ok h).1 hentry
  exact harc.named

/-- **A turn of the plan** skips the account, or accepts it under a free alias; one that exists is
only accepted under `replace`, and if it is not active. -/
theorem planEntry_eq_ok {plan plan' : Plan} (h : planEntry active conflict plan entry = .ok plan') :
    plan' = plan.skip entry.1 ∧ ((plan.planned.get? entry.1.id).isSome = true ∨
        conflict = .skip ∧ collides plan.planned entry.1.id entry.1.aliasName = true) ∨
      ∃ aliasName, plan' = plan.accept (plan.planned.get? entry.1.id).isSome
          { entry.1 with aliasName } entry.2 ∧
        ((plan.planned.get? entry.1.id).isSome = true → active ≠ entry.1.id) := by
  unfold planEntry at h
  simp only at h
  split_ifs at h with hskip hactive hcol
  · cases h
    exact .inl ⟨rfl, .inl hskip.1⟩
  · have hne : (plan.planned.get? entry.1.id).isSome = true → active ≠ entry.1.id :=
      fun hexists heq => hactive ⟨hexists, heq⟩
    unfold resolveCollision at h
    cases conflict with
    | skip =>
      cases h
      exact .inl ⟨rfl, .inr ⟨rfl, hcol⟩⟩
    | replace => cases h
    | rename =>
      obtain ⟨aliasName, -, h⟩ := bind_eq_ok.1 h
      cases h
      exact .inr ⟨aliasName, rfl, hne⟩
  · cases h
    exact .inr ⟨entry.1.aliasName, rfl, fun hexists heq => hactive ⟨hexists, heq⟩⟩

def Plan.Lists (active : String) (plan : Plan) : Prop :=
  (∀ summary, summary ∈ plan.report.imported ++ plan.report.replaced ↔
    ∃ change ∈ plan.changes, (⟨change.1.id, change.1.aliasName⟩ : AccountSummary) = summary) ∧
  ∀ summary ∈ plan.report.replaced, active ≠ summary.id

theorem Plan.Lists.accept {plan : Plan} {existing : Bool} {account : AccountRecord}
    {snapshot : AuthSnapshot} (h : plan.Lists active)
    (hactive : existing = true → active ≠ account.id) :
    (plan.accept existing account snapshot).Lists active := by
  obtain ⟨hlists, hrep⟩ := h
  cases existing with
  | false =>
    refine ⟨?_, hrep⟩
    intro summary
    have := hlists summary
    simp only [Plan.accept, List.mem_append, List.mem_singleton] at this ⊢
    grind
  | true =>
    refine ⟨?_, ?_⟩
    · intro summary
      have := hlists summary
      simp only [Plan.accept, List.mem_append, List.mem_singleton] at this ⊢
      grind
    · exact List.forall_mem_append.2 ⟨hrep, List.forall_mem_singleton.2 (hactive rfl)⟩

theorem changes_of_foldlM {plan plan' : Plan}
    (h : entries.foldlM (planEntry active conflict) plan = .ok plan') :
    ∃ more, plan'.changes = plan.changes ++ more ∧
      (more.map (·.1.id)).Sublist (entries.map (·.1.id)) ∧
      ∀ change ∈ more, ∃ entry ∈ entries, change.1.id = entry.1.id ∧ change.2 = entry.2 := by
  induction entries generalizing plan with
  | nil =>
    cases h
    exact ⟨[], (List.append_nil _).symm, List.nil_sublist _, List.forall_mem_nil _⟩
  | cons entry entries ih =>
    rw [List.foldlM_cons] at h
    obtain ⟨turn, hturn, h⟩ := bind_eq_ok.1 h
    obtain ⟨more, hmore, hsub, hfrom⟩ := ih h
    have hfrom' : ∀ change ∈ more, ∃ entry' ∈ entry :: entries,
        change.1.id = entry'.1.id ∧ change.2 = entry'.2 := fun change hchange =>
      (hfrom change hchange).imp fun _ h => ⟨List.mem_cons_of_mem _ h.1, h.2⟩
    rcases planEntry_eq_ok hturn with ⟨rfl, -⟩ | ⟨aliasName, rfl, -⟩
    · exact ⟨more, hmore, hsub.cons _, hfrom'⟩
    · refine ⟨({ entry.1 with aliasName }, entry.2) :: more, ?_, hsub.cons_cons _, ?_⟩
      · rw [hmore]
        exact List.append_assoc _ _ _
      · exact List.forall_mem_cons.2 ⟨⟨entry, List.mem_cons_self, rfl, rfl⟩, hfrom'⟩

structure Planned (active : String) (entries : List (AccountRecord × AuthSnapshot))
    (report : ImportReport) (changes : List (AccountRecord × AuthSnapshot)) : Prop where
  listed : ∀ summary, summary ∈ report.imported ++ report.replaced ↔
    ∃ change ∈ changes, (⟨change.1.id, change.1.aliasName⟩ : AccountSummary) = summary
  inactive : ∀ summary ∈ report.replaced, active ≠ summary.id
  sublist : (changes.map (·.1.id)).Sublist (entries.map (·.1.id))
  mem : ∀ change ∈ changes, ∃ entry ∈ entries, change.1.id = entry.1.id ∧ change.2 = entry.2

theorem planImport_eq_ok {dryRun : Bool} {report : ImportReport}
    (h : planImport state entries conflict dryRun = .ok (report, changes)) :
    Planned state.activeAccountId entries report changes := by
  obtain ⟨plan, hplan, h⟩ := bind_eq_ok.1 h
  have h := ok_of_bind h
  cases h
  obtain ⟨more, hmore, hsub, hfrom⟩ := changes_of_foldlM hplan
  have hlists : plan.Lists state.activeAccountId := by
    refine foldlM_invariant ?_ ?_ hplan
    · intro plan entry plan' _ hlists hturn
      rcases planEntry_eq_ok hturn with ⟨rfl, -⟩ | ⟨aliasName, rfl, hactive⟩
      · exact hlists
      · exact hlists.accept hactive
    · exact ⟨by simp, List.forall_mem_nil _⟩
  rw [List.nil_append] at hmore
  exact ⟨hlists.1, hlists.2, hmore ▸ hsub, hmore ▸ hfrom⟩

theorem Planned.named {report : ImportReport} (h : Planned active entries report changes)
    (hent : ∀ entry ∈ entries, Named entry) : ∀ change ∈ changes, Named change := by
  intro change hchange
  obtain ⟨entry, hentry, hid, hsnap⟩ := h.mem change hchange
  unfold Named
  rw [hid, hsnap]
  exact hent entry hentry

/-! ### What the lists of a plan depend on -/

def outline (state : RegistryState) : List (String × String × String) :=
  state.accounts.entries.map fun e => (e.1, e.2.id, e.2.aliasName)

omit [Externals] in
theorem outline_insert (state : RegistryState) (id : String) (account : AccountRecord) :
    outline (state.insert id account) =
      (id, account.id, account.aliasName) :: (outline state).eraseP fun x => id = x.1 := by
  change List.map _ (List.kinsert id account state.accounts.entries) = _
  rw [List.kinsert_def, List.map_cons, outline, List.eraseP_map]
  rfl

omit [Externals] in
theorem isSome_get?_iff (state : RegistryState) (id : String) :
    (state.get? id).isSome = true ↔ id ∈ (outline state).map (·.1) := by
  unfold get? outline
  rw [AList.lookup_isSome, AList.mem_keys, List.map_map]
  rfl

omit [Externals] in
theorem collides_eq (planned : RegistryState) (id aliasName : String) :
    collides planned id aliasName =
      (!aliasName.isEmpty && (outline planned).any fun x => x.2.1 ≠ id && x.2.2 = aliasName) := by
  unfold collides records outline
  rw [List.any_map, List.any_map]
  rfl

omit [Externals] in
theorem aliases_eq (planned : RegistryState) :
    aliases planned = ((outline planned).map (·.2.2)).filter fun aliasName => !aliasName.isEmpty := by
  unfold aliases records outline
  rw [List.map_map, List.map_map]
  rfl

namespace ImportReport

def lists (report : ImportReport) : List (List AccountSummary) :=
  [report.imported, report.replaced, report.skipped]

end ImportReport

structure Plan.Alike (plan plan' : Plan) : Prop where
  outline : outline plan.planned = Transfer.outline plan'.planned
  lists : plan.report.lists = plan'.report.lists

def Alike : Except TransferError Plan → Except TransferError Plan → Prop
  | .ok plan, .ok plan' => plan.Alike plan'
  | .error e, .error e' => e = e'
  | _, _ => False

section Alike

variable {plan plan' : Plan} {account account' : AccountRecord} {snapshot snapshot' : AuthSnapshot}

theorem Plan.Alike.skip (h : plan.Alike plan') (hid : account.id = account'.id)
    (halias : account.aliasName = account'.aliasName) :
    (plan.skip account).Alike (plan'.skip account') := by
  obtain ⟨hout, hlists⟩ := h
  refine ⟨hout, ?_⟩
  simp only [ImportReport.lists, List.cons.injEq] at hlists
  simp [ImportReport.lists, Plan.skip, hlists, hid, halias]

theorem Plan.Alike.accept (h : plan.Alike plan') (existing : Bool) (hid : account.id = account'.id)
    (halias : account.aliasName = account'.aliasName) :
    (plan.accept existing account snapshot).Alike (plan'.accept existing account' snapshot') := by
  obtain ⟨hout, hlists⟩ := h
  refine ⟨?_, ?_⟩
  · change Transfer.outline (plan.planned.insert _ _) = Transfer.outline (plan'.planned.insert _ _)
    rw [outline_insert, outline_insert, hout, hid, halias]
  · simp only [ImportReport.lists, List.cons.injEq] at hlists
    cases existing <;> simp [ImportReport.lists, Plan.accept, hlists, hid, halias]

end Alike

theorem planEntry_alike (active : String) (conflict : ConflictPolicy) {plan plan' : Plan}
    {entry' : AccountRecord × AuthSnapshot} (h : plan.Alike plan')
    (hid : entry.1.id = entry'.1.id) (halias : entry.1.aliasName = entry'.1.aliasName) :
    Alike (planEntry active conflict plan entry) (planEntry active conflict plan' entry') := by
  have hexists : (plan.planned.get? entry.1.id).isSome = (plan'.planned.get? entry'.1.id).isSome := by
    rw [Bool.eq_iff_iff, isSome_get?_iff, isSome_get?_iff, h.outline, hid]
  have hcol : collides plan.planned entry.1.id = collides plan'.planned entry'.1.id := by
    funext aliasName
    rw [collides_eq, collides_eq, h.outline, hid]
  have hlength : plan.planned.records.length = plan'.planned.records.length := by
    simpa [outline, records] using congrArg List.length h.outline
  unfold planEntry
  simp only [hexists, hcol, halias, ← hid]
  split_ifs
  · exact h.skip hid halias
  · rfl
  · cases conflict with
    | skip => exact h.skip hid halias
    | replace => rfl
    | rename =>
      rw [← hid] at hcol
      simp only [resolveCollision, hlength, hcol, halias, ← hid]
      cases findAlias _ _ _ with
      | error e => rfl
      | ok aliasName => exact h.accept _ rfl rfl
  · exact h.accept _ hid halias

theorem foldlM_alike (active : String) (conflict : ConflictPolicy)
    {entries' : List (AccountRecord × AuthSnapshot)} {plan plan' : Plan}
    (hnames : entries.map (fun e => (e.1.id, e.1.aliasName)) = entries'.map fun e => (e.1.id, e.1.aliasName))
    (h : plan.Alike plan') : Alike (entries.foldlM (planEntry active conflict) plan)
      (entries'.foldlM (planEntry active conflict) plan') := by
  induction entries generalizing entries' plan plan' with
  | nil =>
    cases entries' with
    | nil => exact h
    | cons => cases hnames
  | cons entry entries ih =>
    cases entries' with
    | nil => cases hnames
    | cons entry' entries' =>
      obtain ⟨hname, hnames⟩ := List.cons.inj hnames
      obtain ⟨hid, halias⟩ := Prod.mk.inj hname
      have hturn := planEntry_alike active conflict h hid halias
      rw [List.foldlM_cons, List.foldlM_cons]
      -- both turns fail alike, or both go on alike
      cases hx : planEntry active conflict plan entry <;>
        cases hy : planEntry active conflict plan' entry' <;> rw [hx, hy] at hturn
      · exact hturn
      · exact hturn.elim
      · exact hturn.elim
      · exact ih hnames hturn

theorem planImport_lists (state : RegistryState) (conflict : ConflictPolicy)
    (dryRun dryRun' : Bool) {entries' : List (AccountRecord × AuthSnapshot)}
    (hnames : entries.map (fun e => (e.1.id, e.1.aliasName)) = entries'.map fun e => (e.1.id, e.1.aliasName)) :
    (planImport state entries conflict dryRun).map (fun plan => plan.1.lists) =
      (planImport state entries' conflict dryRun').map fun plan => plan.1.lists := by
  have hstart : Plan.Alike
      { planned := state, changes := [], report := ⟨[], [], [], dryRun⟩ }
      { planned := state, changes := [], report := ⟨[], [], [], dryRun'⟩ } := ⟨rfl, rfl⟩
  have halike := foldlM_alike state.activeAccountId conflict hnames hstart
  unfold planImport
  cases hx : entries.foldlM (planEntry state.activeAccountId conflict)
      { planned := state, changes := [], report := ⟨[], [], [], dryRun⟩ } <;>
    cases hy : entries'.foldlM (planEntry state.activeAccountId conflict)
      { planned := state, changes := [], report := ⟨[], [], [], dryRun'⟩ } <;>
    rw [hx, hy] at halike
  · exact congrArg Except.error halike
  · exact halike.elim
  · exact halike.elim
  · simp only [bind, Except.bind, aliases_eq, halike.outline]
    unfold Result.require
    split_ifs
    · exact congrArg Except.ok halike.lists
    · rfl

def withChanges (state : RegistryState) (changes : List (AccountRecord × AuthSnapshot)) :
    RegistryState :=
  changes.foldl (fun state change => state.insert change.1.id change.1) state

theorem planned_of_foldlM {plan plan' : Plan}
    (h : entries.foldlM (planEntry active conflict) plan = .ok plan')
    (hplan : plan.planned = withChanges state plan.changes) :
    plan'.planned = withChanges state plan'.changes := by
  refine foldlM_invariant (I := fun plan => plan.planned = withChanges state plan.changes)
    ?_ hplan h
  intro plan entry plan' _ hplan hturn
  rcases planEntry_eq_ok hturn with ⟨rfl, -⟩ | ⟨aliasName, rfl, -⟩
  · exact hplan
  · simp only [Plan.accept, withChanges, List.foldl_append, List.foldl_cons, List.foldl_nil]
    rw [hplan]
    rfl

theorem keysMatch_withChanges (h : state.keysMatch = true) :
    (withChanges state changes).keysMatch = true := by
  induction changes generalizing state with
  | nil => exact h
  | cons change changes ih => exact ih (keysMatch_insert h)

def aliasOf (state : RegistryState) (id : String) : Option String :=
  (state.get? id).map (·.aliasName)

omit [Externals] in
theorem aliasOf_insert (id : String) (account : AccountRecord) : aliasOf (state.insert id account) =
      Function.update (aliasOf state) id (some account.aliasName) := by
  funext id'
  by_cases hid : id' = id
  · rw [hid, Function.update_self, aliasOf, get?_insert_self]
    rfl
  · rw [Function.update_of_ne hid, aliasOf, get?_insert_of_ne hid]
    rfl

def DistinctNames (f : String → Option String) : Prop :=
  ∀ id id' aliasName, aliasName ≠ "" → f id = some aliasName → f id' = some aliasName → id = id'

omit [Externals] in
theorem DistinctNames.update {f : String → Option String} (h : DistinctNames f) {id aliasName : String}
    (hfree : ∀ id', id' ≠ id → aliasName ≠ "" → f id' ≠ some aliasName) :
    DistinctNames (Function.update f id (some aliasName)) := by
  intro id₁ id₂ other hne h₁ h₂
  rw [Function.update_apply] at h₁ h₂
  split_ifs at h₁ h₂ with heq₁ heq₂ heq₂
  · exact heq₁.trans heq₂.symm
  · cases h₁
    exact absurd h₂ (hfree id₂ heq₂ hne)
  · cases h₂
    exact absurd h₁ (hfree id₁ heq₁ hne)
  · exact h id₁ id₂ other hne h₁ h₂

omit [Externals] in
theorem collides_iff {id aliasName : String} (hkeys : state.keysMatch = true) :
    collides state id aliasName = true ↔ aliasName ≠ "" ∧
      ∃ id', id' ≠ id ∧ aliasOf state id' = some aliasName := by
  simp only [collides, Bool.and_eq_true, Bool.not_eq_true', String.isEmpty_eq_false_iff,
    List.any_eq_true, decide_eq_true_eq, aliasOf, Option.map_eq_some_iff]
  refine and_congr_right fun _ => ⟨?_, ?_⟩
  · rintro ⟨other, hmem, hne, halias⟩
    exact ⟨other.id, hne, other, get?_of_mem_records hkeys hmem, halias⟩
  · rintro ⟨id', hne, other, hget, halias⟩
    refine ⟨other, mem_records_of_get? hget, ?_, halias⟩
    rwa [get?_id hkeys hget]

omit [Externals] in
theorem nodup_aliases_iff (hkeys : state.keysMatch = true) :
    (aliases state).Nodup ↔ DistinctNames (aliasOf state) := by
  rw [aliases, List.filter_map,
    List.nodup_map_iff_inj_on ((nodup_records hkeys).filter _)]
  simp only [List.mem_filter, Function.comp_apply, Bool.not_eq_true', String.isEmpty_eq_false_iff,
    DistinctNames, aliasOf, Option.map_eq_some_iff]
  constructor
  · rintro h id id' aliasName hne ⟨account, hget, rfl⟩ ⟨other, hget', halias⟩
    have heq := h account ⟨mem_records_of_get? hget, hne⟩ other
      ⟨mem_records_of_get? hget', halias ▸ hne⟩ halias.symm
    rw [← get?_id hkeys hget, heq, get?_id hkeys hget']
  · rintro h account ⟨hmem, hne⟩ other ⟨hmem', -⟩ halias
    have hget := get?_of_mem_records hkeys hmem
    have hget' := get?_of_mem_records hkeys hmem'
    rw [h _ _ _ hne ⟨_, hget, rfl⟩ ⟨_, hget', halias.symm⟩, hget'] at hget
    exact (Option.some.inj hget).symm

omit [Externals] in
theorem nodup_aliases_insert {account : AccountRecord} (hkeys : state.keysMatch = true)
    (hfree : collides state account.id account.aliasName = false) (h : (aliases state).Nodup) :
    (aliases (state.insert account.id account)).Nodup := by
  rw [nodup_aliases_iff hkeys] at h
  rw [nodup_aliases_iff (keysMatch_insert hkeys), aliasOf_insert]
  refine h.update fun id hid hne halias => ?_
  exact absurd ((collides_iff hkeys).2 ⟨hne, id, hid, halias⟩) (by simp [hfree])

omit [Externals] in
theorem collides_insert_eq_false {account : AccountRecord} {id aliasName : String}
    (hkeys : state.keysMatch = true) (h : collides state id aliasName = false)
    (hother : aliasName ≠ "" → account.aliasName ≠ aliasName) :
    collides (state.insert account.id account) id aliasName = false := by
  rw [Bool.eq_false_iff, Ne, collides_iff (keysMatch_insert hkeys), aliasOf_insert]
  rintro ⟨hne, id', hid, halias⟩
  rw [Function.update_apply] at halias
  split_ifs at halias
  · exact hother hne (Option.some.inj halias)
  · exact absurd ((collides_iff hkeys).2 ⟨hne, id', hid, halias⟩) (by simp [h])

/-! ### The import -/

/-- What an import calls.  Reading and decrypting the backup is one call. -/
inductive TransferCall
  | openBackup (passphrase : String)
  | clock
  | previewState
  | store (c : StoreCall)

abbrev TransferCall.Ans : TransferCall → Type
  | .openBackup _ => Except TransferError Manifest
  | .clock => ℕ → DateTime
  | .previewState => Except DomainError RegistryState
  | .store c => c.Ans

abbrev TransferM (α : Type) : Type := ExceptT TransferError (Prog TransferCall TransferCall.Ans) α

def call (c : TransferCall) : Prog TransferCall TransferCall.Ans c.Ans := Prog.perform c

def store (c : StoreCall) : TransferM c.Val := Prog.orFail (call (.store c)) stateError

def stageAll : List (AccountRecord × AuthSnapshot) → RegistryState → TransferM RegistryState
  | [], state => pure state
  | (record, snapshot) :: rest, state => do
      let credentialRef ← store (.saveFreshLocked snapshot)
      stageAll rest (state.insert record.id { record with credentialRef })

def commitChanges (state : RegistryState) (report : ImportReport)
    (changes : List (AccountRecord × AuthSnapshot)) : TransferM ImportReport := do
  store (.collectOrphansLocked state)
  let staged ← stageAll changes state
  Prog.orFail (call (.store (.replaceLocked staged))) fun _ : DomainError => .commitUncertain
  pure report

def importLocked (entries : List (AccountRecord × AuthSnapshot)) (conflict : ConflictPolicy) :
    TransferM ImportReport := do
  store .lockExclusive
  let state ← store .stateLocked
  let plan ← planImport state entries conflict false
  if plan.2 = [] then pure plan.1 else commitChanges state plan.1 plan.2

def previewImport (entries : List (AccountRecord × AuthSnapshot)) (conflict : ConflictPolicy) :
    TransferM ImportReport := do
  let state ← Prog.orFail (call .previewState) stateError
  let plan ← planImport state entries conflict true
  pure plan.1

def importAccounts (cfg : Config) (passphrase : String) (conflict : ConflictPolicy)
    (dryRun : Bool) : TransferM ImportReport := do
  (Result.require (!passphrase.isEmpty && passphrase.utf8ByteSize ≤ maxPassphraseBytes)
    .passphrase : Except TransferError Unit)
  let manifest ← Prog.orFail (call (.openBackup passphrase)) id
  let times ← call .clock
  let entries ← validateManifest cfg times manifest
  if dryRun then previewImport entries conflict else importLocked entries conflict

end CodexMarathon.Transfer
