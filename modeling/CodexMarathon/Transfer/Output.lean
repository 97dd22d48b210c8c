/-
**Where an export may write.**

An export refuses outputs in the state directory and the `auth.json` of the Codex home.  It compares
normalized paths with links as they stand, while what is to be protected is what the paths denote.
The ways to the output and to the state directory are searched for links, the way to `auth.json` is
not.
-/

import CodexMarathon.Lib.Dirs
import CodexMarathon.Transfer.RoundTrip

namespace CodexMarathon

open Dirs Result Prog

def maxLinks : ℕ := 40

def treeError : Errno → Auth.IoError
  | .notFound => ⟨.notFound, "No such file or directory (os error 2)"⟩
  | .notADirectory => ⟨.other, "Not a directory (os error 20)"⟩
  | .alreadyExists => ⟨.other, "File exists (os error 17)"⟩
  | .filesystemLoop => ⟨.other, "Too many levels of symbolic links (os error 40)"⟩

namespace Persistence

variable (t : Tree String Bytes) (cwd : Place String) (path : Path String)

def rejectSymlinkComponents : Except DomainError Unit :=
  t.rejectLinks maxLinks .unsafePath (.io ∘ treeError) cwd path.absolute [] path.components

def rejectUnsafeFile : Except DomainError Unit :=
  match t.lstat maxLinks cwd path with
  | .ok (.file _) | .error .notFound => .ok ()
  | .ok _ => .error .unsafePath
  | .error e => .error (.io (treeError e))

/-- `ensure_private_dir`; permissions and flushing leave the tree. -/
def ensurePrivateDir : Except DomainError (Tree String Bytes) := do
  rejectSymlinkComponents t cwd path
  (t.createDirAll maxLinks (path.base cwd) path.components).mapError (.io ∘ treeError)

def openCreate : Except DomainError (Tree String Bytes) := do
  let place ← (t.target maxLinks cwd path).mapError (.io ∘ treeError)
  match t.entry (place.1 ++ [place.2]) with
  | none => .ok (t.put place.1 place.2 (.file []))
  | some (.file _) => .ok t
  | some .dir => .error (.io (treeError .alreadyExists))
  | some (.link _) => .error (.io (treeError .filesystemLoop))

def openRegular : Except DomainError (Tree String Bytes) := do
  rejectSymlinkComponents t cwd path
  rejectUnsafeFile t cwd path
  openCreate t cwd path

def acquire : Except DomainError (Tree String Bytes) := do
  let t ← ensurePrivateDir t cwd path
  openRegular t cwd (path.join ⟨false, [.normal "state.lock"]⟩)

variable {t cwd path} {t' : Tree String Bytes}

theorem linksIn_openRegular (h : openRegular t cwd path = .ok t') : t'.LinksIn t := by
  have h := ok_of_bind h
  have h := ok_of_bind h
  obtain ⟨place, -, h⟩ := bind_eq_ok.1 h
  split at h <;> cases h
  · exact Tree.linksIn_put nofun
  · exact .refl t

theorem acquire_eq_ok (hbase : t.entry (path.base cwd) = some .dir)
    (h : acquire t cwd path = .ok t') :
    t.Direct (path.base cwd) path.components ∧ t'.LinksIn t := by
  obtain ⟨t₁, hdir, hfile⟩ := bind_eq_ok.1 h
  obtain ⟨⟨⟩, hlinks, hdir⟩ := bind_eq_ok.1 hdir
  refine ⟨Tree.direct_of_rejectLinks hbase hlinks, ?_⟩
  exact (linksIn_openRegular hfile).trans
    (Tree.linksIn_createDirAll (mapError_eq_ok.1 hdir))

end Persistence

namespace Transfer

/-! ### The check of the output -/

structure Locations where
  cwd : Place String
  stateDir : Path String
  codexHome : Path String

def Locations.authJson (paths : Locations) : Path String :=
  paths.codexHome.join ⟨false, [.normal "auth.json"]⟩

/-- The loop of `absolute_path`. -/
def normalize (normalized : Place String) :
    List (Component String) → Except TransferError (Place String)
  | [] => .ok normalized
  | .parentDir :: _ => .error .unsafePath
  | .curDir :: rest => normalize normalized rest
  | .normal n :: rest => normalize (normalized ++ [n]) rest

def absolutePath (cwd : Place String) (path : Path String) : Except TransferError (Path String) :=
  let path := if path.absolute then path else (Path.ofPlace cwd).join path
  (normalize [] path.components).map .ofPlace

variable (paths : Locations) (t : Tree String Bytes)

def rejectSymlinks (path : Path String) : Except TransferError Unit :=
  t.rejectLinks maxLinks .unsafePath (fun _ => .io) paths.cwd path.absolute [] path.components

/-- The last check of `checked_output`: what may stand at the output already. -/
def admits (overwrite : Bool) : Except Errno (Entry String Bytes) → Except TransferError Unit
  | .ok (.file _) => if overwrite then .ok () else .error .outputExists
  | .ok .dir | .ok (.link _) => .error .unsafePath
  | .error .notFound => .ok ()
  | .error _ => .error .io

def checkedOutput (output : Path String) (overwrite : Bool) : Except TransferError (Path String) := do
  let absolute ← absolutePath paths.cwd output
  rejectSymlinks paths t absolute
  let parent ← Result.okOr absolute.parent .unsafePath
  Result.require (t.statIsDir maxLinks paths.cwd parent) .unsafePath
  let stateDir ← absolutePath paths.cwd paths.stateDir
  Result.require (!absolute.startsWith stateDir) .unsafePath
  let authJson ← absolutePath paths.cwd paths.authJson
  Result.require (absolute ≠ authJson) .unsafePath
  admits overwrite (t.lstat maxLinks paths.cwd absolute)
  pure absolute

section Check

variable {paths t} {cwd : Place String} {output absolute : Path String} {overwrite : Bool}

theorem normalize_eq_ok {p q : Place String} {cs : List (Component String)}
    (h : normalize p cs = .ok q) : q = lexical p cs := by
  induction cs generalizing p with
  | nil => exact (Except.ok.inj h).symm
  | cons c cs ih =>
    cases c with
    | parentDir => cases h
    | curDir | normal => exact ih h

theorem absolutePath_eq_ok {path : Path String} (h : absolutePath cwd path = .ok absolute) :
    absolute = .ofPlace (lexical (path.base cwd) path.components) := by
  obtain ⟨p, hp, rfl⟩ := map_eq_ok.1 h
  rw [normalize_eq_ok hp, Path.base]
  split_ifs with habs
  · rfl
  · simp only [Path.join, habs, Bool.false_eq_true, if_false, Path.ofPlace]
    rw [lexical_append, lexical_map_normal, List.nil_append]

/-- No link leads to `p`, and its path is not one of those that are protected. -/
structure Permitted (paths : Locations) (t : Tree String Bytes) (p : Place String) : Prop where
  direct : t.Direct [] (p.map .normal)
  state : ¬ lexical (paths.stateDir.base paths.cwd) paths.stateDir.components <+: p
  auth : p ≠ lexical (paths.authJson.base paths.cwd) paths.authJson.components

theorem checkedOutput_eq_ok (h : checkedOutput paths t output overwrite = .ok absolute) :
    ∃ p, absolute = .ofPlace p ∧ Permitted paths t p := by
  obtain ⟨absolute, habs, h⟩ := bind_eq_ok.1 h
  obtain ⟨⟨⟩, hlinks, h⟩ := bind_eq_ok.1 h
  obtain ⟨parent, -, h⟩ := bind_eq_ok.1 h
  have h := ok_of_bind h
  obtain ⟨stateDir, hstateDir, h⟩ := bind_eq_ok.1 h
  obtain ⟨⟨⟩, hstate, h⟩ := bind_eq_ok.1 h
  obtain ⟨authJson, hauthJson, h⟩ := bind_eq_ok.1 h
  obtain ⟨⟨⟩, hauth, h⟩ := bind_eq_ok.1 h
  have h := ok_of_bind h
  cases h
  obtain rfl := absolutePath_eq_ok habs
  obtain rfl := absolutePath_eq_ok hstateDir
  obtain rfl := absolutePath_eq_ok hauthJson
  refine ⟨_, rfl, Tree.direct_of_rejectLinks t.root hlinks, fun hprefix => ?_, fun heq => ?_⟩
  · have hstarts : (Path.ofPlace (lexical (output.base paths.cwd) output.components)).startsWith
        (.ofPlace (lexical (paths.stateDir.base paths.cwd) paths.stateDir.components)) = true := by
      simpa [Path.startsWith, Path.ofPlace] using hprefix.map _
    simp [hstarts, Result.require] at hstate
  · exact require_eq_ok.1 hauth (congrArg Path.ofPlace heq)

end Check

def persist (cwd : Place String) (t : Tree String Bytes) (output : Path String)
    (temporary : Option (Place String)) (archive : Bytes) (overwrite : Bool) :
    Except TransferError (Tree String Bytes × Place String) := do
  let place ← (t.target maxLinks cwd output).mapError fun _ => .io
  match t.entry (place.1 ++ [place.2]) with
  | some .dir => .error (if overwrite then .io else .outputExists)
  | some _ =>
    if overwrite then
      .ok ((temporary.elim t t.remove).put place.1 place.2 (.file archive), place.1 ++ [place.2])
    else .error .outputExists
  | none =>
    .ok ((temporary.elim t t.remove).put place.1 place.2 (.file archive), place.1 ++ [place.2])

/-- The tree during an export, the output, the temporary file, and where the archive was published.
-/
structure Disk where
  tree : Tree String Bytes
  output : Path String
  temporary : Option (Place String)
  published : Option (Place String)

def Disk.discard (disk : Disk) : Disk :=
  { disk with tree := disk.temporary.elim disk.tree disk.tree.remove, temporary := none }

variable [Externals]

/-- Any operation on files may fail, and a file may have been published by a call that fails. -/
def ExportCall.OnDisk (paths : Locations) : (c : ExportCall) → Disk → c.Ans → Disk → Prop
  | .checkedOutput overwrite, s, a, s' =>
    (∃ output, Transfer.checkedOutput paths s.tree s.output overwrite = .ok output ∧ a = .ok () ∧
      s' = { s with output }) ∨ (∃ e, a = .error e) ∧ s' = s.discard
  | .lockShared, s, a, s' =>
    (∃ tree, Persistence.acquire s.tree paths.cwd paths.stateDir = .ok tree ∧
      s' = { s with tree }) ∨ (∃ e, a = .error e) ∧ ∃ tree, tree.LinksIn s.tree ∧ s' = { s with tree }
  | .encrypt _ _, s, a, s' =>
    (∃ archive parent d name, a = .ok archive ∧ s.output.parent = some parent ∧
      s.tree.walk maxLinks (parent.base paths.cwd) parent.components = .ok d ∧
      s.tree.entry (d ++ [name]) = none ∧
      s' = { s with tree := s.tree.put d name (.file archive), temporary := some (d ++ [name]) }) ∨
    (∃ e, a = .error e) ∧ s' = s
  | .persist archive overwrite, s, a, s' =>
    (∃ tree place, Transfer.persist paths.cwd s.tree s.output s.temporary archive overwrite =
      .ok (tree, place) ∧ s' = { s with tree, temporary := none, published := some place }) ∨
    (∃ e, a = .error e) ∧ s' = s.discard
  | _, s, _, s' => s' = s

def ExportCall.Placed (crates : Crates) (paths : Locations) (c : ExportCall) (w : Exporter × Disk)
    (a : c.Ans) (w' : Exporter × Disk) : Prop :=
  c.Effect crates w.1 a w'.1 ∧ c.OnDisk paths w.2 a w'.2

def placedSemantics (crates : Crates) (paths : Locations) :
    Prog.Semantics ExportCall ExportCall.Ans (Exporter × Disk) :=
  ⟨fun _ _ => True, ExportCall.Placed crates paths⟩

/-! ### What is published -/

structure Locked (paths : Locations) (t₀ : Tree String Bytes) (disk : Disk) : Prop where
  state : t₀.Direct (paths.stateDir.base paths.cwd) paths.stateDir.components
  links : disk.tree.LinksIn t₀
  unpublished : disk.published = none

/-- If something is published, no link leads to the state directory, and the paths differ. -/
def Sound (paths : Locations) (t₀ : Tree String Bytes) (disk : Disk) : Prop :=
  ∀ p ∈ disk.published,
    t₀.Direct (paths.stateDir.base paths.cwd) paths.stateDir.components ∧ disk.tree.LinksIn t₀ ∧
    ¬ lexical (paths.stateDir.base paths.cwd) paths.stateDir.components <+: p ∧
    p ≠ lexical (paths.authJson.base paths.cwd) paths.authJson.components

section Spec

variable {crates : Crates} {paths : Locations} {t₀ : Tree String Bytes} {disk : Disk}
  {w : Exporter × Disk} {overwrite : Bool}

omit [Externals] in
theorem sound_of_unpublished (h : disk.published = none) : Sound paths t₀ disk := by
  simp [Sound, h]

omit [Externals] in
theorem linksIn_discard (disk : Disk) : disk.discard.tree.LinksIn disk.tree := by
  unfold Disk.discard
  cases disk.temporary with
  | none => exact .refl _
  | some q => exact Tree.linksIn_remove

omit [Externals] in
theorem Locked.discard (h : Locked paths t₀ disk) : Locked paths t₀ disk.discard :=
  ⟨h.state, (linksIn_discard disk).trans h.links, h.unpublished⟩

omit [Externals] in
theorem Locked.sound (h : Locked paths t₀ disk) : Sound paths t₀ disk :=
  sound_of_unpublished h.unpublished

omit [Externals] in
theorem Locked.persist (h : Locked paths t₀ disk) {p place : Place String}
    {archive : Bytes} {tree : Tree String Bytes} (houtput : disk.output = .ofPlace p)
    (hp : Permitted paths disk.tree p)
    (hper : Transfer.persist paths.cwd disk.tree disk.output disk.temporary archive overwrite =
      .ok (tree, place)) :
    Sound paths t₀ { disk with tree, temporary := none, published := some place } := by
  obtain ⟨⟨d, n⟩, htarget, hper⟩ := bind_eq_ok.1 hper
  have hplace : d ++ [n] = p := by
    rw [houtput] at htarget
    have hdirect : disk.tree.Direct ((Path.ofPlace p).base paths.cwd) (Path.ofPlace p).components :=
      hp.direct
    rw [hdirect.target_eq (mapError_eq_ok.1 htarget)]
    exact lexical_map_normal [] p
  have hlinks : ((disk.temporary.elim disk.tree disk.tree.remove).put d n (.file archive)).LinksIn t₀ :=
    Tree.LinksIn.trans (Tree.linksIn_put nofun) ((linksIn_discard disk).trans h.links)
  have hresult : tree = (disk.temporary.elim disk.tree disk.tree.remove).put d n (.file archive) ∧
      place = d ++ [n] := by
    split at hper
    · cases hper
    · split_ifs at hper
      cases hper
      exact ⟨rfl, rfl⟩
    · cases hper
      exact ⟨rfl, rfl⟩
  obtain ⟨rfl, rfl⟩ := hresult
  rintro q hq
  obtain rfl := Option.mem_some_iff.1 hq
  rw [hplace]
  exact ⟨h.state, hlinks, hp.state, hp.auth⟩

omit [Externals] in
theorem outcome_same {δ α : Type} {r : Except δ α} {w' : Exporter × Disk}
    (hdisk : Sound paths t₀ w.2) (h : w'.2 = w.2) :
    Prog.Outcome (fun _ v => v.2 = w.2) (fun v => Sound paths t₀ v.2) r w' := by
  cases r with
  | ok v => exact h
  | error e =>
    change Sound paths t₀ w'.2
    rwa [h]

theorem safe_placed_entry (hdisk : Sound paths t₀ w.2) (state : RegistryState) (id : String) :
    (Export.entry state id).run.Safe (placedSemantics crates paths)
      (Prog.Outcome (fun _ v => v.2 = w.2) fun v => Sound paths t₀ v.2) w := by
  refine safe_seq (Q := fun _ v => v.2 = w.2)
    (safe_lift hdisk fun _ _ => rfl) ?_
  intro record v hv
  refine safe_seq (Q := fun _ v => v.2 = w.2)
    (safe_orFail (safe_perform.2 ⟨trivial, fun a v' h => ?_⟩)) ?_
  · exact outcome_same hdisk (h.2.trans hv)
  intro snapshot v hv
  have hsound : Sound paths t₀ v.2 := by rwa [hv]
  refine safe_then (safe_lift hsound fun _ _ => ?_)
  exact hv

theorem safe_placed_entries (hdisk : Sound paths t₀ w.2) (state : RegistryState) (size : ℕ)
    (ids : List String) : (Export.entries state size ids).run.Safe (placedSemantics crates paths)
      (Prog.Outcome (fun _ v => v.2 = w.2) fun v => Sound paths t₀ v.2) w := by
  induction ids generalizing size w with
  | nil => exact rfl
  | cons id ids ih =>
    refine safe_seq (safe_placed_entry hdisk state id) ?_
    intro account v hv
    have hsound : Sound paths t₀ v.2 := by rwa [hv]
    refine safe_then (safe_lift hsound fun _ _ => ?_)
    have hsound : Sound paths t₀ v.2 := by rwa [hv]
    refine safe_seq
      ((ih hsound _).mono fun r v' h => h.mono (fun _ h => h.trans hv) fun h => h) ?_
    intro _ v hv
    exact hv

variable {v : Exporter × Disk} {a : Except TransferError Unit}

theorem outcome_checkedOutput (hnew : w.2.published = none)
    (h : ExportCall.OnDisk paths (.checkedOutput overwrite) w.2 a v.2) :
    Prog.Outcome (fun _ v => v.2.tree = w.2.tree ∧ v.2.published = none)
      (fun v => Sound paths t₀ v.2) a v := by
  rcases h with ⟨output, -, rfl, hv⟩ | ⟨⟨e, rfl⟩, hv⟩
  · change v.2.tree = w.2.tree ∧ v.2.published = none
    rw [hv]
    exact ⟨rfl, hnew⟩
  · exact sound_of_unpublished (by rw [hv]; exact hnew)

theorem outcome_lockShared {a : Except DomainError Unit}
    (hcwd : t₀.entry paths.cwd = some .dir) (htree : w.2.tree = t₀) (hnew : w.2.published = none)
    (h : ExportCall.OnDisk paths .lockShared w.2 a v.2) :
    Prog.Outcome (fun _ v => Locked paths t₀ v.2) (fun v => Sound paths t₀ v.2) a v := by
  have hpub : v.2.published = none := by
    rcases h with ⟨tree, -, hv⟩ | ⟨-, tree, -, hv⟩ <;>
    · rw [hv]
      exact hnew
  cases a with
  | error e => exact sound_of_unpublished hpub
  | ok u =>
    rcases h with ⟨tree, hacq, hv⟩ | ⟨⟨e, he⟩, -⟩
    · rw [htree] at hacq
      obtain ⟨hstate, hlinks⟩ := Persistence.acquire_eq_ok (Tree.entry_base hcwd _) hacq
      refine ⟨hstate, ?_, hpub⟩
      rw [hv]
      exact hlinks
    · cases he

theorem Locked.outcome_encrypt {passphrase : String} {plaintext : Bytes}
    {a : Except TransferError Bytes} (hw : Locked paths t₀ w.2)
    (h : ExportCall.OnDisk paths (.encrypt passphrase plaintext) w.2 a v.2) :
    Prog.Outcome (fun _ v => Locked paths t₀ v.2) (fun v => Sound paths t₀ v.2) a v := by
  rcases h with ⟨archive, parent, d, name, rfl, -, -, -, hv⟩ | ⟨⟨e, rfl⟩, hv⟩
  · change Locked paths t₀ v.2
    rw [hv]
    exact ⟨hw.state, Tree.LinksIn.trans (Tree.linksIn_put nofun) hw.links, hw.unpublished⟩
  · change Sound paths t₀ v.2
    rw [hv]
    exact hw.sound

theorem Locked.outcome_checkedOutput (hw : Locked paths t₀ w.2)
    (h : ExportCall.OnDisk paths (.checkedOutput overwrite) w.2 a v.2) :
    Prog.Outcome (fun _ v => Locked paths t₀ v.2 ∧
        ∃ p, v.2.output = .ofPlace p ∧ Permitted paths v.2.tree p)
      (fun v => Sound paths t₀ v.2) a v := by
  rcases h with ⟨output, houtput, rfl, hv⟩ | ⟨⟨e, rfl⟩, hv⟩
  · change Locked paths t₀ v.2 ∧ ∃ p, v.2.output = .ofPlace p ∧ Permitted paths v.2.tree p
    rw [hv]
    exact ⟨⟨hw.state, hw.links, hw.unpublished⟩, checkedOutput_eq_ok houtput⟩
  · change Sound paths t₀ v.2
    rw [hv]
    exact hw.discard.sound

theorem Locked.outcome_persist {archive : Bytes} {p : Place String} (hw : Locked paths t₀ w.2) (houtput : w.2.output = .ofPlace p)
    (hp : Permitted paths w.2.tree p)
    (h : ExportCall.OnDisk paths (.persist archive overwrite) w.2 a v.2) :
    Prog.Outcome (fun _ v => Sound paths t₀ v.2) (fun v => Sound paths t₀ v.2) a v := by
  have hsound : Sound paths t₀ v.2 := by
    rcases h with ⟨tree, place, hper, hv⟩ | ⟨-, hv⟩
    · rw [hv]
      exact hw.persist houtput hp hper
    · rw [hv]
      exact hw.discard.sound
  cases a <;> exact hsound

theorem safe_placed_exportAccounts (hcwd : w.2.tree.entry paths.cwd = some .dir)
    (hnew : w.2.published = none) (selected : List String) (passphrase : String) :
    (exportAccounts crates selected passphrase overwrite).run.Safe (placedSemantics crates paths)
      (Prog.Outcome (fun _ v => Sound paths w.2.tree v.2) fun v => Sound paths w.2.tree v.2) w := by
  refine safe_seq (Q := fun _ v => v.2 = w.2)
    (safe_lift (sound_of_unpublished hnew) fun _ _ => rfl) ?_
  intro _ v hv
  refine safe_then
    (safe_lift (by rw [hv]; exact sound_of_unpublished hnew) fun _ _ => ?_)
  refine safe_seq (safe_orFail (safe_perform.2
    ⟨trivial, fun a v' h => outcome_checkedOutput (by rw [hv]; exact hnew) h.2⟩)) ?_
  rintro _ v' ⟨htree, hunp⟩
  refine safe_seq (safe_orFail (safe_perform.2
    ⟨trivial, fun a v' h => outcome_lockShared hcwd (htree.trans (by rw [hv])) hunp h.2⟩)) ?_
  intro _ v hlocked
  refine safe_seq (safe_orFail
    (safe_perform.2 ⟨trivial, fun a v' h => outcome_same hlocked.sound h.2⟩)) ?_
  intro state v' hv'
  rw [← hv'] at hlocked
  refine safe_seq (safe_placed_entries hlocked.sound state 0 _) ?_
  intro accounts v hv
  rw [← hv] at hlocked
  refine safe_seq (Q := fun _ v => Locked paths w.2.tree v.2)
    (safe_liftProg (safe_perform.2 ⟨trivial, fun a v' h => ?_⟩)) ?_
  · rw [h.2]
    exact hlocked
  intro now v hlocked
  refine safe_then (safe_lift hlocked.sound fun plaintext _ => ?_)
  refine safe_then (safe_lift hlocked.sound fun _ _ => ?_)
  refine safe_seq (safe_orFail (safe_perform.2
    ⟨trivial, fun a v' h => hlocked.outcome_encrypt h.2⟩)) ?_
  intro archive v hlocked
  refine safe_seq (safe_orFail (safe_perform.2
    ⟨trivial, fun a v' h => hlocked.outcome_checkedOutput h.2⟩)) ?_
  rintro _ v ⟨hlocked, p, houtput, hp⟩
  refine safe_seq (safe_orFail (safe_perform.2
    ⟨trivial, fun a v' h => hlocked.outcome_persist houtput hp h.2⟩)) ?_
  intro _ v hsound
  refine safe_seq (safe_orFail
    (safe_perform.2 ⟨trivial, fun a v' h => outcome_same hsound h.2⟩)) ?_
  intro _ v' hv'
  change Sound paths w.2.tree v'.2
  rwa [hv']

end Spec

def temporaryName : String := ".cmbackup-000000"

def Disk.exec (paths : Locations) : (c : ExportCall) → Exporter × Disk → c.Ans × (Exporter × Disk)
  | .checkedOutput overwrite, w =>
    match Transfer.checkedOutput paths w.2.tree w.2.output overwrite with
    | .ok output => (.ok (), w.1, { w.2 with output })
    | .error e => (.error e, w.1, w.2.discard)
  | .lockShared, w =>
    match Persistence.acquire w.2.tree paths.cwd paths.stateDir with
    | .ok tree => (.ok (), w.1, { w.2 with tree })
    | .error e => (.error e, w)
  | .encrypt _ plaintext, w =>
    match w.2.output.parent with
    | none => (.error .unsafePath, w)
    | some parent =>
      match w.2.tree.walk maxLinks (parent.base paths.cwd) parent.components with
      | .error _ => (.error .io, w)
      | .ok d =>
        if plaintext = [] ∧ w.2.tree.entry (d ++ [temporaryName]) = none then
          (.ok archiveSample, w.1,
            { w.2 with
              tree := w.2.tree.put d temporaryName (.file archiveSample)
              temporary := some (d ++ [temporaryName]) })
        else (.error .encryption, w)
  | .persist archive overwrite, w =>
    match Transfer.persist paths.cwd w.2.tree w.2.output w.2.temporary archive overwrite with
    | .ok (tree, place) =>
      (.ok (), { w.1 with output := some archive },
        { w.2 with tree, temporary := none, published := some place })
    | .error e => (.error e, w.1, w.2.discard)
  | .stateLocked, w => (w.1.store.stateLocked, w)
  | .loadLocked key, w => (w.1.store.loadLocked key, w)
  | .now, w => (w.1.clock, w)
  | .syncDir, w => (.ok (), w)

theorem Disk.placed_exec (manifest : Manifest) (paths : Locations) (c : ExportCall)
    (w : Exporter × Disk) :
    ExportCall.Placed (Crates.sample manifest) paths c w (Disk.exec paths c w).1
      (Disk.exec paths c w).2 := by
  cases c with
  | stateLocked | loadLocked => exact ⟨⟨rfl, fun _ h => h⟩, rfl⟩
  | now => exact ⟨⟨rfl, rfl⟩, rfl⟩
  | syncDir => exact ⟨rfl, rfl⟩
  | checkedOutput overwrite =>
    simp only [Disk.exec]
    split
    · rename_i output houtput
      exact ⟨rfl, .inl ⟨output, houtput, rfl, rfl⟩⟩
    · exact ⟨rfl, .inr ⟨⟨_, rfl⟩, rfl⟩⟩
  | lockShared =>
    simp only [Disk.exec]
    split
    · rename_i tree htree
      exact ⟨rfl, .inl ⟨tree, htree, rfl⟩⟩
    · exact ⟨rfl, .inr ⟨⟨_, rfl⟩, w.2.tree, .refl _, rfl⟩⟩
  | persist archive overwrite =>
    simp only [Disk.exec]
    split
    · rename_i tree place hper
      exact ⟨.inl rfl, .inl ⟨tree, place, hper, rfl⟩⟩
    · exact ⟨.inr ⟨⟨_, rfl⟩, rfl⟩, .inr ⟨⟨_, rfl⟩, rfl⟩⟩
  | encrypt passphrase plaintext =>
    simp only [Disk.exec]
    split
    · exact ⟨⟨rfl, nofun⟩, .inr ⟨⟨_, rfl⟩, rfl⟩⟩
    · rename_i parent hparent
      split
      · exact ⟨⟨rfl, nofun⟩, .inr ⟨⟨_, rfl⟩, rfl⟩⟩
      · rename_i d hd
        split_ifs with hfree
        · refine ⟨⟨rfl, fun archive h => ?_⟩, ?_⟩
          · exact ⟨hfree.1, (Except.ok.inj h).symm⟩
          · exact .inl ⟨archiveSample, parent, d, temporaryName, rfl, hparent, hd, hfree.2, rfl⟩
        · exact ⟨⟨rfl, nofun⟩, .inr ⟨⟨_, rfl⟩, rfl⟩⟩

def Locations.sample : Locations where
  cwd := ["home"]
  stateDir := .ofPlace ["home", "codex", "marathon"]
  codexHome := .ofPlace ["home", "codex"]

def Disk.sample (auth : Entry String Bytes) (output : Path String) : Disk where
  tree :=
    let t : Tree String Bytes := Tree.empty
    ((((t.put [] "home" .dir).put ["home"] "codex" .dir).put ["home", "codex"] "auth.json" auth).put
      [] "safe" .dir).put ["safe"] "auth.json" (.file [])
  output := output
  temporary := none
  published := none

theorem Disk.runs_of_eq_ok {manifest : Manifest} {paths : Locations} {selected : List String}
    {passphrase : String} {overwrite : Bool} {w : Exporter × Disk} {report : ExportReport}
    (h : (Prog.run (Disk.exec paths)
      (exportAccounts (Crates.sample manifest) selected passphrase overwrite).run w).1 = .ok report) :
    Prog.Runs (ExportCall.Placed (Crates.sample manifest) paths)
      (exportAccounts (Crates.sample manifest) selected passphrase overwrite).run w (.ok report)
      (Prog.run (Disk.exec paths)
        (exportAccounts (Crates.sample manifest) selected passphrase overwrite).run w).2 :=
  h ▸ runs_run (Disk.placed_exec manifest paths) _ w

def Disk.exportSample (disk : Disk) (overwrite : Bool) :
    Except TransferError ExportReport × (Exporter × Disk) :=
  Prog.run (Disk.exec .sample)
    (exportAccounts (Crates.sample (.sample "home" "work")) ["a", "b"] "correct horse" overwrite).run
    (.sample "home" "work", disk)

def Disk.plain : Disk := .sample (.file []) ⟨false, [.curDir, .normal "backup"]⟩

def Disk.linked : Disk :=
  .sample (.link (.ofPlace ["safe", "auth.json"])) (.ofPlace ["safe", "auth.json"])

end Transfer

end CodexMarathon
