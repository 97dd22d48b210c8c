/-
**The collector of orphans is exact.**

The collector tells from a name whether an entry is to go: the document of a generated key that no
account refers to, or a temporary of a generated key.  A generated key has no dot, so these names
can be read in one way only.
-/

import CodexMarathon.Store.Consistency

namespace CodexMarathon

open Auth Files Prog

section Names

variable {state : RegistryState} {name key : String} {head suffix : List Char}

def Orphan (state : RegistryState) (name : String) : Prop :=
  ∃ key, generatedRef key = true ∧
    ((name = pathFor key ∧ ∀ account ∈ state.records, account.effectiveRef ≠ key) ∨
      ∃ suffix, isStamp suffix = true ∧ name.toList = key.toList ++ ".tmp-".toList ++ suffix)

theorem splitOnce_of_not_mem (h : '.' ∉ head) :
    splitOnce ".tmp-".toList (head ++ ".tmp-".toList ++ suffix) = some (head, suffix) := by
  induction head with
  | nil => rfl
  | cons c head ih =>
    obtain ⟨hc, hhead⟩ := not_or.1 (List.mem_cons.not.1 h)
    have hprefix : ¬ ".tmp-".toList <+: c :: (head ++ ".tmp-".toList ++ suffix) := fun hprefix =>
      hc (List.cons_prefix_cons.1 hprefix).1
    rw [List.cons_append, List.cons_append, splitOnce, if_neg hprefix, ih hhead]
    rfl

theorem not_mem_of_generatedRef (h : generatedRef key = true) : '.' ∉ key.toList := fun hmem =>
  ((generatedRef_iff_chars.1 h).plain '.' hmem).2.2.1 rfl

theorem referenced_eq_false_iff (h : generatedRef key = true) :
    referenced state key = false ↔ ∀ account ∈ state.records, account.effectiveRef ≠ key := by
  have hkey : key ≠ "" := by
    rintro rfl
    cases h
  rw [referenced, List.any_eq_false]
  refine forall₂_congr fun account _ => not_congr ?_
  unfold AccountRecord.effectiveRef
  by_cases href : account.credentialRef = ""
  · simp [href, hkey.symm]
  · simp [href]

theorem stripSuffix_pathFor (key : String) :
    stripSuffix ".json".toList (pathFor key).toList = some key.toList := by
  rw [pathFor, String.toList_append, stripSuffix, if_pos (List.suffix_append _ _)]
  simp

theorem orphaned_iff : orphaned state name = true ↔ Orphan state name := by
  constructor
  · intro h
    obtain ⟨⟨key, hgen, hname | htemporary⟩, hpath⟩ := orphaned_cases h
    · exact ⟨key, hgen, .inl ⟨hname, (referenced_eq_false_iff hgen).1 (hpath key hname).2⟩⟩
    · exact ⟨key, hgen, .inr htemporary⟩
  · rintro ⟨key, hgen, ⟨rfl, hfree⟩ | ⟨suffix, hstamp, hname⟩⟩
    · have hentry : entryKey (pathFor key) = some key := by
        rw [entryKey, stripSuffix_pathFor, Option.map_some, String.ofList_toList, Option.some_or]
      simp [orphaned, hentry, hgen, (referenced_eq_false_iff hgen).2 hfree]
    · have htemporary : temporaryKey name = some key := by
        rw [temporaryKey, hname, splitOnce_of_not_mem (not_mem_of_generatedRef hgen)]
        simp [hstamp]
      have hstrip : stripSuffix ".json".toList name.toList = none := by
        cases hrest : stripSuffix ".json".toList name.toList with
        | none => rfl
        | some rest =>
          obtain ⟨c, hc, hne⟩ := getLast?_of_isStamp (key.toList ++ ".tmp-".toList) hstamp
          rw [← hname, eq_pathFor_of_stripSuffix hrest, getLast?_pathFor] at hc
          exact absurd (Option.some.inj hc).symm hne
      have hentry : entryKey name = some key := by
        rw [entryKey, hstrip, Option.map_none, Option.none_or, htemporary]
      simp [orphaned, hentry, htemporary, hgen]

theorem fileStem_pathFor (h : key ≠ "") : fileStem (pathFor key) = key := by
  have hrest : ((pathFor key).toList.reverse.dropWhile (· ≠ '.')).drop 1 = key.toList.reverse := by
    rw [pathFor, String.toList_append, List.reverse_append]
    rfl
  have hne : key.toList.reverse ≠ [] := by simpa using h
  unfold fileStem
  rw [hrest]
  split
  · rename_i hnil
    exact absurd hnil hne
  · simp

theorem orphan_temporary (h : generatedRef key = true) (stamp : ℕ × ℕ) :
    Orphan state (temporary (pathFor key) stamp) := by
  have hkey : key ≠ "" := by
    rintro rfl
    cases h
  refine ⟨key, h, .inr ⟨_, isStamp_temporary stamp, ?_⟩⟩
  simp [temporary, fileStem_pathFor hkey]

end Names

namespace OnDisk

variable [Externals]

def Lists : (c : DiskCall) → Disk → c.Ans → Prop
  | .file .vault .list, d, a => ∀ names, a = .ok (some names) →
    ∀ name, (d .vault).entries name ≠ none → .ok (some name) ∈ names
  | _, _, _ => True

def listing : Semantics DiskCall DiskCall.Ans Disk where
  pre _ _ := True
  rel c d a d' := c.Effect d a d' ∧ Lists c d a

variable {state : RegistryState} {d d' : Disk} {names : List (Except IoError (Option String))}
  {entry : Except IoError (Option String)}

structure Swept (state : RegistryState) (names : List (Except IoError (Option String)))
    (d d' : Disk) : Prop where
  registry : d' .state = d .state
  removed : ∀ name, .ok (some name) ∈ names → orphaned state name = true →
    (d .vault).entries name ≠ some .other ∧ (d .vault).entries name ≠ none ∧
      (d' .vault).entries name = none
  kept : ∀ name, (.ok (some name) ∈ names → orphaned state name = false) →
    (d' .vault).entries name = (d .vault).entries name

omit [Externals] in
theorem swept_self (h : ∀ name, .ok (some name) ∈ names → orphaned state name = false) :
    Swept state names d d :=
  ⟨rfl, fun name hmem horphan => by simp [h name hmem] at horphan, fun _ _ => rfl⟩

omit [Externals] in
theorem Swept.cons {mid : Disk} (h : Swept state [entry] d mid) (hrest : Swept state names mid d') :
    Swept state (entry :: names) d d' where
  registry := hrest.registry.trans h.registry
  removed name hmem horphan := by
    by_cases hhead : .ok (some name) ∈ [entry]
    · obtain ⟨hfile, hthere, hgone⟩ := h.removed name hhead horphan
      refine ⟨hfile, hthere, (hrest.kept name fun hmem => ?_).trans hgone⟩
      exact absurd hgone (hrest.removed name hmem horphan).2.1
    · have hsame := h.kept name fun hmem => absurd hmem hhead
      rw [← hsame]
      refine hrest.removed name ((List.mem_cons.1 hmem).resolve_left fun heq => ?_) horphan
      exact hhead (List.mem_singleton.2 heq)
  kept name hname := by
    rw [hrest.kept name fun hmem => hname (List.mem_cons_of_mem _ hmem)]
    exact h.kept name fun hmem => hname (List.mem_singleton.1 hmem ▸ List.mem_cons_self)

theorem safe_look {dir : Dir} {c : Call dir.Contents} {Q : c.Val IoError → Disk → Prop}
    (hc : c.quiet = true)
    (h : ∀ v, c.Effect (d dir) (.ok v) (d dir) → Lists (.file dir c) d (.ok v) → Q v d) :
    (file dir c).run.Safe listing (Outcome Q fun _ => True) d := by
  refine safe_orFail ⟨trivial, ?_⟩
  rintro (e | v) _ ⟨⟨w, heffect, rfl⟩, hlists⟩
  · exact trivial
  · obtain rfl := heffect.eq_of_quiet hc
    rw [Function.update_eq_self]
    exact h v heffect hlists

theorem safe_collectEntry_listing : (collectEntry state entry).run.Safe listing
      (Outcome (fun _ => Swept state [entry] d) fun _ => True) d := by
  refine safe_then (safe_checked (fun _ _ => trivial) fun found hfound => ?_)
  rw [Result.mapError_eq_ok] at hfound
  subst hfound
  rcases found with _ | name
  · exact swept_self fun _ hmem => by cases List.mem_singleton.1 hmem
  change (if orphaned state name then removeOrphan name else pure ()).run.Safe _ _ d
  split_ifs with hname
  · refine safe_then (safe_look rfl fun kind hkind _ => ?_)
    refine safe_then (safe_lift trivial fun _ hfile => safe_orFail ⟨trivial, ?_⟩)
    have hthere := (hkind.2 kind rfl).symm.trans (Result.require_eq_ok.1 hfile)
    rintro (e | ⟨⟩) _ ⟨⟨v, heffect, rfl⟩, -⟩
    · exact trivial
    obtain ⟨-, e, he⟩ | rfl := heffect
    · cases he
    refine ⟨by simp, fun other hmem _ => ?_, fun other hother => ?_⟩
    · cases List.mem_singleton.1 hmem
      refine ⟨fun hother => ?_, fun hnone => ?_, by simp [Volume.drop]⟩
      · rw [hother] at hthere
        cases hthere
      · rw [hnone] at hthere
        cases hthere
    · have hne : other ≠ name := by
        rintro rfl
        rw [hother (List.mem_singleton.2 rfl)] at hname
        cases hname
      simp [Volume.drop, hne]
  · refine swept_self fun other hmem => ?_
    cases List.mem_singleton.1 hmem
    exact Bool.not_eq_true _ ▸ hname

theorem safe_collectEntries_listing : (collectEntries state names).run.Safe listing
      (Outcome (fun _ => Swept state names d) fun _ => True) d := by
  induction names generalizing d with
  | nil => exact safe_look rfl fun _ _ _ => swept_self fun _ h => by cases h
  | cons entry names ih =>
    refine safe_seq safe_collectEntry_listing fun _ mid hentry => ?_
    exact ih.mono fun r d' hrest => by
      cases r with
      | error e => exact trivial
      | ok _ => exact hentry.cons hrest

def Creates (P : String → Prop) : DiskCall → Prop
  | .file _ (.create name) => P name
  | _ => True

section Fresh

variable {P : String → Prop} {rel : (c : DiskCall) → Disk → c.Ans → Disk → Prop}

omit [Externals] in
theorem creates_file {dir : Dir} {c : Call dir.Contents} (hc : c.quiet = true) (d : Disk) :
    (file dir c).run.Safe ⟨fun c _ => Creates P c, rel⟩ (Outcome (fun _ _ => True) fun _ => True) d := by
  have hcreates : Creates P (.file dir c) := by
    cases c with
    | create => cases hc
    | _ => trivial
  refine safe_orFail ⟨hcreates, ?_⟩
  rintro (e | v) _ - <;> exact trivial

omit [Externals] in
theorem creates_replaceVia {C E : Type} {temporary path : String} {contents : C} (h : P temporary) :
    (replaceVia temporary path contents : FileM C E Unit).run.Safe
      ⟨fun c (_ : Unit) => ∀ name, c = .create name → P name, fun _ _ _ _ => True⟩
      (Outcome (fun _ _ => True) fun _ => True) () := by
  have hcall : ∀ {c : Call C}, (∀ name, c = .create name → P name) →
      (attempt c : FileM C E _).run.Safe
        ⟨fun c (_ : Unit) => ∀ name, c = .create name → P name, fun _ _ _ _ => True⟩
        (Outcome (fun _ _ => True) fun _ => True) () := by
    intro c hc
    refine ⟨hc, ?_⟩
    rintro (e | v) _ - <;> exact trivial
  refine safe_seq (hcall (by rintro _ ⟨⟩; exact h)) fun _ _ _ => ?_
  refine safe_seq (hcall nofun) fun _ _ _ => ?_
  refine safe_seq (Q := fun _ _ => True) ⟨nofun, ?_⟩ fun _ _ _ => ?_
  · rintro (e | ⟨⟩) _ -
    · exact ⟨nofun, fun _ _ _ => trivial⟩
    · exact trivial
  refine safe_seq (Q := fun _ _ => True) ⟨nofun, ?_⟩ fun _ _ _ => hcall nofun
  rintro (e | ⟨⟩) _ -
  · exact ⟨nofun, fun _ _ _ => trivial⟩
  · exact trivial

omit [Externals] in
theorem creates_atomicWrite {dir : Dir} {path : String} {contents : dir.Contents}
    (h : ∀ stamp, P (temporary path stamp)) (d : Disk) :
    (atomicWrite dir path contents).run.Safe ⟨fun c _ => Creates P c, rel⟩
      (Outcome (fun _ _ => True) fun _ => True) d := by
  refine safe_seq (creates_file rfl d) fun _ d _ => ?_
  refine safe_seq (Q := fun _ _ => True) ?_ fun _ d _ => ?_
  · exact safe_seq (creates_file rfl d) fun _ d _ =>
      safe_lift trivial fun _ _ => trivial
  refine safe_then (safe_liftProg ⟨trivial, fun stamp d _ => ?_⟩)
  refine safe_orFail (Safe.mono (Safe.subst (R := fun _ => ())
    (fun _ _ _ => trivial) (fun _ _ _ => trivial) ?_ (creates_replaceVia (h stamp))) ?_)
  swap
  · rintro (e | v) _ h <;> exact h
  intro c d hc _
  refine ⟨?_, fun _ _ _ => trivial⟩
  cases c with
  | create name => exact hc name rfl
  | _ => trivial

theorem creates_saveFreshLocked (snapshot : AuthSnapshot) (d : Disk) :
    (saveFreshLocked snapshot).run.Safe ⟨fun c _ => Creates (Orphan state) c, rel⟩
      (Outcome (fun _ _ => True) fun _ => True) d := by
  refine safe_then (safe_lift trivial fun id _ => ?_)
  refine safe_then (safe_liftProg ⟨trivial, fun nonce d _ => ?_⟩)
  refine safe_seq (creates_file rfl d) fun _ d _ => ?_
  refine safe_then (safe_lift trivial fun _ _ => ?_)
  refine safe_seq (Q := fun _ _ => True) ?_ fun _ d _ =>
    safe_seq (creates_file rfl d) fun _ _ _ => trivial
  refine safe_then (safe_lift trivial fun _ _ => ?_)
  refine safe_then (safe_lift trivial fun _ _ => ?_)
  refine safe_seq (creates_file rfl d) fun _ d _ => ?_
  exact creates_atomicWrite (orphan_temporary (generatedRef_freshKey nonce id)) d

end Fresh

/-- **The collection is exact.** The entries that were to go were files, and are gone, and
everything else is as it was. Whatever an interrupted save of fresh credentials leaves is to go. -/
theorem collection_exact (state : RegistryState) (d : Disk) :
    (collectOrphansLocked state).run.Safe listing
      (Outcome (fun _ d' => d' .state = d .state ∧ ∀ name, (Orphan state name →
          (d .vault).entries name ≠ some .other ∧ (d' .vault).entries name = none) ∧
        (¬ Orphan state name → (d' .vault).entries name = (d .vault).entries name))
        fun _ => True) d ∧
    ∀ snapshot rel, (saveFreshLocked snapshot).run.Safe ⟨fun c _ => Creates (Orphan state) c, rel⟩
      (Outcome (fun _ _ => True) fun _ => True) d := by
  refine ⟨?_, fun snapshot rel => creates_saveFreshLocked snapshot d⟩
  refine safe_then (safe_look rfl fun _ _ _ => ?_)
  refine safe_then (safe_look rfl fun found hfound hlists => ?_)
  rcases found with _ | names
  · have hnone := hfound.2.1 rfl
    exact ⟨rfl, fun name => ⟨fun _ => by simp [hnone name], fun _ => rfl⟩⟩
  refine safe_collectEntries_listing.mono ?_
  rintro (e | ⟨⟩) d' h
  · exact trivial
  refine ⟨h.registry, fun name => ?_⟩
  rw [← orphaned_iff]
  refine ⟨fun hname => ?_, fun hname => h.kept name fun _ => Bool.not_eq_true _ ▸ hname⟩
  by_cases hmem : .ok (some name) ∈ names
  · exact ⟨(h.removed name hmem hname).1, (h.removed name hmem hname).2.2⟩
  · -- a name that is not listed is not there
    have hnone : (d .vault).entries name = none := by
      by_contra hthere
      exact hmem (hlists names rfl name hthere)
    rw [h.kept name fun hin => absurd hin hmem, hnone]
    exact ⟨nofun, rfl⟩

end OnDisk

end CodexMarathon
