/-
**Imports that are repeated.**

Under the policies `skip` and `rename`, no account that is registered is written over.  So when a
backup has been imported, every one of its accounts is registered, or its alias is taken and it was
skipped for that; the same import then skips all of them, and has nothing to write.
-/

import CodexMarathon.Service.Names
import CodexMarathon.Transfer.Rename

namespace CodexMarathon.Transfer

open Auth Result

/-- The account is registered, or, if the policy is to skip it then, its alias is taken. -/
def Settled (conflict : ConflictPolicy) (aliasOf : String → Option String) (id aliasName : String) :
    Prop :=
  (aliasOf id).isSome = true ∨
    conflict = .skip ∧ aliasName ≠ "" ∧ ∃ other, other ≠ id ∧ aliasOf other = some aliasName

theorem Settled.update {conflict : ConflictPolicy} {f : String → Option String}
    {id aliasName new : String} (h : Settled conflict f id aliasName) (hnew : f new = none)
    (newAlias : String) : Settled conflict (Function.update f new (some newAlias)) id aliasName := by
  rcases h with h | ⟨hskip, hne, other, hother, halias⟩
  · refine .inl ?_
    rw [Function.update_of_ne, h]
    rintro rfl
    rw [hnew] at h
    cases h
  · refine .inr ⟨hskip, hne, other, hother, ?_⟩
    rw [Function.update_of_ne, halias]
    rintro rfl
    rw [hnew] at halias
    cases halias

variable [Externals] {active : String} {conflict : ConflictPolicy} {plan plan' : Plan}
  {entry : AccountRecord × AuthSnapshot} {entries : List (AccountRecord × AuthSnapshot)}

theorem planEntry_of_settled (hconflict : conflict ≠ .replace) (hkeys : plan.planned.keysMatch = true)
    (h : Settled conflict (aliasOf plan.planned) entry.1.id entry.1.aliasName) :
    planEntry active conflict plan entry = .ok (plan.skip entry.1) := by
  unfold planEntry
  rcases h with h | ⟨rfl, htaken⟩
  · rw [aliasOf, Option.isSome_map] at h
    exact if_pos ⟨h, hconflict⟩
  · have hcol := (collides_iff hkeys).2 htaken
    simp only [hcol, if_true, resolveCollision]
    split_ifs <;> simp_all

theorem settled_of_planEntry (hconflict : conflict ≠ .replace) (hkeys : plan.planned.keysMatch = true)
    (h : planEntry active conflict plan entry = .ok plan') :
    Settled conflict (aliasOf plan'.planned) entry.1.id entry.1.aliasName ∧
      plan'.planned.keysMatch = true ∧ ∀ id aliasName,
        Settled conflict (aliasOf plan.planned) id aliasName →
          Settled conflict (aliasOf plan'.planned) id aliasName := by
  by_cases hold : Settled conflict (aliasOf plan.planned) entry.1.id entry.1.aliasName
  · rw [planEntry_of_settled hconflict hkeys hold] at h
    cases h
    exact ⟨hold, hkeys, fun _ _ h => h⟩
  have hnew : aliasOf plan.planned entry.1.id = none :=
    Option.not_isSome_iff_eq_none.1 fun h => hold (.inl h)
  rcases planEntry_eq_ok h with ⟨-, hskip⟩ | ⟨aliasName, rfl, -⟩
  · refine absurd (hskip.imp (fun h => ?_) fun h => ⟨h.1, (collides_iff hkeys).1 h.2⟩) hold
    rwa [aliasOf, Option.isSome_map]
  · change Settled _ (aliasOf (plan.planned.insert entry.1.id _)) _ _ ∧ _
    have halias : aliasOf (plan.planned.insert entry.1.id { entry.1 with aliasName }) = _ :=
      aliasOf_insert entry.1.id { entry.1 with aliasName }
    have hkept : (plan.planned.insert entry.1.id { entry.1 with aliasName }).keysMatch = true :=
      RegistryState.keysMatch_insert hkeys
    refine ⟨.inl ?_, hkept, ?_⟩
    · rw [halias, Function.update_self]
      rfl
    · intro id other h
      change Settled _ (aliasOf (plan.planned.insert entry.1.id _)) _ _
      rw [halias]
      exact h.update hnew aliasName

theorem settled_of_foldlM (hconflict : conflict ≠ .replace) (hkeys : plan.planned.keysMatch = true)
    (h : entries.foldlM (planEntry active conflict) plan = .ok plan') :
    (∀ entry ∈ entries, Settled conflict (aliasOf plan'.planned) entry.1.id entry.1.aliasName) ∧
      ∀ id aliasName, Settled conflict (aliasOf plan.planned) id aliasName →
        Settled conflict (aliasOf plan'.planned) id aliasName := by
  induction entries generalizing plan with
  | nil =>
    cases h
    exact ⟨List.forall_mem_nil _, fun _ _ h => h⟩
  | cons entry entries ih =>
    rw [List.foldlM_cons] at h
    obtain ⟨next, hturn, h⟩ := bind_eq_ok.1 h
    obtain ⟨hentry, hkeys, hkept⟩ := settled_of_planEntry hconflict hkeys hturn
    obtain ⟨hrest, hkept'⟩ := ih hkeys h
    exact ⟨List.forall_mem_cons.2 ⟨hkept' _ _ hentry, hrest⟩, fun _ _ h => hkept' _ _ (hkept _ _ h)⟩

theorem planImport_of_settled {state : RegistryState} (hconflict : conflict ≠ .replace)
    (hkeys : state.keysMatch = true) (halias : (aliases state).Nodup)
    (h : ∀ entry ∈ entries, Settled conflict (aliasOf state) entry.1.id entry.1.aliasName) :
    planImport state entries conflict false = .ok (⟨[], [], entries.map summary, false⟩, []) := by
  have hfold : ∀ plan : Plan, plan.planned = state →
      entries.foldlM (planEntry state.activeAccountId conflict) plan = .ok { plan with
        report := { plan.report with skipped := plan.report.skipped ++ entries.map summary } } := by
    clear halias
    induction entries with
    | nil => simp [pure, Except.pure]
    | cons entry entries ih =>
      intro plan hplan
      obtain ⟨hentry, hrest⟩ := List.forall_mem_cons.1 h
      rw [List.foldlM_cons, planEntry_of_settled hconflict (hplan ▸ hkeys) (hplan ▸ hentry)]
      refine (ih hrest (plan.skip entry.1) hplan).trans ?_
      simp [Plan.skip, summary]
  refine bind_eq_ok.2 ⟨_, hfold ⟨state, [], ⟨[], [], [], false⟩⟩ rfl, ?_⟩
  exact bind_eq_ok.2 ⟨(), require_eq_ok.2 halias, rfl⟩

variable {cfg : Config} {manifest : Manifest}

theorem validateManifest_of_times {times : ℕ → DateTime}
    (h : validateManifest cfg times manifest = .ok entries) (times' : ℕ → DateTime) :
    ∃ entries', validateManifest cfg times' manifest = .ok entries' := by
  have hloop : ∀ {accounts seen entries}, validateEntries cfg times seen accounts = .ok entries →
      ∃ entries', validateEntries cfg times' seen accounts = .ok entries' := by
    intro accounts
    induction accounts with
    | nil => exact fun _ => ⟨[], rfl⟩
    | cons account accounts ih =>
      intro seen entries h
      obtain ⟨entry, hentry, h⟩ := bind_eq_ok.1 h
      obtain ⟨others, hothers, -⟩ := bind_eq_ok.1 h
      obtain ⟨others', hothers'⟩ := ih hothers
      have hacc := validateEntry_eq_ok_iff.1 hentry
      obtain ⟨record, hrecord⟩ : ∃ record,
          AccountRecord.new account.id account.aliasName (times' seen.length) = .ok record :=
        ⟨_, bind_eq_ok.2 ⟨(), hacc.id, bind_eq_ok.2 ⟨(), hacc.aliasName, rfl⟩⟩⟩
      have hentry' : validateEntry cfg (times' seen.length) seen account = .ok (record, entry.2) :=
        validateEntry_eq_ok_iff.2 { hacc with record := hrecord }
      exact ⟨_, bind_eq_ok.2 ⟨_, hentry', bind_eq_ok.2 ⟨_, hothers', rfl⟩⟩⟩
  obtain ⟨⟨⟩, hversion, h⟩ := bind_eq_ok.1 h
  obtain ⟨⟨⟩, hdate, h⟩ := bind_eq_ok.1 h
  obtain ⟨⟨⟩, hcount, h⟩ := bind_eq_ok.1 h
  obtain ⟨entries', hentries⟩ := hloop h
  exact ⟨entries', bind_eq_ok.2 ⟨(), hversion, bind_eq_ok.2 ⟨(), hdate,
    bind_eq_ok.2 ⟨(), hcount, hentries⟩⟩⟩⟩

/-- **An import that is repeated skips everything**, where nothing else was written since, at
whatever time. -/
theorem import_again {passphrase : String} {times times' : ℕ → DateTime} {report : ImportReport}
    {w w' again : World} (hconflict : conflict ≠ .replace)
    (hfirst : w.transfer (.ok manifest) times (importAccounts cfg passphrase conflict false) =
      (.ok report, w'))
    (hstore : again.store = w'.store) (hlock : again.storeFault .lockExclusive = none)
    (hread : again.storeFault .stateLocked = none) :
    again.transfer (.ok manifest) times' (importAccounts cfg passphrase conflict false) =
      (.ok ⟨[], [], manifest.accounts.map fun account => ⟨account.id, account.aliasName⟩, false⟩,
        again) := by
  obtain ⟨hpas, _, entries, ⟨⟩, hval, hrun⟩ := transfer_importAccounts_eq_ok.1 hfirst
  obtain ⟨state, changes, published, hstate, hplan, hnames, hpub⟩ := transfer_importLocked_eq_ok hrun
  obtain ⟨entries', hval'⟩ := validateManifest_of_times hval times'
  have hkeys := (loadUnlocked_valid hstate).keys
  have halias : aliasOf published = aliasOf (withChanges state changes) := funext hnames
  have hnamesOf : ∀ {times entries}, validateManifest cfg times manifest = .ok entries →
      manifest.accounts.map (fun account => (account.id, account.aliasName)) =
        entries.map fun entry => (entry.1.id, entry.1.aliasName) := fun h =>
    Archived.map_eq (fun h => by rw [h.id, h.aliasName]) (validateManifest_eq_ok h).1
  -- what the first plan has settled is settled in the registry that was published
  obtain ⟨plan, hfold, h⟩ := bind_eq_ok.1 hplan
  obtain ⟨⟨⟩, hnodup, hpure⟩ := bind_eq_ok.1 h
  cases hpure
  rw [require_eq_ok, planned_of_foldlM hfold rfl,
    nodup_aliases_iff (keysMatch_withChanges hkeys), ← halias,
    ← nodup_aliases_iff (loadUnlocked_valid hpub).keys] at hnodup
  have hsettled := (settled_of_foldlM hconflict hkeys hfold).1
  rw [planned_of_foldlM hfold rfl, ← halias] at hsettled
  have hsettled' : ∀ entry ∈ entries',
      Settled conflict (aliasOf published) entry.1.id entry.1.aliasName := by
    intro entry hentry
    have hmem := List.mem_map_of_mem (f := fun entry => (entry.1.id, entry.1.aliasName)) hentry
    rw [← hnamesOf hval', hnamesOf hval] at hmem
    obtain ⟨first, hfirst, heq⟩ := List.mem_map.1 hmem
    obtain ⟨hid, hname⟩ := Prod.mk.inj heq
    rw [← hid, ← hname]
    exact hsettled first hfirst
  have hplan' := planImport_of_settled hconflict (loadUnlocked_valid hpub).keys hnodup hsettled'
  have hreport : entries'.map summary =
      manifest.accounts.map fun account => ⟨account.id, account.aliasName⟩ := by
    have h := congrArg (List.map fun x => (⟨x.1, x.2⟩ : AccountSummary)) (hnamesOf hval')
    rw [List.map_map, List.map_map] at h
    exact h.symm
  refine transfer_importAccounts_eq_ok.2 ⟨hpas, manifest, entries', rfl, hval', ?_⟩
  refine transfer_bind_eq_ok.2 ⟨(), again, ?_, transfer_bind_eq_ok.2 ⟨published, again, ?_, ?_⟩⟩
  · exact transfer_store_of_eq_ok (faulty_eq_ok.2 ⟨hlock, rfl⟩)
  · rw [← hstore] at hpub
    exact transfer_store_of_eq_ok (faulty_eq_ok.2 ⟨hread, map_eq_ok.2 ⟨published, hpub, rfl⟩⟩)
  · refine transfer_bind_eq_ok.2 ⟨_, again, transfer_check_eq_ok.2 ⟨hplan', rfl⟩, ?_⟩
    rw [if_pos rfl, hreport]
    rfl

omit [Externals] in
theorem import_again_sample :
    letI := Externals.sample
    let cfg : Config := ⟨fun text => some (asciiBytes text), fun _ => true⟩
    let imported := World.sample.transfer (.ok .colliding) (fun _ => .epoch)
      (importAccounts cfg "correct horse" .rename false)
    imported.1 = .ok ⟨[⟨"c", "b (2)"⟩], [], [⟨"a", "home"⟩], false⟩ ∧
      imported.2.transfer (.ok .colliding) (fun _ => .sample)
        (importAccounts cfg "correct horse" .rename false) =
          (.ok ⟨[], [], [⟨"a", "home"⟩, ⟨"c", "b"⟩], false⟩, imported.2) := by
  let := Externals.sample
  intro cfg imported
  have hok : imported.1 = .ok ⟨[⟨"c", "b (2)"⟩], [], [⟨"a", "home"⟩], false⟩ := by decide +kernel
  have hfirst : imported = (.ok ⟨[⟨"c", "b (2)"⟩], [], [⟨"a", "home"⟩], false⟩, imported.2) := by
    rw [← hok]
  have hlock : imported.2.storeFault .lockExclusive = none := by decide +kernel
  have hread : imported.2.storeFault .stateLocked = none := by decide +kernel
  exact ⟨hok, import_again (by decide) hfirst rfl hlock hread⟩

end CodexMarathon.Transfer
