/-
**Imports that replace.**

Under the policy `replace` the entries of a backup are written over the registry one after the other.
A turn compares the alias of its entry with the registry as it is then, in which the accounts of the
later entries still have their old aliases.
-/

import CodexMarathon.Transfer.Import

namespace CodexMarathon.Transfer

open Auth Result

variable [Externals]

section

variable {state : RegistryState} {entries order : List (AccountRecord × AuthSnapshot)} {id : String}

theorem get?_withChanges_of_forall_ne (h : ∀ entry ∈ entries, entry.1.id ≠ id) :
    (withChanges state entries).get? id = state.get? id := by
  induction entries generalizing state with
  | nil => rfl
  | cons entry entries ih =>
    obtain ⟨hne, h⟩ := List.forall_mem_cons.1 h
    exact (ih h).trans (RegistryState.get?_insert_of_ne hne.symm)

theorem get?_withChanges_of_mem {entry : AccountRecord × AuthSnapshot}
    (hids : (entries.map (·.1.id)).Nodup) (h : entry ∈ entries) :
    (withChanges state entries).get? entry.1.id = some entry.1 := by
  induction entries generalizing state with
  | nil => cases h
  | cons first entries ih =>
    obtain ⟨hid, hids⟩ := List.nodup_cons.1 hids
    rcases List.mem_cons.1 h with rfl | h
    · change (withChanges (state.insert entry.1.id entry.1) entries).get? _ = _
      rw [get?_withChanges_of_forall_ne, RegistryState.get?_insert_self]
      exact fun other hother heq => hid (List.mem_map.2 ⟨other, hother, heq⟩)
    · exact ih hids h

theorem get?_withChanges_perm (hids : (entries.map (·.1.id)).Nodup) (hperm : order.Perm entries) :
    (withChanges state order).get? id = (withChanges state entries).get? id := by
  by_cases hentry : ∃ entry ∈ entries, entry.1.id = id
  · obtain ⟨entry, hmem, rfl⟩ := hentry
    rw [get?_withChanges_of_mem hids hmem,
      get?_withChanges_of_mem ((hperm.map _).nodup_iff.2 hids) (hperm.mem_iff.2 hmem)]
  · have hne : ∀ entry ∈ entries, entry.1.id ≠ id := fun entry hmem heq => hentry ⟨entry, hmem, heq⟩
    rw [get?_withChanges_of_forall_ne hne,
      get?_withChanges_of_forall_ne fun entry hmem => hne entry (hperm.mem_iff.1 hmem)]

theorem aliasOf_withChanges_of_mem {entry : AccountRecord × AuthSnapshot}
    (hids : (entries.map (·.1.id)).Nodup) (h : entry ∈ entries) :
    aliasOf (withChanges state entries) entry.1.id = some entry.1.aliasName := by
  rw [aliasOf, get?_withChanges_of_mem hids h]
  rfl

end

section

variable {active : String} {plan plan' : Plan} {entry : AccountRecord × AuthSnapshot}
  {entries order : List (AccountRecord × AuthSnapshot)} {state : RegistryState}

theorem planEntry_replace (hactive : active ≠ entry.1.id) : planEntry active .replace plan entry =
      if collides plan.planned entry.1.id entry.1.aliasName then .error .aliasConflict
      else .ok (plan.accept (plan.planned.get? entry.1.id).isSome entry.1 entry.2) := by
  unfold planEntry
  simp only [ne_eq, not_true_eq_false, and_false, if_false, hactive, resolveCollision]

theorem changes_of_replace (hactive : ∀ entry ∈ entries, active ≠ entry.1.id)
    (h : entries.foldlM (planEntry active .replace) plan = .ok plan') :
    plan'.changes = plan.changes ++ entries := by
  induction entries generalizing plan with
  | nil =>
    cases h
    exact (List.append_nil _).symm
  | cons entry entries ih =>
    obtain ⟨hentry, hactive⟩ := List.forall_mem_cons.1 hactive
    rw [List.foldlM_cons, planEntry_replace hentry] at h
    split_ifs at h
    · cases h
    · rw [ih hactive h, Plan.accept, List.append_assoc, List.singleton_append]

theorem replace_eq_ok {dryRun : Bool} {report : ImportReport}
    (hactive : ∀ entry ∈ order, state.activeAccountId ≠ entry.1.id)
    (h : planImport state order .replace dryRun = .ok (report, entries)) :
    entries = order ∧ (aliases (withChanges state order)).Nodup := by
  obtain ⟨plan, hfold, h⟩ := bind_eq_ok.1 h
  obtain ⟨⟨⟩, hnodup, hpure⟩ := bind_eq_ok.1 h
  cases hpure
  have hchan : plan.changes = order := changes_of_replace hactive hfold
  rw [require_eq_ok, planned_of_foldlM hfold rfl, hchan] at hnodup
  exact ⟨hchan, hnodup⟩

def Takes (state : RegistryState) (account other : AccountRecord) : Prop :=
  account.aliasName ≠ "" ∧ other.id ≠ account.id ∧ aliasOf state other.id = some account.aliasName

omit [Externals] in
instance (state : RegistryState) (account other : AccountRecord) :
    Decidable (Takes state account other) :=
  inferInstanceAs (Decidable (_ ∧ _ ∧ _))

theorem collides_eq_false_of_nodup {processed rest : List (AccountRecord × AuthSnapshot)}
    (hkeys : state.keysMatch = true) (hentries : processed ++ entry :: rest = entries)
    (hids : (entries.map (·.1.id)).Nodup) (hnodup : (aliases (withChanges state entries)).Nodup)
    (htakes : ∀ other ∈ entries, ¬ Takes state entry.1 other.1) :
    collides (withChanges state processed) entry.1.id entry.1.aliasName = false := by
  rw [Bool.eq_false_iff]
  intro hcollides
  obtain ⟨hne, id, hid, halias⟩ := (collides_iff (keysMatch_withChanges hkeys)).1 hcollides
  have hentry : entry ∈ entries := hentries ▸ List.mem_append_right _ List.mem_cons_self
  have hids' : (processed.map (·.1.id)).Nodup := by
    rw [← hentries, List.map_append] at hids
    exact hids.of_append_left
  -- no account of the resulting registry has the alias but that of the entry
  have hother : aliasOf (withChanges state entries) id ≠ some entry.1.aliasName := fun hsame =>
    hid ((nodup_aliases_iff (keysMatch_withChanges hkeys)).1 hnodup _ _ _ hne hsame
      (aliasOf_withChanges_of_mem hids hentry))
  by_cases hearlier : ∃ earlier ∈ processed, earlier.1.id = id
  · obtain ⟨earlier, hmem, rfl⟩ := hearlier
    rw [aliasOf_withChanges_of_mem hids' hmem] at halias
    rw [aliasOf_withChanges_of_mem hids (hentries ▸ List.mem_append_left _ hmem)] at hother
    exact hother halias
  have hold : aliasOf state id = some entry.1.aliasName := by
    rw [aliasOf, get?_withChanges_of_forall_ne fun e hmem heq => hearlier ⟨e, hmem, heq⟩] at halias
    exact halias
  by_cases hlater : ∃ later ∈ entries, later.1.id = id
  · obtain ⟨later, hmem, rfl⟩ := hlater
    exact htakes later hmem ⟨hne, hid, hold⟩
  · rw [aliasOf, get?_withChanges_of_forall_ne fun e hmem heq => hlater ⟨e, hmem, heq⟩] at hother
    exact hother hold

theorem foldlM_replace_of_nodup {processed : List (AccountRecord × AuthSnapshot)}
    (hkeys : state.keysMatch = true) (hent : processed ++ order = entries)
    (hplan : plan.planned = withChanges state processed) (hids : (entries.map (·.1.id)).Nodup)
    (hactive : ∀ entry ∈ order, active ≠ entry.1.id)
    (hnodup : (aliases (withChanges state entries)).Nodup)
    (htakes : ∀ entry ∈ entries, ∀ other ∈ entries, ¬ Takes state entry.1 other.1) :
    ∃ plan', order.foldlM (planEntry active .replace) plan = .ok plan' := by
  induction order generalizing plan processed with
  | nil => exact ⟨plan, rfl⟩
  | cons entry order ih =>
    obtain ⟨hentry, hactive⟩ := List.forall_mem_cons.1 hactive
    have hmem : entry ∈ entries := hent ▸ List.mem_append_right _ List.mem_cons_self
    have hfree := collides_eq_false_of_nodup hkeys hent hids hnodup (htakes entry hmem)
    have hturn : planEntry active .replace plan entry = _ := planEntry_replace hentry
    rw [hplan, hfree, if_neg Bool.false_ne_true] at hturn
    have hnext : plan.planned.insert entry.1.id entry.1 =
        withChanges state (processed ++ [entry]) := by
      rw [hplan, withChanges, withChanges, List.foldl_append, List.foldl_cons, List.foldl_nil]
    rw [List.append_cons] at hent
    rw [List.foldlM_cons, hturn]
    exact ih hent hnext hactive

end

/-- **A batch is judged as a whole**: in every order of its entries it is accepted exactly if the
aliases differ in the registry with all of them. -/
def JudgedAsBatch (state : RegistryState) (entries : List (AccountRecord × AuthSnapshot))
    (dryRun : Bool) : Prop :=
  ∀ order : List (AccountRecord × AuthSnapshot), order.Perm entries →
    ((∃ plan, planImport state order .replace dryRun = .ok plan) ↔
        (aliases (withChanges state entries)).Nodup) ∧
      ∀ report changes, planImport state order .replace dryRun = .ok (report, changes) →
        ∀ id, (withChanges state changes).get? id = (withChanges state entries).get? id

/-- **When a batch is judged as a whole.** One whose aliases would repeat is refused in every order;
any other is accepted in every order exactly if no entry takes the alias of another entry's account.
-/
theorem replace_judged_iff {cfg : Config} {times : ℕ → DateTime} {manifest : Manifest}
    {entries : List (AccountRecord × AuthSnapshot)} {state : RegistryState} (dryRun : Bool)
    (hkeys : state.keysMatch = true) (hvalid : validateManifest cfg times manifest = .ok entries)
    (hactive : ∀ entry ∈ entries, state.activeAccountId ≠ entry.1.id) :
    JudgedAsBatch state entries dryRun ↔ ((aliases (withChanges state entries)).Nodup →
        ∀ entry ∈ entries, ∀ other ∈ entries, ¬ Takes state entry.1 other.1) := by
  have hids := (validateManifest_eq_ok hvalid).2
  have hsame : ∀ {order : List (AccountRecord × AuthSnapshot)}, order.Perm entries →
      ((aliases (withChanges state order)).Nodup ↔ (aliases (withChanges state entries)).Nodup) := by
    intro order hperm
    have halias : aliasOf (withChanges state order) = aliasOf (withChanges state entries) :=
      funext fun _ => congrArg _ (get?_withChanges_perm hids hperm)
    rw [nodup_aliases_iff (keysMatch_withChanges hkeys), halias,
      nodup_aliases_iff (keysMatch_withChanges hkeys)]
  constructor
  · -- an entry that takes an alias is refused if it is the first
    rintro hjudged hnodup entry hentry other hother ⟨hne, hid, halias⟩
    obtain ⟨before, after, rfl⟩ := List.append_of_mem hentry
    obtain ⟨⟨plan, hplan⟩, -⟩ := hjudged (entry :: (before ++ after)) List.perm_middle.symm |>.imp_left
      fun h => h.2 hnodup
    obtain ⟨plan, hfold, -⟩ := bind_eq_ok.1 hplan
    have hcol : collides state entry.1.id entry.1.aliasName = true :=
      (collides_iff hkeys).2 ⟨hne, other.1.id, hid, halias⟩
    rw [List.foldlM_cons, planEntry_replace (hactive entry hentry), if_pos hcol] at hfold
    cases hfold
  · intro hfree order hperm
    have hactive' : ∀ entry ∈ order, state.activeAccountId ≠ entry.1.id := fun entry hmem =>
      hactive entry (hperm.mem_iff.1 hmem)
    refine ⟨⟨?_, ?_⟩, ?_⟩
    · rintro ⟨⟨report, changes⟩, hplan⟩
      exact (hsame hperm).1 (replace_eq_ok hactive' hplan).2
    · intro hnodup
      have htakes : ∀ entry ∈ order, ∀ other ∈ order, ¬ Takes state entry.1 other.1 :=
        fun entry hentry other hother =>
          hfree hnodup entry (hperm.mem_iff.1 hentry) other (hperm.mem_iff.1 hother)
      have hnodup' := (hsame hperm).2 hnodup
      obtain ⟨plan, hfold⟩ : ∃ plan, order.foldlM (planEntry state.activeAccountId .replace)
          ⟨state, [], ⟨[], [], [], dryRun⟩⟩ = .ok plan :=
        foldlM_replace_of_nodup hkeys (List.nil_append order) rfl ((hperm.map _).nodup_iff.2 hids)
          hactive' hnodup' htakes
      have hplann : plan.planned = withChanges state plan.changes := planned_of_foldlM hfold rfl
      rw [changes_of_replace hactive' hfold] at hplann
      refine ⟨_, bind_eq_ok.2 ⟨plan, hfold, bind_eq_ok.2 ⟨(), ?_, rfl⟩⟩⟩
      rw [require_eq_ok, hplann]
      exact hnodup'
    · intro report changes hplan id
      rw [(replace_eq_ok hactive' hplan).1]
      exact get?_withChanges_perm hids hperm

def Manifest.renamed (a b : String) : Manifest where
  format := "codexmarathon-accounts"
  version := 1
  createdAt := "2026-01-01T00:00:00Z"
  exporterVersion := "1"
  accounts := [⟨"a", a, "a"⟩, ⟨"b", b, "b"⟩]

def renamedEntries (a b : String) : letI := Externals.sample
    Except TransferError (List (AccountRecord × AuthSnapshot)) :=
  letI := Externals.sample
  validateManifest ⟨fun text => some (asciiBytes text), fun _ => true⟩ (fun _ => .epoch) (.renamed a b)

def idleSample : RegistryState := { RegistryState.sample with activeAccountId := "" }

omit [Externals] in
/-- **Two accounts cannot exchange their aliases**, although the aliases would differ. -/
theorem replace_refuses_swap :
    letI := Externals.sample
    ∃ entries, renamedEntries "b" "a" = .ok entries ∧ idleSample.keysMatch = true ∧
      (aliases idleSample).Nodup ∧ (∀ entry ∈ entries, idleSample.activeAccountId ≠ entry.1.id) ∧
      (aliases (withChanges idleSample entries)).Nodup ∧ ¬ JudgedAsBatch idleSample entries false := by
  let := Externals.sample
  have hsample : ∃ entries ∈ (renamedEntries "b" "a").toOption,
      (∀ entry ∈ entries, idleSample.activeAccountId ≠ entry.1.id) ∧
      (aliases (withChanges idleSample entries)).Nodup ∧
      (planImport idleSample entries .replace false).toOption.isSome = false := by
    decide +kernel
  obtain ⟨entries, hent, hactive, hnodup, href⟩ := hsample
  rw [Option.mem_def, toOption_eq_some] at hent
  refine ⟨entries, hent, by decide, by decide, hactive, hnodup, ?_⟩
  intro hjudged
  obtain ⟨plan, hplan⟩ := (hjudged entries (.refl _)).1.2 hnodup
  rw [hplan] at href
  cases href

omit [Externals] in
theorem replace_judged_sample :
    letI := Externals.sample
    ∃ entries, renamedEntries "x" "y" = .ok entries ∧ idleSample.keysMatch = true ∧
      (∀ entry ∈ entries, idleSample.activeAccountId ≠ entry.1.id) ∧
      (aliases (withChanges idleSample entries)).Nodup ∧ JudgedAsBatch idleSample entries false := by
  let := Externals.sample
  have hsample : ∃ entries ∈ (renamedEntries "x" "y").toOption,
      (∀ entry ∈ entries, idleSample.activeAccountId ≠ entry.1.id) ∧
      (aliases (withChanges idleSample entries)).Nodup ∧
      ∀ entry ∈ entries, ∀ other ∈ entries, ¬ Takes idleSample entry.1 other.1 := by
    decide +kernel
  obtain ⟨entries, hent, hactive, hnodup, hfree⟩ := hsample
  rw [Option.mem_def, toOption_eq_some] at hent
  have hkeys : idleSample.keysMatch = true := by decide
  exact ⟨entries, hent, hkeys, hactive, hnodup,
    (replace_judged_iff false hkeys hent hactive).2 fun _ => hfree⟩

end CodexMarathon.Transfer
