/-
**Listing the vault.**

A document stands in a file named after its key.  `list` takes the suffix off the names it finds, as
often as it stands there, so that a key which ends in the suffix itself is listed as another key.
-/

import CodexMarathon.Store.Collector
import CodexMarathon.Lib.Listing

namespace CodexMarathon

open Result

variable {key name : String} {names : List String}

/-- `trim_end_matches(".json")`, on a name that is read from its end. -/
def trimJson : List Char → List Char
  | 'n' :: 'o' :: 's' :: 'j' :: '.' :: name => trimJson name
  | name => name

def listedKey (name : String) : Option String :=
  let key := String.ofList (trimJson name.toList.reverse).reverse
  if ".json".toList <:+ name.toList ∧ (validateAccountId key).isOk then some key else none

/-- `list`, where the directory holds regular files of these names. -/
def listKeys (names : List String) : List String := Listing.orderBy id (names.filterMap listedKey)

theorem trimJson_of_not_suffix {text : List Char} (h : ¬ ".json".toList <:+ text) :
    trimJson text.reverse = text.reverse := by
  unfold trimJson
  split
  case h_1 rest heq =>
    refine absurd ⟨rest.reverse, ?_⟩ h
    have := congrArg List.reverse heq
    simpa using this.symm
  case h_2 => rfl

theorem listedKey_pathFor (hvalid : validateAccountId key = .ok ())
    (h : ¬ ".json".toList <:+ key.toList) : listedKey (pathFor key) = some key := by
  have hname : (pathFor key).toList = key.toList ++ ".json".toList := by simp [pathFor]
  have htrim : trimJson (pathFor key).toList.reverse = key.toList.reverse := by
    rw [hname, List.reverse_append]
    exact trimJson_of_not_suffix h
  simp only [listedKey, htrim, List.reverse_reverse, String.ofList_toList, hvalid]
  exact if_pos ⟨hname ▸ List.suffix_append _ _, rfl⟩

theorem map_pathFor_filterMap (h : ∀ name ∈ names, ∃ key, name = pathFor key ∧
    listedKey name = some key) : (names.filterMap listedKey).map pathFor = names := by
  induction names with
  | nil => rfl
  | cons name names ih =>
    obtain ⟨⟨key, hname, hkey⟩, h⟩ := List.forall_mem_cons.1 h
    rw [List.filterMap_cons_some hkey, List.map_cons, ih h, ← hname]

section

variable [Externals]

def Store.delete (s : Store) (key : String) : Except DomainError Store := do
  validateAccountId key
  Result.require (s.vault key ≠ none) .snapshotNotFound
  pure { s with vault := Function.update s.vault key none }

inductive VaultCall
  | save (key : String) (snapshot : AuthSnapshot)
  | saveFresh (nonce : Nonce) (snapshot : AuthSnapshot)
  | delete (key : String)

namespace VaultCall

def run (s : Store) : VaultCall → Except DomainError Store
  | save key snapshot => s.saveLocked key snapshot
  | saveFresh nonce snapshot => (s.saveFreshLocked nonce snapshot).map (·.2)
  | delete key => s.delete key

def keeps (kept : Set String) : VaultCall → Set String
  | save key _ => insert key kept
  | saveFresh nonce snapshot =>
    {key | snapshot.embeddedAccountId.map (freshKey nonce) = some key} ∪ kept
  | delete key => kept \ {key}

end VaultCall

structure Store.Holds (s : Store) (kept : Set String) : Prop where
  stored : ∀ key, s.vault key ≠ none ↔ key ∈ kept
  loads : ∀ key ∈ kept, ∃ snapshot, s.loadLocked key = .ok snapshot
  plain : ∀ key ∈ kept, ¬ ".json".toList <:+ key.toList

variable {s s' : Store} {kept : Set String} {snapshot : AuthSnapshot}

theorem Store.Holds.put (h : s.Holds kept) (hload : s'.loadLocked key = .ok snapshot)
    (hother : ∀ key', key' ≠ key → s'.vault key' = s.vault key')
    (hplain : ¬ ".json".toList <:+ key.toList) : s'.Holds (insert key kept) := by
  refine ⟨fun key' => ?_, fun key' hkey' => ?_, fun key' hkey' => ?_⟩ <;>
    by_cases hkey : key' = key
  · subst hkey
    obtain ⟨-, hbytes, -⟩ := Store.loadLocked_eq_ok hload
    simp [hbytes]
  · simp [hkey, hother key' hkey, h.stored key']
  · exact ⟨snapshot, hkey ▸ hload⟩
  · rw [Store.loadLocked_congr (hother key' hkey)]
    exact h.loads key' (hkey'.resolve_left hkey)
  · exact hkey ▸ hplain
  · exact h.plain key' (hkey'.resolve_left hkey)

theorem Store.Holds.run (h : s.Holds kept) {call : VaultCall} (hrun : call.run s = .ok s')
    (hplain : ∀ key snapshot, call = .save key snapshot → ¬ ".json".toList <:+ key.toList) :
    s'.Holds (call.keeps kept) := by
  cases call with
  | save key snapshot =>
    obtain ⟨-, -, hs'⟩ := Store.saveLocked_eq_ok hrun
    refine h.put (Store.loadLocked_saveLocked hrun) (fun key' hne => ?_) (hplain key snapshot rfl)
    rw [hs']
    exact Function.update_of_ne hne _ _
  | saveFresh nonce snapshot =>
    obtain ⟨⟨key, store⟩, hsave, rfl⟩ := map_eq_ok.1 hrun
    have hfresh := Store.saveFreshLocked_eq_ok hsave
    obtain ⟨id, hid, rfl⟩ := Store.saveFreshLocked_key hsave
    have hkeeps : (VaultCall.saveFresh nonce snapshot).keeps kept =
        insert (freshKey nonce id) kept := by
      ext key
      simp [VaultCall.keeps, hid, eq_comm]
    -- a generated key has no dot
    rw [hkeeps]
    refine h.put hfresh.load hfresh.other fun hsuffix => ?_
    exact not_mem_of_generatedRef hfresh.generated (hsuffix.subset (by simp))
  | delete key =>
    have hrun := ok_of_bind hrun
    have hrun := ok_of_bind hrun
    obtain rfl := Except.ok.inj hrun
    refine ⟨fun key' => ?_, fun key' hkey' => ?_, fun key' hkey' => h.plain key' hkey'.1⟩
    · by_cases hkey : key' = key
      · simp [VaultCall.keeps, hkey]
      · simp [VaultCall.keeps, hkey, h.stored key']
    · rw [Store.loadLocked_congr (Function.update_of_ne hkey'.2 _ _)]
      exact h.loads key' hkey'.1

theorem Store.Holds.runs (h : s.Holds kept) {calls : List VaultCall}
    (hrun : calls.foldlM VaultCall.run s = .ok s')
    (hplain : ∀ key snapshot, .save key snapshot ∈ calls → ¬ ".json".toList <:+ key.toList) :
    s'.Holds (calls.foldl VaultCall.keeps kept) := by
  induction calls generalizing s kept with
  | nil =>
    obtain rfl := Except.ok.inj hrun
    exact h
  | cons call calls ih =>
    obtain ⟨t, hcall, hrun⟩ := bind_eq_ok.1 (List.foldlM_cons.symm.trans hrun)
    refine ih (h.run hcall ?_) hrun fun key snapshot hmem =>
      hplain key snapshot (List.mem_cons_of_mem _ hmem)
    rintro key snapshot rfl
    exact hplain key snapshot List.mem_cons_self

/-- **What is listed is what was saved and not deleted since**, and it can be loaded, as long as no
key ends in the suffix. -/
theorem listKeys_saved {calls : List VaultCall} (hempty : ∀ key, s.vault key = none)
    (hrun : calls.foldlM VaultCall.run s = .ok s')
    (hplain : ∀ key snapshot, .save key snapshot ∈ calls → ¬ ".json".toList <:+ key.toList)
    (hnodup : names.Nodup)
    (hnames : ∀ name, name ∈ names ↔ ∃ key, name = pathFor key ∧ s'.vault key ≠ none) :
    (listKeys names).Pairwise (· < ·) ∧
      (∀ key, key ∈ listKeys names ↔ key ∈ calls.foldl VaultCall.keeps ∅) ∧
      ∀ key ∈ listKeys names, ∃ snapshot, s'.loadLocked key = .ok snapshot := by
  have hstart : s.Holds ∅ := ⟨by simp [hempty], by simp, by simp⟩
  have hholds := hstart.runs hrun hplain
  have hlisted : ∀ name ∈ names, ∃ key, name = pathFor key ∧ listedKey name = some key := by
    intro name hname
    obtain ⟨key, rfl, hkey⟩ := (hnames name).1 hname
    rw [hholds.stored] at hkey
    obtain ⟨snapshot, hload⟩ := hholds.loads key hkey
    obtain ⟨hvalid, -⟩ := Store.loadLocked_eq_ok hload
    exact ⟨key, rfl, listedKey_pathFor hvalid (hholds.plain key hkey)⟩
  have hmap := map_pathFor_filterMap hlisted
  have hmem : ∀ key, key ∈ listKeys names ↔ key ∈ calls.foldl VaultCall.keeps ∅ := by
    intro key
    rw [listKeys, Listing.mem_orderBy, ← hholds.stored,
      ← List.mem_map_of_injective fun _ _ => pathFor_injective, hmap, hnames]
    constructor
    · rintro ⟨key', hname, hkey'⟩
      exact pathFor_injective hname ▸ hkey'
    · intro hkey
      exact ⟨key, rfl, hkey⟩
  refine ⟨?_, hmem, fun key hkey => hholds.loads key ((hmem key).1 hkey)⟩
  have hkeys : (listKeys names).Nodup :=
    (Listing.perm_orderBy id _).nodup_iff.2 (.of_map pathFor (hmap.symm ▸ hnodup))
  exact ((Listing.pairwise_orderBy id _).and hkeys).imp fun h => lt_of_le_of_ne h.1 h.2

end

/-- **A key that ends in the suffix is listed as another one**, which cannot be loaded. -/
theorem listKeys_wrong :
    let := Externals.sample
    let document : AuthSnapshot := ⟨some "a.json", asciiBytes "a.json", rfl⟩
    ∃ s, (VaultCall.save "a.json" document).run ⟨none, fun _ => none⟩ = .ok s ∧
      (∀ key, s.vault key ≠ none ↔ key = "a.json") ∧ listKeys [pathFor "a.json"] = ["a"] ∧
      s.loadLocked "a" = .error .snapshotNotFound := by
  refine ⟨⟨none, Function.update (fun _ => none) "a.json" (some (asciiBytes "a.json"))⟩, rfl, ?_,
    by decide +kernel, rfl⟩
  intro key
  by_cases hkey : key = "a.json" <;> simp [hkey]

theorem listKeys_saved_sample :
    let := Externals.sample
    let document : AuthSnapshot := ⟨some "a", asciiBytes "a", rfl⟩
    ∀ key, key ∈ listKeys [pathFor "a"] ↔
      key ∈ [VaultCall.save "a" document].foldl VaultCall.keeps ∅ := by
  intro _ document
  have hrun : [VaultCall.save "a" document].foldlM VaultCall.run ⟨none, fun _ => none⟩ =
      .ok ⟨none, Function.update (fun _ => none) "a" (some (asciiBytes "a"))⟩ := rfl
  refine (listKeys_saved (fun _ => rfl) hrun ?_ (List.nodup_singleton _) ?_).2.1
  · intro key snapshot hmem
    cases List.mem_singleton.1 hmem
    decide +kernel
  · intro name
    constructor
    · intro hname
      exact ⟨"a", List.mem_singleton.1 hname, by simp⟩
    · rintro ⟨key, rfl, hkey⟩
      obtain rfl : key = "a" := by
        by_contra hne
        simp [hne] at hkey
      exact List.mem_singleton_self _

end CodexMarathon
