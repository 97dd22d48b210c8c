/-
**Imports that rename.**

Under the policy `rename`, an account of a backup whose alias is taken gets a number behind it:
`work` becomes `work (2)`, or the first higher number that is free.  An alias that would become too
long is cut, one character at a time.  The numbers that are tried outnumber the accounts.
-/

import CodexMarathon.Lib.Utf8
import CodexMarathon.Transfer.Import
import Mathlib.Data.List.Induction

namespace CodexMarathon

open Result

theorem trim_eq_self {s : String} (hhead : ∀ c ∈ s.toList.head?, isWhitespace c = false)
    (hlast : ∀ c ∈ s.toList.getLast?, isWhitespace c = false) : trim s = s := by
  have hkeep : ∀ {cs : List Char}, (∀ c ∈ cs.head?, isWhitespace c = false) →
      cs.dropWhile isWhitespace = cs := by
    intro cs h
    cases cs with
    | nil => rfl
    | cons c cs => exact List.dropWhile_cons_of_neg (by simp [h c rfl])
  rw [← List.head?_reverse] at hlast
  rw [trim, hkeep hhead, hkeep hlast, List.reverse_reverse, String.ofList_toList]

theorem isWhitespace_head_of_trim {s : String} (h : trim s = s) :
    ∀ c ∈ s.toList.head?, isWhitespace c = false := by
  intro c hc
  by_contra hblank
  rw [Bool.not_eq_false] at hblank
  obtain ⟨cs, hcs⟩ := List.head?_eq_some_iff.1 hc
  have hlength := congrArg (fun s => s.toList.length) h
  simp only [trim, String.toList_ofList, List.length_reverse, hcs,
    List.dropWhile_cons_of_pos hblank, List.length_cons] at hlength
  have h₁ := (List.dropWhile_suffix isWhitespace (l := (cs.dropWhile isWhitespace).reverse)).length_le
  have h₂ := (List.dropWhile_suffix isWhitespace (l := cs)).length_le
  rw [List.length_reverse] at h₁
  omega

namespace Transfer

open Auth

/-- `none` stands for a slice that does not end with a character, or more than `fuel` rounds. -/
def truncate (room : ℕ) : ℕ → List Char → Option (Except TransferError (List Char))
  | 0, _ => none
  | fuel + 1, stem =>
    if (String.ofList stem).utf8ByteSize + room ≤ 256 then some (.ok stem)
    else
      match (Utf8.charIndices 0 stem).getLast? with
      | none => some (.error .format)
      | some (index, _) => (Utf8.sliceTo stem index).bind (truncate room fuel)

def candidate (base : String) (n : ℕ) : Option (Except TransferError String) :=
  let suffix := " (" ++ toString n ++ ")"
  (truncate suffix.utf8ByteSize (base.toList.length + 1) base.toList).map fun stem =>
    stem.map fun stem => String.ofList stem ++ suffix

theorem utf8ByteSize_reverse (cs : List Char) :
    (String.ofList cs.reverse).utf8ByteSize = (String.ofList cs).utf8ByteSize := by
  rw [Utf8.utf8ByteSize_ofList, Utf8.utf8ByteSize_ofList, Utf8.length_encode_reverse]

theorem truncate_eq (room : ℕ) (stem : List Char) :
    truncate room (stem.length + 1) stem = some ((fitPrefix room stem.reverse).map List.reverse) := by
  induction stem using List.reverseRecOn with
  | nil =>
    have hsize : (String.ofList []).utf8ByteSize = 0 := rfl
    simp only [List.length_nil, truncate, hsize, Nat.zero_add, List.reverse_nil, fitPrefix]
    split_ifs <;> rfl
  | append_singleton stem c ih =>
    obtain ⟨index, hindex, hslice⟩ := Utf8.sliceTo_lastIndex stem c
    have hsize := utf8ByteSize_reverse (stem ++ [c])
    rw [List.reverse_append, List.reverse_singleton, List.singleton_append] at hsize ⊢
    rw [List.length_append, List.length_singleton, truncate, fitPrefix, hsize]
    split_ifs with hfits
    · simp [Except.map]
    · simp only [hindex, hslice, Option.bind_some]
      exact ih

theorem candidate_eq (base : String) (n : ℕ) : candidate base n = some (numbered base n) := by
  unfold candidate numbered
  simp only [truncate_eq, Option.map_some]
  cases fitPrefix _ _ with
  | error e => rfl
  | ok stem => rfl

/-! ### Numbered aliases -/

theorem fitPrefix_eq_ok {room : ℕ} (hroom : room + 4 ≤ 256) (cs : List Char) :
    ∃ stem, fitPrefix room cs = .ok stem ∧ stem <:+ cs ∧
      (String.ofList stem).utf8ByteSize + room ≤ 256 ∧ stem.getLast? = cs.getLast? := by
  induction cs with
  | nil => exact ⟨[], if_pos (by omega), List.suffix_refl _, by change 0 + room ≤ 256; omega, rfl⟩
  | cons c cs ih =>
    rw [fitPrefix]
    split_ifs with hfits
    · exact ⟨c :: cs, rfl, List.suffix_refl _, hfits, rfl⟩
    obtain ⟨stem, hstem, hsuffix, hsize, hlast⟩ := ih
    refine ⟨stem, hstem, hsuffix.trans (List.suffix_cons c cs), hsize, ?_⟩
    -- a single character would have left room
    have hne : cs ≠ [] := by
      rintro rfl
      refine hfits ?_
      rw [Utf8.utf8ByteSize_ofList, Utf8.encode_cons, Utf8.encode_nil, List.append_nil,
        String.length_utf8EncodeChar]
      have := c.utf8Size_le_four
      omega
    rw [hlast, List.getLast?_cons_of_ne_nil hne]

structure Numbered (base : String) (n : ℕ) (aliasName : String) (stem : List Char) : Prop where
  text : aliasName.toList = stem ++ ' ' :: '(' :: (Nat.toDigits 10 n ++ [')'])
  begins : stem <+: base.toList
  head : stem.head? = base.toList.head?
  size : aliasName.utf8ByteSize ≤ 256

theorem isDigit_of_mem {n : ℕ} {c : Char} (h : c ∈ Nat.toDigits 10 n) : c.isDigit = true :=
  Nat.isDigit_of_mem_toDigits (by decide) (by decide) h

theorem toNat_of_mem {n : ℕ} {c : Char} (h : c ∈ Nat.toDigits 10 n) :
    48 ≤ c.toNat ∧ c.toNat ≤ 57 := by
  have hdigit := isDigit_of_mem h
  simp only [Char.isDigit, Bool.and_eq_true, decide_eq_true_eq] at hdigit
  exact hdigit

theorem toList_suffix (n : ℕ) :
    (" (" ++ toString n ++ ")").toList = ' ' :: '(' :: (Nat.toDigits 10 n ++ [')']) := by
  rw [String.toList_append, String.toList_append, Nat.toString_eq_repr, Nat.toList_repr]
  rfl

theorem utf8ByteSize_suffix_le {n : ℕ} (hn : n < 10 ^ 20) :
    (" (" ++ toString n ++ ")").utf8ByteSize ≤ 23 := by
  have hascii : ∀ c ∈ ' ' :: '(' :: (Nat.toDigits 10 n ++ [')']), c.toNat < 128 := by
    simp only [List.forall_mem_cons, List.forall_mem_append]
    refine ⟨by decide, by decide, ?_, by decide, List.forall_mem_nil _⟩
    intro c hc
    exact Nat.lt_of_le_of_lt (toNat_of_mem hc).2 (by decide)
  have hdigits := (Nat.length_toDigits_le_iff (by decide) (by decide)).2 hn
  rw [← String.ofList_toList (s := " (" ++ toString n ++ ")"), toList_suffix,
    Utf8.utf8ByteSize_ofList, Utf8.encode_of_ascii hascii, List.length_map, List.length_cons,
    List.length_cons, List.length_append, List.length_singleton]
  omega

theorem numbered_eq_ok (base : String) {n : ℕ} (hn : n < 10 ^ 20) :
    ∃ aliasName stem, numbered base n = .ok aliasName ∧ Numbered base n aliasName stem := by
  have hroom : (" (" ++ toString n ++ ")").utf8ByteSize + 4 ≤ 256 := by
    have := utf8ByteSize_suffix_le hn
    omega
  obtain ⟨stem, hstem, hsuffix, hsize, hlast⟩ := fitPrefix_eq_ok hroom base.toList.reverse
  refine ⟨String.ofList stem.reverse ++ (" (" ++ toString n ++ ")"), stem.reverse, ?_, ?_, ?_, ?_, ?_⟩
  · exact bind_eq_ok.2 ⟨stem, hstem, rfl⟩
  · rw [String.toList_append, String.toList_ofList, toList_suffix]
  · rwa [← List.reverse_suffix, List.reverse_reverse]
  · rw [List.head?_reverse, hlast, List.getLast?_reverse]
  · rw [String.utf8ByteSize_append, utf8ByteSize_reverse]
    exact hsize

theorem validateAlias_eq_ok_iff {value : String} : validateAlias value = .ok () ↔
      trim value = value ∧ value.utf8ByteSize ≤ 256 ∧ ∀ c ∈ value.toList, isControl c = false := by
  simp [validateAlias, require_eq_ok, and_assoc]

namespace Numbered

variable {base : String} {m n : ℕ} {aliasName : String} {stem stem' : List Char}

theorem reverse_text (h : Numbered base n aliasName stem) : aliasName.toList.reverse =
    ')' :: ((Nat.toDigits 10 n).reverse ++ '(' :: ' ' :: stem.reverse) := by
  rw [h.text]
  simp

theorem inj (h : Numbered base m aliasName stem) (h' : Numbered base n aliasName stem') : m = n := by
  -- the digits are what stands before the last parenthesis
  have hdigits : ∀ {n stem}, Numbered base n aliasName stem →
      aliasName.toList.reverse.tail.takeWhile Char.isDigit = (Nat.toDigits 10 n).reverse := by
    intro n stem h
    have hall : ∀ c ∈ (Nat.toDigits 10 n).reverse, c.isDigit = true :=
      fun c hc => isDigit_of_mem (List.mem_reverse.1 hc)
    rw [h.reverse_text, List.tail_cons, List.takeWhile_append_of_pos hall,
      List.takeWhile_cons_of_neg (by decide), List.append_nil]
  have heq := List.reverse_injective ((hdigits h).symm.trans (hdigits h'))
  have hvalue : ∀ n, Nat.ofDigitChars 10 (Nat.toDigits 10 n) 0 = n :=
    fun _ => Nat.ofDigitChars_toDigits (by decide) (by decide)
  rw [← hvalue m, heq, hvalue n]

theorem valid (h : Numbered base n aliasName stem) (hbase : validateAlias base = .ok ())
    (hne : base ≠ "") : validateAlias aliasName = .ok () := by
  obtain ⟨htrim, -, hcon⟩ := validateAlias_eq_ok_iff.1 hbase
  refine validateAlias_eq_ok_iff.2 ⟨trim_eq_self ?_ ?_, h.size, ?_⟩
  · have hhead : aliasName.toList.head? = base.toList.head? := by
      rw [← h.head, h.text, List.head?_append_of_ne_nil]
      intro hnil
      have hempty := h.head
      rw [hnil, List.head?_nil, eq_comm, List.head?_eq_none_iff] at hempty
      exact hne (String.toList_inj.1 hempty)
    rw [hhead]
    exact isWhitespace_head_of_trim htrim
  · rw [← List.head?_reverse, h.reverse_text]
    rintro c ⟨⟩
    decide
  · rw [h.text]
    simp only [List.forall_mem_append, List.forall_mem_cons]
    refine ⟨fun c hc => hcon c (h.begins.mem hc), by decide, by decide, ?_, by decide,
      List.forall_mem_nil _⟩
    intro c hc
    have hdigit := toNat_of_mem hc
    simp only [isControl, Bool.or_eq_false_iff, Bool.and_eq_false_iff, decide_eq_false_iff_not]
    omega

end Numbered

theorem findAlias_eq_ok {taken : String → Bool} {base : String} {ns : List ℕ}
    (hok : ∀ n ∈ ns, ∃ aliasName, numbered base n = .ok aliasName)
    (hfree : ∃ n ∈ ns, ∃ aliasName, numbered base n = .ok aliasName ∧ taken aliasName = false) :
    ∃ n ∈ ns, ∃ aliasName, findAlias taken base ns = .ok aliasName ∧
      numbered base n = .ok aliasName ∧ taken aliasName = false := by
  induction ns with
  | nil =>
    obtain ⟨n, hn, -⟩ := hfree
    cases hn
  | cons n ns ih =>
    obtain ⟨aliasName, hn⟩ := hok n List.mem_cons_self
    have hfind : findAlias taken base (n :: ns) =
        if taken aliasName then findAlias taken base ns else .ok aliasName := by
      rw [findAlias, hn]
      rfl
    rw [hfind]
    cases htaken : taken aliasName with
    | false => exact ⟨n, List.mem_cons_self, aliasName, rfl, hn, htaken⟩
    | true =>
      have hlater : ∃ m ∈ ns, ∃ aliasName, numbered base m = .ok aliasName ∧
          taken aliasName = false := by
        obtain ⟨m, hm, other, hother, hnot⟩ := hfree
        rcases List.mem_cons.1 hm with rfl | hm
        · cases hn.symm.trans hother
          exact absurd htaken (by simp [hnot])
        · exact ⟨m, hm, other, hother, hnot⟩
      obtain ⟨m, hm, hfound⟩ := ih (fun m hm => hok m (List.mem_cons_of_mem _ hm)) hlater
      exact ⟨m, List.mem_cons_of_mem _ hm, hfound⟩

def numbers (planned : RegistryState) : List ℕ :=
  List.range' 2 (planned.records.length + maxAccounts + 1)

theorem findAlias_of_bound {planned : RegistryState} (base id : String)
    (hlength : planned.records.length < 2 ^ 64) : ∃ n ∈ numbers planned, ∃ aliasName stem,
      findAlias (collides planned id) base (numbers planned) = .ok aliasName ∧
        numbered base n = .ok aliasName ∧ Numbered base n aliasName stem ∧
        collides planned id aliasName = false := by
  have hbound : ∀ n ∈ numbers planned, n < 10 ^ 20 := by
    intro n hn
    have hlt := (List.mem_range'_1.1 hn).2
    simp only [maxAccounts] at hlt
    linarith
  have hok : ∀ n ∈ numbers planned, ∃ aliasName stem, numbered base n = .ok aliasName ∧
      Numbered base n aliasName stem := fun n hn => numbered_eq_ok base (hbound n hn)
  have hfree : ∃ n ∈ numbers planned, ∃ aliasName, numbered base n = .ok aliasName ∧
      collides planned id aliasName = false := by
    by_contra hall
    -- otherwise every candidate is the alias of an account
    have hsubset : ((numbers planned).map (numbered base)).Subset
        (planned.records.map fun account => .ok account.aliasName) := by
      intro x hx
      obtain ⟨n, hn, rfl⟩ := List.mem_map.1 hx
      obtain ⟨aliasName, stem, hnum, -⟩ := hok n hn
      have hcol : collides planned id aliasName = true := by
        by_contra hnot
        exact hall ⟨n, hn, aliasName, hnum, by simpa using hnot⟩
      simp only [collides, Bool.and_eq_true, List.any_eq_true, decide_eq_true_eq] at hcol
      obtain ⟨other, hother, -, halias⟩ := hcol.2
      rw [hnum, ← halias]
      exact List.mem_map_of_mem hother
    have hnodup : ((numbers planned).map (numbered base)).Nodup := by
      refine List.Nodup.map_on ?_ List.nodup_range'
      intro m hm n hn heq
      obtain ⟨aliasName, stem, hnum, hm⟩ := hok m hm
      obtain ⟨other, stem', hother, hn⟩ := hok n hn
      rw [hnum, hother] at heq
      cases heq
      exact hm.inj hn
    have hle := (List.subperm_of_subset hnodup hsubset).length_le
    rw [List.length_map, List.length_map, numbers, List.length_range'] at hle
    omega
  obtain ⟨n, hn, aliasName, hfind, hnum, hnot⟩ :=
    findAlias_eq_ok (fun n hn => (hok n hn).imp fun _ h => h.choose_spec.1) hfree
  obtain ⟨other, stem, hother, hdes⟩ := hok n hn
  cases hnum.symm.trans hother
  exact ⟨n, hn, aliasName, stem, hfind, hnum, hdes, hnot⟩

variable [Externals]

/-! ### What becomes of an entry -/

def summary (entry : AccountRecord × AuthSnapshot) : AccountSummary := ⟨entry.1.id, entry.1.aliasName⟩

def registered (state : RegistryState) (entry : AccountRecord × AuthSnapshot) : Bool :=
  (state.get? entry.1.id).isSome

/-- The alias is valid and free: the archived one if that is free, and otherwise a numbered one. -/
structure Imports (planned : RegistryState) (entry change : AccountRecord × AuthSnapshot) : Prop where
  account : change = ({ entry.1 with aliasName := change.1.aliasName }, entry.2)
  valid : validateAlias change.1.aliasName = .ok ()
  free : collides planned entry.1.id change.1.aliasName = false
  kept : collides planned entry.1.id entry.1.aliasName = false →
    change.1.aliasName = entry.1.aliasName
  searched : collides planned entry.1.id entry.1.aliasName = true →
    ∃ n ∈ numbers planned, numbered entry.1.aliasName n = .ok change.1.aliasName

def ImportsAll (planned : RegistryState) :
    List (AccountRecord × AuthSnapshot) → List (AccountRecord × AuthSnapshot) → Prop
  | [], [] => True
  | entry :: entries, change :: changes =>
    Imports planned entry change ∧ ImportsAll (planned.insert change.1.id change.1) entries changes
  | _, _ => False

theorem Imports.id {planned : RegistryState} {entry change : AccountRecord × AuthSnapshot}
    (h : Imports planned entry change) : change.1.id = entry.1.id := by
  rw [h.account]

theorem planEntry_rename (active : String) {plan : Plan} {entry : AccountRecord × AuthSnapshot}
    (hnew : registered plan.planned entry = false)
    (halias : validateAlias entry.1.aliasName = .ok ())
    (hlength : plan.planned.records.length < 2 ^ 64) : ∃ change, Imports plan.planned entry change ∧
      planEntry active .rename plan entry = .ok (plan.accept false change.1 change.2) := by
  have hturn : planEntry active .rename plan entry =
      if collides plan.planned entry.1.id entry.1.aliasName then
        resolveCollision .rename plan false entry.1 entry.2
      else .ok (plan.accept false entry.1 entry.2) := by
    unfold planEntry
    unfold registered at hnew
    simp only [hnew, Bool.false_eq_true, false_and, if_false]
  rw [hturn]
  cases hcol : collides plan.planned entry.1.id entry.1.aliasName with
  | false =>
    exact ⟨entry, ⟨rfl, halias, hcol, fun _ => rfl, fun h => absurd h (by simp [hcol])⟩, rfl⟩
  | true =>
    obtain ⟨n, hn, aliasName, stem, hfind, hnum, hdes, hfree⟩ :=
      findAlias_of_bound entry.1.aliasName entry.1.id hlength
    have hne : entry.1.aliasName ≠ "" := by
      intro hempty
      rw [hempty, collides] at hcol
      cases hcol
    refine ⟨({ entry.1 with aliasName }, entry.2), ⟨rfl, hdes.valid halias hne, hfree, ?_, ?_⟩, ?_⟩
    · intro hnot
      exact absurd hcol (by simp [hnot])
    · exact fun _ => ⟨n, hn, hnum⟩
    · exact bind_eq_ok.2 ⟨aliasName, hfind, rfl⟩

theorem registered_insert {state : RegistryState} {account : AccountRecord}
    {entry : AccountRecord × AuthSnapshot} (h : entry.1.id ≠ account.id) :
    registered (state.insert account.id account) entry = registered state entry := by
  rw [registered, registered, RegistryState.get?_insert_of_ne h]

/-- **The loop of a plan that renames** skips the registered accounts and imports the others. -/
theorem foldlM_rename (active : String) {entries : List (AccountRecord × AuthSnapshot)} {plan : Plan}
    (hids : (entries.map (·.1.id)).Nodup)
    (halias : ∀ entry ∈ entries, validateAlias entry.1.aliasName = .ok ())
    (hlength : plan.planned.records.length + entries.length ≤ 2 ^ 64) :
    ∃ changes, ImportsAll plan.planned (entries.filter fun entry => !registered plan.planned entry)
        changes ∧
      entries.foldlM (planEntry active .rename) plan = .ok
        { planned := withChanges plan.planned changes
          changes := plan.changes ++ changes
          report :=
            { plan.report with
              imported := plan.report.imported ++ changes.map summary
              skipped := plan.report.skipped ++
                (entries.filter (registered plan.planned)).map summary } } := by
  induction entries generalizing plan with
  | nil => exact ⟨[], trivial, by simp [withChanges, pure, Except.pure]⟩
  | cons entry entries ih =>
    rw [List.map_cons] at hids
    obtain ⟨hid, hids⟩ := List.nodup_cons.1 hids
    obtain ⟨hentry, halias⟩ := List.forall_mem_cons.1 halias
    rw [List.length_cons] at hlength
    cases hreg : registered plan.planned entry with
    | true =>
      have hturn : planEntry active .rename plan entry = .ok (plan.skip entry.1) := by
        unfold planEntry
        unfold registered at hreg
        simp [hreg]
      have hlength' : (plan.skip entry.1).planned.records.length + entries.length ≤ 2 ^ 64 := by
        change plan.planned.records.length + entries.length ≤ _
        linarith
      obtain ⟨changes, hchan, hrest⟩ := ih hids halias hlength'
      refine ⟨changes, ?_, ?_⟩
      · rw [List.filter_cons_of_neg (by simp [hreg])]
        exact hchan
      · rw [List.foldlM_cons, List.filter_cons_of_pos hreg]
        refine bind_eq_ok.2 ⟨_, hturn, hrest.trans ?_⟩
        simp [Plan.skip, summary]
    | false =>
      obtain ⟨change, himp, hturn⟩ := planEntry_rename active hreg hentry (by linarith)
      have hfree : plan.planned.get? change.1.id = none := by
        rw [himp.id]
        simpa [registered] using hreg
      have hlength' : (plan.accept false change.1 change.2).planned.records.length +
          entries.length ≤ 2 ^ 64 := by
        change (plan.planned.insert change.1.id change.1).records.length + entries.length ≤ _
        rw [RegistryState.records_insert hfree, List.length_cons]
        linarith
      obtain ⟨changes, hchan, hrest⟩ := ih hids halias hlength'
      -- the later entries have other ids
      have hsame : ∀ other ∈ entries,
          registered (plan.planned.insert change.1.id change.1) other =
            registered plan.planned other := by
        intro other hother
        refine registered_insert fun heq => hid ?_
        rw [← himp.id, ← heq]
        exact List.mem_map_of_mem hother
      refine ⟨change :: changes, ?_, ?_⟩
      · rw [List.filter_cons_of_pos (by simp [hreg])]
        refine ⟨himp, ?_⟩
        rw [← List.filter_congr fun other hother => congrArg _ (hsame other hother)]
        exact hchan
      · rw [List.foldlM_cons, List.filter_cons_of_neg (by simp [hreg])]
        refine bind_eq_ok.2 ⟨_, hturn, hrest.trans ?_⟩
        rw [← List.filter_congr hsame]
        simp [Plan.accept, summary, withChanges]

theorem ImportsAll.nodup_aliases {entries changes : List (AccountRecord × AuthSnapshot)}
    {state : RegistryState} (h : ImportsAll state entries changes) (hkeys : state.keysMatch = true)
    (hids : (entries.map (·.1.id)).Nodup) (hnew : ∀ entry ∈ entries, registered state entry = false)
    (hnodup : (aliases state).Nodup) : (aliases (withChanges state changes)).Nodup := by
  induction entries generalizing state changes with
  | nil =>
    cases changes with
    | nil => exact hnodup
    | cons => exact h.elim
  | cons entry entries ih =>
    cases changes with
    | nil => exact h.elim
    | cons change changes =>
      obtain ⟨himp, hrest⟩ := h
      rw [List.map_cons] at hids
      obtain ⟨hid, hids⟩ := List.nodup_cons.1 hids
      obtain ⟨hentry, hnew⟩ := List.forall_mem_cons.1 hnew
      have hfree : state.get? change.1.id = none := by
        rw [himp.id]
        simpa [registered] using hentry
      have hother : collides state change.1.id change.1.aliasName = false := by
        rw [himp.id]
        exact himp.free
      have hlater : ∀ other ∈ entries,
          registered (state.insert change.1.id change.1) other = false := by
        intro other hmem
        rw [registered_insert, hnew other hmem]
        rw [himp.id]
        exact fun heq => hid (heq ▸ List.mem_map_of_mem hmem)
      change (aliases (withChanges (state.insert change.1.id change.1) changes)).Nodup
      exact ih hrest (RegistryState.keysMatch_insert hkeys) hids hlater
        (nodup_aliases_insert hkeys hother hnodup)

theorem validAliases_of_validateManifest {cfg : Config} {times : ℕ → DateTime} {manifest : Manifest}
    {entries : List (AccountRecord × AuthSnapshot)}
    (h : validateManifest cfg times manifest = .ok entries) :
    entries.length ≤ maxAccounts ∧ ∀ entry ∈ entries, validateAlias entry.1.aliasName = .ok () := by
  obtain ⟨hcount, hchec, -⟩ := checked_of_validateManifest h
  refine ⟨hchec.length_eq ▸ hcount, fun entry hentry => ?_⟩
  obtain ⟨account, -, now, seen, hacc⟩ := exists_of_mem hchec hentry
  rw [hacc.archived.aliasName]
  exact hacc.aliasName

/-- What an import that renames makes of the entries of a backup. -/
structure Renamed (state : RegistryState) (entries : List (AccountRecord × AuthSnapshot))
    (report : ImportReport) (changes : List (AccountRecord × AuthSnapshot)) : Prop where
  skipped : report.skipped = (entries.filter (registered state)).map summary
  replaced : report.replaced = []
  imported : report.imported = changes.map summary
  imports : ImportsAll state (entries.filter fun entry => !registered state entry) changes
  distinct : (aliases (withChanges state changes)).Nodup

/-- **An import that renames never fails on aliases.** It skips the registered accounts and imports
the others in order, each under a free alias, the archived one if that is free; no slice is cut
inside a character. -/
theorem rename_imports {cfg : Config} {times : ℕ → DateTime} {manifest : Manifest}
    {entries : List (AccountRecord × AuthSnapshot)} {state : RegistryState} (dryRun : Bool)
    (hkeys : state.keysMatch = true) (hlength : state.records.length < 2 ^ 63)
    (haliases : (aliases state).Nodup) (hvalid : validateManifest cfg times manifest = .ok entries) :
    (∃ report changes, planImport state entries .rename dryRun = .ok (report, changes) ∧
        Renamed state entries report changes) ∧
      ∀ entry ∈ entries, ∀ n, candidate entry.1.aliasName n = some (numbered entry.1.aliasName n) := by
  refine ⟨?_, fun entry _ n => candidate_eq _ n⟩
  have hids := (validateManifest_eq_ok hvalid).2
  obtain ⟨hcount, halias⟩ := validAliases_of_validateManifest hvalid
  rw [maxAccounts] at hcount
  have hplann : (Plan.mk state [] ⟨[], [], [], dryRun⟩).planned.records.length + entries.length ≤
      2 ^ 64 := by
    change state.records.length + entries.length ≤ _
    linarith
  obtain ⟨changes, himp, hplan⟩ := foldlM_rename state.activeAccountId hids halias hplann
  have hdis : (aliases (withChanges state changes)).Nodup := by
    refine himp.nodup_aliases hkeys ?_ ?_ haliases
    · exact hids.sublist (List.filter_sublist.map _)
    · intro entry hmem
      simpa using (List.mem_filter.1 hmem).2
  refine ⟨_, _, bind_eq_ok.2 ⟨_, hplan, bind_eq_ok.2
    ⟨(), require_eq_ok.2 hdis, rfl⟩⟩, ?_⟩
  exact ⟨rfl, rfl, rfl, himp, hdis⟩

def Manifest.colliding : Manifest where
  format := "codexmarathon-accounts"
  version := 1
  createdAt := "2026-01-01T00:00:00Z"
  exporterVersion := "1"
  accounts := [⟨"a", "home", "a"⟩, ⟨"c", "b", "c"⟩]

def collidingEntries : letI := Externals.sample
    Except TransferError (List (AccountRecord × AuthSnapshot)) :=
  letI := Externals.sample
  validateManifest ⟨fun text => some (asciiBytes text), fun _ => true⟩
    (fun _ => .epoch) .colliding

omit [Externals] in
theorem rename_imports_sample :
    letI := Externals.sample
    ∃ entries, collidingEntries = .ok entries ∧ RegistryState.sample.keysMatch = true ∧
      RegistryState.sample.records.length < 2 ^ 63 ∧ (aliases .sample).Nodup ∧
      ∃ report changes, planImport .sample entries .rename false = .ok (report, changes) ∧
        report.skipped = [⟨"a", "home"⟩] ∧ report.imported = [⟨"c", "b (2)"⟩] ∧
        Renamed .sample entries report changes := by
  let := Externals.sample
  have hsample : ∃ entries ∈ collidingEntries.toOption,
      (planImport .sample entries .rename false).map (·.1.lists) =
        .ok [[⟨"c", "b (2)"⟩], [], [⟨"a", "home"⟩]] := by
    decide +kernel
  obtain ⟨entries, hent, hlists⟩ := hsample
  rw [Option.mem_def, toOption_eq_some] at hent
  have hkeys : RegistryState.sample.keysMatch = true := by decide
  have hlength : RegistryState.sample.records.length < 2 ^ 63 := by decide
  have halias : (aliases .sample).Nodup := by decide
  obtain ⟨⟨report, changes, hplan, hren⟩, -⟩ :=
    rename_imports false hkeys hlength halias hent
  rw [hplan] at hlists
  have hlists : report.lists = [[⟨"c", "b (2)"⟩], [], [⟨"a", "home"⟩]] := Except.ok.inj hlists
  simp only [ImportReport.lists, List.cons.injEq] at hlists
  exact ⟨entries, hent, hkeys, hlength, halias, report, changes, hplan, hlists.2.2.1, hlists.1,
    hren⟩

end Transfer

end CodexMarathon
