/-
**What an observation leaves alone.**

A reading may list any subset of the account's credits, and what it does not list must stay as it
was.  It is written credit by credit inside one transaction, unless a later one, by the millisecond,
was written before.
-/

import CodexMarathon.Expiry.Lifecycle

namespace CodexMarathon.Expiry

/-! ### The frame -/

def ExpiryObservation.Lists (o : ExpiryObservation) (r : JobRow) : Prop :=
  r.accountId = o.accountId ∧ ∃ credit ∈ o.credits.getD [], credit.creditId = r.creditId

def ExpiryObservation.Redeems (o : ExpiryObservation) (r : JobRow) : Prop :=
  r.accountId = o.accountId ∧
    ∃ credit ∈ o.credits.getD [], credit.creditId = r.creditId ∧ credit.spent

/-- All of a row if its credit is not listed, and otherwise its identity, attempt and lease. -/
structure ExpiryObservation.Leaves (o : ExpiryObservation) (r r' : JobRow) : Prop where
  unlisted : ¬ o.Lists r → r' = r
  identity : r'.identity = r.identity
  attempt : r'.attempt = r.attempt
  leaseToken : r'.leaseToken = r.leaseToken
  leaseUntilMs : r'.leaseUntilMs = r.leaseUntilMs ∨
    (o.Redeems r ∧ r.state ≠ .succeeded ∧ r'.state = .succeeded ∧ r'.leaseUntilMs = none)
  succeeded : r.state = .succeeded → r'.state = .succeeded

structure Framed (o : ExpiryObservation) (db db' : Db) : Prop where
  schemaVersion : db'.schemaVersion = db.schemaVersion
  settings : db'.settings = db.settings
  observations : Table.Revises (fun r r' => r'.accountId = r.accountId ∧
    (r.accountId ≠ o.accountId → r' = r)) (·.accountId = o.accountId)
    db.observations db'.observations
  jobs : Table.Revises o.Leaves o.Lists db.jobs db'.jobs
  events : ∃ es, db'.events = db.events ++ es ∧
    ∀ e ∈ es, e.accountId = some o.accountId ∧ ∃ r ∈ db'.jobs, o.Lists r ∧ e.jobId = some r.jobId

section Frame

variable {o : ExpiryObservation} {r r' r'' : JobRow}

theorem ExpiryObservation.lists_congr (h : r'.identity = r.identity) : o.Lists r' ↔ o.Lists r := by
  have hpair := JobRow.credit_eq_of_identity h
  simp only [Prod.mk.injEq] at hpair
  rw [ExpiryObservation.Lists, hpair.1, hpair.2, ExpiryObservation.Lists]

theorem ExpiryObservation.redeems_congr (h : r'.identity = r.identity) :
    o.Redeems r' ↔ o.Redeems r := by
  have hpair := JobRow.credit_eq_of_identity h
  simp only [Prod.mk.injEq] at hpair
  rw [ExpiryObservation.Redeems, hpair.1, hpair.2, ExpiryObservation.Redeems]

theorem ExpiryObservation.Leaves.refl (o : ExpiryObservation) (r : JobRow) : o.Leaves r r :=
  ⟨fun _ => rfl, rfl, rfl, rfl, .inl rfl, id⟩

theorem ExpiryObservation.Leaves.trans (h : o.Leaves r r') (h' : o.Leaves r' r'') :
    o.Leaves r r'' where
  unlisted hnot := by
    obtain rfl := h.unlisted hnot
    exact h'.unlisted hnot
  identity := h'.identity.trans h.identity
  attempt := h'.attempt.trans h.attempt
  leaseToken := h'.leaseToken.trans h.leaseToken
  leaseUntilMs := by
    -- a deadline that was cleared belongs to a success, which clears no other
    rcases h.leaseUntilMs with hkept | ⟨hred, hopen, hdone, hclear⟩
    · rcases h'.leaseUntilMs with hkept' | ⟨hred, hopen, hdone, hclear⟩
      · exact .inl (hkept'.trans hkept)
      · exact .inr ⟨(redeems_congr h.identity).1 hred, fun hr => hopen (h.succeeded hr), hdone,
          hclear⟩
    · rcases h'.leaseUntilMs with hkept' | ⟨-, hopen', -⟩
      · exact .inr ⟨hred, hopen, h'.succeeded hdone, hkept'.trans hclear⟩
      · exact absurd hdone hopen'
  succeeded hr := h'.succeeded (h.succeeded hr)

theorem Framed.refl (o : ExpiryObservation) (db : Db) : Framed o db db where
  schemaVersion := rfl
  settings := rfl
  observations := .refl fun _ _ => ⟨rfl, fun _ => rfl⟩
  jobs := .refl fun r _ => .refl o r
  events := ⟨[], (List.append_nil _).symm, List.forall_mem_nil _⟩

theorem Framed.trans {db db' db'' : Db} (h : Framed o db db') (h' : Framed o db' db'') :
    Framed o db db'' where
  schemaVersion := h'.schemaVersion.trans h.schemaVersion
  settings := h'.settings.trans h.settings
  observations := by
    refine h.observations.trans (fun r r' r'' hr hr' => ⟨hr'.1.trans hr.1, fun hother => ?_⟩)
      (fun r r' hr hr' => hr'.1.trans hr) h'.observations
    rw [hr'.2 (hr.1 ▸ hother), hr.2 hother]
  jobs := h.jobs.trans (fun _ _ _ => .trans)
    (fun _ _ hlists hr => (ExpiryObservation.lists_congr hr.identity).2 hlists) h'.jobs
  events := by
    obtain ⟨es, hes, hnamed⟩ := h.events
    obtain ⟨es', hes', hnamed'⟩ := h'.events
    refine ⟨es ++ es', by rw [hes', hes, List.append_assoc], fun e he => ?_⟩
    rcases List.mem_append.1 he with he | he
    · obtain ⟨howner, r, hr, hlists, hid⟩ := hnamed e he
      obtain ⟨r', hr', hleaves⟩ := h'.jobs.exists_mem hr
      refine ⟨howner, r', hr', (ExpiryObservation.lists_congr hleaves.identity).2 hlists, ?_⟩
      rw [hid, JobRow.jobId_eq_of_identity hleaves.identity]
    · exact hnamed' e he

end Frame

section Turns

variable {U : UuidSource} {o : ExpiryObservation} {l l' : Ledger} {now : DateTime}

theorem framed_updateCredit {credit : ExpiryCredit} {f : JobRow → JobRow} (db : Db)
    (hcredit : credit ∈ o.credits.getD []) (hident : ∀ r, (f r).identity = r.identity)
    (hatt : ∀ r, (f r).attempt = r.attempt) (htoken : ∀ r, (f r).leaseToken = r.leaseToken)
    (huntil : ∀ r, (f r).leaseUntilMs = r.leaseUntilMs) (hstate : ∀ r, (f r).state = r.state) :
    Framed o db (db.updateCredit o.accountId credit.creditId f) where
  schemaVersion := rfl
  settings := rfl
  observations := .refl fun _ _ => ⟨rfl, fun _ => rfl⟩
  jobs := by
    refine Table.revises_update (fun r _ hp => ?_) fun r _ _ => .refl o r
    obtain ⟨hacc, hid⟩ := of_decide_eq_true hp
    refine ⟨fun hnot => absurd ⟨hacc, credit, hcredit, hid.symm⟩ hnot, hident r, hatt r,
      htoken r, .inl (huntil r), fun hr => ?_⟩
    rw [hstate r, hr]
  events := ⟨[], (List.append_nil _).symm, List.forall_mem_nil _⟩

theorem Turn.framed {stamp : ℤ} {credit : ExpiryCredit} (hs : Sound U l)
    (hcredit : credit ∈ o.credits.getD []) (h : Turn U o.accountId stamp credit l l') :
    Framed o l.db l'.db := by
  cases h with
  | idle => exact .refl o l.db
  | redeem hspent r hr hacc hid hlive e kind howner hjobId =>
    have hlists : o.Lists r := ⟨hacc, credit, hcredit, hid.symm⟩
    have hredeem : o.Leaves r (r.redeem stamp) :=
      ⟨fun hnot => absurd hlists hnot, rfl, rfl, rfl,
        .inr ⟨⟨hacc, credit, hcredit, hid.symm, hspent⟩, hlive, rfl, rfl⟩, fun _ => rfl⟩
    refine ⟨rfl, rfl, .refl fun _ _ => ⟨rfl, fun _ => rfl⟩, ?_, [e], rfl, ?_⟩
    · -- the statement selects by job id, which only `r` carries
      refine Table.revises_update (fun q hq hp => ?_) fun q _ _ => .refl o q
      obtain rfl := hs.eq_of_jobId hq hr (of_decide_eq_true hp)
      exact hredeem
    · rintro e' he'
      obtain rfl := List.mem_singleton.1 he'
      exact ⟨howner, r.redeem stamp, Table.mem_update_of_mem hr (decide_eq_true rfl), hlists, hjobId⟩
  | insert _ expires =>
    refine ⟨rfl, rfl, .refl fun _ _ => ⟨rfl, fun _ => rfl⟩, ?_, [], (List.append_nil _).symm,
      List.forall_mem_nil _⟩
    refine Table.revises_append (fun r _ => .refl o r) fun r hr => ?_
    rw [List.mem_singleton.1 hr]
    exact ⟨rfl, credit, hcredit, rfl⟩
  | refresh =>
    exact framed_updateCredit l.db hcredit (fun _ => rfl) (fun _ => rfl) (fun _ => rfl)
      (fun _ => rfl) fun _ => rfl
  | withdraw =>
    exact framed_updateCredit l.db hcredit (fun _ => rfl) (fun _ => rfl) (fun _ => rfl)
      (fun _ => rfl) fun _ => rfl

theorem framed_stamped (l : Ledger) (o : ExpiryObservation) : Framed o l.db (l.stamped o).db := by
  unfold Ledger.stamped Db.upsertObservation
  split
  · refine ⟨rfl, rfl, ?_, .refl fun r _ => .refl o r, [], (List.append_nil _).symm,
      List.forall_mem_nil _⟩
    refine Table.revises_update (fun r _ hp => ⟨rfl, fun hother => ?_⟩) fun _ _ _ => ⟨rfl, fun _ => rfl⟩
    exact absurd (of_decide_eq_true hp) hother
  · refine ⟨rfl, rfl, ?_, .refl fun r _ => .refl o r, [], (List.append_nil _).symm,
      List.forall_mem_nil _⟩
    refine Table.revises_append (fun _ _ => ⟨rfl, fun _ => rfl⟩) fun r hr => ?_
    rw [List.mem_singleton.1 hr]

theorem framed_observe (hs : Sound U l) (h : l.observe U o now = .ok l') : Framed o l.db l'.db := by
  rcases Ledger.observe_eq_ok h with ⟨rfl, -⟩ | ⟨credits, hcred, -, hloop⟩
  · exact .refl o l'.db
  · -- along the loop the ledger stays sound and framed by the observation so far
    have hstart : Sound U (l.stamped o) ∧ Framed o l.db (l.stamped o).db :=
      ⟨hs.quiet (quiet_stamped l o), framed_stamped l o⟩
    refine (Result.foldlM_invariant (I := fun m => Sound U m ∧ Framed o l.db m.db) ?_ hstart
      hloop).2
    rintro m credit m' hcredit ⟨hm, hframed⟩ hturn
    have hturn := turn_observeCredit hturn
    have hlisted : credit ∈ o.credits.getD [] := by
      rw [hcred]
      exact hcredit
    exact ⟨hm.quiets hturn.quiet, hframed.trans (hturn.framed hm hlisted)⟩

end Turns

def ExpiryObservation.Invalid (o : ExpiryObservation) (now : DateTime) : Prop :=
  validateIdentifier o.accountId 256 = false ∨ now < o.observedAt ∨
    ∃ credits ∈ o.credits, (∃ credit ∈ credits, validateIdentifier credit.creditId 256 = false) ∨
      ¬ (credits.map (·.creditId)).Nodup

theorem creditsAdmissible_iff {seen : List String} {credits : List ExpiryCredit} :
    creditsAdmissible seen credits = true ↔
      (∀ credit ∈ credits, validateIdentifier credit.creditId 256 = true) ∧
        (credits.map (·.creditId)).Nodup ∧ ∀ credit ∈ credits, credit.creditId ∉ seen := by
  induction credits generalizing seen with
  | nil => simp [creditsAdmissible]
  | cons credit credits ih =>
    rw [List.forall_mem_cons, List.forall_mem_cons, List.map_cons, List.nodup_cons]
    simp only [creditsAdmissible, Bool.and_eq_true, ih, List.mem_map, List.mem_cons,
      Bool.not_eq_true', List.contains_eq_mem, decide_eq_false_iff_not]
    constructor
    · rintro ⟨⟨hvalid, hseen⟩, hvalids, hnodup, hfresh⟩
      refine ⟨⟨hvalid, hvalids⟩, ⟨?_, hnodup⟩, hseen, fun c hc hmem => hfresh c hc (.inr hmem)⟩
      rintro ⟨c, hc, hid⟩
      exact hfresh c hc (.inl hid)
    · rintro ⟨⟨hvalid, hvalids⟩, ⟨hnew, hnodup⟩, hseen, hfresh⟩
      refine ⟨⟨hvalid, hseen⟩, hvalids, hnodup, fun c hc hmem => ?_⟩
      rcases hmem with hid | hmem
      · exact hnew ⟨c, hc, hid⟩
      · exact hfresh c hc hmem

theorem observe_invalid (U : UuidSource) (l : Ledger) {o : ExpiryObservation} {now : DateTime}
    (h : o.Invalid now) : l.observe U o now = .error .invalidRequest := by
  unfold Ledger.observe
  split
  · rfl
  rename_i hacc
  split
  · rfl
  rename_i htime
  rcases h with hinv | hfuture | ⟨credits, hcred, hlist⟩
  · simp [hinv] at hacc
  · exact absurd hfuture htime
  · have href : creditsAdmissible [] credits = false := by
      rw [← Bool.not_eq_true, creditsAdmissible_iff]
      rintro ⟨hvalid, hnodup, -⟩
      rcases hlist with ⟨credit, hcredit, hinv⟩ | hdouble
      · simp [hvalid credit hcredit] at hinv
      · exact hdouble hnodup
    simp [Option.mem_def.1 hcred, href]

/-! ### Observations that are written -/

def ExpiryObservation.Written (U : UuidSource) (l : Ledger) (o : ExpiryObservation)
    (now : DateTime) : Prop :=
  (l.observe U o now).toOption.isSome = true ∧ ¬ o.Ignored l

instance (U : UuidSource) (l : Ledger) (o : ExpiryObservation) (now : DateTime) :
    Decidable (o.Written U l now) := inferInstanceAs (Decidable (_ ∧ _))

def Op.reading (U : UuidSource) (accountId : String) (l : Ledger) : Op → Option DateTime
  | .observe o now =>
    if o.accountId = accountId ∧ o.Written U l now then some o.observedAt else none
  | _ => none

def readings (U : UuidSource) (accountId : String) (l : Ledger) : List Op → List DateTime
  | [] => []
  | op :: ops => (op.reading U accountId l).toList ++ readings U accountId (step U l op).1 ops

theorem observedMs_upsertObservation (db : Db) (accountId other : String) (stamp : ℤ) :
    (db.upsertObservation accountId stamp).observedMs other =
      if other = accountId then some stamp else db.observedMs other := by
  unfold Db.upsertObservation
  split <;> rename_i hany
  · have hfind := Table.find?_update (p := fun r : ObservationRow => r.accountId = accountId)
      (q := fun r => r.accountId = other) (f := fun r => { r with observedMs := stamp })
      (fun _ => rfl) db.observations
    rw [Db.observedMs, hfind, Db.observedMs]
    cases hrow : db.observations.find? (fun r => r.accountId = other) with
    | none =>
      have hne : other ≠ accountId := by
        rintro rfl
        obtain ⟨r, hr, hid⟩ := List.any_eq_true.1 hany
        exact List.find?_eq_none.1 hrow r hr hid
      rw [if_neg hne]
      rfl
    | some r =>
      have hid : r.accountId = other := by simpa using List.find?_some hrow
      by_cases hother : other = accountId <;> simp [hid, hother]
  · have hnone : db.observations.find? (fun r => r.accountId = accountId) = none :=
      List.find?_eq_none.2 fun r hr hid => hany (List.any_eq_true.2 ⟨r, hr, hid⟩)
    rw [Db.observedMs, List.find?_append, Db.observedMs]
    by_cases hother : other = accountId
    · simp [hother, hnone]
    · simp [hother, Ne.symm hother]

section Readings

variable {U : UuidSource} {l l' : Ledger} {accountId : String}

theorem Turn.observations {stamp : ℤ} {credit : ExpiryCredit}
    (h : Turn U accountId stamp credit l l') : l'.db.observations = l.db.observations := by
  cases h <;> rfl

theorem step_observations {op : Op} (hop : ∀ o now, op ≠ .observe o now) :
    (step U l op).1.db.observations = l.db.observations := by
  have heffect := step_effect U l op
  generalize (step U l op).1 = l', (step U l op).2 = a at heffect ⊢
  cases heffect with
  | quiet _ _ _ _ _ _ _ hobs => exact hobs hop
  | claimed _ _ _ _ _ _ _ _ _ _ _ _ _ _ _ hobs => exact hobs
  | settled _ _ _ _ _ _ _ _ _ _ _ _ _ _ _ hobs => exact hobs
  | repeated => rfl

theorem observedMs_loop {o : ExpiryObservation} {now : DateTime} {credits : List ExpiryCredit}
    (h : credits.foldlM (observeCredit U o.accountId o.observedAt.timestampMillis now)
      (l.stamped o) = .ok l') : l'.db.observedMs accountId =
      if accountId = o.accountId then some o.observedAt.timestampMillis
      else l.db.observedMs accountId := by
  have hkept : l'.db.observations = (l.stamped o).db.observations := by
    refine Result.foldlM_invariant
      (I := fun m => m.db.observations = (l.stamped o).db.observations) ?_ rfl h
    exact fun m credit m' _ hm hturn => (turn_observeCredit hturn).observations.trans hm
  rw [Db.observedMs, hkept]
  exact observedMs_upsertObservation l.db o.accountId accountId o.observedAt.timestampMillis

theorem observedMs_step (U : UuidSource) (l : Ledger) (accountId : String) (op : Op) :
    (op.reading U accountId l = none ∧
        (step U l op).1.db.observedMs accountId = l.db.observedMs accountId) ∨
      ∃ t, op.reading U accountId l = some t ∧
        (step U l op).1.db.observedMs accountId = some t.timestampMillis ∧
        ∀ previous ∈ l.db.observedMs accountId, previous ≤ t.timestampMillis := by
  cases op with
  | observe o now =>
    cases h : l.observe U o now with
    | error e =>
      refine .inl ⟨if_neg fun hwrit => ?_, by simp only [step, h]⟩
      simp [ExpiryObservation.Written, h, Except.toOption] at hwrit
    | ok l' =>
      have hstep : (step U l (.observe o now)).1 = l' := by simp only [step, h]
      rw [hstep]
      rcases Ledger.observe_eq_ok h with ⟨rfl, hign⟩ | ⟨credits, -, hnot, hloop⟩
      · exact .inl ⟨if_neg fun hwrit => hwrit.2.2 hign, rfl⟩
      · rw [observedMs_loop hloop]
        by_cases hacc : o.accountId = accountId
        · subst hacc
          have hwrit : o.Written U l now := ⟨by simp [h, Except.toOption], hnot⟩
          refine .inr ⟨o.observedAt, if_pos ⟨rfl, hwrit⟩, if_pos rfl, ?_⟩
          intro previous hprev
          by_contra hlt
          exact hnot (.inr ⟨previous, hprev, not_le.1 hlt⟩)
        · exact .inl ⟨if_neg fun hwrit => hacc hwrit.1, if_neg (Ne.symm hacc)⟩
  | _ =>
    refine .inl ⟨rfl, ?_⟩
    rw [Db.observedMs, step_observations, Db.observedMs]
    intro o now h
    cases h

theorem observedMs_run {previous : ℤ} (h : previous ∈ l.db.observedMs accountId) (ops : List Op) :
    ∃ last ∈ ((machine U).run l ops).db.observedMs accountId, previous ≤ last := by
  refine (machine U).invariant_run
    (I := fun m => ∃ last ∈ m.db.observedMs accountId, previous ≤ last) ?_ ops ⟨previous, h, le_rfl⟩
  rintro m op ⟨last, hlast, hle⟩
  change ∃ next ∈ (step U m op).1.db.observedMs accountId, previous ≤ next
  obtain ⟨-, hsame⟩ | ⟨t, -, hnext, hbound⟩ := observedMs_step U m accountId op
  · exact ⟨last, hsame ▸ hlast, hle⟩
  · exact ⟨t.timestampMillis, Option.mem_def.2 hnext, hle.trans (hbound last hlast)⟩

theorem readings_le {ops : List Op} {t : DateTime} (h : t ∈ readings U accountId l ops) :
    ∃ last ∈ ((machine U).run l ops).db.observedMs accountId, t.timestampMillis ≤ last := by
  induction ops generalizing l with
  | nil => exact absurd h List.not_mem_nil
  | cons op ops ih =>
    rcases List.mem_append.1 h with hfirst | hrest
    · obtain ⟨hnone, -⟩ | ⟨t', hsome, hnext, -⟩ := observedMs_step U l accountId op
      · rw [hnone] at hfirst
        exact absurd hfirst List.not_mem_nil
      · rw [hsome] at hfirst
        obtain rfl := List.mem_singleton.1 hfirst
        exact observedMs_run (Option.mem_def.2 hnext) ops
    · exact ih hrest

end Readings

theorem observe_error {U : UuidSource} {l : Ledger} {o : ExpiryObservation} {now : DateTime}
    {e : AccountdError} (h : (step U l (.observe o now)).2 = .done (.error e)) :
    (step U l (.observe o now)).1 = l := by
  cases hobs : l.observe U o now with
  | error e' => simp only [step, hobs]
  | ok l' =>
    simp only [step, hobs, Answer.done.injEq] at h
    cases h

theorem observe_ignored {U : UuidSource} {l : Ledger} {o : ExpiryObservation} {now : DateTime}
    (h : o.Ignored l) : (step U l (.observe o now)).1 = l := by
  cases hobs : l.observe U o now with
  | error e => simp only [step, hobs]
  | ok l' =>
    simp only [step, hobs]
    rcases Ledger.observe_eq_ok hobs with ⟨hsame, -⟩ | ⟨-, -, hnot, -⟩
    · exact hsame
    · exact absurd h hnot

/-- **The frame of an observation**, where a later reading is later by its stored timestamp as well:
an error, an empty one and an older one change nothing; any other changes the rows of its credits,
and of these neither identity, attempt nor lease. -/
theorem observe_frame (U : UuidSource) (pre : List Op) (o : ExpiryObservation) (now : DateTime)
    (hms : ∀ t ∈ readings U o.accountId Ledger.init pre, o.observedAt < t →
      o.observedAt.timestampMillis < t.timestampMillis) :
    let l := (machine U).run Ledger.init pre
    let next := (machine U).step l (.observe o now)
    (o.Invalid now → next.2 = .done (.error .invalidRequest)) ∧
      ((∃ e, next.2 = .done (.error e)) → next.1.db = l.db) ∧
      (o.credits = none → next.1.db = l.db) ∧
      ((∃ t ∈ readings U o.accountId Ledger.init pre, o.observedAt < t) → next.1.db = l.db) ∧
      Framed o l.db next.1.db := by
  intro l next
  refine ⟨fun hinv => ?_, ?_, ?_, ?_, ?_⟩
  · simp only [next, machine, step, observe_invalid U l hinv]
  · rintro ⟨e, he⟩
    exact congrArg Ledger.db (observe_error he)
  · exact fun hnone => congrArg Ledger.db (observe_ignored (.inl hnone))
  · rintro ⟨t, ht, hlt⟩
    obtain ⟨last, hlast, hle⟩ := readings_le ht
    exact congrArg Ledger.db (observe_ignored (.inr ⟨last, hlast, (hms t ht hlt).trans_le hle⟩))
  · cases h : l.observe U o now with
    | error e =>
      have hnext : next.1 = l := by simp only [next, machine, step, h]
      rw [hnext]
      exact .refl o l.db
    | ok l' =>
      have hnext : next.1 = l' := by simp only [next, machine, step, h]
      rw [hnext]
      exact framed_observe (run_traced U pre).sound h

theorem observe_frame_late :
    let l := (machine .binary).run Ledger.init setup
    let late : ExpiryObservation := ⟨"acct", clockBack, some [⟨"credit", "redeemed", none⟩]⟩
    late.observedAt < clock ∧ ((machine .binary).step l (.observe late clockAhead)).1.db = l.db :=
  ⟨by decide, (observe_frame .binary setup ⟨"acct", clockBack, some [⟨"credit", "redeemed", none⟩]⟩
    clockAhead (by decide +kernel)).2.2.2.1 ⟨clock, by decide +kernel, by decide⟩⟩

def clockTick : DateTime := { clock with nanos := 900000, nanos_lt := by decide }

/-- **An older reading is written**: it arrives after a later one, and makes the job unavailable. -/
theorem older_reading_written :
    let pre : List Op :=
      [.reopen, .observe ⟨"acct", clockTick, some [⟨"credit", "available", some clockAhead⟩]⟩ clockAhead]
    let l := (machine .binary).run Ledger.init pre
    let older : ExpiryObservation :=
      ⟨"acct", clock, some [⟨"credit", "unavailable", some clockAhead⟩]⟩
    let next := (machine .binary).step l (.observe older clockAhead)
    clockTick ∈ readings .binary "acct" Ledger.init pre ∧ older.observedAt < clockTick ∧
      next.2 = .done (.ok ()) ∧ l.db.jobs.map (·.available) = [true] ∧
      next.1.db.jobs.map (·.available) = [false] := by
  decide +kernel

end CodexMarathon.Expiry
