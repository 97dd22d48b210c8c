/-
**Failovers do not come back.**

A failover leaves an account whose weekly usage has passed the threshold, for one whose last
observation is a weekly usage below it.  As long as nobody else changes the account or the registry
and no reported weekly usage decreases, an account that was left stays out.
-/

import CodexMarathon.Service.Failover

namespace CodexMarathon

open Auth Result Prog

variable [Externals]

/-! ### What a run shows -/

def Store.registered (s : Store) : List String :=
  match s.stateLocked with
  | .ok state => state.accounts.keys
  | .error _ => []

/-- The credentials of `target` were installed, while `left` was the native account. -/
structure Move where
  left : Option String
  target : String
deriving DecidableEq

structure Mark where
  report : Option (String × ℚ≥0)
  move : Option Move
  commit : Bool
deriving DecidableEq

def Mark.quiet : Mark := ⟨none, none, false⟩

def TaskCall.installedAccount : (c : TaskCall) → c.Ans → Option String
  | .service (.auth (.install _ snapshot)), .ok _ => some snapshot.accountId
  | _, _ => none

/-- It is the last call of a switch that can fail, and every switch that answers `Committed` makes
it. -/
def TaskCall.activates : (c : TaskCall) → c.Ans → Bool
  | .service (.store (.setActiveLocked _)), .ok _ => true
  | _, _ => false

namespace Process

def report (p : Process) (snapshot : RateLimitSnapshot) : Option (String × ℚ≥0) :=
  match p.world.cachedAccount, quotaObservation snapshot with
  | some id, some (usedPercent, true) => some (id, usedPercent.magnitude)
  | _, _ => none

def mark (p : Process) : ProcessEvent → Mark
  | .advance n =>
    match p.tasks[n]? with
    | some ⟨some _, _, .call c _⟩ =>
      match p.exec c with
      | some (a, _) =>
        { report := none
          move := (c.installedAccount a).map (⟨p.world.cachedAccount, ·⟩)
          commit := c.activates a }
      | none => .quiet
    | _ => .quiet
  | .observe snapshot => { Mark.quiet with report := p.report snapshot }
  | _ => .quiet

/-- No manual switch; the native account stays, unless it is logged out, and so do the accounts of
the registry. -/
def Unattended (p : Process) : ProcessEvent → Prop
  | .request _ => False
  | .native m => m.cachedAccount = none ∨ m.cachedAccount = p.world.cachedAccount
  | .stores store => store.registered.Perm p.world.store.registered
  | _ => True

instance (p : Process) : DecidablePred p.Unattended
  | .request _ => inferInstanceAs (Decidable False)
  | .native m =>
    inferInstanceAs (Decidable (m.cachedAccount = none ∨ m.cachedAccount = p.world.cachedAccount))
  | .stores store => inferInstanceAs (Decidable (store.registered.Perm p.world.store.registered))
  | .advance _ | .observe _ | .turns _ | .closeTurns | .clock _ => inferInstanceAs (Decidable True)

end Process

def rotation : Machine Process ProcessEvent Mark where
  step p e := ((p.step e).1, p.mark e)

/-! ### What a failover relies on -/

inductive Stage
  | waiting
  | installed
  | active
  | ended
deriving DecidableEq

/-- Only credentials of a registered account that is not `visited` may be installed, and the native
account is visited until then. -/
def rotating (registered visited : List String) :
    Prog.Semantics ServiceCall ServiceCall.Ans Stage where
  pre
    | .auth (.install _ snapshot), stage =>
      stage = .waiting ∧ snapshot.accountId ∈ registered ∧ snapshot.accountId ∉ visited
    | .store (.setActiveLocked _), stage => stage = .installed
    | .store (.replaceLocked _), _ | .store (.setEnabled _), _ | .store (.saveFreshLocked _), _
      | .store (.collectOrphansLocked _), _ => False
    | _, stage => stage ≠ .ended
  rel
    | .store .stateLocked, stage, a, stage' =>
      stage' = stage ∧ ∀ state, a = .ok state → state.Valid ∧ state.accounts.keys.Perm registered
    | .store (.setActiveLocked _), stage, a, stage' => stage' = if a.toBool then .active else stage
    | .auth .authCached, stage, cached, stage' =>
      stage' = stage ∧
        (stage = .waiting → ∀ id, cached.bind (·.getAccountId) = some id → id ∈ visited)
    | .auth (.install _ _), stage, a, stage' => stage' = if a.toBool then .installed else stage
    | _, stage, _, stage' => stage' = stage

def rotatingTask (registered visited : List String) :
    Prog.Semantics TaskCall TaskCall.Ans Stage where
  pre
    | .service c, stage => (rotating registered visited).pre c stage
    | _, stage => stage ≠ .ended
  rel
    | .service c, stage, a, stage' => (rotating registered visited).rel c stage a stage'
    | .registryState, stage, a, stage' =>
      stage' = stage ∧ ∀ state, a = .ok state → state.Valid ∧ state.accounts.keys.Perm registered
    | .quotas, stage, a, stage' =>
      stage' = stage ∧ (stage = .waiting → ∀ quotas, a = some quotas →
        ∀ id ∈ visited, ∀ now, eligibleUsage quotas now id = none)
    | .endAutoFailover, _, _, stage' => stage' = .ended
    | _, stage, _, stage' => stage' = stage

namespace Service

variable {α : Type} {registered visited : List String} {target : String}

theorem safe_quiet_rotating {c : ServiceCall} {k : c.Ans → α} {Q : α → Stage → Prop} {stage : Stage}
    (hpre : (rotating registered visited).pre c stage)
    (hrel : ∀ a stage', (rotating registered visited).rel c stage a stage' → stage' = stage)
    (hQ : ∀ a, Q (k a) stage) :
    (Prog.call c fun a => .ret (k a)).Safe (rotating registered visited) Q stage := by
  refine ⟨hpre, ?_⟩
  intro a stage' h
  cases hrel a stage' h
  exact hQ a

/-- The switch has installed nothing, and it has not failed. -/
abbrev Pending {ε : Type} (Q : α → Prop) : Except ε α → Stage → Prop :=
  Prog.Outcome (fun a stage => stage = .waiting ∧ Q a) fun stage => stage ≠ .ended ∧ stage ≠ .active

omit [Externals] in
theorem pending_of_forall {ε : Type} {Q : α → Prop} {r : Except ε α} (h : ∀ a, r = .ok a → Q a) :
    Pending Q r .waiting := by
  cases r with
  | ok a => exact ⟨rfl, h a rfl⟩
  | error e => exact ⟨nofun, nofun⟩

theorem safe_check_rotating {x : Except MarathonServiceError α} {Q : α → Prop}
    (h : ∀ a, x = .ok a → Q a) :
    (liftM x : ServiceM α).run.Safe (rotating registered visited) (Pending Q) .waiting :=
  pending_of_forall h

theorem safe_captureSource_rotating (state : RegistryState) (id : String) :
    (captureSource state id).run.Safe (rotating registered visited) (Pending fun _ => True)
      .waiting := by
  refine safe_seq
    (safe_quiet_rotating nofun (fun _ _ h => h) fun _ => pending_of_forall fun _ _ => trivial) ?_
  rintro snapshot _ ⟨rfl, -⟩
  refine safe_seq (safe_check_rotating fun _ _ => trivial) ?_
  rintro document _ ⟨rfl, -⟩
  exact safe_quiet_rotating nofun (fun _ _ h => h) fun _ => pending_of_forall fun _ _ => trivial

theorem safe_loadTarget_rotating (account : AccountRecord) :
    (loadTarget account).run.Safe (rotating registered visited)
      (Pending fun auth => auth.accountId = account.id) .waiting := by
  refine safe_seq
    (safe_quiet_rotating nofun (fun _ _ h => h) fun _ => pending_of_forall fun _ _ => trivial) ?_
  rintro snapshot _ ⟨rfl, -⟩
  exact safe_check_rotating fun auth hauth => targetSnapshot_eq_ok hauth

theorem safe_ask_rotating {c : ServiceCall} {k : c.Ans → α} {Q : α → Stage → Prop} {E : Stage → Prop}
    {stage : Stage} (hpre : (rotating registered visited).pre c stage)
    (hrel : ∀ a stage', (rotating registered visited).rel c stage a stage' → stage' = stage)
    (hQ : ∀ a, Q (k a) stage) :
    (liftM (Prog.call c fun a => .ret (k a) : ServiceProg α) : ServiceM α).run.Safe
      (rotating registered visited) (Prog.Outcome Q E) stage :=
  safe_liftProg (safe_quiet_rotating hpre hrel hQ)

theorem safe_adopt_rotating (current : Option String) (account : AccountRecord)
    {auth : AuthTransitionSnapshot} (hreg : auth.accountId ∈ registered)
    (hvis : auth.accountId ∉ visited) :
    (adopt current account auth).run.Safe (rotating registered visited)
      (Prog.Outcome (fun _ stage => stage = .active) fun stage => stage ≠ .ended ∧ stage ≠ .active)
      .waiting := by
  refine safe_seq (Q := fun _ stage => stage = .installed)
    (safe_orFail ⟨⟨rfl, hreg, hvis⟩, ?_⟩) ?_
  · rintro (e | status) _ rfl
    · exact ⟨nofun, nofun⟩
    · exact rfl
  rintro status _ rfl
  refine safe_then (safe_lift ⟨nofun, nofun⟩ fun changed _ => ?_)
  refine safe_seq
    (safe_ask_rotating nofun (fun _ _ h => h.1) fun _ => rfl) ?_
  rintro cached _ rfl
  refine safe_then (safe_lift ⟨nofun, nofun⟩ fun _ _ => ?_)
  refine safe_seq
    (safe_ask_rotating nofun (fun _ _ h => h) fun _ => rfl) ?_
  rintro _ _ rfl
  refine safe_seq (Q := fun _ stage => stage = .active)
    (safe_orFail ⟨rfl, ?_⟩) ?_
  · rintro (e | _) _ rfl
    · exact ⟨nofun, nofun⟩
    · exact rfl
  rintro _ _ rfl
  cases changed
  · exact safe_ask_rotating nofun (fun _ _ h => h) fun _ => rfl
  · exact safe_ask_rotating nofun (fun _ _ h => h) fun _ => rfl

def Answered (response : MarathonSwitchResponse) (stage : Stage) : Prop :=
  stage ≠ .ended ∧ (response.outcome = .committed ↔ stage = .active)

theorem safe_transition_rotating (state : RegistryState) (turns : ℕ) (current : Option String)
    {account : AccountRecord} (hreg : account.id ∈ registered) (hvis : account.id ∉ visited) :
    (transition state turns current account).run.Safe (rotating registered visited)
      (Prog.Outcome Answered fun stage => stage ≠ .ended ∧ stage ≠ .active) .waiting := by
  have hcap : (current.forM (captureSource state)).run.Safe (rotating registered visited)
      (Pending fun _ => True) .waiting := by
    cases current with
    | none => exact ⟨rfl, trivial⟩
    | some id => exact safe_captureSource_rotating state id
  refine safe_seq hcap ?_
  rintro _ _ ⟨rfl, -⟩
  refine safe_seq (safe_loadTarget_rotating account) ?_
  rintro auth _ ⟨rfl, hauth⟩
  refine safe_seq
    (safe_adopt_rotating current account (hauth ▸ hreg) (hauth ▸ hvis)) ?_
  rintro generation _ rfl
  exact ⟨nofun, fun _ => rfl, fun _ => rfl⟩

omit [Externals] in
theorem resolveTarget_of_mem_keys {state : RegistryState} (hstate : state.Valid)
    (hmem : target ∈ state.accounts.keys) {account : AccountRecord}
    (h : resolveTarget state target = .ok account) : account.id = target := by
  unfold resolveTarget at h
  split_ifs at h
  obtain ⟨found, hfound⟩ := Option.isSome_iff_exists.1 (AList.lookup_isSome.2 hmem)
  have hget : state.get? target = some found := hfound
  rw [hget] at h
  cases h
  exact RegistryState.get?_id hstate.keys hget

theorem targetPhases_rotating (hreg : target ∈ registered) (hvis : target ∉ visited) :
    TargetPhases (rotating registered visited) target
      (fun state stage => stage = .waiting ∧ state.Valid ∧ state.accounts.keys.Perm registered)
      (fun state cached stage => stage = .waiting ∧
        (state.Valid ∧ state.accounts.keys.Perm registered) ∧
        ∀ id, cached.bind (·.getAccountId) = some id → id ∈ visited)
      Answered fun stage => stage ≠ .ended ∧ stage ≠ .active where
  turns := by
    rintro state _ ⟨rfl, hstate⟩
    exact safe_ask_rotating nofun (fun _ _ h => h) fun _ => ⟨rfl, hstate⟩
  generation := by
    rintro state _ ⟨rfl, hstate⟩
    exact safe_ask_rotating nofun (fun _ _ h => h) fun _ => ⟨rfl, hstate⟩
  cached := by
    rintro state _ ⟨rfl, hstate⟩
    refine safe_liftProg ⟨nofun, ?_⟩
    rintro cached _ ⟨rfl, hcached⟩
    exact ⟨rfl, hstate, hcached rfl⟩
  unresolved := by
    rintro state _ ⟨rfl, -⟩
    exact ⟨nofun, nofun⟩
  unnamed := by
    rintro state cached _ ⟨rfl, -⟩
    exact ⟨nofun, nofun⟩
  refused := by
    rintro state _ response ⟨rfl, -⟩ href
    exact ⟨nofun, fun hcom => absurd hcom href, nofun⟩
  reactivate := by
    -- the current account is visited, the target is not
    rintro state cached account turns generation _ ⟨rfl, ⟨hvalid, hkeys⟩, hcached⟩ hacc hcur
    have hid := resolveTarget_of_mem_keys hvalid (hkeys.mem_iff.2 hreg) hacc
    rw [currentAccountId_eq_ok_some.1 hcur] at hcached
    exact absurd (hid ▸ hcached account.id rfl) hvis
  transition := by
    rintro state cached current account turns _ ⟨rfl, ⟨hvalid, hkeys⟩, -⟩ hacc - -
    have hid := resolveTarget_of_mem_keys hvalid (hkeys.mem_iff.2 hreg) hacc
    exact safe_transition_rotating state turns current (hid ▸ hreg) (hid ▸ hvis)

theorem safe_switch_rotating (hreg : target ∈ registered) (hvis : target ∉ visited) :
    (switch target).run.Safe (rotating registered visited)
      (Prog.Outcome Answered fun stage => stage ≠ .ended ∧ stage ≠ .active) .waiting := by
  refine safe_switch_of_targetPhases (targetPhases_rotating hreg hvis) ?_
  refine safe_seq
    (safe_quiet_rotating nofun (fun _ _ h => h) fun _ => pending_of_forall fun _ _ => trivial) ?_
  rintro _ _ ⟨rfl, -⟩
  refine safe_orFail ⟨nofun, ?_⟩
  rintro (e | state) _ ⟨rfl, hstate⟩
  · exact ⟨nofun, nofun⟩
  · exact ⟨rfl, hstate state rfl⟩

theorem safe_guardedSwitch_rotating (hreg : target ∈ registered) (hvis : target ∉ visited) :
    (guardedSwitch target).Safe (rotatingTask registered visited) (fun _ stage => stage ≠ .ended)
      .waiting := by
  refine ⟨nofun, ?_⟩
  rintro _ _ rfl
  change (onTask (switch target).run >>= fun response =>
    Prog.perform TaskCall.unlockTransition >>= fun _ => pure response).Safe _ _ Stage.waiting
  rw [safe_bind]
  have hswitch : (switch target).run.Safe (rotating registered visited)
      (fun _ stage => stage ≠ .ended) .waiting := by
    refine (safe_switch_rotating hreg hvis).mono ?_
    rintro (e | response) stage h
    · exact h.1
    · exact h.1
  have htask : (onTask (switch target).run).Safe (rotatingTask registered visited)
      (fun _ stage => stage ≠ .ended) .waiting := by
    refine Prog.Safe.subst (R := id) (fun _ _ _ => trivial)
      (fun _ _ _ => trivial) ?_ hswitch
    intro c stage hpre _
    exact ⟨hpre, fun _ _ h => h⟩
  refine htask.mono ?_
  rintro response stage hstage
  refine ⟨hstage, ?_⟩
  rintro _ _ rfl
  exact hstage

theorem safe_filterPresent_rotating (accounts : List AccountRecord) :
    (filterPresent accounts).Safe (rotatingTask registered visited)
      (fun present stage => stage = .waiting ∧ present ⊆ accounts) .waiting := by
  induction accounts with
  | nil => exact ⟨rfl, List.Subset.refl _⟩
  | cons account accounts ih =>
    refine ⟨nofun, ?_⟩
    rintro present _ rfl
    change (filterPresent accounts >>= fun others => pure _).Safe _ _ Stage.waiting
    rw [safe_bind]
    refine ih.mono ?_
    rintro others _ ⟨rfl, hothers⟩
    refine ⟨rfl, ?_⟩
    cases present with
    | true => exact List.cons_subset_cons account hothers
    | false => exact List.subset_cons_of_subset account hothers

theorem safe_failOverIdle_rotating {source : String} {r : Except DomainError RegistryState}
    (hstate : ∀ state, r = .ok state → state.Valid ∧ state.accounts.keys.Perm registered) :
    (failOverIdle source r).Safe (rotatingTask registered visited) (fun _ stage => stage ≠ .ended)
      .waiting := by
  cases r with
  | error e => exact nofun
  | ok state =>
    obtain ⟨hvalid, hkeys⟩ := hstate state rfl
    refine ⟨nofun, ?_⟩
    rintro now _ rfl
    refine ⟨nofun, ?_⟩
    rintro (_ | quotas) _ ⟨rfl, hquotas⟩
    · exact nofun
    change (filterPresent (preselected state source) >>= fun present =>
      failOver (selectAutoTarget present quotas now)).Safe _ _ Stage.waiting
    rw [safe_bind]
    refine (safe_filterPresent_rotating _).mono ?_
    rintro present _ ⟨rfl, hpres⟩
    cases htarget : selectAutoTarget present quotas now with
    | none => exact nofun
    | some target =>
      have hvis : target ∉ visited := fun hmem =>
        (selectAutoTarget_mem htarget).2 (hquotas rfl quotas rfl target hmem now)
      obtain ⟨-, account, hacc, rfl⟩ := selectAutoTarget_ne hpres htarget
      have hreg : account.id ∈ registered :=
        hkeys.mem_iff.1 (RegistryState.id_mem_keys hvalid.keys hacc)
      change (guardedSwitch account.id >>= fun _ => pure ()).Safe _ _ Stage.waiting
      rw [safe_bind]
      exact safe_guardedSwitch_rotating hreg hvis

theorem safe_failoverTask_rotating (source : String) :
    (failoverTask source).Safe (rotatingTask registered visited) (fun _ stage => stage = .ended)
      .waiting := by
  change (runAutoFailover source >>= fun _ => Prog.perform TaskCall.endAutoFailover).Safe _ _ Stage.waiting
  rw [safe_bind]
  refine Prog.Safe.mono (Q := fun _ stage => stage ≠ .ended) ⟨nofun, ?_⟩ ?_
  · rintro (_ | _) _ rfl
    · exact nofun
    · refine ⟨nofun, ?_⟩
      rintro state _ ⟨rfl, hstate⟩
      exact safe_failOverIdle_rotating hstate
  · intro _ stage hstage
    exact ⟨hstage, fun _ _ h => h⟩

end Service

/-! ### The invariant of a run -/

namespace Mark

def reports (marks : List Mark) : List (String × ℚ≥0) := marks.filterMap (·.report)

def moves (marks : List Mark) : List Move := marks.filterMap (·.move)

def commits (marks : List Mark) : ℕ := marks.countP (·.commit)

def visited (first : Option String) (marks : List Mark) : List String :=
  first.toList ++ (moves marks).map (·.target)

def Spent (marks : List Mark) (id : String) : Prop :=
  ∃ used, (id, used) ∈ reports marks ∧ autoFailoverUsedPercent < used

variable {marks : List Mark} {m : Mark} {first : Option String} {id : String}

omit [Externals]

@[simp] theorem reports_concat : reports (marks ++ [m]) = reports marks ++ m.report.toList := by
  cases h : m.report <;> simp [reports, h]

@[simp] theorem moves_concat : moves (marks ++ [m]) = moves marks ++ m.move.toList := by
  cases h : m.move <;> simp [moves, h]

@[simp] theorem commits_concat : commits (marks ++ [m]) = commits marks + m.commit.toNat := by
  cases h : m.commit <;> simp [commits, h]

@[simp] theorem visited_concat :
    visited first (marks ++ [m]) = visited first marks ++ (m.move.map (·.target)).toList := by
  cases h : m.move <;> simp [visited, h]

theorem Spent.concat (h : Spent marks id) : Spent (marks ++ [m]) id := by
  obtain ⟨used, hmem, hused⟩ := h
  exact ⟨used, by simp [hmem], hused⟩

end Mark

open Mark

/-- The moves go to registered accounts that were not visited before, and away from visited ones. -/
structure Distinct (registered : List String) (first : Option String) (marks : List Mark) : Prop where
  nodup : (visited first marks).Nodup
  targets : ∀ move ∈ moves marks, move.target ∈ registered
  left_mem : ∀ move ∈ moves marks, ∀ id, move.left = some id → id ∈ visited first marks
  apart : (moves marks).Pairwise fun earlier later => earlier.left ≠ some later.target

section Distinct

variable {registered : List String} {first : Option String} {marks : List Mark} {m : Mark}

omit [Externals]

theorem Distinct.concat_none (h : Distinct registered first marks) (hm : m.move = none) :
    Distinct registered first (marks ++ [m]) := by
  obtain ⟨hnodup, htar, hleft, hapart⟩ := h
  constructor <;> simpa [hm]

theorem Distinct.concat_move (h : Distinct registered first marks) {move : Move}
    (hm : m.move = some move) (htarget : move.target ∈ registered)
    (hnew : move.target ∉ visited first marks)
    (hleft : ∀ id, move.left = some id → id ∈ visited first marks) :
    Distinct registered first (marks ++ [m]) where
  nodup := by
    rw [visited_concat, hm]
    exact List.nodup_append.2 ⟨h.nodup, List.nodup_singleton _, by
      rintro id hid _ hmem rfl
      rw [List.mem_singleton.1 hmem] at hid
      exact hnew hid⟩
  targets := by
    rw [moves_concat, hm]
    exact List.forall_mem_append.2 ⟨h.targets, List.forall_mem_singleton.2 htarget⟩
  left_mem := by
    rw [moves_concat, hm, visited_concat]
    refine List.forall_mem_append.2 ⟨?_, List.forall_mem_singleton.2 ?_⟩
    · exact fun earlier hmem id hid => List.mem_append_left _ (h.left_mem earlier hmem id hid)
    · exact fun id hid => List.mem_append_left _ (hleft id hid)
  apart := by
    rw [moves_concat, hm]
    refine List.pairwise_append.2 ⟨h.apart, List.pairwise_singleton _ _, ?_⟩
    rintro earlier hear later hlater heq
    cases List.mem_singleton.1 hlater
    exact hnew (h.left_mem earlier hear _ heq)

theorem Distinct.length_moves_le (h : Distinct registered first marks) :
    (moves marks).length ≤ registered.length ∧
      ∀ id, first = some id → id ∈ registered → (moves marks).length + 1 ≤ registered.length := by
  have hsub : (moves marks).map (·.target) ⊆ registered := by
    intro id hid
    obtain ⟨move, hmove, rfl⟩ := List.mem_map.1 hid
    exact h.targets move hmove
  constructor
  · have hnodup : ((moves marks).map (·.target)).Nodup := h.nodup.of_append_right
    simpa using (List.subperm_of_subset hnodup hsub).length_le
  · rintro id rfl hid
    have hall : visited (some id) marks ⊆ registered := List.cons_subset.2 ⟨hid, hsub⟩
    simpa [visited, Nat.add_comm] using (List.subperm_of_subset h.nodup hall).length_le

end Distinct

structure Resting (marks : List Mark) (p : Process) : Prop where
  inFlight : p.autoFailoverInFlight = false
  done : ∀ task ∈ p.tasks, task.todo = .ret ()
  commits_le : commits marks ≤ (moves marks).length

/-- The task `n` is a failover under way. Until it installs something, every visited account is
spent. -/
structure Moving (registered : List String) (first : Option String) (marks : List Mark) (p : Process)
    (n : ℕ) (todo : TaskProg Unit) (stage : Stage) : Prop where
  inFlight : p.autoFailoverInFlight = true
  task : ∃ source installed, p.tasks[n]? = some ⟨some source, installed, todo⟩
  done : ∀ m, m ≠ n → ∀ task, p.tasks[m]? = some task → task.todo = .ret ()
  not_ended : stage ≠ .ended
  safe : ∃ avoided, todo.Safe (rotatingTask registered avoided) (fun _ stage => stage = .ended) stage ∧
    (stage = .waiting → avoided = visited first marks ∧ ∀ id ∈ avoided, Spent marks id)
  commits_le : commits marks + (if stage = .installed then 1 else 0) ≤ (moves marks).length

/-- The invariant of a run that started with the native account `first`. -/
structure Rotating (registered : List String) (first : Option String) (marks : List Mark)
    (p : Process) : Prop where
  registry : p.world.store.registered.Perm registered
  distinct : Distinct registered first marks
  /-- What was observed last of a spent account does not make it a target. -/
  observed : ∀ quotas, p.quotas = some quotas → ∀ id, Spent marks id →
    ∀ quota, quotas.lookup id = some quota → quota.isWeekly = true →
      autoFailoverUsedPercent < quota.usedPercent.magnitude
  /-- The native account is the last one visited, and the others are spent. -/
  current : ∀ id, p.world.cachedAccount = some id →
    id ∈ visited first marks ∧ ∀ other ∈ visited first marks, other ≠ id → Spent marks other
  task : Resting marks p ∨ ∃ n todo stage, Moving registered first marks p n todo stage

/-! ### What a call does to the process -/

def Stage.after (stage : Stage) : (c : TaskCall) → c.Ans → Stage
  | .service (.auth (.install _ _)), .ok _ => .installed
  | .service (.store (.setActiveLocked _)), .ok _ => .active
  | .endAutoFailover, _ => .ended
  | _, _ => stage

def TaskCall.world (w : World) : TaskCall → World
  | .service c => (w.exec c).2
  | _ => w

def TaskCall.ends : TaskCall → Bool
  | .endAutoFailover => true
  | _ => false

theorem Store.registered_exec {registered visited : List String} {stage : Stage} {nonce : Nonce}
    {s s' : Store} {c : StoreCall} {v : c.Val}
    (hpre : (rotating registered visited).pre (.store c) stage)
    (h : s.exec nonce c = .ok (v, s')) : s'.registered = s.registered := by
  cases c with
  | lockExclusive =>
    cases h
    rfl
  | stateLocked =>
    obtain ⟨state, -, heq⟩ := map_eq_ok.1 h
    cases heq
    rfl
  | loadLocked key =>
    obtain ⟨snapshot, -, heq⟩ := map_eq_ok.1 h
    cases heq
    rfl
  | setActiveLocked id =>
    obtain ⟨store, hset, heq⟩ := map_eq_ok.1 h
    cases heq
    obtain ⟨state, hstate, hstate', -⟩ := Store.setActiveLocked_eq_ok hset
    simp only [Store.registered, hstate, hstate']
  | saveLocked key snapshot =>
    obtain ⟨store, hsave, heq⟩ := map_eq_ok.1 h
    cases heq
    obtain ⟨-, -, rfl⟩ := Store.saveLocked_eq_ok hsave
    rfl
  | replaceLocked _ | setEnabled _ | saveFreshLocked _ | collectOrphansLocked _ => exact hpre.elim

namespace World

variable {registered visited : List String} {stage : Stage} {w : World}

theorem execAuth_install (source : Option String) (snapshot : AuthTransitionSnapshot) :
    w.execAuth (.install source snapshot) =
      match w.installResult source snapshot with
      | .ok (status, native) => (.ok status, { w with native })
      | .error e => (.error e, w) := rfl

theorem registered_exec {c : ServiceCall} (hpre : (rotating registered visited).pre c stage) :
    (w.exec c).2.store.registered = w.store.registered := by
  cases c with
  | store c =>
    change (w.execStore c).2.store.registered = _
    unfold execStore
    split
    · rename_i v store hresult
      exact Store.registered_exec hpre (faulty_eq_ok.1 hresult).2
    · rfl
  | auth c =>
    cases c with
    | install source snapshot =>
      change (w.execAuth (.install source snapshot)).2.store.registered = _
      rw [execAuth_install]
      cases w.installResult source snapshot <;> rfl
    | _ => rfl
  | _ => rfl

theorem cachedAccount_exec (c : ServiceCall) (id : String)
    (h : (w.exec c).2.cachedAccount = some id) :
    w.cachedAccount = some id ∧ TaskCall.installedAccount (.service c) (w.exec c).1 = none ∨
      TaskCall.installedAccount (.service c) (w.exec c).1 = some id := by
  cases c with
  | store c =>
    refine .inl ⟨?_, rfl⟩
    change (w.execStore c).2.cachedAccount = _ at h
    unfold execStore at h
    split at h
    · exact h
    · exact h
  | auth c =>
    cases c with
    | install source snapshot =>
      have hexec : w.exec (.auth (.install source snapshot)) = _ := execAuth_install source snapshot
      rw [hexec] at h ⊢
      cases hresult : w.installResult source snapshot with
      | error e =>
        rw [hresult] at h
        exact .inl ⟨h, rfl⟩
      | ok r =>
        obtain ⟨status, native⟩ := r
        rw [hresult] at h
        refine .inr ?_
        have hcached := AuthManager.cachedAccount_of_install (faulty_eq_ok.1 hresult).2
        obtain ⟨-, tokens, htokens, hid⟩ := managedTransitionAccountId_eq_ok snapshot.accountId_eq
        have hnamed : tokens.accountId = some id := by
          simpa [cachedAccount, hcached, htokens] using h
        rw [hnamed] at hid
        cases hid
        rfl
    | _ => exact .inl ⟨h, rfl⟩
  | _ => exact .inl ⟨h, rfl⟩

end World

namespace Process

variable {p p' : Process} {c : TaskCall} {a : c.Ans} {registered avoided : List String}
  {stage : Stage}

theorem exec_eq (h : p.exec c = some (a, p')) :
    p' = { p with
      world := c.world p.world
      transitionHeld := p'.transitionHeld
      autoFailoverInFlight := p.autoFailoverInFlight && !c.ends } := by
  cases c with
  | lockTransition =>
    simp only [exec] at h
    split_ifs at h
    cases h
    simp [TaskCall.world, TaskCall.ends]
  | idle =>
    simp only [exec] at h
    split_ifs at h <;> cases h <;> simp [TaskCall.world, TaskCall.ends]
  | _ =>
    cases h
    simp [TaskCall.world, TaskCall.ends]

theorem exec_cachedAccount (h : p.exec c = some (a, p')) {id : String}
    (hid : p'.world.cachedAccount = some id) :
    p.world.cachedAccount = some id ∧ c.installedAccount a = none ∨ c.installedAccount a = some id := by
  rw [exec_eq h] at hid
  cases c with
  | service c =>
    cases h
    exact World.cachedAccount_exec c id hid
  | _ => exact .inl ⟨hid, rfl⟩

theorem rotatingTask_rel_of_exec (h : p.exec c = some (a, p'))
    (hreg : p.world.store.registered.Perm registered)
    (hcur : stage = .waiting → ∀ id, p.world.cachedAccount = some id → id ∈ avoided)
    (hquotas : stage = .waiting → ∀ quotas, p.quotas = some quotas → ∀ id ∈ avoided, ∀ now,
      eligibleUsage quotas now id = none) :
    (rotatingTask registered avoided).rel c stage a (stage.after c a) := by
  have hread : ∀ state, p.world.store.stateLocked = .ok state →
      state.Valid ∧ state.accounts.keys.Perm registered := by
    intro state hstate
    have hkeys : p.world.store.registered = state.accounts.keys := by
      rw [Store.registered, hstate]
    exact ⟨loadUnlocked_valid hstate, hkeys ▸ hreg⟩
  cases c with
  | service c =>
    cases h
    cases c with
    | store c =>
      cases c with
      | stateLocked =>
        refine ⟨rfl, ?_⟩
        intro state hstate
        change (p.world.execStore .stateLocked).1 = _ at hstate
        obtain ⟨store, hresult, -⟩ := World.execStore_eq_ok hstate
        obtain ⟨state', hstate', heq⟩ := map_eq_ok.1 (faulty_eq_ok.1 hresult).2
        cases heq
        exact hread state hstate'
      | setActiveLocked id =>
        cases hres : (p.world.exec (.store (.setActiveLocked id))).1 <;> rfl
      | _ => rfl
    | auth c =>
      cases c with
      | authCached => exact ⟨rfl, hcur⟩
      | install source snapshot =>
        cases hres : (p.world.exec (.auth (.install source snapshot))).1 <;> rfl
      | snapshotForTransition expected => rfl
    | _ => rfl
  | registryState =>
    cases h
    refine ⟨rfl, ?_⟩
    intro state hstate
    exact hread state (faulty_eq_ok.1 (faulty_eq_ok.1 hstate).2).2
  | quotas =>
    cases h
    exact ⟨rfl, hquotas⟩
  | endAutoFailover => rfl
  | _ => rfl

end Process

section Steps

variable {registered : List String} {first : Option String} {marks : List Mark} {p p' : Process}
  {m : Mark}

omit [Externals] in
theorem eligibleUsage_eq_none {quotas : Quotas} {id : String}
    (h : ∀ quota, quotas.lookup id = some quota → quota.isWeekly = true →
      autoFailoverUsedPercent < quota.usedPercent.magnitude) (now : DateTime) :
    eligibleUsage quotas now id = none := by
  unfold eligibleUsage
  cases hquota : quotas.lookup id with
  | none => rfl
  | some quota =>
    refine if_neg ?_
    intro hpassed
    simp only [Bool.and_eq_true, decide_eq_true_eq] at hpassed
    exact absurd hpassed.2 (not_le.2 (h quota hquota hpassed.1.1))

theorem Resting.concat (h : Resting marks p) (hmove : m.move = none) (hcommit : m.commit = false)
    (htasks : p'.tasks = p.tasks) (hflag : p'.autoFailoverInFlight = p.autoFailoverInFlight) :
    Resting (marks ++ [m]) p' where
  inFlight := hflag.trans h.inFlight
  done := htasks ▸ h.done
  commits_le := by simpa [hmove, hcommit] using h.commits_le

theorem Moving.concat {n : ℕ} {todo : TaskProg Unit} {stage : Stage}
    (h : Moving registered first marks p n todo stage) (hmove : m.move = none)
    (hcommit : m.commit = false) (htasks : p'.tasks = p.tasks)
    (hflag : p'.autoFailoverInFlight = p.autoFailoverInFlight) :
    Moving registered first (marks ++ [m]) p' n todo stage where
  inFlight := hflag.trans h.inFlight
  task := htasks ▸ h.task
  done := htasks ▸ h.done
  not_ended := h.not_ended
  safe := by
    obtain ⟨avoided, hsafe, hwait⟩ := h.safe
    refine ⟨avoided, hsafe, fun hstage => ?_⟩
    obtain ⟨havoid, hspent⟩ := hwait hstage
    exact ⟨by simpa [hmove] using havoid, fun id hid => (hspent id hid).concat⟩
  commits_le := by simpa [hmove, hcommit] using h.commits_le

theorem Rotating.concat (h : Rotating registered first marks p) (hmove : m.move = none)
    (hcommit : m.commit = false) (hreg : p'.world.store.registered.Perm registered)
    (hobs : ∀ quotas, p'.quotas = some quotas → ∀ id, Spent (marks ++ [m]) id →
      ∀ quota, quotas.lookup id = some quota → quota.isWeekly = true →
        autoFailoverUsedPercent < quota.usedPercent.magnitude)
    (hcached : ∀ id, p'.world.cachedAccount = some id → p.world.cachedAccount = some id)
    (htasks : p'.tasks = p.tasks) (hflag : p'.autoFailoverInFlight = p.autoFailoverInFlight) :
    Rotating registered first (marks ++ [m]) p' where
  registry := hreg
  distinct := h.distinct.concat_none hmove
  observed := hobs
  current := by
    intro id hid
    obtain ⟨hmem, hothers⟩ := h.current id (hcached id hid)
    simp only [visited_concat, hmove, Option.map_none, Option.toList_none, List.append_nil]
    exact ⟨hmem, fun other hother hne => (hothers other hother hne).concat⟩
  task := by
    rcases h.task with hrest | ⟨n, todo, stage, hmoving⟩
    · exact .inl (hrest.concat hmove hcommit htasks hflag)
    · exact .inr ⟨n, todo, stage, hmoving.concat hmove hcommit htasks hflag⟩

theorem Rotating.quiet (h : Rotating registered first marks p)
    (hreg : p'.world.store.registered.Perm registered) (hquotas : p'.quotas = p.quotas)
    (hcached : ∀ id, p'.world.cachedAccount = some id → p.world.cachedAccount = some id)
    (htasks : p'.tasks = p.tasks) (hflag : p'.autoFailoverInFlight = p.autoFailoverInFlight) :
    Rotating registered first (marks ++ [.quiet]) p' := by
  refine h.concat rfl rfl hreg ?_ hcached htasks hflag
  intro quotas hsome id hspent
  refine h.observed quotas (hquotas ▸ hsome) id ?_
  simpa [Spent, Mark.quiet] using hspent

def NeverDecreasing (reports : List (String × ℚ≥0)) : Prop :=
  reports.Pairwise fun earlier later => earlier.1 = later.1 → earlier.2 ≤ later.2

theorem Rotating.observed_insert (h : Rotating registered first marks p) {quotas : Quotas}
    (hquotas : p.quotas = some quotas) {id : String} {usedPercent : F64.Percent} {isWeekly : Bool}
    {now : DateTime} (hreport : m.report = if isWeekly then some (id, usedPercent.magnitude) else none)
    (hmono : NeverDecreasing (reports (marks ++ [m]))) {other : String} (hspent : Spent (marks ++ [m]) other)
    {quota : CachedQuota}
    (hquota : (quotas.insert id ⟨usedPercent, now, isWeekly⟩).lookup other = some quota)
    (hweekly : quota.isWeekly = true) : autoFailoverUsedPercent < quota.usedPercent.magnitude := by
  obtain ⟨used, hmem, hused⟩ := hspent
  rw [reports_concat, hreport] at hmem
  by_cases heq : other = id
  · subst heq
    rw [AList.lookup_insert] at hquota
    cases hquota
    obtain rfl : isWeekly = true := hweekly
    rcases List.mem_append.1 hmem with hold | hnew
    · -- the account was spent before, and has not recovered
      rw [reports_concat, hreport] at hmono
      have hle := (List.pairwise_append.1 hmono).2.2 _ hold (other, usedPercent.magnitude) (by simp) rfl
      exact lt_of_lt_of_le hused hle
    · have hnow : used = usedPercent.magnitude := by simpa using hnew
      exact hnow ▸ hused
  · rw [AList.lookup_insert_ne heq] at hquota
    refine h.observed quotas hquotas other ⟨used, ?_, hused⟩ quota hquota hweekly
    refine (List.mem_append.1 hmem).resolve_right ?_
    cases isWeekly <;> simp [heq]

theorem Moving.start (h : Resting marks p) {id : String}
    (hspent : ∀ other ∈ visited first marks, Spent marks other) {p' : Process}
    (hflag : p'.autoFailoverInFlight = true)
    (htasks : p'.tasks = p.tasks ++ [⟨some id, false, Service.failoverTask id⟩]) :
    Moving registered first marks p' p.tasks.length (Service.failoverTask id) .waiting where
  inFlight := hflag
  task := ⟨id, false, by rw [htasks, List.getElem?_concat_length]⟩
  done := by
    intro m hm task htask
    rw [htasks] at htask
    rcases List.mem_append.1 (List.mem_of_getElem? htask) with hold | hnew
    · exact h.done task hold
    · have hlt := (List.getElem?_eq_some_iff.1 htask).1
      rw [List.length_append, List.length_singleton] at hlt
      rw [List.getElem?_append_left (by omega)] at htask
      exact h.done task (List.mem_of_getElem? htask)
  not_ended := nofun
  safe := ⟨visited first marks, Service.safe_failoverTask_rotating id, fun _ => ⟨rfl, hspent⟩⟩
  commits_le := h.commits_le

theorem Rotating.observe (h : Rotating registered first marks p) (snapshot : RateLimitSnapshot)
    (hmono : NeverDecreasing (reports (marks ++ [p.mark (.observe snapshot)]))) :
    Rotating registered first (marks ++ [p.mark (.observe snapshot)])
      (p.observeRateLimits snapshot) := by
  unfold Process.observeRateLimits
  split
  · rename_i id usedPercent isWeekly quotas hid hobs hquotas
    have hreport : (p.mark (.observe snapshot)).report =
        if isWeekly then some (id, usedPercent.magnitude) else none := by
      cases isWeekly <;> simp [Process.mark, Process.report, hid, hobs]
    have hstored : Rotating registered first (marks ++ [p.mark (.observe snapshot)])
        { p with quotas := some (quotas.insert id ⟨usedPercent, p.world.clock, isWeekly⟩) } := by
      refine h.concat rfl rfl h.registry ?_ (fun _ hid => hid) rfl rfl
      rintro _ ⟨⟩ other hspent quota hquota hweekly
      exact h.observed_insert hquotas hreport hmono hspent hquota hweekly
    simp only
    split_ifs with hcalm
    · exact hstored
    · simp only [Bool.or_eq_true, Bool.not_eq_true', not_or, Bool.not_eq_false,
        Bool.not_eq_true] at hcalm
      obtain ⟨⟨rfl, hover⟩, hflag⟩ := hcalm
      have hrest : Resting (marks ++ [p.mark (.observe snapshot)]) p := by
        rcases h.task with hrest | ⟨n, todo, stage, hmoving⟩
        · exact hrest.concat rfl rfl rfl rfl
        · rw [hmoving.inFlight] at hflag
          cases hflag
      have hspent : ∀ other ∈ visited first (marks ++ [p.mark (.observe snapshot)]),
          Spent (marks ++ [p.mark (.observe snapshot)]) other := by
        intro other hother
        by_cases heq : other = id
        · exact ⟨usedPercent.magnitude, by simp [hreport, heq], of_decide_eq_true hover⟩
        · exact (hstored.current id hid).2 other hother heq
      exact
        { registry := hstored.registry
          distinct := hstored.distinct
          observed := hstored.observed
          current := hstored.current
          task := .inr ⟨_, _, _, Moving.start hrest hspent rfl rfl⟩ }
  · rename_i hnot
    refine h.concat rfl rfl h.registry ?_ (fun _ hid => hid) rfl rfl
    intro quotas hquotas other hspent
    -- nothing is reported, or nothing can be kept
    refine h.observed quotas hquotas other ?_
    have hreport : (p.mark (.observe snapshot)).report = none := by
      simp only [Process.mark, Process.report]
      split
      · rename_i id usedPercent hid hobs
        exact absurd hquotas (hnot id usedPercent true quotas hid hobs)
      · rfl
    simpa [Spent, hreport] using hspent

section Advance

variable {c : TaskCall} {a : c.Ans} {avoided : List String} {stage : Stage} {n : ℕ}
  {todo : TaskProg Unit}

theorem not_ended_of_pre (hpre : (rotatingTask registered avoided).pre c stage) : stage ≠ .ended := by
  rintro rfl
  cases c with
  | service c =>
    cases c with
    | auth c => cases c <;> first | exact hpre rfl | cases hpre.1
    | store c => cases c <;> first | exact hpre rfl | cases hpre
    | _ => exact hpre rfl
  | _ => exact hpre rfl

theorem call_cases (a : c.Ans) (hpre : (rotatingTask registered avoided).pre c stage) :
    (∃ id, c.installedAccount a = some id ∧ c.activates a = false ∧ c.ends = false ∧
      stage = .waiting ∧ id ∈ registered ∧ id ∉ avoided ∧ stage.after c a = .installed) ∨
    c.installedAccount a = none ∧
      (c.activates a = true ∧ c.ends = false ∧ stage = .installed ∧ stage.after c a = .active ∨
        c.activates a = false ∧
          (c.ends = true ∧ stage.after c a = .ended ∨ c.ends = false ∧ stage.after c a = stage)) := by
  cases c with
  | service c =>
    cases c with
    | auth c =>
      cases c with
      | install source snapshot =>
        obtain ⟨rfl, hreg, hnew⟩ := hpre
        cases a with
        | error e => exact .inr ⟨rfl, .inr ⟨rfl, .inr ⟨rfl, rfl⟩⟩⟩
        | ok status => exact .inl ⟨_, rfl, rfl, rfl, rfl, hreg, hnew, rfl⟩
      | _ => exact .inr ⟨rfl, .inr ⟨rfl, .inr ⟨rfl, rfl⟩⟩⟩
    | store c =>
      cases c with
      | setActiveLocked id =>
        obtain rfl : stage = .installed := hpre
        cases a with
        | error e => exact .inr ⟨rfl, .inr ⟨rfl, .inr ⟨rfl, rfl⟩⟩⟩
        | ok v => exact .inr ⟨rfl, .inl ⟨rfl, rfl, rfl, rfl⟩⟩
      | replaceLocked _ | setEnabled _ | saveFreshLocked _ | collectOrphansLocked _ => exact hpre.elim
      | _ => exact .inr ⟨rfl, .inr ⟨rfl, .inr ⟨rfl, rfl⟩⟩⟩
    | _ => exact .inr ⟨rfl, .inr ⟨rfl, .inr ⟨rfl, rfl⟩⟩⟩
  | endAutoFailover => exact .inr ⟨rfl, .inr ⟨rfl, .inl ⟨rfl, rfl⟩⟩⟩
  | _ => exact .inr ⟨rfl, .inr ⟨rfl, .inr ⟨rfl, rfl⟩⟩⟩

namespace Process

theorem advance_of_done (h : ∀ task, p.tasks[n]? = some task → task.todo = .ret ()) :
    (p.advance n).1 = p ∧ p.mark (.advance n) = .quiet := by
  cases htask : p.tasks[n]? with
  | none => simp [advance, mark, htask]
  | some task =>
    obtain ⟨source, installed, todo⟩ := task
    cases h _ htask
    simp [advance, mark, htask]

end Process

variable {k : c.Ans → TaskProg Unit}

theorem Moving.next {source : String} {installed : Bool}
    (h : Moving registered first marks p n (.call c k) stage) (hexec : p.exec c = some (a, p'))
    (hsafe : (k a).Safe (rotatingTask registered avoided) (fun _ stage => stage = .ended)
      (stage.after c a)) (hends : c.ends = false) (hended : stage.after c a ≠ .ended)
    (hwait : stage.after c a = .waiting →
      avoided = visited first (marks ++ [m]) ∧ ∀ id ∈ avoided, Spent (marks ++ [m]) id)
    (hcom : commits (marks ++ [m]) + (if stage.after c a = .installed then 1 else 0) ≤
      (moves (marks ++ [m])).length) : Moving registered first (marks ++ [m])
      { p' with tasks := p.tasks.set n ⟨some source, installed, k a⟩ } n (k a) (stage.after c a) where
  inFlight := by
    rw [Process.exec_eq hexec]
    simp [h.inFlight, hends]
  task := by
    obtain ⟨_, _, htask⟩ := h.task
    exact ⟨source, installed, List.getElem?_set_self (List.getElem?_eq_some_iff.1 htask).1⟩
  done := by
    intro m hm task htask
    exact h.done m hm task ((List.getElem?_set_ne (Ne.symm hm)).symm.trans htask)
  not_ended := hended
  safe := ⟨avoided, hsafe, hwait⟩
  commits_le := hcom

theorem Resting.of_ends {source : Option String} {installed : Bool}
    (h : Moving registered first marks p n (.call c k) stage) (hexec : p.exec c = some (a, p'))
    (hends : c.ends = true)
    (hsafe : (k a).Safe (rotatingTask registered avoided) (fun _ stage => stage = .ended) .ended)
    (hcom : commits (marks ++ [m]) ≤ (moves (marks ++ [m])).length) :
    Resting (marks ++ [m]) { p' with tasks := p.tasks.set n ⟨source, installed, k a⟩ } where
  inFlight := by
    rw [Process.exec_eq hexec]
    simp [hends]
  done := by
    intro task htask
    obtain ⟨m, hm⟩ := List.mem_iff_getElem?.1 htask
    by_cases heq : n = m
    · subst heq
      obtain ⟨_, _, hold⟩ := h.task
      have hset : some _ = some task :=
        (List.getElem?_set_self (List.getElem?_eq_some_iff.1 hold).1).symm.trans hm
      cases hset
      cases hk : k a with
      | ret _ => rfl
      | call c' k' =>
        rw [hk] at hsafe
        exact absurd rfl (not_ended_of_pre hsafe.1)
    · exact h.done m (Ne.symm heq) task ((List.getElem?_set_ne heq).symm.trans hm)
  commits_le := hcom

theorem Rotating.answered (h : Rotating registered first marks p) {source : String}
    {installed : Bool} (hmoving : Moving registered first marks p n (.call c k) stage)
    (hexec : p.exec c = some (a, p'))
    (hm : m = ⟨none, (c.installedAccount a).map (⟨p.world.cachedAccount, ·⟩), c.activates a⟩) :
    Rotating registered first (marks ++ [m])
      { p' with tasks := p.tasks.set n ⟨some source, installed, k a⟩ } := by
  obtain ⟨avoided, ⟨hpre, hcont⟩, hwait⟩ := hmoving.safe
  have hrel : (rotatingTask registered avoided).rel c stage a (stage.after c a) := by
    refine Process.rotatingTask_rel_of_exec hexec h.registry ?_ ?_
    · rintro hstage id hid
      rw [(hwait hstage).1]
      exact (h.current id hid).1
    · intro hstage quotas hquotas id hid now
      exact eligibleUsage_eq_none (h.observed quotas hquotas id ((hwait hstage).2 id hid)) now
  have hsafe := hcont a _ hrel
  have hregis : p'.world.store.registered.Perm registered := by
    rw [Process.exec_eq hexec]
    cases c with
    | service c => exact (World.registered_exec hpre).symm ▸ h.registry
    | _ => exact h.registry
  have hspent : ∀ {id}, Spent (marks ++ [m]) id → Spent marks id := by
    intro id hid
    simpa [Spent, hm] using hid
  have hobs : ∀ quotas, p'.quotas = some quotas → ∀ id, Spent (marks ++ [m]) id →
      ∀ quota, quotas.lookup id = some quota → quota.isWeekly = true →
        autoFailoverUsedPercent < quota.usedPercent.magnitude := by
    intro quotas hquotas id hid
    rw [Process.exec_eq hexec] at hquotas
    exact h.observed quotas hquotas id (hspent hid)
  have hcom := hmoving.commits_le
  rcases call_cases a hpre with
    ⟨target, hins, hact, hends, hstage, hreg, hnew, hafter⟩ | ⟨hins, hkept⟩
  · -- the credentials of a new account are installed
    obtain ⟨havoid, hall⟩ := hwait hstage
    rw [havoid] at hnew hall
    have hmove : m.move = some ⟨p.world.cachedAccount, target⟩ := by rw [hm, hins]; rfl
    refine
      { registry := hregis
        distinct := h.distinct.concat_move hmove hreg hnew fun id hid => (h.current id hid).1
        observed := hobs
        current := ?_
        task := .inr ⟨n, k a, stage.after c a, hmoving.next hexec hsafe hends ?_ ?_ ?_⟩ }
    · intro id hid
      rcases Process.exec_cachedAccount hexec hid with ⟨-, hnone⟩ | hsome
      · rw [hins] at hnone
        cases hnone
      · rw [hins] at hsome
        cases hsome
        simp only [visited_concat, hmove, Option.map_some, Option.toList_some]
        refine ⟨by simp, fun other hother hne => Spent.concat (hall other ?_)⟩
        exact (List.mem_append.1 hother).resolve_right fun hmem => hne (List.mem_singleton.1 hmem)
    · exact hafter ▸ nofun
    · exact hafter ▸ nofun
    · rw [hafter, commits_concat, moves_concat, hmove, hm]
      simp [hact]
      omega
  · have hmove : m.move = none := by rw [hm, hins]; rfl
    have hcur : ∀ id, p'.world.cachedAccount = some id →
        id ∈ visited first (marks ++ [m]) ∧
          ∀ other ∈ visited first (marks ++ [m]), other ≠ id → Spent (marks ++ [m]) other := by
      intro id hid
      rcases Process.exec_cachedAccount hexec hid with ⟨hkept, -⟩ | hsome
      · obtain ⟨hmem, hothers⟩ := h.current id hkept
        simp only [visited_concat, hmove, Option.map_none, Option.toList_none, List.append_nil]
        exact ⟨hmem, fun other hother hne => (hothers other hother hne).concat⟩
      · rw [hins] at hsome
        cases hsome
    refine
      { registry := hregis
        distinct := h.distinct.concat_none hmove
        observed := hobs
        current := hcur
        task := ?_ }
    have hcount : commits (marks ++ [m]) = commits marks + (c.activates a).toNat := by
      rw [commits_concat, hm]
    rcases hkept with ⟨hact, hends, hstage, hafter⟩ | ⟨hact, ⟨hends, hafter⟩ | ⟨hends, hafter⟩⟩
    · refine .inr ⟨n, k a, stage.after c a, hmoving.next hexec hsafe hends ?_ ?_ ?_⟩
      · exact hafter ▸ nofun
      · exact hafter ▸ nofun
      · rw [hstage] at hcom
        rw [hafter, hcount, hact, moves_concat, hmove]
        simpa using hcom
    · rw [hafter] at hsafe
      refine .inl (Resting.of_ends hmoving hexec hends hsafe ?_)
      rw [hcount, hact, moves_concat, hmove]
      simpa using le_trans (Nat.le_add_right _ _) hcom
    · refine .inr ⟨n, k a, stage.after c a, hmoving.next hexec hsafe hends ?_ ?_ ?_⟩
      · rw [hafter]
        exact hmoving.not_ended
      · rw [hafter]
        intro hstage
        obtain ⟨havoid, hall⟩ := hwait hstage
        refine ⟨by simpa [hmove] using havoid, fun id hid => (hall id hid).concat⟩
      · rw [hafter, hcount, hact, moves_concat, hmove]
        simpa using hcom

theorem Rotating.advance (h : Rotating registered first marks p) (n : ℕ) :
    Rotating registered first (marks ++ [p.mark (.advance n)]) (p.advance n).1 := by
  have hdone : (∀ task, p.tasks[n]? = some task → task.todo = .ret ()) →
      Rotating registered first (marks ++ [p.mark (.advance n)]) (p.advance n).1 := by
    intro hdone
    obtain ⟨hsame, hquiet⟩ := Process.advance_of_done hdone
    rw [hsame, hquiet]
    exact h.quiet h.registry rfl (fun _ hid => hid) rfl rfl
  rcases h.task with hrest | ⟨k, todo, stage, hmoving⟩
  · exact hdone fun task htask => hrest.done task (List.mem_of_getElem? htask)
  by_cases heq : n = k
  · subst heq
    obtain ⟨source, installed, htask⟩ := hmoving.task
    cases todo with
    | ret a =>
      obtain ⟨_, hended, -⟩ := hmoving.safe
      exact absurd hended hmoving.not_ended
    | call c kont =>
      cases hexec : p.exec c with
      | none =>
        have hsame : (p.advance n).1 = p := by simp [Process.advance, htask, hexec]
        have hquiet : p.mark (.advance n) = .quiet := by simp [Process.mark, htask, hexec]
        rw [hsame, hquiet]
        exact h.quiet h.registry rfl (fun _ hid => hid) rfl rfl
      | some answer =>
        obtain ⟨a, p'⟩ := answer
        have hnext : (p.advance n).1 =
            { p' with tasks := p.tasks.set n ⟨some source, installed || c.isInstall, kont a⟩ } := by
          simp [Process.advance, htask, hexec]
        rw [hnext]
        refine h.answered hmoving hexec ?_
        simp [Process.mark, htask, hexec]
  · exact hdone (hmoving.done n heq)

end Advance

theorem Rotating.step (h : Rotating registered first marks p) {e : ProcessEvent}
    (hunat : p.Unattended e) (hmono : NeverDecreasing (reports (marks ++ [p.mark e]))) :
    Rotating registered first (marks ++ [p.mark e]) (p.step e).1 := by
  cases e with
  | advance n => exact h.advance n
  | observe snapshot => exact h.observe snapshot hmono
  | request target => exact hunat.elim
  | native m =>
    refine h.quiet h.registry rfl ?_ rfl rfl
    intro id hid
    rcases hunat with hnone | hsame
    · exact absurd (hnone.symm.trans hid) nofun
    · exact hsame.symm.trans hid
  | stores store => exact h.quiet (hunat.trans h.registry) rfl (fun _ hid => hid) rfl rfl
  | turns | closeTurns | clock => exact h.quiet h.registry rfl (fun _ hid => hid) rfl rfl

end Steps

/-! ### Whole runs -/

def Process.startKnowing (w : World) (quotas : Option Quotas) : Process :=
  { Process.start w with quotas }

theorem rotating_startKnowing (w : World) (quotas : Option Quotas) :
    Rotating w.store.registered w.cachedAccount [] (.startKnowing w quotas) where
  registry := .refl _
  distinct :=
    { nodup := by cases h : w.cachedAccount <;> simp [visited, moves]
      targets := nofun
      left_mem := nofun
      apart := .nil }
  observed := by
    rintro _ _ id ⟨used, hmem, -⟩
    cases hmem
  current := by
    intro id hid
    have hfirst : w.cachedAccount = some id := hid
    simp [visited, moves, hfirst]
  task := .inl ⟨rfl, nofun, Nat.le_refl _⟩

def Process.marks (p : Process) (events : List ProcessEvent) : List Mark :=
  (rotation.history p events).map Prod.snd

theorem Rotating.run {registered : List String} {first : Option String} {p : Process}
    {events : List ProcessEvent} (h : Rotating registered first [] p)
    (hunat : rotation.Each Process.Unattended p events)
    (hmono : NeverDecreasing (reports (p.marks events))) :
    Rotating registered first (p.marks events) (rotation.run p events) := by
  refine Machine.invariant_history_of_each
    (I := fun history p => Rotating registered first (history.map Prod.snd) p)
    (C := fun history => NeverDecreasing (reports (history.map Prod.snd))) (h := []) ?_ ?_
    hunat hmono h
  · intro history history' hmono
    rw [List.map_append, reports, List.filterMap_append] at hmono
    exact (List.pairwise_append.1 hmono).1
  · intro history p e hunat hmono h
    rw [List.map_append] at hmono ⊢
    exact h.step hunat hmono

/-- **Failovers do not return.** Without manual switches, logins or edits of the registry, and where
no reported weekly usage decreases, no failover installs an account that an earlier one left. -/
theorem failovers_do_not_return (w : World) (quotas : Option Quotas) (events : List ProcessEvent)
    (hunattended : rotation.Each Process.Unattended (.startKnowing w quotas) events)
    (hmono : NeverDecreasing (reports ((Process.startKnowing w quotas).marks events))) :
    (moves ((Process.startKnowing w quotas).marks events)).Pairwise
        (fun earlier later => earlier.left ≠ some later.target) ∧
      commits ((Process.startKnowing w quotas).marks events) ≤ w.store.registered.length ∧
      ∀ id, w.cachedAccount = some id → id ∈ w.store.registered →
        commits ((Process.startKnowing w quotas).marks events) ≤ w.store.registered.length - 1 := by
  have hrun := (rotating_startKnowing w quotas).run hunattended hmono
  have hcom : commits ((Process.startKnowing w quotas).marks events) ≤
      (moves ((Process.startKnowing w quotas).marks events)).length := by
    rcases hrun.task with hrest | ⟨n, todo, stage, hmoving⟩
    · exact hrest.commits_le
    · exact le_trans (Nat.le_add_right _ _) hmoving.commits_le
  obtain ⟨hall, hothers⟩ := hrun.distinct.length_moves_le
  refine ⟨hrun.distinct.apart, le_trans hcom hall, ?_⟩
  intro id hfirst hid
  have hfewer := hothers id hfirst hid
  omega

def rotationSample : List ProcessEvent :=
  [.observe (.weeklySample 40), .observe (.weeklySample spentSample)] ++
    List.replicate 18 (.advance 0)

def Quotas.sample : Quotas :=
  AList.insert "b" ⟨F64.clampPercent false 20, .epoch, true⟩ ∅

omit [Externals] in
theorem failovers_do_not_return_sample :
    letI := Externals.sample
    commits ((Process.startKnowing World.sample (some .sample)).marks rotationSample) = 1 ∧
    commits ((Process.startKnowing World.sample (some .sample)).marks rotationSample) ≤
      World.sample.store.registered.length - 1 := by
  let := Externals.sample
  refine ⟨by decide, ?_⟩
  exact (failovers_do_not_return .sample (some .sample) rotationSample (by decide)
    (by unfold NeverDecreasing; decide)).2.2 "a" (by decide) (by decide)

end CodexMarathon
