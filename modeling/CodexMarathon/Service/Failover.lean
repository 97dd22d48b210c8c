/-
**What an automatic failover leaves.**

A failover is started for the account whose quota is used up, and it waits.  When it switches, it
switches away from whoever is current then: it never looks at its source again.  So it leaves its
source only if that is still current when the switch reads the native account.
-/

import CodexMarathon.Service.Process

namespace CodexMarathon

open Auth Result Prog

variable [Externals]

/-! ### A switch that reads the source -/

/-- A switch that finds `source` may only install over that. The state is whether it has called an
installation. -/
def leavingSemantics (source : String) : Prog.Semantics ServiceCall ServiceCall.Ans Bool where
  pre
    | .auth (.install replaced _), _ => replaced = some source
    | _, _ => True
  rel
    | .auth .authCached, installed, cached, installed' =>
      installed' = installed ∧ (installed = false → cached.bind (·.getAccountId) = some source)
    | .auth (.install _ _), _, _, installed' => installed' = true
    | _, installed, _, installed' => installed' = installed

namespace Service

variable {α : Type} {source : String} {installed : Bool}

def Quiet : ServiceCall → Prop
  | .auth .authCached => False
  | .auth (.install _ _) => False
  | _ => True

theorem safe_quiet_leaving {c : ServiceCall} {k : c.Ans → α} {Q : α → Bool → Prop} (hc : Quiet c)
    (hQ : ∀ a, Q (k a) installed) :
    (Prog.call c fun a => .ret (k a)).Safe (leavingSemantics source) Q installed := by
  cases c with
  | auth c =>
    cases c with
    | authCached => exact hc.elim
    | install replaced snapshot => exact hc.elim
    | snapshotForTransition expected =>
      refine ⟨trivial, ?_⟩
      rintro a _ rfl
      exact hQ a
  | _ =>
    refine ⟨trivial, ?_⟩
    rintro a _ rfl
    exact hQ a

abbrev Waiting {ε : Type} : Except ε α → Bool → Prop :=
  Prog.Outcome (fun _ installed => installed = false) fun _ => True

omit [Externals] in
theorem waiting_of_eq {ε : Type} (r : Except ε α) : Waiting r false := by
  cases r with
  | ok a => rfl
  | error e => trivial

theorem safe_store_leaving (c : StoreCall) (f : DomainError → MarathonServiceError) :
    (store c f).run.Safe (leavingSemantics source) Waiting false :=
  safe_quiet_leaving trivial fun _ => waiting_of_eq _

theorem safe_captureSource_leaving (state : RegistryState) (id : String) :
    (captureSource state id).run.Safe (leavingSemantics source) Waiting false := by
  refine safe_seq
    (safe_quiet_leaving trivial fun _ => waiting_of_eq _) ?_
  rintro snapshot _ rfl
  refine safe_then (safe_lift trivial fun document _ => ?_)
  exact safe_store_leaving _ _

theorem safe_ask_leaving {c : ServiceCall} {k : c.Ans → α} (hc : Quiet c) :
    (liftM (Prog.call c fun a => .ret (k a) : ServiceProg α) : ServiceM α).run.Safe
      (leavingSemantics source) Waiting false :=
  safe_liftProg (safe_quiet_leaving hc fun _ => rfl)

theorem safe_adopt_leaving (account : AccountRecord) (auth : AuthTransitionSnapshot) :
    (adopt (some source) account auth).run.Safe (leavingSemantics source)
      (Prog.Outcome (fun _ _ => True) fun _ => True) false := by
  have hanswer : ∀ {ε β : Type} (r : Except ε β) (installed : Bool),
      Prog.Outcome (fun _ _ => True) (fun _ => True) r installed := by
    rintro _ _ (e | a) installed <;> exact trivial
  refine safe_seq (Q := fun _ installed => installed = true)
    (safe_orFail ⟨rfl, ?_⟩) ?_
  · rintro (e | status) _ rfl
    · exact trivial
    · exact rfl
  rintro status _ rfl
  refine safe_then (safe_lift trivial fun changed _ => ?_)
  refine safe_seq
    (safe_liftProg ⟨trivial, fun _ _ _ => trivial⟩) fun cached _ _ => ?_
  refine safe_seq (Q := fun _ _ => True)
    (safe_lift trivial fun _ _ => trivial) fun _ _ _ => ?_
  refine safe_seq
    (safe_liftProg ⟨trivial, fun _ _ _ => trivial⟩) fun _ _ _ => ?_
  refine safe_seq
    (safe_quiet_leaving trivial fun _ => hanswer _ _) fun _ installed _ => ?_
  cases changed <;> exact safe_liftProg ⟨trivial, fun _ _ _ => trivial⟩

theorem safe_transition_leaving (state : RegistryState) (turns : ℕ) (account : AccountRecord) :
    (transition state turns (some source) account).run.Safe (leavingSemantics source)
      (Prog.Outcome (fun _ _ => True) fun _ => True) false := by
  refine safe_seq (safe_captureSource_leaving state source) ?_
  rintro _ _ rfl
  refine safe_seq (safe_seq (Q := fun _ installed => installed = false)
    (safe_store_leaving _ _) fun _ _ h => safe_lift trivial fun _ _ => h) ?_
  rintro auth _ rfl
  exact safe_seq (safe_adopt_leaving account auth) fun _ _ _ => trivial

theorem switchPhases_leaving (source : String) :
    SwitchPhases (leavingSemantics source) (fun _ installed => installed = false)
      (fun _ cached installed => installed = false ∧ cached.bind (·.getAccountId) = some source)
      (fun _ _ => True) fun _ => True where
  turns := by
    rintro state _ rfl
    exact safe_ask_leaving trivial
  generation := by
    rintro state _ rfl
    exact safe_ask_leaving trivial
  cached := by
    rintro state _ rfl
    refine safe_liftProg ⟨trivial, ?_⟩
    rintro cached _ ⟨rfl, hcached⟩
    exact ⟨rfl, hcached rfl⟩
  unresolved _ _ _ := trivial
  unnamed _ _ _ _ := trivial
  refused _ _ _ _ _ := trivial
  reactivate := by
    rintro state cached account turns generation _ ⟨rfl, -⟩ -
    exact safe_seq (safe_store_leaving _ _) fun _ _ _ => trivial
  transition := by
    rintro state cached current account turns _ ⟨rfl, hcached⟩ hcur -
    obtain ⟨auth, rfl, hid⟩ := Option.bind_eq_some_iff.1 hcached
    obtain ⟨id, hid', rfl⟩ := map_eq_ok.1 hcur
    rw [okOr_eq_ok, hid] at hid'
    cases hid'
    exact safe_transition_leaving state turns account

end Service

def failoverSemantics (source : String) : Prog.Semantics TaskCall TaskCall.Ans Bool where
  pre
    | .service c, installed => (leavingSemantics source).pre c installed
    | _, _ => True
  rel
    | .service c, installed, a, installed' => (leavingSemantics source).rel c installed a installed'
    | _, installed, _, installed' => installed' = installed

namespace Service

variable {source : String}

theorem safe_guardedSwitch (target : String) :
    (guardedSwitch target).Safe (failoverSemantics source) (fun _ _ => True) false := by
  refine ⟨trivial, ?_⟩
  rintro _ _ rfl
  change (onTask (switch target).run >>= fun response =>
    Prog.perform TaskCall.unlockTransition >>= fun _ => pure response).Safe _ _ false
  rw [safe_bind]
  have hswitch : (onTask (switch target).run).Safe (failoverSemantics source)
      (fun _ _ => True) false := by
    refine Prog.Safe.subst (R := id) (fun _ _ _ => trivial)
      (fun _ _ _ => trivial) ?_
      ((safe_switch_of_phases (switchPhases_leaving source) (safe_seq (safe_store_leaving _ _) ?_)).mono
        fun _ _ _ => trivial)
    · intro c installed hpre _
      exact ⟨hpre, fun _ _ h => h⟩
    · rintro _ _ rfl
      exact safe_store_leaving _ _
  exact hswitch.mono fun _ _ _ => ⟨trivial, fun _ _ _ => trivial⟩

theorem safe_filterPresent (accounts : List AccountRecord) :
    (filterPresent accounts).Safe (failoverSemantics source)
      (fun _ installed => installed = false) false := by
  induction accounts with
  | nil => exact rfl
  | cons account accounts ih =>
    refine ⟨trivial, ?_⟩
    rintro present _ rfl
    change (filterPresent accounts >>= fun others => pure _).Safe _ _ false
    rw [safe_bind]
    exact ih.mono fun _ _ h => h

theorem safe_failOverIdle (r : Except DomainError RegistryState) :
    (failOverIdle source r).Safe (failoverSemantics source) (fun _ _ => True) false := by
  cases r with
  | error e => exact trivial
  | ok state =>
    refine ⟨trivial, ?_⟩
    rintro now _ rfl
    refine ⟨trivial, ?_⟩
    rintro (_ | quotas) _ rfl
    · exact trivial
    change (filterPresent (preselected state source) >>= fun present =>
      failOver (selectAutoTarget present quotas now)).Safe _ _ false
    rw [safe_bind]
    refine (safe_filterPresent _).mono ?_
    rintro present _ rfl
    cases selectAutoTarget present quotas now with
    | none => exact trivial
    | some target =>
      change (guardedSwitch target >>= fun _ => pure ()).Safe _ _ false
      rw [safe_bind]
      exact safe_guardedSwitch target

theorem safe_failoverTask (source : String) :
    (failoverTask source).Safe (failoverSemantics source) (fun _ _ => True) false := by
  change (runAutoFailover source >>= fun _ => Prog.perform TaskCall.endAutoFailover).Safe _ _ false
  rw [safe_bind]
  refine Prog.Safe.mono (Q := fun _ _ => True) ⟨trivial, ?_⟩
    fun _ _ _ => ⟨trivial, fun _ _ _ => trivial⟩
  rintro (_ | _) _ rfl
  · exact trivial
  · refine ⟨trivial, ?_⟩
    rintro state _ rfl
    exact safe_failOverIdle state

end Service

/-! ### The process -/

/-- A failover that has not installed anything yet and now reads the native account finds its
source. -/
def Task.readsSource (current : Option String) : Task → Bool
  | ⟨some source, false, .call (.service (.auth .authCached)) _⟩ => current = some source
  | _ => true

namespace Process

def FailoversLeave (p : Process) : Prop :=
  ∀ task ∈ p.tasks, ∀ source, task.source = some source →
    task.todo.Safe (failoverSemantics source) (fun _ _ => True) task.installed

def ReadsSource (p : Process) : ProcessEvent → Prop
  | .advance n => (p.tasks[n]?).all (·.readsSource p.world.cachedAccount) = true
  | _ => True

instance (p : Process) : DecidablePred p.ReadsSource
  | .advance n => inferInstanceAs (Decidable (Option.all _ (p.tasks[n]?) = true))
  | .observe _ | .request _ | .native _ | .turns _ | .closeTurns | .clock _ | .stores _ =>
    inferInstanceAs (Decidable True)

variable {p : Process}

theorem rel_of_exec {c : TaskCall} {a : c.Ans} {p' : Process} {source : String} {installed : Bool}
    (h : p.exec c = some (a, p')) (hread : c = .service (.auth .authCached) → installed = false →
      p.world.cachedAccount = some source) :
    (failoverSemantics source).rel c installed a (installed || c.isInstall) := by
  cases c with
  | service c =>
    cases c with
    | auth c =>
      cases c with
      | authCached =>
        cases h
        exact ⟨Bool.or_false _, hread rfl⟩
      | install replaced snapshot => exact Bool.or_true _
      | snapshotForTransition expected => exact Bool.or_false _
    | _ => exact Bool.or_false _
  | _ => exact Bool.or_false _

theorem cachedAccount_of_installs {c : TaskCall} {a : c.Ans} {p' : Process} {source : String}
    {installed : Bool} (h : p.exec c = some (a, p')) (hins : c.installs a = true)
    (hpre : (failoverSemantics source).pre c installed) : p.world.cachedAccount = some source := by
  cases c with
  | service c =>
    cases c with
    | auth c =>
      cases c with
      | install replaced snapshot =>
        cases hpre
        have ha : (p.world.execAuth (.install (some source) snapshot)).1 = a := by
          cases h
          rfl
        cases hresult : p.world.installResult (some source) snapshot with
        | error e =>
          rw [World.execAuth, hresult] at ha
          cases ha
          cases hins
        | ok r =>
          obtain ⟨found, hsource, -⟩ := bind_eq_ok.1 (faulty_eq_ok.1 hresult).2
          exact (AuthManager.checkTransitionSource_eq_ok hsource).2.2.1
      | _ => cases hins
    | _ => cases hins
  | _ => cases hins

theorem failoversLeave_advance {n : ℕ} (hread : p.ReadsSource (.advance n))
    (hp : p.FailoversLeave) : (p.advance n).1.FailoversLeave ∧
      ∀ source current, (p.advance n).2 = .installed (some source) current →
        current = some source := by
  unfold advance
  split
  · rename_i source installed c k htask
    split
    · rename_i a p' hexec
      have hmem : (⟨source, installed, .call c k⟩ : Task) ∈ p.tasks := List.mem_of_getElem? htask
      refine ⟨?_, ?_⟩
      · intro task htask'
        rcases List.mem_or_eq_of_mem_set htask' with hold | rfl
        · exact hp task hold
        · rintro source rfl
          have hsafe := hp _ hmem source rfl
          refine hsafe.2 a _ (rel_of_exec hexec ?_)
          rintro rfl rfl
          simpa [ReadsSource, htask, Task.readsSource] using hread
      · intro source' current hout
        simp only at hout
        split_ifs at hout with hins
        cases hout
        exact cachedAccount_of_installs hexec hins (hp _ hmem source' rfl).1
    · exact ⟨hp, nofun⟩
  · exact ⟨hp, nofun⟩

theorem failoversLeave_append {task : Task} (hp : p.FailoversLeave)
    (htask : ∀ source, task.source = some source →
      task.todo.Safe (failoverSemantics source) (fun _ _ => True) task.installed) :
    ∀ task' ∈ p.tasks ++ [task], ∀ source, task'.source = some source →
      task'.todo.Safe (failoverSemantics source) (fun _ _ => True) task'.installed :=
  List.forall_mem_append.2 ⟨hp, List.forall_mem_singleton.2 htask⟩

theorem failoversLeave_observe (snapshot : RateLimitSnapshot) (hp : p.FailoversLeave) :
    (p.observeRateLimits snapshot).FailoversLeave := by
  unfold observeRateLimits
  split
  · simp only
    split_ifs
    · exact hp
    · refine failoversLeave_append hp ?_
      rintro _ ⟨⟩
      exact Service.safe_failoverTask _
  · exact hp

theorem failoversLeave_step {e : ProcessEvent} (hread : p.ReadsSource e) (hp : p.FailoversLeave) :
    (p.step e).1.FailoversLeave ∧
      ∀ source current, (p.step e).2 = .installed (some source) current →
        current = some source := by
  cases e with
  | advance n => exact failoversLeave_advance hread hp
  | observe snapshot => exact ⟨failoversLeave_observe snapshot hp, nofun⟩
  | request target => exact ⟨failoversLeave_append hp nofun, nofun⟩
  | _ => exact ⟨hp, nofun⟩

end Process

/-- **A failover leaves its source**, if each failover, when its switch reads the native account,
reads that source. -/
theorem failover_leaves_source (w : World) (events : List ProcessEvent)
    (hreads : processMachine.Each Process.ReadsSource (.start w) events) :
    ∀ step ∈ processMachine.history (.start w) events, ∀ source current,
      step.2 = .installed (some source) current → current = some source :=
  Machine.forall_history_of_each (I := Process.FailoversLeave)

    (fun _ _ hread hp => Process.failoversLeave_step hread hp) hreads (List.forall_mem_nil _)

def RateLimitSnapshot.weeklySample (percent : ℚ≥0) : RateLimitSnapshot where
  primary := none
  secondary := some { usedPercent := .finite false percent, windowMinutes := some 10080 }

def failoverAfter (before : List ProcessEvent) : List ProcessEvent :=
  [.native (.sample (.sample "b" "1")), .observe (.weeklySample 10),
    .native (.sample (.sample "a" "1")), .observe (.weeklySample spentSample)] ++ before ++
    List.replicate 15 (.advance 0)

omit [Externals] in
/-- If somebody logs in as `c` before, the failover for `a` installs `b` over `c`. -/
theorem failover_leaves_other_account :
    letI := Externals.sample
    ProcessOutput.installed (some "a") (some "c") ∈
      (processMachine.history (.start World.sample)
        (failoverAfter [.native (.sample (.sample "c" "1"))])).map (·.2) := by
  decide

omit [Externals] in
theorem failover_leaves_source_sample :
    letI := Externals.sample
    ProcessOutput.installed (some "a") (some "a") ∈
      (processMachine.history (.start World.sample) (failoverAfter [])).map (·.2) ∧
    ∀ step ∈ processMachine.history (.start World.sample) (failoverAfter []), ∀ source current,
      step.2 = .installed (some source) current → current = some source := by
  let := Externals.sample
  exact ⟨by decide, failover_leaves_source .sample (failoverAfter []) (by decide)⟩

end CodexMarathon
