/-
**The tasks of the service.**

The transition mutex admits one switch at a time.  Whatever the calls of a task answer, it gives the
mutex back, and does not wait for the turns while it has it; so no task waits for ever.
-/

import CodexMarathon.Service.Process

namespace CodexMarathon

variable [Externals]

def TaskCall.held (held : Bool) : TaskCall → Bool
  | .lockTransition => true
  | .unlockTransition => false
  | _ => held

/-- The state is whether the task has the mutex.  It needs it for the stores and the credentials. -/
def locking : Prog.Semantics TaskCall TaskCall.Ans Bool where
  pre
    | .lockTransition, held | .idle, held => held = false
    | .unlockTransition, held => held = true
    | .service .now, _ => True
    | .service _, held => held = true
    | _, _ => True
  rel c held _ held' := held' = c.held held

namespace Service

open Prog

variable {α β : Type}

/-- It gives the mutex back, and takes it when it does not have it. -/
def Releases (held : Bool) (p : TaskProg α) : Prop := p.Safe locking (fun _ held => held = false) held

theorem Releases.bind {held : Bool} {p : TaskProg α} {f : α → TaskProg β} (hp : Releases held p)
    (hf : ∀ a, Releases false (f a)) : Releases held (p >>= f) := by
  refine safe_bind.2 (hp.mono ?_)
  rintro a _ rfl
  exact hf a

theorem releases_perform (c : TaskCall) (hpre : locking.pre c false) (hheld : c.held false = false) :
    Releases false (perform c) := by
  refine ⟨hpre, ?_⟩
  rintro a _ rfl
  exact hheld

theorem locked_onTask (p : ServiceProg α) : (onTask p).Safe locking (fun _ held => held = true) true := by
  induction p with
  | ret a => exact rfl
  | call c k ih =>
    refine ⟨by cases c <;> trivial, ?_⟩
    rintro a _ rfl
    exact ih a

theorem releases_guardedSwitch (target : String) : Releases false (guardedSwitch target) := by
  refine ⟨rfl, ?_⟩
  rintro _ _ rfl
  change (onTask (switch target).run >>= fun response =>
    Prog.perform TaskCall.unlockTransition >>= fun _ => pure response).Safe _ _ true
  refine safe_bind.2 ((locked_onTask _).mono ?_)
  rintro response _ rfl
  exact ⟨rfl, fun _ _ h => h⟩

theorem releases_filterPresent (accounts : List AccountRecord) : Releases false (filterPresent accounts) := by
  induction accounts with
  | nil => exact rfl
  | cons account rest ih =>
    exact (releases_perform (.contains _) trivial rfl).bind fun _ => ih.bind fun _ => rfl

theorem releases_failoverTask (source : String) : Releases false (failoverTask source) := by
  refine Releases.bind ?_ fun _ => releases_perform .endAutoFailover trivial rfl
  refine (releases_perform .idle rfl rfl).bind fun idle => ?_
  cases idle with
  | false => exact rfl
  | true =>
    refine (releases_perform .registryState trivial rfl).bind fun state => ?_
    cases state with
    | error e => exact rfl
    | ok state =>
      refine (releases_perform (.service .now) trivial rfl).bind fun now =>
        (releases_perform .quotas trivial rfl).bind fun quotas => ?_
      cases quotas with
      | none => exact rfl
      | some quotas =>
        refine (releases_filterPresent _).bind fun present => ?_
        cases selectAutoTarget present quotas now with
        | none => exact rfl
        | some target => exact (releases_guardedSwitch target).bind fun _ => rfl

end Service

namespace Process

/-- `holder` is the task that has the mutex. -/
structure Held (p : Process) (holder : Option ℕ) : Prop where
  tasks : ∀ (n : ℕ) (t : Task), p.tasks[n]? = some t → Service.Releases (holder == some n) t.todo
  mutex : p.transitionHeld = holder.isSome
  bound : ∀ n, holder = some n → n < p.tasks.length

variable {p p' : Process} {holder : Option ℕ} {n : ℕ} {t : Task}

theorem Held.of_eq (h : p.Held holder) (htasks : p'.tasks = p.tasks)
    (hmutex : p'.transitionHeld = p.transitionHeld) : p'.Held holder :=
  ⟨htasks ▸ h.tasks, hmutex.trans h.mutex, htasks ▸ h.bound⟩

theorem Held.append (h : p.Held holder) (htasks : p'.tasks = p.tasks ++ [t]) (ht : Service.Releases false t.todo)
    (hmutex : p'.transitionHeld = p.transitionHeld) : p'.Held holder where
  tasks m t' hm := by
    rw [htasks, List.getElem?_append] at hm
    split_ifs at hm with hlt
    · exact h.tasks m t' hm
    · rw [beq_eq_false_iff_ne.2 fun hm => hlt (h.bound m hm)]
      cases List.mem_singleton.1 (List.mem_of_getElem? hm)
      exact ht
  mutex := hmutex.trans h.mutex
  bound m hm := by
    rw [htasks, List.length_append]
    exact Nat.lt_add_right 1 (h.bound m hm)

theorem exec_held {c : TaskCall} {a : c.Ans} (h : p.exec c = some (a, p')) :
    p'.world.runningTurns = p.world.runningTurns ∧ p'.transitionHeld = c.held p.transitionHeld ∧
      (c = .lockTransition → p.transitionHeld = false) := by
  cases c with
  | lockTransition =>
    simp only [exec] at h
    split_ifs at h with hheld
    cases h
    exact ⟨rfl, rfl, fun _ => Bool.eq_false_of_not_eq_true hheld⟩
  | idle =>
    simp only [exec] at h
    split_ifs at h <;> cases h <;> exact ⟨rfl, rfl, nofun⟩
  | service c =>
    cases h
    refine ⟨?_, rfl, nofun⟩
    cases c with
    | store c =>
      change (p.world.execStore c).2.runningTurns = _
      unfold World.execStore
      split <;> rfl
    | auth c =>
      change (p.world.execAuth c).2.runningTurns = _
      unfold World.execAuth
      split <;> try rfl
      split <;> rfl
    | _ => rfl
  | _ =>
    cases h
    exact ⟨rfl, rfl, nofun⟩

/-- The holder after task `n` has made a call. -/
def holderAfter (n : ℕ) (holder : Option ℕ) : TaskCall → Option ℕ
  | .lockTransition => some n
  | .unlockTransition => none
  | _ => holder

theorem Held.call {c : TaskCall} {a : c.Ans} {k : c.Ans → TaskProg Unit} {t' : Task} (h : p.Held holder)
    (hn : p.tasks[n]? = some t) (htodo : t.todo = .call c k) (hexec : p.exec c = some (a, p'))
    (htodo' : t'.todo = k a) :
    Held { p' with tasks := p.tasks.set n t' } (holderAfter n holder c) := by
  obtain ⟨-, hmutex, hfree⟩ := exec_held hexec
  have hholds := h.tasks n t hn
  rw [htodo] at hholds
  obtain ⟨hpre, hcont⟩ := hholds
  -- nothing changes for the other tasks
  have hother : ∀ m ≠ n, (holderAfter n holder c == some m) = (holder == some m) := by
    intro m hm
    cases c with
    | lockTransition =>
      have hnone : holder = none := by simpa [h.mutex] using hfree rfl
      simp [holderAfter, hnone, hm.symm]
    | unlockTransition => simp [holderAfter, beq_iff_eq.1 hpre, hm.symm]
    | _ => rfl
  refine ⟨fun m t'' hm => ?_, ?_, fun m hm => ?_⟩
  · rw [List.getElem?_set] at hm
    split_ifs at hm with heq
    · cases hm
      subst heq
      rw [htodo']
      refine hcont a _ ?_
      cases c <;> simp [locking, TaskCall.held, holderAfter]
    · rw [hother m (Ne.symm heq)]
      exact h.tasks m t'' hm
  · rw [hmutex, h.mutex]
    cases c <;> rfl
  · rw [List.length_set]
    by_cases heq : m = n
    · exact heq ▸ (List.getElem?_eq_some_iff.1 hn).1
    · exact h.bound m (beq_iff_eq.1 (hother m heq ▸ beq_iff_eq.2 hm))

theorem Held.step (h : p.Held holder) (e : ProcessEvent) : ∃ holder, (p.step e).1.Held holder := by
  cases e with
  | advance n =>
    change ∃ holder, (p.advance n).1.Held holder
    unfold advance
    split
    · rename_i source installed c k htask
      split
      · rename_i a p' hexec
        exact ⟨_, h.call htask rfl hexec rfl⟩
      · exact ⟨_, h⟩
    · exact ⟨_, h⟩
  | observe snapshot =>
    change ∃ holder, (p.observeRateLimits snapshot).Held holder
    unfold observeRateLimits
    split
    · simp only
      split_ifs
      · exact ⟨_, h.of_eq rfl rfl⟩
      · exact ⟨_, h.append rfl (Service.releases_failoverTask _) rfl⟩
    · exact ⟨_, h⟩
  | request target =>
    exact ⟨_, h.append rfl ((Service.releases_guardedSwitch target).bind fun _ => rfl) rfl⟩
  | _ => exact ⟨_, h.of_eq rfl rfl⟩

theorem held_run (w : World) (es : List ProcessEvent) :
    ∃ holder, (processMachine.run (start w) es).Held holder := by
  refine processMachine.invariant_run (I := fun p => ∃ holder, p.Held holder) ?_ es
    ⟨none, nofun, rfl, nofun⟩
  rintro p e ⟨holder, h⟩
  exact h.step e

/-- A task that no other one keeps from the mutex can run to its end. -/
theorem Held.finish (h : p.Held holder) (hturns : p.world.runningTurns = 0)
    (hn : p.tasks[n]? = some t) (hfree : holder = none ∨ holder = some n) :
    ∃ ns : List ℕ, let q := processMachine.run p (ns.map .advance)
      q.Held none ∧ q.world.runningTurns = 0 ∧ ∃ t', t'.todo = .ret () ∧ q.tasks = p.tasks.set n t' := by
  -- induction on what is left of the task
  obtain ⟨source, installed, todo⟩ := t
  induction todo generalizing p installed holder with
  | ret a =>
    obtain rfl := hfree.resolve_right (beq_eq_false_iff_ne.1 (h.tasks n _ hn))
    obtain ⟨hlt, hget⟩ := List.getElem?_eq_some_iff.1 hn
    exact ⟨[], h, hturns, p.tasks[n], by rw [hget], (List.set_getElem_self hlt).symm⟩
  | call c k ih =>
    obtain ⟨a, p', hexec⟩ : ∃ a p', p.exec c = some (a, p') := by
      cases c with
      | lockTransition =>
        obtain rfl := hfree.resolve_right (beq_eq_false_iff_ne.1 (h.tasks n _ hn).1)
        exact ⟨(), _, by rw [exec, h.mutex]; rfl⟩
      | idle => exact ⟨true, p, by rw [exec, if_pos hturns]⟩
      | _ => exact ⟨_, _, rfl⟩
    have hstep : (processMachine.step p (.advance n)).1 =
        { p' with tasks := p.tasks.set n ⟨source, installed || c.isInstall, k a⟩ } := by
      change (p.advance n).1 = _
      rw [advance, hn]
      simp only [hexec]
    have hlater : holderAfter n holder c = none ∨ holderAfter n holder c = some n := by
      cases c <;> first | exact hfree | exact .inl rfl | exact .inr rfl
    obtain ⟨ns, hheld, hzero, t', hdone, htasks⟩ := ih a (h.call hn rfl hexec rfl)
      ((exec_held hexec).1.trans hturns) hlater _
      (List.getElem?_set_self (List.getElem?_eq_some_iff.1 hn).1)
    refine ⟨n :: ns, ?_⟩
    rw [List.map_cons, Machine.run_cons, hstep]
    exact ⟨hheld, hzero, t', hdone, htasks.trans (List.set_set ..)⟩

theorem Held.finish_first (h : p.Held none) (hturns : p.world.runningTurns = 0) (m : ℕ) :
    ∃ ns : List ℕ, let q := processMachine.run p (ns.map .advance)
      q.Held none ∧ q.world.runningTurns = 0 ∧ q.tasks.length = p.tasks.length ∧
        ∀ i < m, ∀ t, q.tasks[i]? = some t → t.todo = .ret () := by
  induction m with
  | zero => exact ⟨[], h, hturns, rfl, nofun⟩
  | succ m ih =>
    obtain ⟨ns, hheld, hzero, hlen, hdone⟩ := ih
    cases hm : (processMachine.run p (ns.map .advance)).tasks[m]? with
    | none =>
      refine ⟨ns, hheld, hzero, hlen, fun i hi t ht => hdone i ?_ t ht⟩
      refine (Nat.lt_succ_iff_lt_or_eq.1 hi).resolve_right ?_
      rintro rfl
      cases hm.symm.trans ht
    | some t =>
      obtain ⟨ms, hheld, hzero, t', hend, htasks⟩ := hheld.finish hzero hm (.inl rfl)
      refine ⟨ns ++ ms, ?_⟩
      rw [List.map_append, Machine.run_append]
      refine ⟨hheld, hzero, by rw [htasks, List.length_set, hlen], fun i hi t ht => ?_⟩
      rw [htasks, List.getElem?_set] at ht
      split_ifs at ht with heq
      · cases ht
        exact hend
      · exact hdone i (by omega) t ht

end Process

/-- It is about to use the stores or the credentials, or to unlock the mutex. -/
def Task.inTransition (t : Task) : Bool :=
  match t.todo with
  | .call (.service .now) _ => false
  | .call (.service _) _ | .call .unlockTransition _ => true
  | _ => false

theorem Task.held_of_inTransition {t : Task} {held : Bool} (h : Service.Releases held t.todo)
    (ht : t.inTransition = true) : held = true := by
  unfold Task.inTransition at ht
  split at ht <;> rename_i htodo <;> (try cases ht) <;> rw [htodo] at h
  · rename_i c k hc
    cases c with
    | now => exact (hc k HEq.rfl rfl).elim
    | _ => exact h.1
  · exact h.1

/-- **The transitions of the service exclude each other**, however its tasks, its observations and
everything else interleave. -/
theorem transitions_exclusive (w : World) (es : List ProcessEvent) (i : ℕ) (t : Task)
    (hi : (processMachine.run (.start w) es).tasks[i]? = some t) (ht : t.inTransition = true) :
    (processMachine.run (.start w) es).transitionHeld = true ∧ ∀ j t',
      (processMachine.run (.start w) es).tasks[j]? = some t' → t'.inTransition = true → j = i := by
  obtain ⟨holder, h⟩ := Process.held_run w es
  have hholder := beq_iff_eq.1 (Task.held_of_inTransition (h.tasks i t hi) ht)
  refine ⟨by rw [h.mutex, hholder]; rfl, fun j t' hj ht' => ?_⟩
  have hholder' := beq_iff_eq.1 (Task.held_of_inTransition (h.tasks j t' hj) ht')
  exact Option.some.inj (hholder'.symm.trans hholder)

/-- The second task waits. -/
def twoSwitches : List ProcessEvent := [.request "b", .request "b", .advance 1, .advance 0]

omit [Externals] in
theorem transitions_exclusive_sample :
    letI := Externals.sample
    (processMachine.run (.start .sample) twoSwitches).transitionHeld = true ∧ ∀ j t',
      (processMachine.run (.start .sample) twoSwitches).tasks[j]? = some t' →
        t'.inTransition = true → j = 1 := by
  let := Externals.sample
  exact transitions_exclusive .sample twoSwitches 1 _ rfl rfl

/-- **No task waits for ever**: when no turn runs, there is an order of steps in which every task
of the service ends and the mutex is given back. -/
theorem tasks_finish (w : World) (es : List ProcessEvent)
    (hturns : (processMachine.run (.start w) es).world.runningTurns = 0) :
    ∃ ns : List ℕ, let q := processMachine.run (.start w) (es ++ ns.map .advance)
      (∀ t ∈ q.tasks, t.todo = .ret ()) ∧ q.transitionHeld = false := by
  obtain ⟨holder, h⟩ := Process.held_run w es
  -- the task that has the mutex ends first
  obtain ⟨ns, hheld, hzero⟩ : ∃ ns : List ℕ, let q := processMachine.run _ (ns.map .advance)
      q.Held none ∧ q.world.runningTurns = 0 := by
    cases holder with
    | none => exact ⟨[], h, hturns⟩
    | some n =>
      obtain ⟨ns, hheld, hzero, -⟩ :=
        h.finish hturns (List.getElem?_eq_getElem (h.bound n rfl)) (.inr rfl)
      exact ⟨ns, hheld, hzero⟩
  obtain ⟨ms, hheld, -, hlen, hdone⟩ := hheld.finish_first hzero _
  refine ⟨ns ++ ms, ?_⟩
  rw [List.map_append, Machine.run_append, Machine.run_append]
  refine ⟨fun t ht => ?_, hheld.mutex⟩
  obtain ⟨i, hi, rfl⟩ := List.getElem_of_mem ht
  exact hdone i (hlen ▸ hi) _ (List.getElem?_eq_getElem hi)

omit [Externals] in
theorem tasks_finish_sample :
    letI := Externals.sample
    ∃ ns : List ℕ, let q := processMachine.run (.start .sample) (twoSwitches ++ ns.map .advance)
      (∀ t ∈ q.tasks, t.todo = .ret ()) ∧ q.transitionHeld = false := by
  let := Externals.sample
  exact tasks_finish .sample twoSwitches rfl

end CodexMarathon
