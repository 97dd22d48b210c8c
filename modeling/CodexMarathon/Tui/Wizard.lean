/-
**The export wizard.**

The wizard asks for accounts, an output and a password, one after the other.  Whatever it is told
carries the id of a flow and may come late.  Every handler takes the pending export out; two of them
do not put it back where another stage is pending.
-/

import CodexMarathon.Lib.Machine
import CodexMarathon.Transfer.Export

namespace CodexMarathon.Wizard

open Result Transfer

/-! ### The handlers -/

inductive SecretStage
  | passphrase
  | confirmation
deriving DecidableEq

structure Slot where
  flow : String
  number : ℕ
deriving DecidableEq

inductive PendingExport
  | loading (flow : String)
  | selecting (flow : String) (accounts : List String)
  | output (flow : String) (selectedIds : List String)
  | passphrase (flow : String) (selectedIds : List String) (output : String) (slot : Slot)
  | confirmation (flow : String) (selectedIds : List String) (output passphrase : String)
      (slot : Slot)
  | running (flow : String)
deriving DecidableEq

def PendingExport.flow : PendingExport → String
  | loading flow | selecting flow _ | output flow _ | passphrase flow _ _ _
    | confirmation flow _ _ _ _ | running flow => flow

structure ExportReady where
  selectedIds : List String
  output : String
  passphrase : String
deriving DecidableEq

structure State where
  pending : Option PendingExport
  slots : Slot → Option String
  prompts : ℕ

inductive Event
  | request (flow : String)
  | loaded (flow : String) (accounts : Option (List String))
  | selected (flow : String) (ids : List String)
  | submitted (flow : String) (output : String)
  | enter (slot : Slot) (secret : String)
  | ready (flow : String) (stage : SecretStage)
  | cancelled (flow : String)
  | finished (flow : String)
deriving DecidableEq

def confirmExportPassphrase (passphrase confirmation : String) : Except TransferError String := do
  validateExportPassphrase passphrase
  Result.require (passphrase = confirmation) .passphraseMismatch
  pure passphrase

namespace State

variable (s : State)

def ask (flow : String) (next : Slot → PendingExport) : State where
  pending := some (next ⟨flow, s.prompts⟩)
  slots := Function.update s.slots ⟨flow, s.prompts⟩ none
  prompts := s.prompts + 1

def showPassphrase (flow : String) (ids : List String) (output : String) : State :=
  s.ask flow (.passphrase flow ids output)

def onAccountsLoaded (flow : String) (accounts : Option (List String)) : State :=
  if s.pending = some (.loading flow) then
    { s with pending := if (accounts.getD []).isEmpty then none
        else some (.selecting flow (accounts.getD [])) }
  else s

def onAccountsSelected (flow : String) (ids : List String) : State :=
  match s.pending with
  | some (.selecting pending _) =>
    if pending ≠ flow ∨ ids = [] then s else { s with pending := some (.output flow ids) }
  -- what was taken out is lost
  | _ => { s with pending := none }

/-- `absolute` makes a path absolute, with the working directory of the session. -/
def onOutputSubmitted (absolute : String → String) (flow output : String) : State :=
  match s.pending with
  | some (.output pending ids) =>
    if pending ≠ flow then s else s.showPassphrase flow ids (absolute output)
  | _ => { s with pending := none }

def onPassphrase (flow : String) (ids : List String) (output passphrase : String) : State :=
  match validateExportPassphrase passphrase with
  | .error _ => s.showPassphrase flow ids output
  | .ok _ => s.ask flow (.confirmation flow ids output passphrase)

def onConfirmation (flow : String) (ids : List String) (output passphrase confirmation : String) :
    State × Option ExportReady :=
  match confirmExportPassphrase passphrase confirmation with
  | .error _ => (s.showPassphrase flow ids output, none)
  | .ok passphrase => ({ s with pending := some (.running flow) }, some ⟨ids, output, passphrase⟩)

def onSecretReady (flow : String) (stage : SecretStage) : State × Option ExportReady :=
  match stage, s.pending with
  | .passphrase, some (.passphrase pending ids output slot) =>
    if pending ≠ flow then (s, none)
    else match s.slots slot with
      | none => ({ s with pending := none }, none)
      | some secret =>
        ({ s with slots := Function.update s.slots slot none }.onPassphrase flow ids output secret, none)
  | .confirmation, some (.confirmation pending ids output passphrase slot) =>
    if pending ≠ flow then (s, none)
    else match s.slots slot with
      | none => ({ s with pending := none }, none)
      | some secret => { s with slots := Function.update s.slots slot none }.onConfirmation flow ids
          output passphrase secret
  | _, _ => (s, none)

def onCancelled (flow : String) : State :=
  match s.pending with
  | some (.running _) | none => s
  | some pending => if pending.flow = flow then { s with pending := none } else s

def onFinished (flow : String) : State :=
  if s.pending = some (.running flow) then { s with pending := none } else s

end State

def wizard (absolute : String → String) : Machine State Event (Option ExportReady) where
  step s
    | .request flow => (if s.pending.isSome then s else { s with pending := some (.loading flow) }, none)
    | .loaded flow accounts => (s.onAccountsLoaded flow accounts, none)
    | .selected flow ids => (s.onAccountsSelected flow ids, none)
    | .submitted flow output => (s.onOutputSubmitted absolute flow output, none)
    | .enter slot secret => ({ s with slots := Function.update s.slots slot (some secret) }, none)
    | .ready flow stage => s.onSecretReady flow stage
    | .cancelled flow => (s.onCancelled flow, none)
    | .finished flow => (s.onFinished flow, none)

variable {absolute : String → String} {s : State} {e : Event} {events : List Event}

inductive Change (absolute : String → String) (s : State) :
    Event → Option PendingExport → ℕ → Option ExportReady → Prop
  | keep (e : Event) : Change absolute s e s.pending s.prompts none
  | drop (e : Event) : Change absolute s e none s.prompts none
  | start (flow : String) (h : s.pending = none) :
      Change absolute s (.request flow) (some (.loading flow)) s.prompts none
  | list (e : Event) {flow : String} (accounts : List String) (h : s.pending = some (.loading flow)) :
      Change absolute s e (some (.selecting flow accounts)) s.prompts none
  | choose {flow : String} (ids : List String) {accounts : List String}
      (h : s.pending = some (.selecting flow accounts)) :
      Change absolute s (.selected flow ids) (some (.output flow ids)) s.prompts none
  | place {flow : String} {ids : List String} (output : String)
      (h : s.pending = some (.output flow ids)) : Change absolute s (.submitted flow output)
        (some (.passphrase flow ids (absolute output) ⟨flow, s.prompts⟩)) (s.prompts + 1) none
  | confirm {flow : String} {ids : List String} {output secret : String} {slot : Slot}
      (h : s.pending = some (.passphrase flow ids output slot)) (hsecret : s.slots slot = some secret) :
      Change absolute s (.ready flow .passphrase)
        (some (.confirmation flow ids output secret ⟨flow, s.prompts⟩)) (s.prompts + 1) none
  | again {flow : String} (stage : SecretStage) {ids : List String} {output : String}
      (h : (∃ slot, s.pending = some (.passphrase flow ids output slot)) ∨
        ∃ secret slot, s.pending = some (.confirmation flow ids output secret slot)) :
      Change absolute s (.ready flow stage) (some (.passphrase flow ids output ⟨flow, s.prompts⟩))
        (s.prompts + 1) none
  | run {flow : String} {ids : List String} {output secret : String} {slot : Slot}
      (h : s.pending = some (.confirmation flow ids output secret slot))
      (hsecret : s.slots slot = some secret) : Change absolute s (.ready flow .confirmation)
        (some (.running flow)) s.prompts (some ⟨ids, output, secret⟩)

theorem change_onSecretReady (s : State) (flow : String) (stage : SecretStage) :
    Change absolute s (.ready flow stage) (s.onSecretReady flow stage).1.pending
      (s.onSecretReady flow stage).1.prompts (s.onSecretReady flow stage).2 := by
  unfold State.onSecretReady
  split
  · rename_i pending ids output slot hpending
    split_ifs with hflow
    · exact .keep _
    obtain rfl := not_not.1 hflow
    split
    · exact .drop _
    rename_i secret hsecret
    unfold State.onPassphrase
    split
    · exact .again _ (.inl ⟨slot, hpending⟩)
    · exact .confirm hpending hsecret
  · rename_i pending ids output passphrase slot hpending
    split_ifs with hflow
    · exact .keep _
    obtain rfl := not_not.1 hflow
    split
    · exact .drop _
    rename_i secret hsecret
    unfold State.onConfirmation
    split
    · exact .again _ (.inr ⟨passphrase, slot, hpending⟩)
    · rename_i confirmed hconfirm
      obtain ⟨⟨⟩, heq, hdone⟩ := bind_eq_ok.1 (ok_of_bind hconfirm)
      cases require_eq_ok.1 heq
      cases hdone
      exact .run hpending hsecret
  · exact .keep _

theorem change_step (s : State) (e : Event) : Change absolute s e ((wizard absolute).step s e).1.pending
    ((wizard absolute).step s e).1.prompts ((wizard absolute).step s e).2 := by
  cases e with
  | request flow =>
    simp only [wizard]
    split_ifs with hpending
    · exact .keep _
    · exact .start flow (by simpa using hpending)
  | loaded flow accounts =>
    simp only [wizard, State.onAccountsLoaded]
    split_ifs with hpending hempty
    · exact .drop _
    · exact .list _ _ hpending
    · exact .keep _
  | selected flow ids =>
    simp only [wizard, State.onAccountsSelected]
    split
    · rename_i pending accounts hpending
      split_ifs with h
      · exact .keep _
      obtain ⟨hflow, -⟩ := not_or.1 h
      exact .choose ids (not_not.1 hflow ▸ hpending)
    · exact .drop _
  | submitted flow output =>
    simp only [wizard, State.onOutputSubmitted]
    split
    · rename_i pending ids hpending
      split_ifs with hflow
      · exact .keep _
      exact .place output (not_not.1 hflow ▸ hpending)
    · exact .drop _
  | enter slot secret => exact .keep _
  | ready flow stage => exact change_onSecretReady s flow stage
  | cancelled flow =>
    simp only [wizard, State.onCancelled]
    split
    · exact .keep _
    · exact .keep _
    · split_ifs
      · exact .drop _
      · exact .keep _
  | finished flow =>
    simp only [wizard, State.onFinished]
    split_ifs
    · exact .drop _
    · exact .keep _

theorem eq_some_of_update_none {slots : Slot → Option String} {a slot : Slot} {secret : String}
    (h : Function.update slots a none slot = some secret) : slots slot = some secret := by
  by_cases heq : slot = a
  · simp [heq] at h
  · simpa [heq] using h

theorem slots_step {slot : Slot} {secret : String}
    (h : ((wizard absolute).step s e).1.slots slot = some secret) :
    s.slots slot = some secret ∨ e = .enter slot secret := by
  cases e with
  | enter a entered =>
    by_cases heq : slot = a
    · subst heq
      exact .inr (by simpa [wizard] using h)
    · exact .inl (by simpa [wizard, heq] using h)
  | request | loaded | cancelled | finished =>
    refine .inl ?_
    simp only [wizard, State.onAccountsLoaded, State.onCancelled, State.onFinished] at h
    split at h <;> first | exact h | (split at h <;> exact h)
  | selected flow ids =>
    refine .inl ?_
    simp only [wizard, State.onAccountsSelected] at h
    split at h
    · split at h <;> exact h
    · exact h
  | submitted flow output =>
    refine .inl ?_
    simp only [wizard, State.onOutputSubmitted] at h
    split at h
    · split at h
      · exact h
      · exact eq_some_of_update_none h
    · exact h
  | ready flow stage =>
    refine .inl ?_
    simp only [wizard, State.onSecretReady, State.onPassphrase, State.onConfirmation] at h
    split at h
    · split at h
      · exact h
      split at h
      · exact h
      split at h <;> exact eq_some_of_update_none (eq_some_of_update_none h)
    · split at h
      · exact h
      split at h
      · exact h
      split at h
      · exact eq_some_of_update_none (eq_some_of_update_none h)
      · exact eq_some_of_update_none h
    · exact h

/-! ### What was chosen -/

def Chosen (absolute : String → String) (events : List Event) (flow : String) (ids : List String)
    (output : String) : Prop :=
  .selected flow ids ∈ events ∧ ∃ path, .submitted flow path ∈ events ∧ output = absolute path

/-- What is pending was told in the flow; its slot is one of the prompts shown. -/
def PendingExport.Told (absolute : String → String) (events : List Event) (prompts : ℕ) :
    PendingExport → Prop
  | output flow ids => .selected flow ids ∈ events
  | passphrase flow ids path slot =>
    Chosen absolute events flow ids path ∧ slot.flow = flow ∧ slot.number < prompts
  | confirmation flow ids path secret slot =>
    Chosen absolute events flow ids path ∧ slot.flow = flow ∧
      ∃ first : Slot, first.flow = flow ∧ first ≠ slot ∧ .enter first secret ∈ events
  | _ => True

structure Told (absolute : String → String) (events : List Event) (s : State) : Prop where
  entered : ∀ slot secret, s.slots slot = some secret → .enter slot secret ∈ events
  pending : ∀ p ∈ s.pending, p.Told absolute events s.prompts

theorem Chosen.snoc {flow output : String} {ids : List String} (h : Chosen absolute events flow ids output)
    (e : Event) : Chosen absolute (events ++ [e]) flow ids output := by
  obtain ⟨hids, path, hpath, houtput⟩ := h
  exact ⟨List.mem_append_left _ hids, path, List.mem_append_left _ hpath, houtput⟩

theorem PendingExport.Told.snoc {p : PendingExport} {n : ℕ} (h : p.Told absolute events n)
    (e : Event) : p.Told absolute (events ++ [e]) n := by
  cases p with
  | loading | selecting | running => trivial
  | output flow ids => exact List.mem_append_left _ h
  | passphrase flow ids output slot => exact ⟨h.1.snoc e, h.2⟩
  | confirmation flow ids output secret slot =>
    obtain ⟨hchosen, hslot, first, hflow, hne, hmem⟩ := h
    exact ⟨hchosen.snoc e, hslot, first, hflow, hne, List.mem_append_left _ hmem⟩

variable {p : Option PendingExport} {n : ℕ} {o : Option ExportReady}

theorem Told.change (h : Told absolute events s) (hchange : Change absolute s e p n o) :
    ∀ q ∈ p, q.Told absolute (events ++ [e]) n := by
  have hself : e ∈ events ++ [e] := List.mem_append_right _ (List.mem_singleton_self e)
  intro q hq
  cases hchange with
  | keep => exact (h.pending q hq).snoc e
  | drop => cases hq
  | start | list | run =>
    cases hq
    trivial
  | choose ids hpending =>
    cases hq
    exact hself
  | place output hpending =>
    cases hq
    exact ⟨⟨List.mem_append_left _ (h.pending _ hpending), output, hself, rfl⟩, rfl, Nat.lt_succ_self _⟩
  | confirm hpending hsecret =>
    cases hq
    obtain ⟨hchosen, hslot, hnumber⟩ := h.pending _ hpending
    refine ⟨hchosen.snoc _, rfl, _, hslot, ?_, List.mem_append_left _ (h.entered _ _ hsecret)⟩
    -- the slot of the confirmation is a new one
    rintro rfl
    exact absurd hnumber (lt_irrefl _)
  | again stage hpending =>
    cases hq
    rcases hpending with ⟨slot, hpending⟩ | ⟨secret, slot, hpending⟩
    · exact ⟨(h.pending _ hpending).1.snoc _, rfl, Nat.lt_succ_self _⟩
    · exact ⟨(h.pending _ hpending).1.snoc _, rfl, Nat.lt_succ_self _⟩

theorem Told.step (h : Told absolute events s) (e : Event) :
    Told absolute (events ++ [e]) ((wizard absolute).step s e).1 := by
  refine ⟨fun slot secret hslot => ?_, h.change (change_step s e)⟩
  rcases slots_step hslot with hslot | rfl
  · exact List.mem_append_left _ (h.entered slot secret hslot)
  · exact List.mem_append_right _ (List.mem_singleton_self _)

def Entered (events : List Event) (flow secret : String) : Prop :=
  ∃ first second : Slot, first ≠ second ∧ first.flow = flow ∧ second.flow = flow ∧
    .enter first secret ∈ events ∧ .enter second secret ∈ events

theorem Told.ready {r : ExportReady} (h : Told absolute events s)
    (hchange : Change absolute s e p n (some r)) :
    ∃ flow, e = .ready flow .confirmation ∧ p = some (.running flow) ∧
      Chosen absolute events flow r.selectedIds r.output ∧ Entered events flow r.passphrase := by
  cases hchange with
  | run hpending hsecret =>
    obtain ⟨hchosen, hslot, first, hflow, hne, hfirst⟩ := h.pending _ hpending
    exact ⟨_, rfl, rfl, hchosen, first, _, hne, hflow, hslot, hfirst, h.entered _ _ hsecret⟩

def requests (events : List Event) : List String :=
  events.filterMap fun
    | .request flow => some flow
    | _ => none

def handed (h : List (Event × Option ExportReady)) : List String :=
  h.filterMap fun
    | (.ready flow _, some _) => some flow
    | _ => none

theorem Change.origin (h : Change absolute s e p n o) : ∀ q ∈ p, e = .request q.flow ∨
    ∃ q' ∈ s.pending, q'.flow = q.flow ∧ (q' = .running q.flow → q = q') := by
  intro q hq
  cases h with
  | keep => exact .inr ⟨q, hq, rfl, fun _ => rfl⟩
  | drop => cases hq
  | start flow =>
    cases hq
    exact .inl rfl
  | list _ _ h | choose _ h | place _ h | confirm h | run h =>
    cases hq
    exact .inr ⟨_, h, rfl, nofun⟩
  | again _ h =>
    cases hq
    rcases h with ⟨slot, h⟩ | ⟨secret, slot, h⟩
    · exact .inr ⟨_, h, rfl, nofun⟩
    · exact .inr ⟨_, h, rfl, nofun⟩

/-- No flow is handed out twice, and one that was handed out is only pending as running. -/
structure Sparse (h : List (Event × Option ExportReady)) (s : State) : Prop where
  nodup : (handed h).Nodup
  requested : ∀ flow ∈ handed h, flow ∈ requests (h.map (·.1))
  pending : ∀ q ∈ s.pending, q.flow ∈ requests (h.map (·.1))
  running : ∀ q ∈ s.pending, q.flow ∈ handed h → q = .running q.flow

theorem Sparse.change {h : List (Event × Option ExportReady)} (hs : Sparse h s)
    (hfresh : ∀ flow, e = .request flow → flow ∉ requests (h.map (·.1))) {s' : State}
    (hchange : Change absolute s e s'.pending n o) : Sparse (h ++ [(e, o)]) s' := by
  have hgrow : ∀ flow ∈ requests (h.map (·.1)), flow ∈ requests ((h ++ [(e, o)]).map (·.1)) := by
    intro flow hflow
    simp only [requests, List.map_append, List.filterMap_append]
    exact List.mem_append_left _ hflow
  have hpending : ∀ q ∈ s'.pending, q.flow ∈ requests ((h ++ [(e, o)]).map (·.1)) := by
    intro q hq
    rcases hchange.origin q hq with rfl | ⟨q', hq', hflow, -⟩
    · simp [requests]
    · exact hgrow _ (hflow ▸ hs.pending q' hq')
  cases o with
  | none =>
    have hhanded : handed (h ++ [(e, none)]) = handed h := by
      simp [handed, List.filterMap_append]
    refine ⟨hhanded ▸ hs.nodup, fun flow hflow => hgrow _ (hs.requested flow (hhanded ▸ hflow)),
      hpending, fun q hq hmem => ?_⟩
    rw [hhanded] at hmem
    rcases hchange.origin q hq with rfl | ⟨q', hq', hflow, hsame⟩
    · exact absurd (hs.requested _ hmem) (hfresh _ rfl)
    · have hrunning := hs.running q' hq' (hflow ▸ hmem)
      rw [hflow] at hrunning
      exact (hsame hrunning).trans hrunning
  | some r =>
    generalize hp : s'.pending = p at hchange
    cases hchange with
    | @run flow ids output secret slot h' hsecret =>
      have hnew : flow ∉ handed h := fun hmem => by cases hs.running _ h' hmem
      have hhanded : handed (h ++ [(.ready flow .confirmation, some ⟨ids, output, secret⟩)]) =
          handed h ++ [flow] := by
        simp [handed, List.filterMap_append]
      refine ⟨?_, fun flow' hflow => ?_, hpending, fun q hq _ => ?_⟩
      · rw [hhanded]
        exact hs.nodup.append (List.nodup_singleton _) (by simpa using hnew)
      · rw [hhanded, List.mem_append, List.mem_singleton] at hflow
        rcases hflow with hflow | rfl
        · exact hgrow _ (hs.requested flow' hflow)
        · exact hgrow _ (hs.pending _ h')
      · rw [hp] at hq
        cases hq
        rfl

def Event.Fits (q : PendingExport) : Event → Prop
  | loaded flow _ => q = .loading flow
  | selected flow _ => ∃ accounts, q = .selecting flow accounts
  | submitted flow _ => ∃ ids, q = .output flow ids
  | ready flow .passphrase => ∃ ids output slot, q = .passphrase flow ids output slot
  | ready flow .confirmation => ∃ ids output secret slot, q = .confirmation flow ids output secret slot
  | cancelled flow => q.flow = flow ∧ q ≠ .running flow
  | finished flow => q = .running flow
  | request _ | enter _ _ => False

def Event.Misplaced (q : PendingExport) : Event → Prop
  | selected _ _ => ∀ flow accounts, q ≠ .selecting flow accounts
  | submitted _ _ => ∀ flow ids, q ≠ .output flow ids
  | _ => False

theorem pending_step_of_not_fits {q : PendingExport} (hq : s.pending = some q) (hfits : ¬ e.Fits q)
    (hplace : ¬ e.Misplaced q) : ((wizard absolute).step s e).1.pending = some q := by
  cases e with
  | request flow => simp [wizard, hq]
  | loaded flow accounts =>
    simp only [Event.Fits] at hfits
    simp [wizard, State.onAccountsLoaded, hq, hfits]
  | selected flow ids =>
    cases q with
    | selecting pending accounts =>
      have hne : pending ≠ flow := fun heq => hfits ⟨accounts, heq ▸ rfl⟩
      simp [wizard, State.onAccountsSelected, hq, hne]
    | _ => exact absurd (fun _ _ => nofun) hplace
  | submitted flow output =>
    cases q with
    | output pending ids =>
      have hne : pending ≠ flow := fun heq => hfits ⟨ids, heq ▸ rfl⟩
      simp [wizard, State.onOutputSubmitted, hq, hne]
    | _ => exact absurd (fun _ _ => nofun) hplace
  | enter slot secret => exact hq
  | ready flow stage =>
    cases stage <;> cases q <;> simp_all [wizard, State.onSecretReady, Event.Fits]
  | cancelled flow =>
    cases q <;> simp_all [wizard, State.onCancelled, Event.Fits, PendingExport.flow]
  | finished flow =>
    simp only [Event.Fits] at hfits
    simp [wizard, State.onFinished, hq, hfits]

/-! ### Whole runs -/

def State.start : State := ⟨none, fun _ => none, 0⟩

theorem told_run (events : List Event) :
    Told absolute events ((wizard absolute).run .start events) := by
  have hstart : Told absolute [] State.start := ⟨by simp [State.start], by simp [State.start]⟩
  simpa using Machine.invariant_inputs (fun _ _ e h => h.step e) events hstart

theorem map_fst_history (s : State) (events : List Event) :
    ((wizard absolute).history s events).map (·.1) = events := by
  induction events generalizing s with
  | nil => rfl
  | cons e events ih => simp [ih]

theorem nodup_handed (hfresh : (requests events).Nodup) :
    (handed ((wizard absolute).history .start events)).Nodup := by
  let I := fun (h : List (Event × Option ExportReady)) (s : State) =>
    (requests (h.map (·.1))).Nodup → Sparse h s
  have hI : I ((wizard absolute).history .start events) ((wizard absolute).run .start events) := by
    refine Machine.invariant_history_nil (fun h s e hs hnodup => ?_) events
      fun _ => ⟨List.nodup_nil, by simp [handed], by simp [State.start], by simp [State.start]⟩
    simp only [requests, List.map_append, List.filterMap_append] at hnodup
    obtain ⟨hnodup, -, hdisjoint⟩ := List.nodup_append.1 hnodup
    refine (hs hnodup).change ?_ (change_step s e)
    rintro flow rfl hmem
    exact hdisjoint flow hmem flow (by simp) rfl
  exact (hI (by rwa [map_fst_history])).nodup

theorem pending_run_of_running {flow : String} (hs : s.pending = some (.running flow))
    (hfinished : .finished flow ∉ events) (hplace : ∀ e ∈ events, ¬ e.Misplaced (.running flow)) :
    ((wizard absolute).run s events).pending = some (.running flow) := by
  refine Machine.invariant_run_of_forall (I := fun s : State => s.pending = some (.running flow))
    (P := fun e : Event => e ≠ .finished flow ∧ ¬ e.Misplaced (.running flow)) ?_
    (fun e he => ⟨fun heq => hfinished (heq ▸ he), hplace e he⟩) hs
  rintro s e ⟨hne, hplace⟩ hs
  refine pending_step_of_not_fits hs (fun hfits => ?_) hplace
  cases e with
  | finished flow' =>
    cases hfits
    exact hne rfl
  | cancelled flow' => exact hfits.2 (congrArg _ hfits.1)
  | ready flow' stage => cases stage <;> simp [Event.Fits] at hfits
  | _ => simp [Event.Fits] at hfits

/-- **The wizard**: what comes late changes nothing, each flow is handed out at most once, with what
was chosen in it and a passphrase that was entered twice in it, and stays running until it is
finished; all this as long as no accounts and no output are told while another stage is pending. -/
theorem export_flows (absolute : String → String) :
    (∀ s e, (s.pending = none → (∀ flow, e ≠ .request flow) →
        ((wizard absolute).step s e).1.pending = none) ∧
      ∀ q, s.pending = some q → ¬ e.Fits q → ¬ e.Misplaced q →
        ((wizard absolute).step s e).1.pending = some q) ∧ (∀ events, (requests events).Nodup →
      (handed ((wizard absolute).history .start events)).Nodup) ∧
    (∀ events e r, ((wizard absolute).step ((wizard absolute).run .start events) e).2 = some r →
      ∃ flow, e = .ready flow .confirmation ∧
        ((wizard absolute).step ((wizard absolute).run .start events) e).1.pending =
          some (.running flow) ∧
        Chosen absolute events flow r.selectedIds r.output ∧ Entered events flow r.passphrase) ∧
    ∀ s flow events, s.pending = some (.running flow) → .finished flow ∉ events →
      (∀ e ∈ events, ¬ e.Misplaced (.running flow)) →
      ((wizard absolute).run s events).pending = some (.running flow) := by
  refine ⟨fun s e => ⟨fun hs hrequest => ?_, fun q => pending_step_of_not_fits⟩,
    fun events => nodup_handed, fun events e r hr => ?_, fun s flow events => pending_run_of_running⟩
  · have hchange : Change absolute s e _ _ _ := change_step s e
    cases hp : ((wizard absolute).step s e).1.pending with
    | none => rfl
    | some q =>
      rcases hchange.origin q hp with hq | ⟨q', hq', -⟩
      · exact absurd hq (hrequest _)
      · simp [hs] at hq'
  · exact (told_run events).ready (hr ▸ change_step _ e)

def flowSample : List Event :=
  [.request "f", .loaded "f" (some ["a"]), .selected "f" ["a"], .submitted "f" "out",
    .enter ⟨"f", 0⟩ "a long password", .ready "f" .passphrase,
    .enter ⟨"f", 1⟩ "a long password", .ready "f" .confirmation]

/-- **A selection that is told again drops the running export**, and another one can be started. -/
theorem running_dropped :
    let M := wizard id
    (M.run .start flowSample).pending = some (.running "f") ∧
      (M.run .start (flowSample ++ [.selected "f" ["a"]])).pending = none ∧
      (M.run .start (flowSample ++ [.selected "f" ["a"], .request "g"])).pending =
        some (.loading "g") := by
  decide +kernel

theorem export_flows_sample : (handed ((wizard id).history .start flowSample)).Nodup :=
  (export_flows id).2.1 flowSample (by decide +kernel)

end CodexMarathon.Wizard
