/-
**The completion of a recovery.**

The widget follows the turn that the server starts for a dispatched continuation and tells the
controller when it has ended.  It takes the id from a `TurnStarted` notification of the thread and
matches `TurnCompleted` notifications against it.  Of notifications from the history, only
completions are ignored.
-/

import CodexMarathon.Tui.Widget

namespace CodexMarathon.Tui

/-! ### Notifications of turns -/

inductive ReplayKind
  | resumeInitialMessages
  | threadSnapshot
deriving DecidableEq, Repr

namespace ChatWidget

variable (w : ChatWidget)

/-- What a `TurnStarted` notification does before the task is started. -/
def noteTurnStarted (threadId turnId : String) : ChatWidget :=
  let captured :=
    if w.marathonRecoveryControllerEnabled && w.active.recoveryId.isSome
        && (w.active.threadId.isNone || w.active.threadId == some threadId) then
      { w with active := { w.active with dispatchTurnId := some turnId } }
    else w
  { captured with lastTurnId := some turnId }

def onReplayedTurnStarted (kind : ReplayKind) (threadId turnId : String) (started : Gates) :
    ChatWidget :=
  match kind with
  | .resumeInitialMessages => w.noteTurnStarted threadId turnId
  | .threadSnapshot => w.onTurnStarted threadId turnId started

end ChatWidget

/-- What the handler of a completion does besides the correlation are operations that follow it. -/
inductive TurnEvent
  | widget (op : WidgetOp)
  | replayedTurnStarted (kind : ReplayKind) (threadId turnId : String) (started : Gates)
  | replayedTurnCompleted (kind : ReplayKind) (threadId turnId : String)
      (status : ChatWidget.TurnStatus)

namespace TurnEvent

def apply (env : Submissions) (w : ChatWidget) : TurnEvent → ChatWidget
  | .widget op => op.apply env w
  | .replayedTurnStarted kind threadId turnId started =>
    w.onReplayedTurnStarted kind threadId turnId started
  -- `maybe_complete_usage_limit_resume` returns at once
  | .replayedTurnCompleted _ _ _ _ => w

def started (thread : String) : TurnEvent → Option String
  | .widget (.turnStarted threadId turnId _) => if threadId = thread then some turnId else none
  | .replayedTurnStarted _ threadId turnId _ => if threadId = thread then some turnId else none
  | _ => none

def ended (thread : String) : TurnEvent → Option (String × String)
  | .widget (.turnCompleted threadId turnId status) =>
    if threadId = thread then status.outcome.map (turnId, ·) else none
  | _ => none

end TurnEvent

def TurnEvent.Ends (thread turn : String) (e : TurnEvent) : Prop :=
  ∃ outcome, e.ended thread = some (turn, outcome)

def completions (events : List AppEvent) : List RecoveryLifecycle :=
  events.filterMap fun
    | .codexMarathonRecoveryLifecycle (.completed recoveryId threadId turnId outcome errorCode) =>
      some (.completed recoveryId threadId turnId outcome errorCode)
    | _ => none

@[simp] theorem completions_append (events events' : List AppEvent) :
    completions (events ++ events') = completions events ++ completions events' :=
  List.filterMap_append ..

def turns : Machine ChatWidget (TurnEvent × Submissions) (List RecoveryLifecycle) where
  step w i :=
    let next := i.1.apply i.2 w
    (next, completions (next.events.drop w.events.length))

/-! ### What leaves the correlation alone -/

structure Listening (w : ChatWidget) : Prop where
  enabled : w.marathonRecoveryControllerEnabled = true
  waiting : w.resume.turn.isSome = true → w.resume.waitingForAuthReload = true

structure Moved (w w' : ChatWidget) (active : ActiveResume) : Prop where
  listening : Listening w'
  active_eq : w'.active = active
  events : ∃ sent, w'.events = w.events ++ sent ∧ completions sent = []

/-- A listening widget keeps its active continuation and sends no completion. -/
def Apart (w w' : ChatWidget) : Prop := Listening w → Moved w w' w.active

namespace Apart

variable {env : Submissions} {w w₁ w₂ : ChatWidget}

theorem of_eq (henab : w₁.marathonRecoveryControllerEnabled = w.marathonRecoveryControllerEnabled)
    (hresume : w₁.resume = w.resume) (hactive : w₁.active = w.active)
    (hevents : w₁.events = w.events) : Apart w w₁ := by
  rintro ⟨hon, hwait⟩
  exact ⟨⟨henab.trans hon, hresume ▸ hwait⟩, hactive, [], by simp [hevents], rfl⟩

theorem refl (w : ChatWidget) : Apart w w := of_eq rfl rfl rfl rfl

theorem trans (h : Apart w w₁) (h₁ : Apart w₁ w₂) : Apart w w₂ := by
  intro hw
  obtain ⟨hw₁, hactive, sent, hevents, hsent⟩ := h hw
  obtain ⟨hw₂, hactive₁, sent₁, hevents₁, hsent₁⟩ := h₁ hw₁
  refine ⟨hw₂, hactive₁.trans hactive, sent ++ sent₁, ?_, by simp [hsent, hsent₁]⟩
  rw [hevents₁, hevents, List.append_assoc]

theorem send {event : AppEvent} (h : completions [event] = []) : Apart w (w.send event) :=
  fun hw => ⟨⟨hw.enabled, hw.waiting⟩, rfl, [event], rfl, h⟩

theorem setSuppressed (suppressed : Bool) : Apart w (w.setSuppressed suppressed) :=
  of_eq rfl rfl rfl rfl

theorem maybeSendNextQueuedInput : Apart w (w.maybeSendNextQueuedInput env).2 := by
  intro hw
  unfold ChatWidget.maybeSendNextQueuedInput
  split_ifs with hheld hbusy
  · exact refl w hw
  · exact refl w hw
  unfold ChatWidget.sendNext
  cases w.pendingServerOverloadedResumeTurn with
  | some turn => exact of_eq rfl rfl rfl rfl hw
  | none =>
    split_ifs with hatt hwait
    · exact refl w hw
    · exact refl w hw
    cases hturn : w.resume.turn with
    | some turn => simp [hturn, hw.waiting] at hwait
    | none => exact of_eq rfl rfl rfl rfl hw

theorem setGates (gates : Gates) : Apart w (w.setGates gates) := by
  unfold ChatWidget.setGates ChatWidget.maybeDispatchDeferredAuthReload
  split
  · exact of_eq rfl rfl rfl rfl
  split
  · exact of_eq rfl rfl rfl rfl
  · refine trans ?_ (send ?_)
    · exact of_eq rfl rfl rfl rfl
    · split_ifs <;> rfl

theorem park (prompt : String) : Apart w (w.park prompt) := by
  intro hw
  unfold ChatWidget.park
  rw [hw.enabled]
  cases ChatWidget.recoveryIdOf w.threadId w.lastTurnId with
  | none => exact ⟨⟨rfl, fun _ => rfl⟩, rfl, [], (List.append_nil _).symm, rfl⟩
  | some recoveryId => exact ⟨⟨rfl, fun _ => rfl⟩, rfl, [_], rfl, rfl⟩

theorem parkUsageLimit : Apart w w.parkUsageLimit := by
  unfold ChatWidget.parkUsageLimit
  split
  · exact (setSuppressed true).trans (park _)
  · exact setSuppressed true

theorem onError (ended : Gates) : Apart w (w.onError env ended) :=
  (setGates ended).trans maybeSendNextQueuedInput

theorem onRateLimitError (usageLimit : Bool) (ended : Gates) :
    Apart w (w.onRateLimitError env usageLimit ended) := by
  have href : ∀ failed : ChatWidget,
      Apart failed (if failed.hasChatgptAccount then failed.send .refreshRateLimits else failed) := by
    intro failed
    split_ifs
    · exact send rfl
    · exact refl failed
  have hheld : Apart w { w with rateLimitRecoveryPending := w.hasChatgptAccount } :=
    of_eq rfl rfl rfl rfl
  cases usageLimit with
  | false => exact hheld.trans ((onError ended).trans (href _))
  | true => exact hheld.trans (parkUsageLimit.trans ((onError ended).trans (href _)))

theorem clearPending : Apart w w.clearPendingUsageLimitResumeTurn := by
  unfold ChatWidget.clearPendingUsageLimitResumeTurn
  split
  · exact refl w
  · intro hw
    exact ⟨⟨hw.enabled, fun h => by cases h⟩, rfl, [], (List.append_nil _).symm, rfl⟩

theorem onRateLimitSnapshot (signal : ChatWidget.QuotaSignal) :
    Apart w (w.onRateLimitSnapshot env signal) := by
  cases signal with
  | exhausted => exact setSuppressed true
  | other => exact refl w
  | available =>
    unfold ChatWidget.onRateLimitSnapshot
    dsimp only
    split_ifs
    · exact (setSuppressed false).trans maybeSendNextQueuedInput
    · exact (setSuppressed false).trans (clearPending.trans maybeSendNextQueuedInput)
    · exact setSuppressed false

theorem finishRateLimitRecovery (waitingForLunaReserve : Bool) :
    Apart w (w.finishRateLimitRecovery env waitingForLunaReserve) := by
  unfold ChatWidget.finishRateLimitRecovery
  dsimp only
  split_ifs
  · exact refl w
  · exact of_eq rfl rfl rfl rfl
  · refine trans ?_ maybeSendNextQueuedInput
    exact of_eq rfl rfl rfl rfl

theorem queueUserMessage (message : UserMessage) (action : QueuedInputAction) :
    Apart w (w.queueUserMessage env message action) := by
  unfold ChatWidget.queueUserMessage
  split_ifs
  · exact refl w
  · exact of_eq rfl rfl rfl rfl
  · refine trans ?_ maybeSendNextQueuedInput
    exact of_eq rfl rfl rfl rfl
  · exact of_eq rfl rfl rfl rfl

theorem submitInput (message : UserMessage) (planStreaming onlyShellCommands : Bool) :
    Apart w (w.submitInput env message planStreaming onlyShellCommands) := by
  unfold ChatWidget.submitInput
  dsimp only
  split_ifs
  · exact clearPending
  · exact clearPending.trans (of_eq rfl rfl rfl rfl)
  · exact clearPending.trans (queueUserMessage message .plain)

end Apart

/-! ### What the notifications do to the correlation -/

def ActiveResume.capture (active : ActiveResume) (threadId turnId : String) : ActiveResume :=
  if active.recoveryId.isSome && (active.threadId.isNone || active.threadId == some threadId) then
    { active with dispatchTurnId := some turnId }
  else active

def ActiveResume.Awaits (active : ActiveResume) (turn : String) : Prop :=
  active.dispatchTurnId = Option.none ∨ active.dispatchTurnId = some turn

namespace ChatWidget

variable {w : ChatWidget} {recoveryId thread outcome : String}

theorem noteTurnStarted_moved (hw : Listening w) (threadId turnId : String) :
    Moved w (w.noteTurnStarted threadId turnId) (w.active.capture threadId turnId) := by
  simp only [noteTurnStarted, ActiveResume.capture, hw.enabled, Bool.true_and]
  split_ifs
  · exact ⟨⟨rfl, hw.waiting⟩, rfl, [], (List.append_nil _).symm, rfl⟩
  · exact ⟨⟨hw.enabled, hw.waiting⟩, rfl, [], (List.append_nil _).symm, rfl⟩

theorem onTurnStarted_moved (hw : Listening w) (threadId turnId : String) (started : Gates) :
    Moved w (w.onTurnStarted threadId turnId started) (w.active.capture threadId turnId) := by
  have hnoted := noteTurnStarted_moved hw threadId turnId
  obtain ⟨sent, hevents, hsent⟩ := hnoted.events
  obtain ⟨hset, hactive, sent', hevents', hsent'⟩ := Apart.setGates started hnoted.listening
  refine ⟨hset, hactive.trans hnoted.active_eq, sent ++ sent', ?_, by simp [hsent, hsent']⟩
  exact hevents'.trans (by rw [hevents, List.append_assoc])

theorem maybeComplete_of_awaits (hw : Listening w) (hid : w.active.recoveryId = some recoveryId)
    (hthread : w.active.threadId = some thread) {turnId : String} {status : TurnStatus}
    (hstatus : status.outcome = some outcome) (h : w.active.Awaits turnId) :
    w.maybeCompleteUsageLimitResume thread turnId status = sendLifecycle { w with active := .none }
        (.completed recoveryId (some thread) w.active.turnId outcome none) := by
  have hawait : (w.active.dispatchTurnId.isNone || w.active.dispatchTurnId == some turnId) = true := by
    rcases h with h | h <;> simp [h]
  simp only [maybeCompleteUsageLimitResume, hw.enabled, hid, hstatus, hthread, hawait]
  simp

theorem maybeComplete_eq_self (hthread : w.active.threadId = some thread) {threadId turnId : String}
    {status : TurnStatus}
    (h : threadId = thread → status.outcome.isSome = true → ¬ w.active.Awaits turnId) :
    w.maybeCompleteUsageLimitResume threadId turnId status = w := by
  unfold maybeCompleteUsageLimitResume
  split
  case h_2 => rfl
  case h_1 hstatus =>
      split_ifs with hmat
      · simp only [hthread, Option.isNone_some, Bool.false_or, Bool.and_eq_true, beq_iff_eq,
          Option.some.injEq, Bool.or_eq_true, Option.isNone_iff_eq_none] at hmat
        exact absurd hmat.2 (h hmat.1.symm (by rw [hstatus]; rfl))
      · rfl

end ChatWidget

theorem TurnEvent.start_or_completion_or_apart (e : TurnEvent) :
    (∃ threadId turnId, (∀ thread, e.started thread = if threadId = thread then some turnId else none) ∧
      (∀ thread, e.ended thread = none) ∧
      ∀ env w, Listening w → Moved w (e.apply env w) (w.active.capture threadId turnId)) ∨
    (∃ threadId turnId status, e = .widget (.turnCompleted threadId turnId status)) ∨
    ((∀ thread, e.started thread = none) ∧ (∀ thread, e.ended thread = none) ∧
      ∀ env w, Apart w (e.apply env w)) := by
  cases e with
  | replayedTurnCompleted kind threadId turnId status =>
    exact .inr (.inr ⟨fun _ => rfl, fun _ => rfl, fun _ w => .refl w⟩)
  | replayedTurnStarted kind threadId turnId started =>
    refine .inl ⟨threadId, turnId, fun _ => rfl, fun _ => rfl, fun env w hw => ?_⟩
    cases kind with
    | resumeInitialMessages => exact ChatWidget.noteTurnStarted_moved hw threadId turnId
    | threadSnapshot => exact ChatWidget.onTurnStarted_moved hw threadId turnId started
  | widget op =>
    cases op with
    | turnStarted threadId turnId started =>
      refine .inl ⟨threadId, turnId, fun _ => rfl, fun _ => rfl, fun env w hw => ?_⟩
      exact ChatWidget.onTurnStarted_moved hw threadId turnId started
    | turnCompleted threadId turnId status => exact .inr (.inl ⟨threadId, turnId, status, rfl⟩)
    | rateLimitError usageLimit ended =>
      exact .inr (.inr ⟨fun _ => rfl, fun _ => rfl, fun _ _ => .onRateLimitError usageLimit ended⟩)
    | rateLimitSnapshot signal =>
      exact .inr (.inr ⟨fun _ => rfl, fun _ => rfl, fun _ _ => .onRateLimitSnapshot signal⟩)
    | finishRateLimitRecovery waiting =>
      exact .inr (.inr ⟨fun _ => rfl, fun _ => rfl, fun _ _ => .finishRateLimitRecovery waiting⟩)
    | submitInput message planStreaming onlyShellCommands =>
      exact .inr (.inr ⟨fun _ => rfl, fun _ => rfl, fun _ _ => .submitInput message _ _⟩)
    | queueInput message action =>
      exact .inr (.inr ⟨fun _ => rfl, fun _ => rfl, fun _ _ =>
        Apart.clearPending.trans (.queueUserMessage message action)⟩)
    | sendNextQueuedInput =>
      exact .inr (.inr ⟨fun _ => rfl, fun _ => rfl, fun _ _ => .maybeSendNextQueuedInput⟩)
    | setGates gates => exact .inr (.inr ⟨fun _ => rfl, fun _ => rfl, fun _ _ => .setGates gates⟩)
    | holdRateLimitRecovery | suppress | sessionConfigured | setServerOverloadedResume
      | accountUpdated =>
        exact .inr (.inr ⟨fun _ => rfl, fun _ => rfl, fun _ _ => .of_eq rfl rfl rfl rfl⟩)

section Steps

variable {env : Submissions} {w : ChatWidget} {recoveryId thread : String}

theorem TurnEvent.moved_of_inactive (hw : Listening w) (hid : w.active.recoveryId = none)
    (e : TurnEvent) : Moved w (e.apply env w) w.active := by
  obtain ⟨threadId, turnId, -, -, hmoved⟩ | ⟨threadId, turnId, status, rfl⟩ | ⟨-, -, hapart⟩ :=
    e.start_or_completion_or_apart
  · simpa [ActiveResume.capture, hid] using hmoved env w hw
  · have hself : TurnEvent.apply env w (.widget (.turnCompleted threadId turnId status)) = w := by
      change w.maybeCompleteUsageLimitResume threadId turnId status = w
      rw [ChatWidget.maybeCompleteUsageLimitResume, hid]
      cases w.marathonRecoveryControllerEnabled <;> rfl
    rw [hself]
    exact Apart.refl w hw
  · exact hapart env w hw

theorem TurnEvent.moved_of_active (hw : Listening w) (hid : w.active.recoveryId = some recoveryId)
    (hthread : w.active.threadId = some thread) {e : TurnEvent}
    (h : ∀ c ∈ e.ended thread, ¬ w.active.Awaits c.1) : Moved w (e.apply env w)
      { w.active with dispatchTurnId := (e.started thread).or w.active.dispatchTurnId } := by
  obtain ⟨threadId, turnId, hstar, -, hmoved⟩ | ⟨threadId, turnId, status, rfl⟩ |
    ⟨hstar, -, hapart⟩ := e.start_or_completion_or_apart
  · have hcap := hmoved env w hw
    rw [hstar]
    by_cases heq : threadId = thread
    · simpa [ActiveResume.capture, hid, hthread, heq] using hcap
    · have hkept : w.active.capture threadId turnId = w.active := by
        simp [ActiveResume.capture, hthread, Ne.symm heq]
      rw [hkept] at hcap
      rw [if_neg heq]
      exact hcap
  · have hself : TurnEvent.apply env w (.widget (.turnCompleted threadId turnId status)) = w := by
      refine ChatWidget.maybeComplete_eq_self hthread fun heq hfinal => ?_
      obtain ⟨outcome, hout⟩ := Option.isSome_iff_exists.1 hfinal
      exact h (turnId, outcome) (by simp [TurnEvent.ended, heq, hout])
    rw [hself]
    exact Apart.refl w hw
  · rw [hstar]
    exact hapart env w hw

theorem TurnEvent.completed_of_ended (hw : Listening w) (hid : w.active.recoveryId = some recoveryId)
    (hthread : w.active.threadId = some thread) {e : TurnEvent} {turn outcome : String}
    (hended : e.ended thread = some (turn, outcome)) (h : w.active.Awaits turn) :
    e.apply env w = ChatWidget.sendLifecycle { w with active := .none }
      (.completed recoveryId (some thread) w.active.turnId outcome none) := by
  obtain ⟨-, -, -, hnone, -⟩ | ⟨threadId, turnId, status, rfl⟩ | ⟨-, hnone, -⟩ :=
    e.start_or_completion_or_apart
  · simp [hnone] at hended
  · simp only [TurnEvent.ended] at hended
    split_ifs at hended with heq
    obtain ⟨outcome', hout, hpair⟩ := Option.map_eq_some_iff.1 hended
    obtain ⟨rfl, rfl⟩ := Prod.mk.inj hpair
    subst heq
    exact ChatWidget.maybeComplete_of_awaits hw hid hthread hout h
  · simp [hnone] at hended

end Steps

/-! ### From the dispatch to the completion -/

/-- `captured` is the turn that is taken for the one the server has started for the continuation. -/
structure Dispatched (recoveryId thread : String) (turnId captured : Option String)
    (w : ChatWidget) : Prop where
  listening : Listening w
  active : w.active = ⟨some recoveryId, some thread, turnId, captured⟩

/-- Until `turn` has ended, every turn of `thread` that starts is `turn`, and no other ends live. -/
def Undisturbed (thread turn : String) : Bool → List TurnEvent → Prop
  | _, [] => True
  | hasStarted, e :: es =>
    (∀ other ∈ e.started thread, other = turn) ∧
    (∀ c ∈ e.ended thread, c.1 = turn ∨ hasStarted = true) ∧
    (¬ e.Ends thread turn →
      Undisturbed thread turn (hasStarted || (e.started thread).isSome) es)

def completionOf (recoveryId thread turn : String) (turnId : Option String) (e : TurnEvent) :
    List RecoveryLifecycle :=
  match e.ended thread with
  | some (ended, outcome) =>
    if ended = turn then [.completed recoveryId (some thread) turnId outcome none] else []
  | none => []

theorem completionOf_eq_nil {recoveryId thread turn : String} {turnId : Option String}
    {e : TurnEvent} (h : ¬ e.Ends thread turn) : completionOf recoveryId thread turn turnId e = [] := by
  unfold completionOf
  split
  · rename_i ended outcome hended
    refine if_neg ?_
    rintro rfl
    exact h ⟨outcome, hended⟩
  · rfl

theorem turns_fst (w : ChatWidget) (i : TurnEvent × Submissions) :
    (turns.step w i).1 = i.1.apply i.2 w := rfl

theorem turns_snd {w : ChatWidget} {i : TurnEvent × Submissions} {sent : List AppEvent}
    (h : (i.1.apply i.2 w).events = w.events ++ sent) : (turns.step w i).2 = completions sent := by
  simp only [turns, h, List.drop_left]

theorem Moved.turns_snd {w : ChatWidget} {i : TurnEvent × Submissions} {active : ActiveResume}
    (h : Moved w (i.1.apply i.2 w) active) : (turns.step w i).2 = [] := by
  obtain ⟨sent, hevents, hsent⟩ := h.events
  exact (Tui.turns_snd hevents).trans hsent

structure Finished (w : ChatWidget) : Prop where
  listening : Listening w
  inactive : w.active.recoveryId = none

theorem Finished.step {w : ChatWidget} (hw : Finished w) (i : TurnEvent × Submissions) :
    Finished (turns.step w i).1 ∧ (turns.step w i).2 = [] := by
  have hmoved : Moved w (i.1.apply i.2 w) w.active :=
    TurnEvent.moved_of_inactive hw.listening hw.inactive i.1
  rw [hmoved.turns_snd, turns_fst]
  refine ⟨⟨hmoved.listening, ?_⟩, rfl⟩
  exact (congrArg ActiveResume.recoveryId hmoved.active_eq).trans hw.inactive

def captured (turn : String) (hasStarted : Bool) : Option String :=
  if hasStarted then some turn else none

section Dispatch

variable {recoveryId thread turn : String} {turnId : Option String} {hasStarted : Bool}
  {w : ChatWidget} {i : TurnEvent × Submissions}

theorem Dispatched.step_of_ends
    (hw : Dispatched recoveryId thread turnId (captured turn hasStarted) w)
    (h : i.1.Ends thread turn) : Finished (turns.step w i).1 ∧
      (turns.step w i).2 = completionOf recoveryId thread turn turnId i.1 := by
  obtain ⟨outcome, hended⟩ := h
  have hawaits : w.active.Awaits turn := by
    rw [hw.active]
    cases hasStarted with
    | false => exact .inl rfl
    | true => exact .inr rfl
  have happly : (turns.step w i).1 = ChatWidget.sendLifecycle { w with active := .none }
      (.completed recoveryId (some thread) w.active.turnId outcome none) :=
    TurnEvent.completed_of_ended hw.listening (by rw [hw.active]) (by rw [hw.active]) hended hawaits
  refine ⟨?_, ?_⟩
  · rw [happly]
    exact ⟨⟨hw.listening.enabled, hw.listening.waiting⟩, rfl⟩
  · rw [turns_snd (congrArg ChatWidget.events happly), hw.active]
    simp [completionOf, hended, completions]

theorem Dispatched.step_of_not_ends
    (hw : Dispatched recoveryId thread turnId (captured turn hasStarted) w)
    (hstarts : ∀ other ∈ i.1.started thread, other = turn)
    (hends : ∀ c ∈ i.1.ended thread, c.1 = turn ∨ hasStarted = true) (h : ¬ i.1.Ends thread turn) :
    Dispatched recoveryId thread turnId
        (captured turn (hasStarted || (i.1.started thread).isSome)) (turns.step w i).1 ∧
      (turns.step w i).2 = [] := by
  have hother : ∀ c ∈ i.1.ended thread, ¬ w.active.Awaits c.1 := by
    rintro ⟨other, outcome⟩ hc
    have hne : other ≠ turn := by
      rintro rfl
      exact h ⟨outcome, hc⟩
    rw [hw.active, (hends _ hc).resolve_left hne]
    rintro (hnone | hsome)
    · cases hnone
    · exact hne (Option.some.inj hsome).symm
  have hmoved : Moved w (i.1.apply i.2 w) _ :=
    TurnEvent.moved_of_active hw.listening (by rw [hw.active]) (by rw [hw.active]) hother
  rw [hmoved.turns_snd, turns_fst]
  refine ⟨⟨hmoved.listening, hmoved.active_eq.trans ?_⟩, rfl⟩
  rw [hw.active]
  cases hstar : i.1.started thread with
  | none => simp
  | some other => simp [captured, hstarts other hstar]

theorem Dispatched.step_run {is₁ is₂ : List (TurnEvent × Submissions)}
    (hw : Dispatched recoveryId thread turnId (captured turn hasStarted) w)
    (h : Undisturbed thread turn hasStarted ((is₁ ++ i :: is₂).map Prod.fst)) :
    ((∀ j ∈ is₁, ¬ j.1.Ends thread turn) →
      (turns.step (turns.run w is₁) i).2 = completionOf recoveryId thread turn turnId i.1) ∧
    ((∃ j ∈ is₁, j.1.Ends thread turn) → (turns.step (turns.run w is₁) i).2 = []) := by
  induction is₁ generalizing w hasStarted with
  | nil =>
    obtain ⟨hstarts, hends, -⟩ := h
    refine ⟨fun _ => ?_, fun ⟨_, hmem, _⟩ => absurd hmem List.not_mem_nil⟩
    by_cases hi : i.1.Ends thread turn
    · exact (hw.step_of_ends hi).2
    · rw [completionOf_eq_nil hi]
      exact (hw.step_of_not_ends hstarts hends hi).2
  | cons j js ih =>
    obtain ⟨hstarts, hends, hrest⟩ := h
    by_cases hj : j.1.Ends thread turn
    · -- the recovery is over, and stays so
      refine ⟨fun hnone => absurd hj (hnone j List.mem_cons_self), fun _ => ?_⟩
      have hfin : Finished (turns.run w (j :: js)) :=
        Machine.invariant_run (I := Finished) (fun _ i hw => (hw.step i).1) js
          (hw.step_of_ends hj).1
      exact (hfin.step i).2
    · obtain ⟨hfirst, hlater⟩ := ih (hw.step_of_not_ends hstarts hends hj).1 (hrest hj)
      refine ⟨fun hnone => hfirst fun k hk => hnone k (List.mem_cons_of_mem j hk), ?_⟩
      rintro ⟨k, hk, hkends⟩
      refine hlater ⟨k, (List.mem_cons.1 hk).resolve_left ?_, hkends⟩
      rintro rfl
      exact hj hkends

end Dispatch

/-- **The completion is sent once, by the end of the dispatched turn**, where that is undisturbed.
-/
theorem completed_by_dispatched_turn {recoveryId thread turn : String} {turnId : Option String}
    {w : ChatWidget} {is₁ is₂ : List (TurnEvent × Submissions)} {i : TurnEvent × Submissions}
    (hw : Dispatched recoveryId thread turnId none w)
    (h : Undisturbed thread turn false ((is₁ ++ i :: is₂).map Prod.fst)) :
    ((∀ j ∈ is₁, ¬ j.1.Ends thread turn) →
      (turns.step (turns.run w is₁) i).2 = completionOf recoveryId thread turn turnId i.1) ∧
    ((∃ j ∈ is₁, j.1.Ends thread turn) → (turns.step (turns.run w is₁) i).2 = []) := by
  have hnotStarted : Dispatched recoveryId thread turnId (captured turn false) w := hw
  exact hnotStarted.step_run h

def ChatWidget.dispatchedSample : ChatWidget :=
  ((sample.onAuthReloadCompleted .sample true).releaseUsageLimitResumeTurn .sample
    "usage-limit:thread:turn" (some "thread")).2

def Gates.running : Gates := ⟨false, false, false, false, false, false, true, false, true, false⟩

theorem dispatched_sample :
    Dispatched "usage-limit:thread:turn" "thread" (some "turn") none ChatWidget.dispatchedSample :=
  ⟨⟨by decide, by decide⟩, by decide⟩

theorem completed_by_next : (turns.step (turns.run ChatWidget.dispatchedSample
        [(.widget (.turnStarted "thread" "next" .running), .sample)])
      (.widget (.turnCompleted "thread" "next" .completed), .sample)).2 =
    [.completed "usage-limit:thread:turn" (some "thread") (some "turn") "completed" none] := by
  have hquiet : Undisturbed "thread" "next" false
      (List.map Prod.fst
        ([(TurnEvent.widget (.turnStarted "thread" "next" .running), Submissions.sample)] ++
          (TurnEvent.widget (.turnCompleted "thread" "next" .completed), Submissions.sample) :: [])) := by
    simp [Undisturbed, TurnEvent.started, TurnEvent.ended, ChatWidget.TurnStatus.outcome,
      TurnEvent.Ends]
  have hsent := (completed_by_dispatched_turn dispatched_sample hquiet).1
    (by simp [TurnEvent.Ends, TurnEvent.ended])
  rw [hsent]
  simp [completionOf, TurnEvent.ended, ChatWidget.TurnStatus.outcome]

/-- **The start of another turn is taken for that of the dispatched one**, whose end then sends no
completion. -/
theorem replayed_start_prevents_completion : (turns.history ChatWidget.dispatchedSample
        [(.widget (.turnStarted "thread" "next" .running), .sample),
         (.replayedTurnStarted .threadSnapshot "thread" "turn" .running, .sample),
         (.widget (.turnCompleted "thread" "next" .completed), .sample),
         (.widget (.turnCompleted "thread" "turn" .failed), .sample)]).map Prod.snd = [[], [], [],
        [.completed "usage-limit:thread:turn" (some "thread") (some "turn") "failed" none]] ∧
    (turns.history ChatWidget.dispatchedSample
        [(.widget (.turnCompleted "thread" "turn" .failed), .sample)]).map Prod.snd =
      [[.completed "usage-limit:thread:turn" (some "thread") (some "turn") "failed" none]] := by
  constructor <;> decide

end CodexMarathon.Tui
