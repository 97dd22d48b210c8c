/-
**The parked continuation is submitted once, and only after its release.**

A run of the widget leaves marks: a continuation was parked, the credentials were reloaded, a
release was accepted, the continuation was submitted.  What the handlers can do to the continuation
is said once, by `Move`; the order of the marks follows from it.
-/

import CodexMarathon.Tui.Widget

namespace CodexMarathon.Tui

/-! ### Events and marks -/

/-- `elsewhere` is a handler that does not touch the continuation. -/
inductive WidgetEvent
  | widget (op : WidgetOp)
  | authIdentityChanged
  | deferAuthReload (attempt : UInt8)
  | authReloadCompleted (identityChanged : Bool)
  | release (recoveryId : String) (threadId : Option String)
  | elsewhere (other : ChatWidget)

/-- A release is shown with the thread it named and the thread the widget was in. -/
inductive Mark
  | parked (recoveryId : Option String) (turn : UserMessage)
  | reloaded (identityChanged : Bool)
  | released (recoveryId : String) (threadId current : Option String)
  | submitted (turn : UserMessage)
deriving DecidableEq, Repr

namespace ChatWidget

variable (env : Submissions) (w : ChatWidget)

def parks : Option UserMessage :=
  if w.resume.turn.isNone then w.usageLimitResumePrompt else none

/-- The continuation that `maybe_send_next_queued_input` submits with success. -/
def submittedResume : Option UserMessage :=
  if w.threadId.isNone || w.gates.misalignmentPolicyViolation || w.suppressQueueAutosend
      || w.rateLimitRecoveryPending || w.gates.recoveredQueue || w.gates.unconfirmedMessages then
    none
  else if w.gates.blocksDirectInput || w.gates.userTurnPendingOrRunning then none
  else if w.pendingServerOverloadedResumeTurn.isSome then none
  else if w.pendingAuthReloadAttempt.isSome then none
  else if w.resume.waitingForAuthReload && w.resume.turn.isSome then none
  else w.resume.turn.filter fun turn => (env.submit w.gates turn).1

def queueSends (message : UserMessage) (action : QueuedInputAction) : Option ChatWidget :=
  if w.gates.misalignmentPolicyViolation || !w.canRunNow || action = .plain then none
  else some { w with queue := w.queue ++ [⟨message, action⟩] }

end ChatWidget

open ChatWidget in
def WidgetOp.sends (w : ChatWidget) : WidgetOp → Option ChatWidget
  | .rateLimitError usageLimit ended =>
    let held := { w with rateLimitRecoveryPending := w.hasChatgptAccount }
    some ((if usageLimit then held.parkUsageLimit else held).setGates ended)
  | .rateLimitSnapshot .available =>
    if w.suppressQueueAutosend then
      let resumed := w.setSuppressed false
      some (if w.queue.isEmpty then resumed else resumed.clearPendingUsageLimitResumeTurn)
    else none
  | .finishRateLimitRecovery waiting =>
    if waiting || !w.rateLimitRecoveryPending
        || (w.marathonRecoveryControllerEnabled && w.resume.turn.isSome) then none
    else some { w with rateLimitRecoveryPending := false }
  | .submitInput message planStreaming onlyShellCommands =>
    let cleared := w.clearPendingUsageLimitResumeTurn
    if message.isEmpty || (cleared.threadId.isSome && !planStreaming
        && !cleared.suppressQueueAutosend && !cleared.rateLimitRecoveryPending
        && (!cleared.gates.userTurnPendingStart || cleared.gates.agentTurnRunning)
        && !(onlyShellCommands && !message.startsWith "!")) then none
    else cleared.queueSends message .plain
  | .queueInput message action => w.clearPendingUsageLimitResumeTurn.queueSends message action
  | .sendNextQueuedInput => some w
  | _ => none

namespace WidgetEvent

def apply (env : Submissions) (w : ChatWidget) : WidgetEvent → ChatWidget
  | .widget op => op.apply env w
  | .authIdentityChanged => w.handleAuthIdentityChanged
  | .deferAuthReload attempt => w.deferAuthReloadUntilIdle attempt
  | .authReloadCompleted identityChanged => w.onAuthReloadCompleted env identityChanged
  | .release recoveryId threadId => (w.releaseUsageLimitResumeTurn env recoveryId threadId).2
  | .elsewhere other =>
    { other with
      resume := w.resume
      marathonRecoveryControllerEnabled := w.marathonRecoveryControllerEnabled }

def sends (w : ChatWidget) : WidgetEvent → Option ChatWidget
  | .widget op => op.sends w
  | .authReloadCompleted identityChanged =>
    some (ChatWidget.openReloadGate { w with pendingAuthReloadAttempt := none } identityChanged)
  | .release recoveryId threadId =>
    if w.releasable recoveryId threadId then
      some (ChatWidget.setSuppressed
        { w with
          resume := { w.resume with waitingForAuthReload := false }
          rateLimitRecoveryPending := false }
        false)
    else none
  | _ => none

def gateMarks (env : Submissions) (w : ChatWidget) : WidgetEvent → List Mark
  | .widget (.rateLimitError true _) =>
    (w.parks.map (Mark.parked (ChatWidget.recoveryIdOf w.threadId w.lastTurnId))).toList
  | .authReloadCompleted identityChanged => [.reloaded identityChanged]
  | .release recoveryId threadId =>
    if (w.releaseUsageLimitResumeTurn env recoveryId threadId).1 then
      [.released recoveryId threadId w.threadId]
    else []
  | _ => []

def sendMarks (env : Submissions) (w : ChatWidget) (e : WidgetEvent) : List Mark :=
  (((e.sends w).bind (·.submittedResume env)).map Mark.submitted).toList

end WidgetEvent

def widgetStep (w : ChatWidget) (i : WidgetEvent × Submissions) : ChatWidget × List Mark :=
  (i.1.apply i.2 w, i.1.gateMarks i.2 w ++ i.1.sendMarks i.2 w)

def widgetMachine : Machine ChatWidget (WidgetEvent × Submissions) (List Mark) := ⟨widgetStep⟩

def marks (w : ChatWidget) (is : List (WidgetEvent × Submissions)) : List Mark :=
  ((widgetMachine.history w is).map Prod.snd).flatten

/-! ### What a handler can do to the continuation -/

/-- What a handler can do to the continuation, and the marks it leaves. -/
inductive Move : PendingResume → List Mark → PendingResume → Prop
  | keep (p : PendingResume) : Move p [] p
  | clear (p : PendingResume) : Move p [] .none
  | park {p : PendingResume} (turn : UserMessage) (recoveryId threadId turnId : Option String)
      (idle : p.turn = none) :
      Move p [.parked recoveryId turn]
        { turn := some turn, recoveryId, threadId, turnId
          waitingForAuthReload := true, authReloaded := false }
  | reload (p : PendingResume) (identityChanged : Bool) :
      Move p [.reloaded identityChanged]
        { p with authReloaded := (identityChanged && p.turn.isSome) || p.authReloaded }
  | release {p : PendingResume} {recoveryId : String} {threadId current : Option String}
      (parked : p.IsParked) (reloaded : p.authReloaded = true)
      (thread : threadId = none ∨ current = threadId) (matching : p.recoveryId = some recoveryId) :
      Move p [.released recoveryId threadId current] { p with waitingForAuthReload := false }
  | submit {p : PendingResume} {turn : UserMessage} (pending : p.turn = some turn)
      (released : p.waitingForAuthReload = false) :
      Move p [.submitted turn] { PendingResume.none with authReloaded := p.authReloaded }

namespace ChatWidget

variable {env : Submissions} {w : ChatWidget}

theorem submittedResume_eq_some {turn : UserMessage} (h : w.submittedResume env = some turn) :
    w.resume.turn = some turn ∧ w.resume.waitingForAuthReload = false ∧
      (env.submit w.gates turn).1 = true ∧
      w.maybeSendNextQueuedInput env = w.sendResume env turn := by
  unfold submittedResume at h
  split_ifs at h with hheld hbusy hover hatt hwait
  obtain ⟨hturn, hacc⟩ := Option.filter_eq_some_iff.1 h
  refine ⟨hturn, by simpa [hturn] using hwait, hacc, ?_⟩
  have hnone : w.pendingServerOverloadedResumeTurn = none := by simpa using hover
  rw [maybeSendNextQueuedInput, if_neg hheld, if_neg hbusy, sendNext]
  simp only [hnone]
  rw [if_neg hatt, if_neg hwait]
  simp only [hturn]

theorem maybeSendNextQueuedInput_resume_of_none (h : w.submittedResume env = none) :
    (w.maybeSendNextQueuedInput env).2.resume = w.resume := by
  unfold maybeSendNextQueuedInput
  split_ifs with hheld hbusy
  · rfl
  · rfl
  unfold sendNext
  cases hover : w.pendingServerOverloadedResumeTurn with
  | some turn => rfl
  | none =>
    simp only
    split_ifs with hatt hwait
    · rfl
    · rfl
    cases hturn : w.resume.turn with
    | none => rfl
    | some turn =>
      have hopen : w.resume.waitingForAuthReload = false := by simpa [hturn] using hwait
      have hrej : (env.submit w.gates turn).1 = false := by
        rw [submittedResume, if_neg hheld, if_neg hbusy, hover, if_neg (by simp),
          if_neg hatt, if_neg hwait, hturn] at h
        simpa [Option.filter] using h
      simp only [sendResume, hrej, Bool.false_eq_true, if_false]
      rw [← hopen]

theorem move_send (env : Submissions) (w : ChatWidget) :
    Move w.resume ((w.submittedResume env).map Mark.submitted).toList
      (w.maybeSendNextQueuedInput env).2.resume := by
  cases hsub : w.submittedResume env with
  | none =>
    rw [maybeSendNextQueuedInput_resume_of_none hsub]
    exact .keep _
  | some turn =>
    obtain ⟨hturn, hopen, hacc, hsends⟩ := submittedResume_eq_some hsub
    have hresume : (w.sendResume env turn).2.resume =
        { PendingResume.none with authReloaded := w.resume.authReloaded } := by
      simp only [sendResume, hacc, if_true]
    rw [hsends, hresume]
    exact .submit hturn hopen

theorem move_clear (w : ChatWidget) :
    Move w.resume [] w.clearPendingUsageLimitResumeTurn.resume := by
  unfold clearPendingUsageLimitResumeTurn
  split_ifs
  · exact .keep _
  · exact .clear _

theorem move_parkUsageLimit (henab : w.marathonRecoveryControllerEnabled = true) :
    Move w.resume (w.parks.map (Mark.parked (recoveryIdOf w.threadId w.lastTurnId))).toList
      w.parkUsageLimit.resume := by
  unfold parks parkUsageLimit
  cases hturn : w.resume.turn with
  | some turn => exact .keep _
  | none =>
    cases hprompt : w.usageLimitResumePrompt with
    | none => exact .keep _
    | some prompt =>
      have hpark : ((w.setSuppressed true).park prompt).resume =
          { turn := some prompt, recoveryId := recoveryIdOf w.threadId w.lastTurnId
            threadId := w.threadId, turnId := w.lastTurnId
            waitingForAuthReload := true, authReloaded := false } := by
        rw [← henab]
        unfold park
        simp only
        split <;> rfl
      simp only [hpark]
      exact .park prompt _ _ _ hturn

theorem move_openReloadGate (henab : w.marathonRecoveryControllerEnabled = true)
    (identityChanged : Bool) :
    Move w.resume [.reloaded identityChanged] (w.openReloadGate identityChanged).resume := by
  have hgate : (w.openReloadGate identityChanged).resume =
      { w.resume with
        authReloaded := (identityChanged && w.resume.turn.isSome) || w.resume.authReloaded } := by
    unfold openReloadGate
    split_ifs with h
    · simp [h, henab]
    · simp [h]
  rw [hgate]
  exact .reload _ _

end ChatWidget

namespace ChatWidget

theorem move_sends {env : Submissions} {v after : ChatWidget} {p : PendingResume}
    (hv : v.resume = p) (hafter : after.resume = (v.maybeSendNextQueuedInput env).2.resume) :
    Move p ((((some v).bind (·.submittedResume env)).map Mark.submitted).toList) after.resume := by
  rw [hafter, ← hv]
  exact move_send env v

theorem move_queueUserMessage (env : Submissions) (w : ChatWidget) (message : UserMessage)
    (action : QueuedInputAction) : Move w.resume
      ((((w.queueSends message action).bind (·.submittedResume env)).map Mark.submitted).toList)
      (w.queueUserMessage env message action).resume := by
  unfold queueUserMessage queueSends
  by_cases hviol : w.gates.misalignmentPolicyViolation = true
  · simp only [hviol, Bool.true_or, if_true]
    exact .keep _
  by_cases hrun : w.canRunNow = true
  · by_cases hplain : action = .plain
    · simp only [hviol, hrun, hplain]
      exact .keep _
    · simp only [hviol, hrun, hplain]
      exact move_sends rfl rfl
  · simp only [hviol, hrun]
    exact .keep _

end ChatWidget

open ChatWidget in
theorem WidgetOp.moves (env : Submissions) {w : ChatWidget}
    (henab : w.marathonRecoveryControllerEnabled = true) (op : WidgetOp) :
    ∃ p, Move w.resume ((WidgetEvent.widget op).gateMarks env w) p ∧
      Move p ((WidgetEvent.widget op).sendMarks env w) (op.apply env w).resume := by
  cases op with
  | rateLimitError usageLimit ended =>
    -- the refresh that is asked for at the end does not touch the continuation
    have hresume : ∀ failed : ChatWidget,
        (if failed.hasChatgptAccount then failed.send .refreshRateLimits else failed).resume =
          failed.resume := by
      intro failed
      split_ifs <;> rfl
    cases usageLimit with
    | false =>
      refine ⟨w.resume, .keep _, move_sends (setGates_resume ended) ?_⟩
      exact hresume _
    | true =>
      refine ⟨_, move_parkUsageLimit
        (w := { w with rateLimitRecoveryPending := w.hasChatgptAccount }) henab,
        move_sends (setGates_resume ended) ?_⟩
      exact hresume _
  | rateLimitSnapshot signal =>
    cases signal with
    | exhausted => exact ⟨_, .keep _, .keep _⟩
    | other => exact ⟨_, .keep _, .keep _⟩
    | available =>
      simp only [WidgetEvent.sendMarks, WidgetEvent.sends, WidgetOp.sends, WidgetOp.apply,
        onRateLimitSnapshot]
      split_ifs
      · exact ⟨_, .keep _, move_sends rfl rfl⟩
      · exact ⟨_, move_clear (w.setSuppressed false), move_sends rfl rfl⟩
      · exact ⟨_, .keep _, .keep _⟩
  | finishRateLimitRecovery waiting =>
    simp only [WidgetEvent.sendMarks, WidgetEvent.sends, WidgetOp.sends, WidgetOp.apply,
      ChatWidget.finishRateLimitRecovery]
    by_cases hidle : (waiting || !w.rateLimitRecoveryPending) = true
    · simp only [hidle, Bool.true_or, if_true]
      exact ⟨_, .keep _, .keep _⟩
    · by_cases hparked :
          (w.marathonRecoveryControllerEnabled && w.resume.turn.isSome) = true
      · simp only [hidle, hparked]
        exact ⟨_, .keep _, .keep _⟩
      · simp only [hidle, hparked]
        exact ⟨_, .keep _, move_sends rfl rfl⟩
  | submitInput message planStreaming onlyShellCommands =>
    refine ⟨_, move_clear w, ?_⟩
    simp only [WidgetEvent.sendMarks, WidgetEvent.sends, WidgetOp.sends, WidgetOp.apply,
      ChatWidget.submitInput]
    generalize w.clearPendingUsageLimitResumeTurn = cleared
    by_cases hempty : message.isEmpty = true
    · simp only [hempty, Bool.true_or, if_true]
      exact .keep _
    rw [Bool.not_eq_true] at hempty
    simp only [hempty, Bool.false_or, Bool.false_eq_true, if_false]
    split_ifs
    · exact .keep _
    · exact move_queueUserMessage env cleared message .plain
  | queueInput message action =>
    exact ⟨_, move_clear w, move_queueUserMessage env _ message action⟩
  | sendNextQueuedInput => exact ⟨_, .keep _, move_sends rfl rfl⟩
  | setGates gates => exact ⟨_, .keep _, setGates_resume (w := w) gates ▸ .keep _⟩
  | turnStarted threadId turnId started =>
    refine ⟨w.resume, .keep _, ?_⟩
    have hresume : (w.onTurnStarted threadId turnId started).resume = w.resume := by
      unfold onTurnStarted
      simp only [setGates_resume]
      split_ifs <;> rfl
    exact hresume ▸ .keep _
  | turnCompleted threadId turnId status =>
    refine ⟨w.resume, .keep _, ?_⟩
    have hresume : (w.maybeCompleteUsageLimitResume threadId turnId status).resume = w.resume := by
      unfold maybeCompleteUsageLimitResume
      split
      · split_ifs <;> rfl
      · rfl
    exact hresume ▸ .keep _
  | _ => exact ⟨_, .keep _, .keep _⟩

theorem WidgetEvent.moves (env : Submissions) {w : ChatWidget}
    (henab : w.marathonRecoveryControllerEnabled = true) (e : WidgetEvent) :
    ∃ p, Move w.resume (e.gateMarks env w) p ∧
      Move p (e.sendMarks env w) (e.apply env w).resume := by
  cases e with
  | widget op => exact op.moves env henab
  | authIdentityChanged =>
    refine ⟨_, .keep _, ?_⟩
    have hresume : w.handleAuthIdentityChanged.resume = w.resume :=
      ChatWidget.handleAuthIdentityChanged_resume
    exact hresume ▸ .keep _
  | deferAuthReload attempt => exact ⟨_, .keep _, .keep _⟩
  | elsewhere other => exact ⟨_, .keep _, .keep _⟩
  | authReloadCompleted identityChanged =>
    exact ⟨_, ChatWidget.move_openReloadGate (w := { w with pendingAuthReloadAttempt := none })
      henab identityChanged, ChatWidget.move_sends rfl rfl⟩
  | release recoveryId threadId =>
    by_cases hrel : w.releasable recoveryId threadId = true
    · have hchecks := hrel
      simp only [ChatWidget.releasable, Bool.and_eq_true, Bool.or_eq_true, beq_iff_eq,
        Option.isNone_iff_eq_none] at hchecks
      obtain ⟨⟨⟨⟨⟨-, hturn⟩, hrelo⟩, hwait⟩, hthread⟩, hid⟩ := hchecks
      simp only [gateMarks, sendMarks, sends, apply, ChatWidget.releaseUsageLimitResumeTurn,
        hrel, if_true]
      exact ⟨_, .release ⟨hturn, hwait⟩ hrelo hthread hid, ChatWidget.move_sends rfl rfl⟩
    · simp only [gateMarks, sendMarks, sends, apply, ChatWidget.releaseUsageLimitResumeTurn,
        hrel]
      exact ⟨_, .keep _, .keep _⟩

variable {p p' : PendingResume} {ms : List Mark}

theorem Move.isParked_before (hmove : Move p ms p') (h : p'.IsParked) :
    (p.IsParked ∧ p.recoveryId = p'.recoveryId) ∨ ∃ turn, .parked p'.recoveryId turn ∈ ms := by
  cases hmove with
  | keep => exact .inl ⟨h, rfl⟩
  | clear => exact absurd h PendingResume.not_isParked_none
  | park turn recoveryId threadId turnId idle => exact .inr ⟨turn, List.mem_singleton_self _⟩
  | reload identityChanged => exact .inl ⟨⟨h.turn, h.waiting⟩, rfl⟩
  | release parked reloaded thread matching => cases h.waiting
  | submit pending released => cases h.turn

theorem Move.eq_or_not_isParked (hmove : Move p ms p')
    (h : p.IsParked) (hms : ∀ changed, .reloaded changed ∉ ms) : p' = p ∨ ¬ p'.IsParked := by
  cases hmove with
  | keep => exact .inl rfl
  | clear => exact .inr PendingResume.not_isParked_none
  | park turn recoveryId threadId turnId idle =>
    have hturn := h.turn
    rw [idle] at hturn
    cases hturn
  | reload identityChanged => exact absurd (List.mem_singleton_self _) (hms identityChanged)
  | release parked reloaded thread matching => exact .inr fun h' => by cases h'.waiting
  | submit pending released => exact .inr fun h' => by cases h'.turn

theorem WidgetEvent.eq_submitted_of_mem_sendMarks {env : Submissions} {w : ChatWidget}
    {e : WidgetEvent} {m : Mark} (h : m ∈ e.sendMarks env w) : ∃ turn, m = .submitted turn := by
  obtain ⟨turn, -, rfl⟩ := Option.map_eq_some_iff.1 (Option.mem_toList.1 h)
  exact ⟨turn, rfl⟩

theorem WidgetOp.reloaded_not_mem_gateMarks {env : Submissions} {w : ChatWidget} (op : WidgetOp)
    (changed : Bool) : .reloaded changed ∉ (WidgetEvent.widget op).gateMarks env w := by
  intro h
  cases op with
  | rateLimitError usageLimit ended =>
    cases usageLimit with
    | false => cases h
    | true =>
      obtain ⟨turn, -, heq⟩ := Option.map_eq_some_iff.1 (Option.mem_toList.1 h)
      cases heq
  | _ => cases h

theorem WidgetOp.apply_resume (env : Submissions) {w : ChatWidget}
    (henab : w.marathonRecoveryControllerEnabled = true) (h : w.resume.IsParked) (op : WidgetOp) :
    (op.apply env w).resume = w.resume ∨ ¬ (op.apply env w).resume.IsParked := by
  obtain ⟨p, hgate, hsend⟩ := op.moves env henab
  rcases hgate.eq_or_not_isParked h op.reloaded_not_mem_gateMarks with rfl | hunp
  · refine hsend.eq_or_not_isParked h ?_
    intro changed hmem
    obtain ⟨turn, heq⟩ := WidgetEvent.eq_submitted_of_mem_sendMarks hmem
    cases heq
  · refine .inr fun hparked => ?_
    rcases hsend.isParked_before hparked with ⟨hbefore, -⟩ | ⟨turn, hmem⟩
    · exact hunp hbefore
    · obtain ⟨turn', heq⟩ := WidgetEvent.eq_submitted_of_mem_sendMarks hmem
      cases heq

/-! ### The order of the marks -/

def Mark.Inner : Mark → Prop
  | .reloaded _ | .released _ _ _ => True
  | .parked _ _ | .submitted _ => False

/-- The marks end with the parking of `turn` and `since`, among which is neither a parking nor a
submission. -/
structure ParkedSince (ms : List Mark) (recoveryId : Option String) (turn : UserMessage)
    (since : List Mark) : Prop where
  split : ∃ before, ms = before ++ .parked recoveryId turn :: since
  inner : ∀ m ∈ since, m.Inner

/-- A release of `recoveryId`, for no thread or the right one, after a reload that reported a
change. -/
def Released (recoveryId : Option String) (since : List Mark) : Prop :=
  ∃ id threadId current before after, recoveryId = some id ∧ (threadId = none ∨ current = threadId) ∧
    since = before ++ .released id threadId current :: after ∧ .reloaded true ∈ before

/-- What was parked last is `turn`; it was not submitted since, and was released after a reload that
reported a change. -/
def Authorized (ms : List Mark) (turn : UserMessage) : Prop :=
  ∃ recoveryId since, ParkedSince ms recoveryId turn since ∧ Released recoveryId since

structure Traced (ms : List Mark) (p : PendingResume) : Prop where
  pending : ∀ turn, p.turn = some turn → ∃ since, ParkedSince ms p.recoveryId turn since ∧
    (p.authReloaded = true → .reloaded true ∈ since) ∧
    (p.waitingForAuthReload = false → Released p.recoveryId since)
  submitted : ∀ before turn after, ms = before ++ .submitted turn :: after → Authorized before turn

theorem ParkedSince.snoc {ms since : List Mark} {recoveryId : Option String} {turn : UserMessage}
    {m : Mark} (h : ParkedSince ms recoveryId turn since) (hm : m.Inner) :
    ParkedSince (ms ++ [m]) recoveryId turn (since ++ [m]) := by
  obtain ⟨before, rfl⟩ := h.split
  refine ⟨⟨before, by simp⟩, ?_⟩
  intro m' hm'
  rcases List.mem_append.1 hm' with hold | hnew
  · exact h.inner m' hold
  · rw [List.mem_singleton.1 hnew]
    exact hm

theorem Released.snoc {recoveryId : Option String} {since : List Mark} (m : Mark)
    (h : Released recoveryId since) : Released recoveryId (since ++ [m]) := by
  obtain ⟨id, threadId, current, before, after, hid, hthread, rfl, hrel⟩ := h
  exact ⟨id, threadId, current, before, after ++ [m], hid, hthread, by simp, hrel⟩

theorem snoc_eq_split {ms before after : List Mark} {m x : Mark}
    (h : ms ++ [m] = before ++ x :: after) :
    (ms = before ∧ m = x) ∨ ∃ after', ms = before ++ x :: after' := by
  rcases List.eq_nil_or_concat after with rfl | ⟨after', last, rfl⟩
  · obtain ⟨hms, hm⟩ := List.append_inj' h rfl
    exact .inl ⟨hms, List.singleton_inj.1 hm⟩
  · rw [List.concat_eq_append, ← List.cons_append, ← List.append_assoc] at h
    exact .inr ⟨after', (List.append_inj' h rfl).1⟩

theorem Traced.submitted_snoc {p : PendingResume} (h : Traced ms p) {m : Mark}
    (hm : ∀ turn, m ≠ .submitted turn) :
    ∀ before turn after, ms ++ [m] = before ++ .submitted turn :: after →
      Authorized before turn := by
  intro before turn after heq
  rcases snoc_eq_split heq with ⟨-, hlast⟩ | ⟨after', hms⟩
  · exact absurd hlast (hm turn)
  · exact h.submitted before turn after' hms

theorem Traced.move {ms new : List Mark} (h : Traced ms p)
    (hmove : Move p new p') : Traced (ms ++ new) p' := by
  cases hmove with
  | keep => simpa using h
  | clear =>
    rw [List.append_nil]
    exact ⟨nofun, h.submitted⟩
  | park turn recoveryId threadId turnId idle =>
    refine ⟨?_, h.submitted_snoc nofun⟩
    rintro _ ⟨⟩
    exact ⟨[], ⟨⟨ms, rfl⟩, nofun⟩, nofun, nofun⟩
  | reload identityChanged =>
    refine ⟨?_, h.submitted_snoc nofun⟩
    intro turn hturn
    obtain ⟨since, hsince, hrelo, hrel⟩ := h.pending turn hturn
    refine ⟨_, hsince.snoc trivial, ?_,
      fun hopen => (hrel hopen).snoc _⟩
    -- the gate is open because of this reload or an earlier one
    intro hgate
    rcases (Bool.or_eq_true _ _).mp hgate with hnow | hbefore
    · rw [((Bool.and_eq_true _ _).mp hnow).1]
      simp
    · exact List.mem_append_left _ (hrelo hbefore)
  | @release recoveryId threadId current parked reloaded thread matching =>
    refine ⟨?_, h.submitted_snoc nofun⟩
    intro turn hturn
    obtain ⟨since, hsince, hrelo, -⟩ := h.pending turn hturn
    refine ⟨_, hsince.snoc trivial,
      fun hgate => List.mem_append_left _ (hrelo hgate), fun _ => ?_⟩
    exact ⟨recoveryId, threadId, current, since, [], matching, thread, rfl, hrelo reloaded⟩
  | @submit turn pending released =>
    refine ⟨nofun, ?_⟩
    intro before turn' after heq
    rcases snoc_eq_split heq with ⟨rfl, hlast⟩ | ⟨after', hms⟩
    · cases hlast
      obtain ⟨since, hsince, -, hrel⟩ := h.pending turn pending
      exact ⟨_, since, hsince, hrel released⟩
    · exact h.submitted before turn' after' hms

/-! ### The controller stays -/

namespace ChatWidget

variable (env : Submissions) (w : ChatWidget)

@[simp] theorem maybeDispatchDeferredAuthReload_enabled :
    w.maybeDispatchDeferredAuthReload.marathonRecoveryControllerEnabled =
      w.marathonRecoveryControllerEnabled := by
  unfold maybeDispatchDeferredAuthReload
  split
  · rfl
  · cases w.pendingAuthReloadAttempt <;> rfl

@[simp] theorem setGates_enabled (gates : Gates) :
    (w.setGates gates).marathonRecoveryControllerEnabled = w.marathonRecoveryControllerEnabled := by
  simp [setGates]

@[simp] theorem sendResume_enabled (turn : UserMessage) :
    (w.sendResume env turn).2.marathonRecoveryControllerEnabled =
      w.marathonRecoveryControllerEnabled := by
  unfold sendResume activateResume
  rcases env.submit w.gates turn with ⟨_ | _, gates⟩
  · rfl
  · simp only [if_true]
    split <;> rfl

@[simp] theorem maybeSendNextQueuedInput_enabled :
    (w.maybeSendNextQueuedInput env).2.marathonRecoveryControllerEnabled =
      w.marathonRecoveryControllerEnabled := by
  unfold maybeSendNextQueuedInput
  split_ifs
  · rfl
  · rfl
  unfold sendNext
  cases w.pendingServerOverloadedResumeTurn with
  | some turn => rfl
  | none =>
    simp only
    split_ifs
    · rfl
    · rfl
    cases w.resume.turn with
    | some turn => exact sendResume_enabled env w turn
    | none => rfl

@[simp] theorem parkUsageLimit_enabled :
    w.parkUsageLimit.marathonRecoveryControllerEnabled = w.marathonRecoveryControllerEnabled := by
  unfold parkUsageLimit
  split
  · unfold park
    simp only
    split <;> rfl
  · rfl

@[simp] theorem clearPendingUsageLimitResumeTurn_enabled :
    w.clearPendingUsageLimitResumeTurn.marathonRecoveryControllerEnabled =
      w.marathonRecoveryControllerEnabled := by
  unfold clearPendingUsageLimitResumeTurn
  split_ifs <;> rfl

@[simp] theorem queueUserMessage_enabled (message : UserMessage) (action : QueuedInputAction) :
    (w.queueUserMessage env message action).marathonRecoveryControllerEnabled =
      w.marathonRecoveryControllerEnabled := by
  unfold queueUserMessage
  split_ifs <;> simp

@[simp] theorem openReloadGate_enabled (identityChanged : Bool) :
    (w.openReloadGate identityChanged).marathonRecoveryControllerEnabled =
      w.marathonRecoveryControllerEnabled := by
  unfold openReloadGate
  split_ifs <;> rfl

end ChatWidget

theorem WidgetOp.apply_enabled (env : Submissions) (w : ChatWidget) (op : WidgetOp) :
    (op.apply env w).marathonRecoveryControllerEnabled = w.marathonRecoveryControllerEnabled := by
  cases op with
  | rateLimitError usageLimit ended =>
    cases usageLimit <;> simp only [WidgetOp.apply, ChatWidget.onRateLimitError, ChatWidget.onError] <;>
      split_ifs <;> simp [ChatWidget.send]
  | rateLimitSnapshot signal =>
    cases signal <;> simp only [WidgetOp.apply, ChatWidget.onRateLimitSnapshot] <;>
      (try split_ifs) <;> simp [ChatWidget.setSuppressed]
  | finishRateLimitRecovery waiting =>
    simp only [WidgetOp.apply, ChatWidget.finishRateLimitRecovery]
    split_ifs <;> simp
  | submitInput message planStreaming onlyShellCommands =>
    simp only [WidgetOp.apply, ChatWidget.submitInput]
    split_ifs <;> simp
  | queueInput message action => simp [WidgetOp.apply, ChatWidget.queueInput]
  | sendNextQueuedInput => simp [WidgetOp.apply]
  | setGates gates => simp [WidgetOp.apply]
  | turnStarted threadId turnId started =>
    simp only [WidgetOp.apply, ChatWidget.onTurnStarted, ChatWidget.setGates_enabled]
    split_ifs <;> rfl
  | turnCompleted threadId turnId status =>
    simp only [WidgetOp.apply, ChatWidget.maybeCompleteUsageLimitResume]
    split
    · split_ifs <;> rfl
    · rfl
  | _ => rfl

theorem WidgetEvent.apply_enabled (env : Submissions) (w : ChatWidget) (e : WidgetEvent) :
    (e.apply env w).marathonRecoveryControllerEnabled = w.marathonRecoveryControllerEnabled := by
  cases e with
  | widget op => exact op.apply_enabled env w
  | authIdentityChanged =>
    simp only [WidgetEvent.apply, ChatWidget.handleAuthIdentityChanged]
    split_ifs <;> rfl
  | authReloadCompleted identityChanged =>
    simp [WidgetEvent.apply, ChatWidget.onAuthReloadCompleted]
  | release recoveryId threadId =>
    simp only [WidgetEvent.apply, ChatWidget.releaseUsageLimitResumeTurn]
    split_ifs
    · simp [ChatWidget.setSuppressed]
    · rfl
  | _ => rfl

theorem traced_run {w : ChatWidget} (henab : w.marathonRecoveryControllerEnabled = true)
    (hidle : w.resume = .none) (is : List (WidgetEvent × Submissions)) :
    Traced (marks w is) (widgetMachine.run w is).resume := by
  have hrun := Machine.invariant_history_nil (M := widgetMachine)
    (I := fun h w => w.marathonRecoveryControllerEnabled = true ∧
      Traced (h.map Prod.snd).flatten w.resume) ?_ is (s := w) ?_
  · exact hrun.2
  · rintro h v ⟨e, env⟩ ⟨hv, htraced⟩
    refine ⟨(e.apply_enabled env v).trans hv, ?_⟩
    obtain ⟨p, hgate, hsend⟩ := e.moves env hv
    have hmoved := (htraced.move hgate).move hsend
    simpa [widgetMachine, widgetStep] using hmoved
  · refine ⟨henab, ?_⟩
    rw [hidle]
    exact ⟨nofun, by simp⟩

theorem Authorized.parked_between {before between : List Mark} {turn turn' : UserMessage}
    (h : Authorized (before ++ .submitted turn :: between) turn') :
    ∃ recoveryId, .parked recoveryId turn' ∈ between := by
  obtain ⟨recoveryId, since, hsince, -⟩ := h
  obtain ⟨older, hsplit⟩ := hsince.split
  refine ⟨recoveryId, ?_⟩
  rcases List.append_eq_append_iff.1 hsplit with ⟨skipped, -, hskip⟩ | ⟨skipped, -, hskip⟩
  · cases skipped with
    | nil => cases hskip
    | cons m skipped =>
      rw [(List.cons.inj hskip).2]
      simp
  · cases skipped with
    | nil => cases hskip
    | cons m skipped =>
      -- the submission would stand among the marks since the parking
      refine absurd (hsince.inner (.submitted turn) ?_) id
      rw [(List.cons.inj hskip).2]
      simp

end CodexMarathon.Tui
