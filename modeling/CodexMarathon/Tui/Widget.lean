/-
**The parked continuation of the chat widget.**

After a turn that failed with a usage limit the widget parks one synthetic turn.  When a recovery
controller is listening, it waits for a reload that reports a change of identity and for the
controller's release.  The rest of the widget enters as the `Gates` that hold input back and the
`Submissions` that say what becomes of a message.
-/

import CodexMarathon.Primitives
import CodexMarathon.Lib.Machine

namespace CodexMarathon.Tui

/-! ### The widget -/

abbrev UserMessage : Type := String

inductive QueuedInputAction
  | plain
  | literal
  | parseSlash
  | runShell
deriving DecidableEq, Repr

structure QueuedUserMessage where
  message : UserMessage
  action : QueuedInputAction
deriving DecidableEq, Repr

/-- Whether the queue goes on after a message that ran without a turn. -/
inductive QueueDrain
  | continue
  | stop
deriving DecidableEq, Repr

structure Gates where
  misalignmentPolicyViolation : Bool
  recoveredQueue : Bool
  unconfirmedMessages : Bool
  blocksDirectInput : Bool
  pendingImageSubmission : Bool
  userTurnPendingStart : Bool
  agentTurnRunning : Bool
  reviewMode : Bool
  taskRunning : Bool
  mcpStartup : Bool
deriving DecidableEq, Repr

def Gates.userTurnPendingOrRunning (g : Gates) : Bool :=
  g.pendingImageSubmission || g.userTurnPendingStart || g.agentTurnRunning || g.reviewMode
    || (g.taskRunning && !g.mcpStartup)

/-- Whether a message is accepted, whether a queued command stops the queue, and the gates
afterwards. -/
structure Submissions where
  submit : Gates → UserMessage → Bool × Gates
  drain : Gates → QueuedUserMessage → QueueDrain × Gates

/-- The turn, the correlation captured when it was parked, and the two gates. -/
structure PendingResume where
  turn : Option UserMessage
  recoveryId : Option String
  threadId : Option String
  turnId : Option String
  waitingForAuthReload : Bool
  authReloaded : Bool
deriving DecidableEq, Repr

def PendingResume.none : PendingResume where
  turn := .none
  recoveryId := .none
  threadId := .none
  turnId := .none
  waitingForAuthReload := false
  authReloaded := false

structure ActiveResume where
  recoveryId : Option String
  threadId : Option String
  turnId : Option String
  dispatchTurnId : Option String
deriving DecidableEq, Repr

def ActiveResume.none : ActiveResume := ⟨.none, .none, .none, .none⟩

inductive RecoveryLifecycle
  | parked (recoveryId : String) (threadId turnId sourceAccountId : Option String) (reason : String)
  | started (recoveryId : String) (threadId turnId : Option String)
  | completed (recoveryId : String) (threadId turnId : Option String) (outcome : String)
      (errorCode : Option String)
deriving DecidableEq, Repr

inductive AppEvent
  | codexMarathonRecoveryLifecycle (event : RecoveryLifecycle)
  | authFileChanged
  | authFileChangedRetry (attempt : UInt8)
  | refreshRateLimits
deriving DecidableEq

structure ChatWidget where
  marathonRecoveryControllerEnabled : Bool
  threadId : Option String
  lastTurnId : Option String
  resumePrompt : Option String
  hasChatgptAccount : Bool
  gates : Gates
  suppressQueueAutosend : Bool
  rateLimitRecoveryPending : Bool
  queueSubmissions : Bool
  queue : List QueuedUserMessage
  pendingServerOverloadedResumeTurn : Option UserMessage
  pendingAuthReloadAttempt : Option UInt8
  resume : PendingResume
  active : ActiveResume
  events : List AppEvent
deriving DecidableEq

def defaultUsageLimitResumePrompt : String :=
  "The usage limit has been reset, so you can resume from where you left off."

namespace ChatWidget

variable (env : Submissions) (w : ChatWidget)

def usageLimitResumePrompt : Option String :=
  match w.resumePrompt with
  | some "" => none
  | some prompt => some prompt
  | none => some defaultUsageLimitResumePrompt

def send (event : AppEvent) : ChatWidget := { w with events := w.events ++ [event] }

def sendLifecycle (event : RecoveryLifecycle) : ChatWidget :=
  w.send (.codexMarathonRecoveryLifecycle event)

def drainQueue (env : Submissions) : List QueuedUserMessage → Gates →
    Bool × List QueuedUserMessage × Gates
  | [], gates => (false, [], gates)
  | next :: rest, gates =>
    if gates.userTurnPendingOrRunning then (false, next :: rest, gates)
    else
      match next.action with
      | .plain | .literal =>
        ((env.submit gates next.message).1, rest, (env.submit gates next.message).2)
      | .parseSlash | .runShell =>
        match env.drain gates next with
        | (.stop, gates) => (gates.userTurnPendingOrRunning, rest, gates)
        | (.continue, gates) => drainQueue env rest gates

def sendQueue : Bool × ChatWidget :=
  let (submitted, queue, gates) := drainQueue env w.queue w.gates
  (submitted, { w with queue, gates })

def activateResume : ChatWidget :=
  match w.marathonRecoveryControllerEnabled, w.resume.recoveryId with
  | true, some recoveryId =>
    sendLifecycle
      { w with
        active :=
          { recoveryId := some recoveryId, threadId := w.resume.threadId
            turnId := w.resume.turnId, dispatchTurnId := none } }
      (.started recoveryId w.resume.threadId w.resume.turnId)
  | _, _ => w

def sendResume (turn : UserMessage) : Bool × ChatWidget :=
  let (accepted, gates) := env.submit w.gates turn
  if accepted then
    (true,
      { (activateResume { w with gates }) with
        resume := { PendingResume.none with authReloaded := w.resume.authReloaded } })
  else (false, { w with gates, resume := { w.resume with waitingForAuthReload := false } })

/-- The end of `maybe_send_next_queued_input`, once nothing holds input back. -/
def sendNext : Bool × ChatWidget :=
  match w.pendingServerOverloadedResumeTurn with
  | some turn =>
    (true,
      { w with pendingServerOverloadedResumeTurn := none, gates := (env.submit w.gates turn).2 })
  | none =>
    if w.pendingAuthReloadAttempt.isSome then (false, w)
    else if w.resume.waitingForAuthReload && w.resume.turn.isSome then (false, w)
    else
      match w.resume.turn with
      | some turn => w.sendResume env turn
      | none => w.sendQueue env

def maybeSendNextQueuedInput : Bool × ChatWidget :=
  if w.threadId.isNone || w.gates.misalignmentPolicyViolation || w.suppressQueueAutosend
      || w.rateLimitRecoveryPending || w.gates.recoveredQueue || w.gates.unconfirmedMessages then
    (false, w)
  else if w.gates.blocksDirectInput || w.gates.userTurnPendingOrRunning then (false, w)
  else w.sendNext env

/-! ### Parking -/

def setSuppressed (suppressed : Bool) : ChatWidget :=
  { w with suppressQueueAutosend := suppressed, queueSubmissions := suppressed }

def recoveryIdOf : Option String → Option String → Option String
  | some threadId, some turnId => some ("usage-limit:" ++ threadId ++ ":" ++ turnId)
  | _, _ => none

def park (prompt : String) : ChatWidget :=
  let recoveryId := recoveryIdOf w.threadId w.lastTurnId
  let parked :=
    { w with
      resume :=
        { turn := some prompt, recoveryId, threadId := w.threadId, turnId := w.lastTurnId
          waitingForAuthReload := w.marathonRecoveryControllerEnabled, authReloaded := false } }
  match w.marathonRecoveryControllerEnabled, recoveryId with
  | true, some recoveryId =>
    parked.sendLifecycle
      (.parked recoveryId w.threadId w.lastTurnId none "usage_limit_exceeded")
  | _, _ => parked

/-- The parking of `on_rate_limit_error`: a turn that is parked already stays. -/
def parkUsageLimit : ChatWidget :=
  match w.resume.turn, w.usageLimitResumePrompt with
  | none, some prompt => (w.setSuppressed true).park prompt
  | _, _ => w.setSuppressed true

def maybeDispatchDeferredAuthReload : ChatWidget :=
  if w.gates.taskRunning then w
  else
    match w.pendingAuthReloadAttempt with
    | none => w
    | some attempt =>
      send { w with pendingAuthReloadAttempt := none }
        (if attempt ≤ 1 then .authFileChanged else .authFileChangedRetry attempt)

def setGates (gates : Gates) : ChatWidget :=
  maybeDispatchDeferredAuthReload { w with gates }

def onError (ended : Gates) : ChatWidget := ((w.setGates ended).maybeSendNextQueuedInput env).2

def onRateLimitError (usageLimit : Bool) (ended : Gates) : ChatWidget :=
  let held := { w with rateLimitRecoveryPending := w.hasChatgptAccount }
  let parked := if usageLimit then held.parkUsageLimit else held
  let failed := parked.onError env ended
  if failed.hasChatgptAccount then failed.send .refreshRateLimits else failed

def clearPendingUsageLimitResumeTurn : ChatWidget :=
  if w.resume.turn.isNone && !w.resume.waitingForAuthReload then w
  else { w with resume := .none }

def updateAccountState (hasChatgptAccount : Bool) : ChatWidget :=
  { w with rateLimitRecoveryPending := false, hasChatgptAccount }

def handleAuthIdentityChanged : ChatWidget :=
  if w.marathonRecoveryControllerEnabled && w.resume.turn.isSome
      && w.resume.waitingForAuthReload then w
  else w.setSuppressed false

def deferAuthReloadUntilIdle (attempt : UInt8) : ChatWidget :=
  { w with
    pendingAuthReloadAttempt := some ((w.pendingAuthReloadAttempt.map (min · attempt)).getD attempt) }

def openReloadGate (identityChanged : Bool) : ChatWidget :=
  if identityChanged && w.resume.turn.isSome then
    { w with
      resume :=
        { w.resume with
          authReloaded := true
          waitingForAuthReload :=
            w.marathonRecoveryControllerEnabled && w.resume.waitingForAuthReload } }
  else w

def onAuthReloadCompleted (identityChanged : Bool) : ChatWidget :=
  ((openReloadGate { w with pendingAuthReloadAttempt := none }
    identityChanged).maybeSendNextQueuedInput env).2

def releasable (recoveryId : String) (threadId : Option String) : Bool :=
  w.marathonRecoveryControllerEnabled && w.resume.turn.isSome && w.resume.authReloaded
    && w.resume.waitingForAuthReload
    && (threadId.isNone || w.threadId == threadId)
    && w.resume.recoveryId == some recoveryId

def releaseUsageLimitResumeTurn (recoveryId : String) (threadId : Option String) :
    Bool × ChatWidget :=
  if w.releasable recoveryId threadId then
    let released :=
      setSuppressed
        { w with
          resume := { w.resume with waitingForAuthReload := false }
          rateLimitRecoveryPending := false }
        false
    (true, (released.maybeSendNextQueuedInput env).2)
  else (false, w)

/-! ### Quota, input and turns -/

def holdRateLimitRecovery : ChatWidget := { w with rateLimitRecoveryPending := true }

/-- A quota that can be read again releases nothing that is parked for the controller. -/
def finishRateLimitRecovery (waitingForLunaReserve : Bool) : ChatWidget :=
  if waitingForLunaReserve || !w.rateLimitRecoveryPending then w
  else
    let finished := { w with rateLimitRecoveryPending := false }
    if w.marathonRecoveryControllerEnabled && w.resume.turn.isSome then finished
    else (finished.maybeSendNextQueuedInput env).2

inductive QuotaSignal
  | exhausted
  | available
  | other
deriving DecidableEq, Repr

/-- An available quota resumes the queued follow-ups, and drops the continuation in their favour. -/
def onRateLimitSnapshot : QuotaSignal → ChatWidget
  | .exhausted => w.setSuppressed true
  | .available =>
    if w.suppressQueueAutosend then
      let resumed := w.setSuppressed false
      let cleared :=
        if w.queue.isEmpty then resumed else resumed.clearPendingUsageLimitResumeTurn
      (cleared.maybeSendNextQueuedInput env).2
    else w.setSuppressed false
  | .other => w

def canRunNow : Bool :=
  w.threadId.isSome && !w.gates.userTurnPendingOrRunning && !w.suppressQueueAutosend
    && !w.rateLimitRecoveryPending

def queueUserMessage (message : UserMessage) (action : QueuedInputAction) : ChatWidget :=
  if w.gates.misalignmentPolicyViolation then w
  else if w.canRunNow then
    if action = .plain then { w with gates := (env.submit w.gates message).2 }
    else (maybeSendNextQueuedInput env { w with queue := w.queue ++ [⟨message, action⟩] }).2
  else { w with queue := w.queue ++ [⟨message, action⟩] }

def submitInput (message : UserMessage) (planStreaming onlyShellCommands : Bool) : ChatWidget :=
  let cleared := w.clearPendingUsageLimitResumeTurn
  if message.isEmpty then cleared
  else if cleared.threadId.isSome && !planStreaming && !cleared.suppressQueueAutosend
      && !cleared.rateLimitRecoveryPending
      && (!cleared.gates.userTurnPendingStart || cleared.gates.agentTurnRunning)
      && !(onlyShellCommands && !message.startsWith "!") then
    { cleared with gates := (env.submit cleared.gates message).2 }
  else cleared.queueUserMessage env message .plain

def queueInput (message : UserMessage) (action : QueuedInputAction) : ChatWidget :=
  w.clearPendingUsageLimitResumeTurn.queueUserMessage env message action

inductive TurnStatus
  | completed
  | interrupted
  | failed
  | inProgress
deriving DecidableEq, Repr

def TurnStatus.outcome : TurnStatus → Option String
  | .completed => some "completed"
  | .interrupted => some "interrupted"
  | .failed => some "failed"
  | .inProgress => none

def onTurnStarted (threadId turnId : String) (started : Gates) : ChatWidget :=
  let captured :=
    if w.marathonRecoveryControllerEnabled && w.active.recoveryId.isSome
        && (w.active.threadId.isNone || w.active.threadId == some threadId) then
      { w with active := { w.active with dispatchTurnId := some turnId } }
    else w
  setGates { captured with lastTurnId := some turnId } started

/-- `maybe_complete_usage_limit_resume`, for a live notification. -/
def maybeCompleteUsageLimitResume (threadId turnId : String) (status : TurnStatus) : ChatWidget :=
  match w.marathonRecoveryControllerEnabled, w.active.recoveryId, status.outcome with
  | true, some recoveryId, some outcome =>
    if (w.active.threadId.isNone || w.active.threadId == some threadId)
        && (w.active.dispatchTurnId.isNone || w.active.dispatchTurnId == some turnId) then
      sendLifecycle { w with active := .none }
        (.completed recoveryId (w.active.threadId.or (some threadId)) w.active.turnId outcome none)
    else w
  | _, _, _ => w

end ChatWidget

inductive WidgetOp
  | rateLimitError (usageLimit : Bool) (ended : Gates)
  | rateLimitSnapshot (signal : ChatWidget.QuotaSignal)
  | holdRateLimitRecovery
  | finishRateLimitRecovery (waitingForLunaReserve : Bool)
  | submitInput (message : UserMessage) (planStreaming onlyShellCommands : Bool)
  | queueInput (message : UserMessage) (action : QueuedInputAction)
  | sendNextQueuedInput
  | suppress
  | setGates (gates : Gates)
  | sessionConfigured (threadId : String)
  | turnStarted (threadId turnId : String) (started : Gates)
  | turnCompleted (threadId turnId : String) (status : ChatWidget.TurnStatus)
  | setServerOverloadedResume (turn : Option UserMessage)
  | accountUpdated (hasChatgptAccount : Bool)

def WidgetOp.apply (env : Submissions) (w : ChatWidget) : WidgetOp → ChatWidget
  | .rateLimitError usageLimit ended => w.onRateLimitError env usageLimit ended
  | .rateLimitSnapshot signal => w.onRateLimitSnapshot env signal
  | .holdRateLimitRecovery => w.holdRateLimitRecovery
  | .finishRateLimitRecovery waiting => w.finishRateLimitRecovery env waiting
  | .submitInput message planStreaming onlyShellCommands =>
    w.submitInput env message planStreaming onlyShellCommands
  | .queueInput message action => w.queueInput env message action
  | .sendNextQueuedInput => (w.maybeSendNextQueuedInput env).2
  | .suppress => w.setSuppressed true
  | .setGates gates => w.setGates gates
  | .sessionConfigured threadId => { w with threadId := some threadId }
  | .turnStarted threadId turnId started => w.onTurnStarted threadId turnId started
  | .turnCompleted threadId turnId status => w.maybeCompleteUsageLimitResume threadId turnId status
  | .setServerOverloadedResume turn => { w with pendingServerOverloadedResumeTurn := turn }
  | .accountUpdated hasChatgptAccount => w.updateAccountState hasChatgptAccount

/-! ### What keeps the continuation parked -/

structure PendingResume.IsParked (p : PendingResume) : Prop where
  turn : p.turn.isSome = true
  waiting : p.waitingForAuthReload = true

theorem PendingResume.not_isParked_none : ¬ PendingResume.none.IsParked := fun h => by cases h.turn

namespace ChatWidget

variable {env : Submissions} {w : ChatWidget}

@[simp] theorem maybeDispatchDeferredAuthReload_resume :
    w.maybeDispatchDeferredAuthReload.resume = w.resume := by
  unfold maybeDispatchDeferredAuthReload
  split
  · rfl
  · cases w.pendingAuthReloadAttempt <;> rfl

@[simp] theorem setGates_resume (gates : Gates) : (w.setGates gates).resume = w.resume := by
  simp [setGates]

@[simp] theorem handleAuthIdentityChanged_resume :
    w.handleAuthIdentityChanged.resume = w.resume := by
  unfold handleAuthIdentityChanged
  split <;> rfl

theorem maybeSendNextQueuedInput_resume (h : w.resume.IsParked) :
    (w.maybeSendNextQueuedInput env).2.resume = w.resume := by
  unfold maybeSendNextQueuedInput
  split_ifs with hheld hbusy
  · rfl
  · rfl
  unfold sendNext
  cases w.pendingServerOverloadedResumeTurn with
  | some turn => rfl
  | none =>
    split_ifs with hatt hwait
    · rfl
    · rfl
    · simp [h.turn, h.waiting] at hwait

theorem sendResume_not_isParked (turn : UserMessage) :
    ¬ (w.sendResume env turn).2.resume.IsParked := by
  unfold sendResume
  rcases env.submit w.gates turn with ⟨_ | _, gates⟩
  · exact fun h => by cases h.waiting
  · exact fun h => by cases h.turn

theorem maybeSendNextQueuedInput_not_isParked (h : ¬ w.resume.IsParked) :
    ¬ (w.maybeSendNextQueuedInput env).2.resume.IsParked := by
  unfold maybeSendNextQueuedInput
  split_ifs with hheld hbusy
  · exact h
  · exact h
  unfold sendNext
  cases w.pendingServerOverloadedResumeTurn with
  | some turn => exact h
  | none =>
    split_ifs with hatt hwait
    · exact h
    · exact h
    cases hturn : w.resume.turn with
    | some turn => exact sendResume_not_isParked turn
    | none =>
      intro hparked
      exact h hparked

theorem onAuthReloadCompleted_resume (henab : w.marathonRecoveryControllerEnabled = true)
    (h : w.resume.IsParked) (changed : Bool) : (w.onAuthReloadCompleted env changed).resume =
      { w.resume with authReloaded := changed || w.resume.authReloaded } := by
  have hgate : (openReloadGate { w with pendingAuthReloadAttempt := none } changed).resume =
      { w.resume with authReloaded := changed || w.resume.authReloaded } := by
    unfold openReloadGate
    cases changed with
    | true => simp [h.turn, henab]
    | false => rfl
  rw [onAuthReloadCompleted, maybeSendNextQueuedInput_resume, hgate]
  rw [hgate]
  exact ⟨h.turn, h.waiting⟩

theorem releaseUsageLimitResumeTurn_fst (env : Submissions) (w : ChatWidget) (recoveryId : String)
    (threadId : Option String) :
    (w.releaseUsageLimitResumeTurn env recoveryId threadId).1 = w.releasable recoveryId threadId := by
  unfold releaseUsageLimitResumeTurn
  split_ifs with h
  · exact h.symm
  · exact (Bool.not_eq_true _ ▸ h).symm

theorem releaseUsageLimitResumeTurn_resume (env : Submissions) (w : ChatWidget)
    (recoveryId : String) (threadId : Option String) :
    (w.releaseUsageLimitResumeTurn env recoveryId threadId).2.resume = w.resume ∨
      ¬ (w.releaseUsageLimitResumeTurn env recoveryId threadId).2.resume.IsParked := by
  unfold releaseUsageLimitResumeTurn
  split_ifs
  · refine .inr (maybeSendNextQueuedInput_not_isParked ?_)
    exact fun h => by cases h.waiting
  · exact .inl rfl

end ChatWidget

def Submissions.sample : Submissions where
  submit gates _ := (true, { gates with userTurnPendingStart := true })
  drain gates _ := (.continue, gates)

def ChatWidget.sample : ChatWidget :=
  ChatWidget.onRateLimitError .sample
    { marathonRecoveryControllerEnabled := true
      threadId := some "thread"
      lastTurnId := some "turn"
      resumePrompt := none
      hasChatgptAccount := true
      gates := ⟨false, false, false, false, false, false, true, false, true, false⟩
      suppressQueueAutosend := false
      rateLimitRecoveryPending := false
      queueSubmissions := false
      queue := []
      pendingServerOverloadedResumeTurn := none
      pendingAuthReloadAttempt := none
      resume := .none
      active := .none
      events := [] }
    true ⟨false, false, false, false, false, false, false, false, false, false⟩

end CodexMarathon.Tui
