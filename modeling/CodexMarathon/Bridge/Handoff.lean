/-
**Releases from the bridge to the widget.**

The bridge sends a command, and again when a release is requested again after a timeout; the widget
decides and acknowledges.  The widget has no memory of what it has released: a repeated command
finds its gate shut and is rejected.
-/

import CodexMarathon.Bridge.Release
import CodexMarathon.Tui.Continuation

namespace CodexMarathon.Bridge

open Adapter Tui

def acknowledge (command : ReleaseCommand) (released : Bool) : ReleaseAck where
  recoveryId := command.recoveryId
  threadId := command.threadId
  transitionId := command.transitionId
  expectedGeneration := command.expectedGeneration
  outcome := if released then "released" else "rejected"
  errorCode := if released then none else some "tui_recovery_gate_rejected"
  errorMessage :=
    if released then none
    else some "the active Codex TUI has no matching identity-gated pending recovery"

structure Handoff where
  bridge : BridgeState
  commands : List ReleaseCommand
  acks : List ReleaseAck
  widget : ChatWidget

/-- The widget handles its commands in order; `notified` says whether the acknowledgement gets
through. -/
inductive HandoffOp
  | release (params : RecoveryReleaseParams)
  | timeout (params : RecoveryReleaseParams) (waiterId : UInt64)
  | command (notified : Bool)
  | ack
  | widget (e : WidgetEvent)

inductive HandoffAnswer
  | entered (entered : Entered)
  | expired (result : RecoveryReleaseResult)
  | acknowledged (ack : ReleaseAck)
  | resolved (waiters : List UInt64) (result : RecoveryReleaseResult)
  | nothing
deriving DecidableEq

def Entered.command : Entered → Option ReleaseCommand
  | .answered _ => none
  | .waiting _ command => command

def handoffStep (h : Handoff) (i : HandoffOp × Submissions) : Handoff × HandoffAnswer :=
  match i.1 with
  | .release params =>
    let (entered, bridge) := h.bridge.enter params
    ({ h with bridge, commands := h.commands ++ entered.command.toList }, .entered entered)
  | .timeout params waiterId =>
    let (result, bridge) := h.bridge.expire params waiterId
    ({ h with bridge }, .expired result)
  | .command notified =>
    match h.commands with
    | [] => (h, .nothing)
    | command :: commands =>
      let (released, widget) :=
        h.widget.releaseUsageLimitResumeTurn i.2 command.recoveryId command.threadId
      let ack := acknowledge command released
      ({ h with widget, commands, acks := if notified then h.acks ++ [ack] else h.acks },
        .acknowledged ack)
  | .ack =>
    match h.acks with
    | [] => (h, .nothing)
    | ack :: acks =>
      let (waiters, bridge) := h.bridge.resolve ack
      ({ h with bridge, acks }, .resolved waiters ack.result)
  | .widget e => ({ h with widget := e.apply i.2 h.widget }, .nothing)

def machine : Machine Handoff (HandoffOp × Submissions) HandoffAnswer := ⟨handoffStep⟩

/-- The continuation is parked for the command, a reload has reported a change, and the thread is
the right one. -/
structure Awaits (w : ChatWidget) (command : ReleaseCommand) : Prop where
  enabled : w.marathonRecoveryControllerEnabled = true
  parked : w.resume.IsParked
  reloaded : w.resume.authReloaded = true
  recoveryId : w.resume.recoveryId = some command.recoveryId
  thread : command.threadId = none ∨ w.threadId = command.threadId

variable {command : ReleaseCommand}

theorem releasable_iff {w : ChatWidget} :
    w.releasable command.recoveryId command.threadId = true ↔ Awaits w command := by
  simp only [ChatWidget.releasable, Bool.and_eq_true, Bool.or_eq_true, beq_iff_eq,
    Option.isNone_iff_eq_none]
  constructor
  · rintro ⟨⟨⟨⟨⟨henab, hturn⟩, hrel⟩, hwait⟩, hthread⟩, hid⟩
    exact ⟨henab, ⟨hturn, hwait⟩, hrel, hid, hthread⟩
  · intro h
    exact ⟨⟨⟨⟨⟨h.enabled, h.parked.turn⟩, h.reloaded⟩, h.parked.waiting⟩, h.thread⟩, h.recoveryId⟩

def ReleaseAck.Succeeds (ack : ReleaseAck) : Prop :=
  ack.outcome = "released" ∨ ack.outcome = "already_released"

theorem succeeds_acknowledge_iff {released : Bool} :
    (acknowledge command released).Succeeds ↔ released = true := by
  cases released <;> simp [ReleaseAck.Succeeds, acknowledge]

theorem acknowledged_command {h : Handoff}
    (hnext : h.commands.head? = some command) (notified : Bool) (env : Submissions) :
    (machine.step h (.command notified, env)).2 = .acknowledged
      (acknowledge command (h.widget.releasable command.recoveryId command.threadId)) := by
  obtain ⟨commands, hcom⟩ : ∃ commands, h.commands = command :: commands := by
    cases hlist : h.commands with
    | nil => rw [hlist] at hnext; cases hnext
    | cons c commands =>
      rw [hlist] at hnext
      cases hnext
      exact ⟨commands, rfl⟩
  rw [← ChatWidget.releaseUsageLimitResumeTurn_fst env]
  simp only [machine, handoffStep, hcom]

def ParkedUnder (id : String) (p : PendingResume) : Prop :=
  p.IsParked ∧ p.recoveryId = some id

def HandoffOp.event (h : Handoff) : HandoffOp → Option WidgetEvent
  | .command _ => h.commands.head?.map fun command => .release command.recoveryId command.threadId
  | .widget e => some e
  | _ => none

theorem widget_step (h : Handoff) (i : HandoffOp × Submissions) : (machine.step h i).1.widget =
      match i.1.event h with
      | some e => e.apply i.2 h.widget
      | none => h.widget := by
  obtain ⟨op, env⟩ := i
  cases op with
  | command notified =>
    simp only [machine, handoffStep, HandoffOp.event]
    cases h.commands <;> rfl
  | ack =>
    simp only [machine, handoffStep, HandoffOp.event]
    cases h.acks <;> rfl
  | _ => rfl

def ParksAgain (id : String) (h : Handoff) (i : HandoffOp × Submissions) : Prop :=
  ∃ e turn, i.1.event h = some e ∧ .parked (some id) turn ∈ e.gateMarks i.2 h.widget

/-- The controller is listening, and nothing is parked under the recovery id. -/
def NotParkedUnder (id : String) (h : Handoff) : Prop :=
  h.widget.marathonRecoveryControllerEnabled = true ∧ ¬ ParkedUnder id h.widget.resume

theorem notParkedUnder_step {id : String} (h : Handoff) (i : HandoffOp × Submissions)
    (hquiet : ¬ ParksAgain id h i) (hnot : NotParkedUnder id h) :
    NotParkedUnder id (machine.step h i).1 := by
  rw [NotParkedUnder, widget_step]
  cases hevent : i.1.event h with
  | none => exact hnot
  | some e =>
    refine ⟨(e.apply_enabled i.2 h.widget).trans hnot.1, ?_⟩
    rintro ⟨hparked, hid⟩
    obtain ⟨p, hgate, hsend⟩ := e.moves i.2 hnot.1
    rcases hsend.isParked_before hparked with ⟨hbet, hsame⟩ | ⟨turn, hturn⟩
    · rw [← hsame] at hid
      rcases hgate.isParked_before hbet with ⟨hbefore, hsame'⟩ | ⟨turn, hturn⟩
      · exact hnot.2 ⟨hbefore, hsame'.trans hid⟩
      · exact hquiet ⟨e, turn, hevent, hid ▸ hturn⟩
    · obtain ⟨turn', heq⟩ := WidgetEvent.eq_submitted_of_mem_sendMarks hturn
      cases heq

structure Accepts (h : Handoff) (i : HandoffOp × Submissions) (command : ReleaseCommand) : Prop where
  handles : ∃ notified, i.1 = .command notified
  next : h.commands.head? = some command
  released :
    (h.widget.releaseUsageLimitResumeTurn i.2 command.recoveryId command.threadId).1 = true

theorem Accepts.notParkedUnder {h : Handoff} {i : HandoffOp × Submissions} (hacc : Accepts h i command) :
    NotParkedUnder command.recoveryId (machine.step h i).1 := by
  obtain ⟨notified, hop⟩ := hacc.handles
  have hrel := hacc.released
  rw [ChatWidget.releaseUsageLimitResumeTurn_fst] at hrel
  have hawaits := releasable_iff.1 hrel
  have hevent : i.1.event h = some (.release command.recoveryId command.threadId) := by
    rw [hop, HandoffOp.event, hacc.next]
    rfl
  rw [NotParkedUnder, widget_step, hevent]
  refine ⟨(WidgetEvent.apply_enabled i.2 h.widget _).trans hawaits.enabled, ?_⟩
  rintro ⟨hparked, -⟩
  change (h.widget.releaseUsageLimitResumeTurn i.2 command.recoveryId
    command.threadId).2.resume.IsParked at hparked
  rw [ChatWidget.releaseUsageLimitResumeTurn, if_pos hrel] at hparked
  refine ChatWidget.maybeSendNextQueuedInput_not_isParked ?_ hparked
  exact fun h => by cases h.waiting

theorem parked_again {h : Handoff} {i : HandoffOp × Submissions}
    (hacc : Accepts h i command) {is : List (HandoffOp × Submissions)}
    (hawaits : Awaits (machine.run (machine.step h i).1 is).widget command) :
    machine.Once (ParksAgain command.recoveryId) (machine.step h i).1 is := by
  by_contra hnever
  have hnot := Machine.invariant_run_of_not_once notParkedUnder_step hnever hacc.notParkedUnder
  exact hnot.2 ⟨hawaits.parked, hawaits.recoveryId⟩

/-- **A repeated command is acknowledged with success exactly when the continuation awaits it
again.** -/
theorem release_repeated_iff {h : Handoff} {i : HandoffOp × Submissions} {command : ReleaseCommand}
    (haccepts : Accepts h i command) (is : List (HandoffOp × Submissions))
    (hnext : (machine.run (machine.step h i).1 is).commands.head? = some command)
    (notified : Bool) (env : Submissions) :
    ((∃ ack, (machine.step (machine.run (machine.step h i).1 is) (.command notified, env)).2 =
        .acknowledged ack ∧ ack.Succeeds) ↔
      Awaits (machine.run (machine.step h i).1 is).widget command) ∧
    (Awaits (machine.run (machine.step h i).1 is).widget command →
      machine.Once (ParksAgain command.recoveryId) (machine.step h i).1 is) := by
  refine ⟨?_, parked_again haccepts⟩
  rw [acknowledged_command hnext, ← releasable_iff]
  constructor
  · rintro ⟨ack, hack, hsuc⟩
    cases hack
    exact succeeds_acknowledge_iff.1 hsuc
  · intro hrel
    exact ⟨_, rfl, succeeds_acknowledge_iff.2 hrel⟩

def releaseSample : RecoveryReleaseParams where
  recoveryId := "usage-limit:thread:turn"
  threadId := some "thread"
  transitionId := "t"
  expectedGeneration := 2

def Handoff.sample : Handoff :=
  machine.run { bridge := .new, commands := [], acks := [], widget := .sample }
    [(.widget (.authReloadCompleted true), .sample), (.release releaseSample, .sample)]

theorem accepts_sample : Accepts .sample (.command false, .sample) (commandOf releaseSample) :=
  ⟨⟨false, rfl⟩, by decide, by decide⟩

/-- The turn fails again and is parked under the same recovery id; the repeated command releases it.
-/
theorem release_repeated_parked_again :
    let is : List (HandoffOp × Submissions) :=
      [(.timeout releaseSample 1, .sample),
        (.widget (.widget (.rateLimitError true ChatWidget.sample.gates)), .sample),
        (.widget (.authReloadCompleted true), .sample), (.release releaseSample, .sample)]
    let h := machine.run (machine.step .sample (.command false, .sample)).1 is
    Accepts .sample (.command false, .sample) (commandOf releaseSample) ∧
      h.commands.head? = some (commandOf releaseSample) ∧
      Awaits h.widget (commandOf releaseSample) ∧
      ∃ ack, (machine.step h (.command true, .sample)).2 = .acknowledged ack ∧ ack.Succeeds := by
  intro is h
  have hnext : h.commands.head? = some (commandOf releaseSample) := by decide
  have hawaits : Awaits h.widget (commandOf releaseSample) :=
    ⟨by decide, ⟨by decide, by decide⟩, by decide, by decide, .inr (by decide)⟩
  refine ⟨accepts_sample, hnext, hawaits, ?_⟩
  exact (release_repeated_iff accepts_sample is hnext true .sample).1.2 hawaits

/-- The acknowledgement is lost and the release requested again: widget and bridge reject it. -/
theorem repeated_release_rejected :
    Accepts .sample (.command false, .sample) (commandOf releaseSample) ∧
      (machine.history (machine.step .sample (.command false, .sample)).1
        [(.timeout releaseSample 1, .sample), (.release releaseSample, .sample),
          (.command true, .sample), (.ack, .sample)]).map Prod.snd =
      [.expired (timeoutResult releaseSample),
        .entered (.waiting 2 (some (commandOf releaseSample))),
        .acknowledged (acknowledge (commandOf releaseSample) false),
        .resolved [2] (acknowledge (commandOf releaseSample) false).result] ∧
      (acknowledge (commandOf releaseSample) false).outcome = "rejected" ∧
      (acknowledge (commandOf releaseSample) false).result.outcome = .rejected :=
  ⟨accepts_sample, by decide, by decide, by decide⟩

end CodexMarathon.Bridge
