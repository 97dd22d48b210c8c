/-
**Transitions on record.**

A transition of accounts is recorded as a state that is marked step by step, and as events in a
journal.  A mark does not check the state it comes from; and the journal is appended to without a
look at how the last append has ended.
-/

import CodexMarathon.Lib.Lines
import CodexMarathon.Lib.Result
import CodexMarathon.Primitives
import Mathlib.Data.List.Infix

namespace CodexMarathon

open Result

/-! ### The state of a transition -/

inductive TransitionPhase
  | idle
  | prepared
  | waitingForBoundary
  | deploying
  | commitSent
  | uncertain
  | committed
  | rejected
deriving DecidableEq

def TransitionPhase.isTerminal : TransitionPhase → Bool
  | .committed | .rejected => true
  | _ => false

structure TransitionState where
  transitionId : String
  runtimeId : String
  targetAccountId : String
  adoptedAccountId : String
  expectedGeneration : UInt64
  finalGeneration : UInt64
  phase : TransitionPhase
  prepareSent : Bool
  commitSent : Bool
  commitAttempts : ℕ
  createdAt : DateTime
  updatedAt : DateTime
  completedAt : Option DateTime
  reason : String
deriving DecidableEq

inductive TransitionMark
  | prepared
  | waitingForBoundary
  | deploying
  | commitSent
  | uncertain (reason : String)
  | committed (adoptedAccountId : String) (finalGeneration : UInt64)
  | rejected (reason : String)
deriving DecidableEq

def TransitionMark.phase : TransitionMark → TransitionPhase
  | prepared => .prepared
  | waitingForBoundary => .waitingForBoundary
  | deploying => .deploying
  | commitSent => .commitSent
  | uncertain _ => .uncertain
  | committed _ _ => .committed
  | rejected _ => .rejected

namespace TransitionState

def validate (s : TransitionState) : Except String Unit := do
  require (!(isBlank s.transitionId || isBlank s.runtimeId || isBlank s.targetAccountId))
    "missing transition identity"
  require (s.expectedGeneration ≠ 0) "expected_generation must be greater than zero"
  require (!(s.commitSent && !s.prepareSent)) "commit cannot be sent before prepare"
  if s.phase = .committed then do
    require s.commitSent "committed transition lacks commit acknowledgement"
    require (!(s.finalGeneration = 0 || s.adoptedAccountId.isEmpty))
      "committed transition lacks verified identity"
    require s.completedAt.isSome "committed transition lacks completion time"
  require (!(s.phase = .rejected && s.completedAt.isNone)) "rejected transition lacks completion time"
  require (¬ s.updatedAt < s.createdAt) "updated_at precedes created_at"
  require (!(4096 < s.reason.utf8ByteSize || s.reason.toList.any isControl)) "invalid reason"

def checked (s : TransitionState) : Except String TransitionState := s.validate.map fun _ => s

def new (transitionId runtimeId targetAccountId : String) (expectedGeneration : UInt64)
    (now : DateTime) : Except String TransitionState :=
  checked ⟨transitionId, runtimeId, targetAccountId, "", expectedGeneration, 0, .idle, false, false, 0,
    now, now, none, ""⟩

def mark (s : TransitionState) : TransitionMark × DateTime → Except String TransitionState
  | (.prepared, updatedAt) => checked { s with prepareSent := true, phase := .prepared, updatedAt }
  | (.waitingForBoundary, updatedAt) => do
    require s.prepareSent "boundary wait requires prepare"
    checked { s with phase := .waitingForBoundary, updatedAt }
  | (.deploying, updatedAt) => do
    require s.prepareSent "deployment requires prepare"
    checked { s with phase := .deploying, updatedAt }
  | (.commitSent, updatedAt) => do
    require s.prepareSent "commit requires prepare"
    checked { s with
      commitSent := true
      commitAttempts := min 4294967295 (s.commitAttempts + 1)
      phase := .commitSent
      updatedAt }
  | (.uncertain reason, updatedAt) => checked { s with reason, phase := .uncertain, updatedAt }
  | (.committed adoptedAccountId finalGeneration, now) =>
    checked { s with
      adoptedAccountId
      finalGeneration
      phase := .committed
      completedAt := some now
      updatedAt := now }
  | (.rejected reason, now) =>
    checked { s with reason, phase := .rejected, completedAt := some now, updatedAt := now }

def run (s : TransitionState) (calls : List (TransitionMark × DateTime)) :
    Except String TransitionState :=
  calls.foldlM mark s

variable {s s' : TransitionState} {c : TransitionMark × DateTime}
  {calls : List (TransitionMark × DateTime)}

theorem checked_eq_ok : s.checked = .ok s' ↔ s.validate = .ok () ∧ s = s' := by
  rw [checked, map_eq_ok]
  constructor
  · rintro ⟨⟨⟩, h⟩
    exact h
  · exact fun h => ⟨(), h⟩

structure Marked (s s' : TransitionState) (m : TransitionMark) : Prop where
  valid : s'.validate = .ok ()
  phase : s'.phase = m.phase
  target : s'.targetAccountId = s.targetAccountId
  expected : s'.expectedGeneration = s.expectedGeneration
  prepare : s'.prepareSent = true → s.prepareSent = true ∨ m = .prepared
  commit : s'.commitSent = true → s.commitSent = true ∨ m = .commitSent
  committed : s'.phase = .committed → m = .committed s'.adoptedAccountId s'.finalGeneration

theorem marked_of_mark (h : s.mark c = .ok s') : Marked s s' c.1 := by
  obtain ⟨m, now⟩ := c
  cases m with
  | waitingForBoundary | deploying | commitSent =>
    have h := ok_of_bind h
    obtain ⟨hvalid, rfl⟩ := checked_eq_ok.1 h
    constructor <;> simp_all [TransitionMark.phase]
  | _ =>
    obtain ⟨hvalid, rfl⟩ := checked_eq_ok.1 h
    constructor <;> simp_all [TransitionMark.phase]

theorem run_cons : s.run (c :: calls) = .ok s' ↔ ∃ t, s.mark c = .ok t ∧ t.run calls = .ok s' := by
  rw [run, List.foldlM_cons]
  exact bind_eq_ok

theorem run_append {calls' : List (TransitionMark × DateTime)} :
    s.run (calls ++ calls') = .ok s' ↔ ∃ t, s.run calls = .ok t ∧ t.run calls' = .ok s' := by
  rw [run, List.foldlM_append]
  exact bind_eq_ok

theorem run_eq_ok (h : s.run calls = .ok s') :
    s'.targetAccountId = s.targetAccountId ∧ s'.expectedGeneration = s.expectedGeneration ∧
      (s'.prepareSent = true → s.prepareSent = true ∨ ∃ c ∈ calls, c.1 = .prepared) ∧
      (s'.commitSent = true → s.commitSent = true ∨ ∃ c ∈ calls, c.1 = .commitSent) ∧
      (s' = s ∨ s'.validate = .ok () ∧ (s'.phase = .committed →
        ∃ c ∈ calls, c.1 = .committed s'.adoptedAccountId s'.finalGeneration)) := by
  induction calls generalizing s with
  | nil =>
    cases h
    simp
  | cons c calls ih =>
    obtain ⟨t, hmark, hrun⟩ := run_cons.1 h
    have hm := marked_of_mark hmark
    obtain ⟨htarget, hexpected, hprepare, hcommit, hlast⟩ := ih hrun
    refine ⟨htarget.trans hm.target, hexpected.trans hm.expected, ?_, ?_, .inr ?_⟩
    · have := hm.prepare
      grind
    · have := hm.commit
      grind
    · rcases hlast with rfl | ⟨hvalid, hlast⟩
      · exact ⟨hm.valid, fun hphase => ⟨c, List.mem_cons_self, hm.committed hphase⟩⟩
      · refine ⟨hvalid, fun hphase => ?_⟩
        obtain ⟨d, hd, heq⟩ := hlast hphase
        exact ⟨d, List.mem_cons_of_mem _ hd, heq⟩

theorem sent_of_validate (h : s.validate = .ok ()) (hphase : s.phase = .committed) :
    s.prepareSent = true ∧ s.commitSent = true := by
  simp only [validate, hphase, if_true, bind_eq_ok, require_eq_ok, exists_and_left] at h
  obtain ⟨-, -, hsent, hcommit, -⟩ := h
  simp_all

def marksSample (adopted : String) (generation : UInt64) : List (TransitionMark × DateTime) :=
  [(.prepared, .sample), (.commitSent, .sample), (.committed adopted generation, .sample)]

def sample : TransitionState :=
  ⟨"t", "r", "b", "", 1, 0, .idle, false, false, 0, .sample, .sample, none, ""⟩

end TransitionState

/-! ### The journal -/

inductive JournalError
  | invalidJournalEvent
  | sensitiveJournalEvent
  | corruptJournal
  | io
deriving DecidableEq

structure JournalEvent where
  at_ : DateTime
  eventType : String
  transitionId : String
  recoveryId : String
  threadId : String
  turnId : String
  authGeneration : UInt64
  expectedGeneration : UInt64
  runtimeId : String
  accountId : String
  fromAccountId : String
  targetAccountId : String
  outcome : String
  reason : String
deriving DecidableEq

namespace Journal

def transitionEvents : List String :=
  ["TransitionCreated", "TransitionPrepared", "AuthDeployed", "CommitSent", "IdentityConfirmed",
    "TransitionCommitted", "TransitionUncertain", "TransitionReconciled"]

def recoveryEvents : List String :=
  ["RecoveryParked", "RecoveryWaiting", "RecoveryBound", "RecoveryReleaseRequested",
    "RecoveryReleased", "RecoveryStarted", "RecoveryCompleted", "RecoveryUncertain"]

def looksSensitive (value : String) : Bool :=
  ["access_token", "id_token", "refresh_token", "authorization:", "bearer ", "api_key",
    "openai_api_key", "password=", "secret=", "auth.json", "\"tokens\""].any fun marker =>
      decide (marker.toList <:+: value.toList.map Char.toLower)

def validate (event : JournalEvent) : Except JournalError Unit := do
  require (!(isBlank event.eventType || 256 < event.eventType.utf8ByteSize)) .invalidJournalEvent
  require (!event.at_.isZero) .invalidJournalEvent
  if event.eventType ∈ transitionEvents then do
    require (!(event.transitionId.isEmpty || event.runtimeId.isEmpty)) .invalidJournalEvent
    require (!((event.eventType = "TransitionCommitted" || event.eventType = "TransitionReconciled") &&
      event.authGeneration = 0)) .invalidJournalEvent
  require (!(event.eventType ∈ recoveryEvents &&
    (event.recoveryId.isEmpty || event.runtimeId.isEmpty))) .invalidJournalEvent
  require (!([event.transitionId, event.recoveryId, event.threadId, event.turnId, event.runtimeId,
      event.accountId, event.fromAccountId, event.targetAccountId, event.outcome,
      event.reason].any fun value => 4096 < value.utf8ByteSize || value.toList.any isControl))
    .invalidJournalEvent
  require (!looksSensitive event.reason) .sensitiveJournalEvent

/-- The work of `serde_json` and of the standard library: `text` checks UTF-8. -/
structure Codec where
  encode : JournalEvent → List UInt8
  text : List UInt8 → Option String
  parse : String → Option JournalEvent

/-- The event is written on one line, which is not too long, and read back. -/
structure Codec.Writes (codec : Codec) (event : JournalEvent) : Prop where
  parses : ∃ text, codec.text (codec.encode event) = some text ∧ isBlank text = false ∧
    codec.parse text = some event
  newline : 10 ∉ codec.encode event
  carriage : (codec.encode event).getLast? ≠ some 13
  short : (codec.encode event).length ≤ 1048576

variable (codec : Codec)

def line (event : JournalEvent) : List UInt8 := codec.encode event ++ [10]

def stamped (event : JournalEvent) (now : DateTime) : JournalEvent :=
  if event.at_.isZero then { event with at_ := now } else event

def append (event : JournalEvent) (now : DateTime) : Except JournalError JournalEvent :=
  (validate (stamped event now)).map fun _ => stamped event now

def chomp (line : List UInt8) : List UInt8 :=
  let line := line.dropLast
  if line.getLast? = some 13 then line.dropLast else line

def lines (file : List UInt8) : List (List UInt8) :=
  (Lines.split 10 [] file).1.map chomp ++
    if (Lines.split 10 [] file).2.isEmpty then [] else [(Lines.split 10 [] file).2]

def readLine (line : List UInt8) : Except JournalError (Option JournalEvent) := do
  let text ← okOr (codec.text line) .io
  if isBlank text then pure none
  else do
    require (line.length ≤ 1048576) .corruptJournal
    let event ← okOr (codec.parse text) .corruptJournal
    (validate event).mapError fun _ => .corruptJournal
    pure (some event)

def readAll (file : List UInt8) : Except JournalError (List JournalEvent) :=
  ((lines file).mapM (readLine codec)).map fun events => events.filterMap id

/-- A call of `append`, and after how many bytes it is interrupted, if it is. -/
structure Attempt where
  event : JournalEvent
  now : DateTime
  cut : Option ℕ

namespace Attempt

variable (a : Attempt)

def bytes : List UInt8 :=
  match append a.event a.now, a.cut with
  | .ok event, some n => (line codec event).take n
  | .ok event, none => line codec event
  | .error _, _ => []

def succeeded : Option JournalEvent :=
  match append a.event a.now, a.cut with
  | .ok event, none => some event
  | _, _ => none

def recorded : Option JournalEvent :=
  match append a.event a.now with
  | .ok event => if a.cut.all ((line codec event).length ≤ ·) then some event else none
  | .error _ => none

def Whole : Prop := a.bytes codec = [] ∨ a.recorded codec ≠ none

variable {codec a}

theorem bytes_of_recorded {event : JournalEvent} (h : a.recorded codec = some event) :
    validate event = .ok () ∧ a.bytes codec = line codec event := by
  unfold recorded at h
  unfold bytes
  cases happend : append a.event a.now with
  | error e => simp [happend] at h
  | ok event' =>
    obtain ⟨⟨⟩, hvalid, rfl⟩ := map_eq_ok.1 happend
    simp only [happend, Option.ite_none_right_eq_some, Option.some.injEq] at h
    obtain ⟨hcut, rfl⟩ := h
    refine ⟨hvalid, ?_⟩
    cases hc : a.cut with
    | none => rfl
    | some n => exact List.take_of_length_le (by simpa [hc] using hcut)

theorem recorded_of_succeeded {event : JournalEvent} (h : a.succeeded = some event) :
    a.recorded codec = some event := by
  unfold succeeded at h
  unfold recorded
  cases happend : append a.event a.now <;> cases hcut : a.cut <;> simp_all

end Attempt

variable {codec}

theorem lines_line {event : JournalEvent} (h : codec.Writes event) (file : List UInt8) :
    lines (line codec event ++ file) = codec.encode event :: lines file := by
  have hline : line codec event ++ file = codec.encode event ++ 10 :: file := by simp [line]
  rw [hline, lines, Lines.split_of_cut (Lines.cut_of_not_mem h.newline file), lines]
  simp [chomp, h.carriage]

theorem readAll_line {event : JournalEvent} (hvalid : validate event = .ok ())
    (h : codec.Writes event) {file : List UInt8} {events : List JournalEvent}
    (hread : readAll codec file = .ok events) :
    readAll codec (line codec event ++ file) = .ok (event :: events) := by
  obtain ⟨text, htext, hblank, hparse⟩ := h.parses
  have hline : readLine codec (codec.encode event) = .ok (some event) := by
    simp [readLine, htext, hblank, hparse, hvalid, okOr, require, h.short, bind, Except.bind,
      Except.mapError, pure, Except.pure]
  obtain ⟨read, hmap, rfl⟩ := map_eq_ok.1 hread
  refine map_eq_ok.2 ⟨some event :: read, ?_, by simp⟩
  rw [lines_line h, List.mapM_cons, hline]
  exact bind_eq_ok.2 ⟨_, rfl, bind_eq_ok.2 ⟨read, hmap, rfl⟩⟩

/-- **The journal keeps what was appended**, in order, as long as no append is interrupted within
its line. -/
theorem journal_keeps (attempts : List Attempt) (hwhole : ∀ a ∈ attempts, a.Whole codec)
    (hwrites : ∀ a ∈ attempts, ∀ event, a.recorded codec = some event → codec.Writes event) :
    readAll codec (attempts.flatMap (·.bytes codec)) = .ok (attempts.filterMap (·.recorded codec)) ∧
      (attempts.filterMap (·.succeeded)).Sublist (attempts.filterMap (·.recorded codec)) := by
  induction attempts with
  | nil => exact ⟨rfl, .slnil⟩
  | cons a attempts ih =>
    obtain ⟨ha, hwhole⟩ := List.forall_mem_cons.1 hwhole
    obtain ⟨hwrite, hwrites⟩ := List.forall_mem_cons.1 hwrites
    obtain ⟨hread, hsub⟩ := ih hwhole hwrites
    rw [List.flatMap_cons, List.filterMap_cons, List.filterMap_cons]
    cases hrecorded : a.recorded codec with
    | some event =>
      obtain ⟨hvalid, hbytes⟩ := Attempt.bytes_of_recorded hrecorded
      rw [hbytes]
      refine ⟨readAll_line hvalid (hwrite event hrecorded) hread, ?_⟩
      cases hsucceeded : a.succeeded with
      | none => exact hsub.cons _
      | some event' =>
        cases hrecorded.symm.trans (Attempt.recorded_of_succeeded hsucceeded)
        exact hsub.cons_cons _
    | none =>
      rw [ha.resolve_right (absurd hrecorded), List.nil_append]
      refine ⟨hread, ?_⟩
      cases hsucceeded : a.succeeded with
      | none => exact hsub
      | some event => simp [Attempt.recorded_of_succeeded hsucceeded] at hrecorded

def eventSample (eventType : String) : JournalEvent :=
  ⟨.sample, eventType, "", "", "", "", 0, 0, "", "", "", "", "", ""⟩

def Codec.sample : Codec where
  encode event := ("\x7b" ++ event.eventType ++ "\x7d").toList.map fun c => UInt8.ofNat c.toNat
  text bytes := some (String.ofList (bytes.map fun b => Char.ofNat b.toNat))
  parse text :=
    let name := text.toList.tail.dropLast
    if text.toList = '\x7b' :: name ++ ['\x7d'] ∧ '\x7b' ∉ name then some (eventSample (String.ofList name))
    else none

/-- **An interrupted append spoils the journal**: the next event is appended to what is left of its
line. -/
theorem journal_spoiled :
    let torn : Attempt := ⟨eventSample "first", .sample, some 3⟩
    let next : Attempt := ⟨eventSample "second", .sample, none⟩
    next.succeeded = some (eventSample "second") ∧
      readAll .sample ([next, torn].flatMap (·.bytes .sample)) = .error .corruptJournal ∧
      readAll .sample ([torn, next].flatMap (·.bytes .sample)) = .error .corruptJournal := by
  decide +kernel

theorem journal_keeps_sample :
    readAll .sample (([⟨eventSample "second", .sample, none⟩] : List Attempt).flatMap
      (·.bytes .sample)) = .ok [eventSample "second"] := by
  have hrecorded : Attempt.recorded .sample ⟨eventSample "second", .sample, none⟩ =
      some (eventSample "second") := by decide +kernel
  refine (journal_keeps _ ?_ ?_).1.trans (by simp [hrecorded])
  · intro a ha
    cases List.mem_singleton.1 ha
    exact .inr (by simp [hrecorded])
  · intro a ha event h
    cases List.mem_singleton.1 ha
    cases h.symm.trans hrecorded
    exact ⟨⟨"\x7bsecond\x7d", by decide +kernel⟩, by decide +kernel, by decide +kernel, by decide +kernel⟩

end Journal

end CodexMarathon
