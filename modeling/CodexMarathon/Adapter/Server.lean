/-
**Serving connections.**

The server reads lines, has the adapter handle each as a frame, and writes the response and the
queued events.  It waits for a line and for a timer at once, and when the timer is first, the bytes
of the line that were read are dropped with the unfinished call of `read_line`.  A run is a list of
small steps in any order.
-/

import CodexMarathon.Adapter.Framing
import CodexMarathon.Lib.Lines

namespace CodexMarathon.Adapter

open Stateful Lines

/-- The codec, with what `serde_json` makes of the notification of an event. -/
structure ServerCodec extends JsonLineCodec where
  eventToVec : RuntimeEvent → Except String (List UInt8)

inductive Chunk
  | response (bytes : List UInt8)
  | event (event : RuntimeEvent) (bytes : List UInt8)

def Chunk.events : Chunk → List RuntimeEvent
  | .response _ => []
  | .event e _ => [e]

def ServerCodec.encodeEvent (codec : ServerCodec) (event : RuntimeEvent) : Except FramingError Chunk := do
  let text ← (codec.eventToVec event).mapError .json
  let frame := text ++ [10]
  if codec.maxFrameBytes < frame.length then .error (.oversized codec.maxFrameBytes)
  else pure (.event event frame)

/-- `drain_event_lines`: the queue is empty before the first event is encoded. -/
def drainEventLines (codec : ServerCodec) (s : RuntimeAdapter) :
    Except FramingError (List Chunk) × RuntimeAdapter :=
  (s.events.mapM codec.encodeEvent, { s with events := [] })

/-! ### The server -/

inductive ServeError
  | read
  | notUtf8
  | lineTooLong
  | adapter (error : AdapterError)
  | framing (error : FramingError)
  | write

/-- The bytes that have arrived, those that `read_line` has taken, and what is still to be written.
-/
structure Session where
  buffer : List UInt8
  line : List UInt8
  writing : Option (List Chunk)

/-- `pushed` and `delivered` are all events that entered the queue, and those that were written. -/
structure Server where
  adapter : RuntimeAdapter
  shutdown : Bool
  session : Option Session
  ended : Option (Except ServeError Unit)
  received : List UInt8
  frames : List (List UInt8)
  pushed : List RuntimeEvent
  delivered : List RuntimeEvent

namespace Server

variable (codec : ServerCodec) (maxLineBytes : ℕ)

def withAdapter (s : Server) (adapter : RuntimeAdapter) : Server :=
  { s with adapter, pushed := s.pushed ++ adapter.events.drop s.adapter.events.length }

def close (s : Server) (result : Except ServeError Unit) : Server :=
  { s with
    adapter := { s.adapter with negotiatedVersion := none }
    session := none
    ended := some result }

def accept (s : Server) : Server :=
  { s with
    session := some { buffer := [], line := [], writing := none }
    ended := none
    received := []
    frames := [] }

def writeEvents (session : Session) (chunks : List Chunk) (s : Server) : Server :=
  let r := drainEventLines codec s.adapter
  let s := { s with adapter := r.2 }
  match r.1 with
  | .error e => s.close (.error (.framing e))
  | .ok events => { s with session := some { session with writing := some (chunks ++ events) } }

def answerLine (drain frame : Answers) (line : List UInt8) (s : Server) :
    Except ServeError (List Chunk) × Server :=
  if line.toByteArray.validateUTF8 = false then (.error .notUtf8, s)
  else if maxLineBytes < line.length then (.error .lineTooLong, s)
  else
    let r := (drainNativeRecoveryEvents drain).exec s.adapter
    let s := s.withAdapter r.2
    match r.1 with
    | .error e => (.error (.adapter e), s)
    | .ok _ =>
      let f := handleFrame codec.toJsonLineCodec frame s.adapter line
      let s := { s.withAdapter f.2 with frames := s.frames ++ [line] }
      match f.1 with
      | .error e => (.error (.framing e), s)
      | .ok response => (.ok [.response response], s)

def observe (count rates : Answers) (s : Server) : Server :=
  if s.adapter.negotiatedVersion.isSome then
    let s := s.withAdapter ((observeTurnCount count).exec s.adapter).2
    s.withAdapter ((readAndForwardRateLimits rates).exec s.adapter).2
  else s

def answerTick (drain count rates : Answers) (s : Server) :
    Except ServeError (List Chunk) × Server :=
  let r := (drainNativeRecoveryEvents drain).exec s.adapter
  let s := s.withAdapter r.2
  match r.1 with
  | .error e => (.error (.adapter e), s)
  | .ok _ => (.ok [], s.observe count rates)

def finish (session : Session) (r : Except ServeError (List Chunk) × Server) : Server :=
  match r.1 with
  | .error e => r.2.close (.error e)
  | .ok chunks => r.2.writeEvents codec session chunks

def takeLine (drain frame : Answers) (session : Session) (line : List UInt8) (s : Server) : Server :=
  finish codec session (s.answerLine codec maxLineBytes drain frame line)

def tick (drain count rates : Answers) (session : Session) (s : Server) : Server :=
  finish codec session (s.answerTick drain count rates)

/-- A call of `write_all` has succeeded, or the flush after the last of them. -/
def written (session : Session) (s : Server) : Server :=
  match session.writing with
  | none => s
  | some [] =>
    if s.shutdown then s.close (.ok ())
    else { s with session := some { session with writing := none } }
  | some (chunk :: chunks) =>
    { s with
      session := some { session with writing := some chunks }
      delivered := s.delivered ++ chunk.events }

end Server

/-- `poll` and `eof` are the reading; `write` is the next call of the writer. -/
inductive ServerOp
  | connect
  | arrive (bytes : List UInt8)
  | poll (drain frame : Answers)
  | eof (drain frame : Answers)
  | readFails
  | tick (drain count rates : Answers)
  | write (success : Bool)
  | shutdown
  | call (op : {op : AdapterOp // op ≠ .drainEvents}) (a : Answers)

variable (codec : ServerCodec) (maxLineBytes : ℕ)

def idleStep (s : Server) : ServerOp → Server
  | .connect => if s.shutdown then s else s.accept
  | .shutdown => { s with shutdown := true }
  | _ => s

def writingStep (session : Session) (s : Server) : ServerOp → Server
  | .write true => s.written session
  | .write false => s.close (.error .write)
  | .shutdown => { s with shutdown := true }
  | _ => s

def waitingStep (session : Session) (s : Server) : ServerOp → Server
  | .poll drain frame =>
    match Lines.cut 10 session.buffer with
    | none =>
      { s with
        session := some { session with buffer := [], line := session.line ++ session.buffer } }
    | some (first, rest) =>
      s.takeLine codec maxLineBytes drain frame { session with buffer := rest, line := [] }
        (session.line ++ first)
  | .eof drain frame =>
    -- the end is only seen once everything has been read; the last line needs no delimiter
    if session.buffer ≠ [] then s
    else if session.line = [] then s.close (.ok ())
    else s.takeLine codec maxLineBytes drain frame { session with line := [] } session.line
  | .readFails => s.close (.error .read)
  | .tick drain count rates =>
    -- the unfinished call of `read_line` is dropped with the bytes it has taken
    s.tick codec drain count rates { session with line := [] }
  | .shutdown => { s with shutdown := true }.close (.ok ())
  | _ => s

def sessionStep (session : Session) (s : Server) : ServerOp → Server
  | .arrive bytes =>
    { s with
      received := s.received ++ bytes
      session := some { session with buffer := session.buffer ++ bytes } }
  | op =>
    if session.writing.isSome then writingStep session s op
    else waitingStep codec maxLineBytes session s op

def serverStep (s : Server) : ServerOp → Server
  | .call op a => s.withAdapter (step s.adapter (op.1, a)).1
  | op =>
    match s.session with
    | none => idleStep s op
    | some session => sessionStep codec maxLineBytes session s op

def serverMachine : Machine Server ServerOp Unit :=
  ⟨fun s op => (serverStep codec maxLineBytes s op, ())⟩

/-! ### Reading -/

def ServeError.OfAdapter : ServeError → Prop
  | .adapter _ | .framing _ => True
  | .read | .notUtf8 | .lineTooLong | .write => False

structure Readable (line : List UInt8) : Prop where
  utf8 : line.toByteArray.validateUTF8 = true
  short : line.length ≤ maxLineBytes

instance (line : List UInt8) : Decidable (Readable maxLineBytes line) :=
  decidable_of_iff (line.toByteArray.validateUTF8 = true ∧ line.length ≤ maxLineBytes)
    ⟨fun h => ⟨h.1, h.2⟩, fun h => ⟨h.utf8, h.short⟩⟩

inductive Serves (session : Session) (s s' : Server) : Prop
  | writes (chunks : List Chunk) (onward : s'.session = some { session with writing := some chunks })
      (ended : s'.ended = s.ended) (shutdown : s'.shutdown = s.shutdown)
  | fails (e : ServeError) (ofAdapter : e.OfAdapter) (closed : s'.session = none)
      (ended : s'.ended = some (.error e))

structure SameFrames (s s' : Server) : Prop where
  received : s'.received = s.received
  frames : s'.frames = s.frames

section Reading

variable {codec maxLineBytes} {session : Session} {s : Server} {line : List UInt8}

theorem Serves.of_same {s₁ s' : Server} (h : Serves session s₁ s') (hended : s₁.ended = s.ended)
    (hshut : s₁.shutdown = s.shutdown) : Serves session s s' := by
  cases h with
  | writes chunks onward ended shutdown =>
    exact .writes chunks onward (ended.trans hended) (shutdown.trans hshut)
  | fails e ofAdapter closed ended => exact .fails e ofAdapter closed ended

variable (codec session s)

theorem serves_writeEvents (chunks : List Chunk) :
    Serves session s (s.writeEvents codec session chunks) ∧
      SameFrames s (s.writeEvents codec session chunks) := by
  unfold Server.writeEvents
  simp only
  split
  · rename_i e he
    exact ⟨.fails (.framing e) trivial rfl rfl, rfl, rfl⟩
  · rename_i events hevents
    exact ⟨.writes (chunks ++ events) rfl rfl rfl, rfl, rfl⟩

theorem sameFrames_observe (count rates : Answers) :
    SameFrames s (s.observe count rates) ∧ (s.observe count rates).ended = s.ended ∧
      (s.observe count rates).shutdown = s.shutdown := by
  unfold Server.observe
  split
  · exact ⟨⟨rfl, rfl⟩, rfl, rfl⟩
  · exact ⟨⟨rfl, rfl⟩, rfl, rfl⟩

theorem serves_tick (drain count rates : Answers) :
    Serves session s (s.tick codec drain count rates session) ∧
      SameFrames s (s.tick codec drain count rates session) := by
  unfold Server.tick Server.answerTick
  simp only
  split
  · rename_i e he
    exact ⟨.fails (.adapter e) trivial rfl rfl, rfl, rfl⟩
  · obtain ⟨hobs, hended, hshut⟩ := sameFrames_observe
      (s.withAdapter ((drainNativeRecoveryEvents drain).exec s.adapter).2) count rates
    obtain ⟨hserves, hsame⟩ := serves_writeEvents codec session (Server.observe count rates
      (s.withAdapter ((drainNativeRecoveryEvents drain).exec s.adapter).2)) []
    exact ⟨hserves.of_same hended hshut, hsame.received.trans hobs.received,
      hsame.frames.trans hobs.frames⟩

inductive LineOutcome (maxLineBytes : ℕ) (session : Session) (line : List UInt8) (s s' : Server) : Prop
  | framed (frames : s'.frames = s.frames ++ [line]) (serves : Serves session s s')
  | dropped (frames : s'.frames = s.frames) (closed : s'.session = none) (e : ServeError)
      (ended : s'.ended = some (.error e)) (cause : e.OfAdapter ∨ ¬ Readable maxLineBytes line)

variable {session s} in
theorem LineOutcome.buffer_eq {s' : Server} (h : LineOutcome maxLineBytes session line s s') :
    ∀ onward ∈ s'.session, onward.buffer = session.buffer := by
  intro onward honward
  cases h with
  | framed hframes hserves =>
    cases hserves with
    | writes chunks hses =>
      rw [hses] at honward
      cases honward
      rfl
    | fails e he hclosed =>
      rw [hclosed] at honward
      cases honward
  | dropped hframes hclosed =>
    rw [hclosed] at honward
    cases honward

theorem takeLine_outcome (drain frame : Answers) (line : List UInt8) :
    (s.takeLine codec maxLineBytes drain frame session line).received = s.received ∧
      LineOutcome maxLineBytes session line s
        (s.takeLine codec maxLineBytes drain frame session line) := by
  unfold Server.takeLine Server.answerLine
  split_ifs with hutf8 hlong
  · refine ⟨rfl, .dropped rfl rfl .notUtf8 rfl (.inr fun h => ?_)⟩
    rw [h.utf8] at hutf8
    cases hutf8
  · exact ⟨rfl, .dropped rfl rfl .lineTooLong rfl (.inr fun h => absurd h.short (by omega))⟩
  · simp only
    split
    · rename_i e he
      exact ⟨rfl, .dropped rfl rfl (.adapter e) rfl (.inl trivial)⟩
    · split
      · rename_i e he
        exact ⟨rfl, .framed rfl (.fails (.framing e) trivial rfl rfl)⟩
      · refine let h := serves_writeEvents codec session _ _
          ⟨h.2.received, .framed h.2.frames (h.1.of_same rfl rfl)⟩

end Reading

/-! ### Frames and lines -/

def ServerOp.KeepsOpen : ServerOp → Prop
  | .connect | .eof _ _ | .readFails | .write false | .shutdown => False
  | .arrive _ | .poll _ _ | .tick _ _ _ | .write true | .call _ _ => True

instance : (op : ServerOp) → Decidable op.KeepsOpen
  | .connect | .eof _ _ | .readFails | .write false | .shutdown => inferInstanceAs (Decidable False)
  | .arrive _ | .poll _ _ | .tick _ _ _ | .write true | .call _ _ => inferInstanceAs (Decidable True)

def Tears (s : Server) : ServerOp → Prop
  | .tick _ _ _ => ∃ session ∈ s.session, session.writing = none ∧ session.line ≠ []
  | _ => False

instance (s : Server) : (op : ServerOp) → Decidable (Tears s op)
  | .tick _ _ _ =>
    inferInstanceAs (Decidable (∃ session ∈ s.session, session.writing = none ∧ session.line ≠ []))
  | .connect | .arrive _ | .poll _ _ | .eof _ _ | .readFails | .write _ | .shutdown | .call _ _ =>
    inferInstanceAs (Decidable False)

def Server.lines (s : Server) : List (List UInt8) := (Lines.split 10 [] s.received).1

/-- What is left of a connection to read goes on where the frames end. -/
inductive Framed (maxLineBytes : ℕ) (s : Server) : Prop
  | serving (session : Session) (served : s.session = some session) (shutdown : s.shutdown = false)
      (ended : s.ended = none)
      (split : Lines.split 10 [] s.received =
        (s.frames ++ (Lines.split 10 session.line session.buffer).1,
          (Lines.split 10 session.line session.buffer).2))
  | ended (e : ServeError) (closed : s.session = none) (ended : s.ended = some (.error e))
      (frames : s.frames <+: s.lines)
      (cause : e.OfAdapter ∨ ∃ line ∈ s.lines, ¬ Readable maxLineBytes line)

section Framed

variable {codec maxLineBytes} {s s' : Server} {session : Session}

theorem Framed.of_serves {line : List UInt8} {onward : Session} (hsplit : split 10 [] s.received =
      (s.frames ++ line :: (split 10 onward.line onward.buffer).1,
        (split 10 onward.line onward.buffer).2))
    (hshut : s.shutdown = false) (hended : s.ended = none) (hrec : s'.received = s.received)
    (h : LineOutcome maxLineBytes onward line s s') : Framed maxLineBytes s' := by
  have hlines : s'.lines = s.frames ++ line :: (split 10 onward.line onward.buffer).1 := by
    rw [Server.lines, hrec, hsplit]
  cases h with
  | framed hframes hserves =>
    cases hserves with
    | writes chunks hses hended' hshut' =>
      refine .serving _ hses (hshut'.trans hshut) (hended'.trans hended) ?_
      rw [hrec, hsplit, hframes, List.append_assoc]
      rfl
    | fails e he hses hended' =>
      refine .ended e hses hended' ?_ (.inl he)
      rw [hlines, hframes]
      exact ⟨_, (List.append_cons ..).symm⟩
  | dropped hframes hses e hended' hcause =>
    refine .ended e hses hended' ?_ (hcause.imp_right fun hline => ⟨line, ?_, hline⟩)
    · rw [hlines, hframes]
      exact List.prefix_append _ _
    · rw [hlines]
      simp

theorem Framed.written (hserved : s.session = some session) (hshut : s.shutdown = false)
    (hended : s.ended = none) (hsplit : split 10 [] s.received =
      (s.frames ++ (split 10 session.line session.buffer).1,
        (split 10 session.line session.buffer).2)) : Framed maxLineBytes (s.written session) := by
  unfold Server.written
  split
  · exact .serving session hserved hshut hended hsplit
  · rw [if_neg (by simp [hshut])]
    exact .serving _ rfl hshut hended hsplit
  · exact .serving _ rfl hshut hended hsplit

theorem Framed.waiting {op : ServerOp} (hserved : s.session = some session)
    (hwaits : session.writing = none) (hshut : s.shutdown = false) (hended : s.ended = none)
    (hsplit : split 10 [] s.received = (s.frames ++ (split 10 session.line session.buffer).1,
        (split 10 session.line session.buffer).2)) (hopen : op.KeepsOpen) (htimer : ¬ Tears s op) :
    Framed maxLineBytes (waitingStep codec maxLineBytes session s op) := by
  have hsame : Framed maxLineBytes s := .serving session hserved hshut hended hsplit
  cases op with
  | connect | eof | readFails | shutdown => exact hopen.elim
  | arrive | write | call => exact hsame
  | poll drain frame =>
    simp only [waitingStep]
    cases hcut : cut 10 session.buffer with
    | none =>
      refine .serving _ rfl hshut hended ?_
      rw [hsplit, split_of_cut_eq_none hcut]
      rfl
    | some r =>
      obtain ⟨first, rest⟩ := r
      rw [split_of_cut hcut] at hsplit
      obtain ⟨hrec, hout⟩ := takeLine_outcome codec
        { session with buffer := rest, line := [] } s drain frame (session.line ++ first)
      exact .of_serves hsplit hshut hended hrec hout
  | tick drain count rates =>
    -- the line that is dropped is empty
    have hline : session.line = [] := by
      by_contra hline
      exact htimer ⟨session, hserved, hwaits, hline⟩
    obtain ⟨hserves, hframes⟩ :=
      serves_tick codec { session with line := [] } s drain count rates
    simp only [waitingStep]
    cases hserves with
    | writes chunks honward hended' hshut' =>
      refine .serving _ honward (hshut'.trans hshut) (hended'.trans hended) ?_
      rw [hframes.received, hframes.frames, hsplit, hline]
    | fails e he hclosed hended' =>
      refine .ended e hclosed hended' ?_ (.inl he)
      rw [hframes.frames, Server.lines, hframes.received, hsplit]
      exact List.prefix_append _ _

/-- **A step on an open connection keeps the frames the lines of the stream**, unless the timer
fires within a line. -/
theorem Framed.step {op : ServerOp} (h : Framed maxLineBytes s) (hopen : op.KeepsOpen)
    (htimer : ¬ Tears s op) : Framed maxLineBytes (serverStep codec maxLineBytes s op) := by
  cases h with
  | ended e hclosed hended hframes hcause =>
    cases op with
    | connect | eof | readFails | shutdown => exact hopen.elim
    | call => exact .ended e hclosed hended hframes hcause
    | arrive | poll | tick | write =>
      simp only [serverStep, hclosed]
      exact .ended e hclosed hended hframes hcause
  | serving session hserved hshut hended hsplit =>
    have hsame : Framed maxLineBytes s := .serving session hserved hshut hended hsplit
    cases op with
    | connect | eof | readFails | shutdown => exact hopen.elim
    | call => exact .serving session hserved hshut hended hsplit
    | arrive bytes =>
      simp only [serverStep, hserved, sessionStep]
      refine .serving _ rfl hshut hended ?_
      simp only [split_append, hsplit, List.append_assoc]
    | write success =>
      simp only [serverStep, hserved, sessionStep]
      cases success with
      | false => exact hopen.elim
      | true =>
        split
        · exact .written hserved hshut hended hsplit
        · exact hsame
    | poll | tick =>
      simp only [serverStep, hserved, sessionStep]
      split
      · exact hsame
      · rename_i hwrit
        refine .waiting hserved ?_ hshut hended hsplit hopen htimer
        simpa using hwrit

end Framed

section ReadingOn

variable {maxLineBytes} {s : Server}

def ServerOp.Goes (a : Answers) : ServerOp → Prop
  | .poll drain frame => drain = a ∧ frame = a
  | .write true => True
  | _ => False

variable (maxLineBytes) in
theorem writes_out (a : Answers) (chunks : List Chunk) {session : Session}
    (hserved : s.session = some session) (hwrit : session.writing = some chunks)
    (hshut : s.shutdown = false) : ∃ ops, (∀ op ∈ ops, op.Goes a) ∧
      ((serverMachine codec maxLineBytes).run s ops).received = s.received ∧
      ((serverMachine codec maxLineBytes).run s ops).session = some { session with writing := none } := by
  have hstep : serverStep codec maxLineBytes s (.write true) = s.written session := by
    simp only [serverStep, hserved, sessionStep, hwrit, Option.isSome_some, if_true, writingStep]
  induction chunks generalizing s session with
  | nil =>
    refine ⟨[.write true], by simp [ServerOp.Goes], ?_⟩
    change (serverStep codec maxLineBytes s (.write true)).received = _ ∧
      (serverStep codec maxLineBytes s (.write true)).session = _
    rw [hstep]
    simp [Server.written, hwrit, hshut]
  | cons chunk chunks ih =>
    have hnext : (s.written session).session = some { session with writing := some chunks } := by
      simp [Server.written, hwrit]
    have hkeeps : (s.written session).received = s.received ∧
        (s.written session).shutdown = s.shutdown := by
      simp [Server.written, hwrit]
    obtain ⟨ops, hops, hrec, hses⟩ := ih hnext rfl (hkeeps.2.trans hshut) (by
      simp only [serverStep, hnext, sessionStep, Option.isSome_some, if_true, writingStep])
    refine ⟨.write true :: ops, ?_, ?_⟩
    · simpa [ServerOp.Goes] using hops
    · change ((serverMachine codec maxLineBytes).run (serverStep codec maxLineBytes s (.write true))
        ops).received = _ ∧ ((serverMachine codec maxLineBytes).run
        (serverStep codec maxLineBytes s (.write true)) ops).session = _
      rw [hstep]
      exact ⟨hrec.trans hkeeps.1, hses⟩

theorem ServerOp.Goes.keepsOpen {a : Answers} {op : ServerOp} (h : op.Goes a) :
    op.KeepsOpen ∧ ∀ s, ¬ Tears s op := by
  cases op with
  | poll => exact ⟨trivial, fun _ => id⟩
  | write success =>
    cases success with
    | true => exact ⟨trivial, fun _ => id⟩
    | false => exact h.elim
  | _ => exact h.elim

theorem Framed.run_goes {a : Answers} {ops : List ServerOp} (h : Framed maxLineBytes s)
    (hops : ∀ op ∈ ops, op.Goes a) :
    Framed maxLineBytes ((serverMachine codec maxLineBytes).run s ops) :=
  Machine.invariant_run_of_forall (P := ServerOp.Goes a)
    (fun s _ hop hs => hs.step hop.keepsOpen.1 (hop.keepsOpen.2 s)) hops h

variable (maxLineBytes) in
theorem poll_shorter (a : Answers) {session : Session} (hserved : s.session = some session)
    (hwaits : session.writing = none) :
    (serverStep codec maxLineBytes s (.poll a a)).received = s.received ∧
      ∀ onward ∈ (serverStep codec maxLineBytes s (.poll a a)).session,
        onward.buffer.length ≤ session.buffer.length - 1 := by
  have hstep : serverStep codec maxLineBytes s (.poll a a) =
      waitingStep codec maxLineBytes session s (.poll a a) := by
    simp only [serverStep, hserved, sessionStep, hwaits, Option.isSome_none, Bool.false_eq_true,
      if_false]
  rw [hstep]
  simp only [waitingStep]
  cases hcut : cut 10 session.buffer with
  | none => simp
  | some r =>
    obtain ⟨first, rest⟩ := r
    obtain ⟨hrec, hout⟩ := takeLine_outcome codec
      { session with buffer := rest, line := [] } s a a (session.line ++ first)
    refine ⟨hrec, fun onward honward => ?_⟩
    have hshor := length_of_cut hcut
    rw [hout.buffer_eq onward honward]
    exact Nat.le_sub_one_of_lt hshor

variable (maxLineBytes) in
theorem waits (a : Answers) {session : Session} (hserved : s.session = some session)
    (hshut : s.shutdown = false) : ∃ ops, (∀ op ∈ ops, op.Goes a) ∧
      ((serverMachine codec maxLineBytes).run s ops).received = s.received ∧
      ((serverMachine codec maxLineBytes).run s ops).session = some { session with writing := none } := by
  cases hwrit : session.writing with
  | none =>
    refine ⟨[], by simp, rfl, ?_⟩
    rw [← hwrit]
    exact hserved
  | some chunks => exact writes_out codec maxLineBytes a chunks hserved hwrit hshut

theorem reads_on (a : Answers) (h : Framed maxLineBytes s) : ∃ ops, (∀ op ∈ ops, op.Goes a) ∧
      ((serverMachine codec maxLineBytes).run s ops).received = s.received ∧
      ∀ session ∈ ((serverMachine codec maxLineBytes).run s ops).session, session.buffer = [] := by
  obtain ⟨n, hn⟩ : ∃ n, ∀ session ∈ s.session, session.buffer.length ≤ n := by
    cases s.session with
    | none => exact ⟨0, nofun⟩
    | some session => exact ⟨session.buffer.length, by simp⟩
  -- one line after the other, until the buffer is empty
  induction n generalizing s with
  | zero =>
    refine ⟨[], by simp, rfl, fun session hses => ?_⟩
    exact List.length_eq_zero_iff.1 (Nat.le_zero.1 (hn session hses))
  | succ n ih =>
    have hframed := h
    cases h with
    | ended e hclosed hended hframes hcause => exact ⟨[], by simp, rfl, by simp [hclosed]⟩
    | serving session hserved hshut hended hsplit =>
      obtain ⟨ops, hops, hrec, hwait⟩ :=
        waits codec maxLineBytes a hserved hshut
      have hpolls : ∀ op ∈ ops ++ [.poll a a], op.Goes a := by
        simpa [or_imp, forall_and, ServerOp.Goes] using hops
      obtain ⟨hpoll, hshor⟩ := poll_shorter codec maxLineBytes a hwait rfl
      have hnext := hframed.run_goes codec hpolls
      rw [Machine.run_append] at hnext
      obtain ⟨more, hmore, hmoreReceived, hdone⟩ := ih hnext fun onward honward =>
        (hshor onward honward).trans (Nat.sub_le_of_le_add (hn session hserved))
      refine ⟨ops ++ [.poll a a] ++ more, ?_, ?_⟩
      · simpa [or_imp, forall_and, ServerOp.Goes] using ⟨hops, hmore⟩
      · rw [Machine.run_append, Machine.run_append]
        exact ⟨hmoreReceived.trans (hpoll.trans hrec), hdone⟩

end ReadingOn

variable {maxLineBytes} in
theorem Framed.frames_eq {s : Server} {session : Session} (h : Framed maxLineBytes s)
    (hses : session ∈ s.session) (hread : session.buffer = []) : s.frames = s.lines := by
  cases h with
  | ended e hclosed =>
    rw [hclosed] at hses
    cases hses
  | serving session' hserved hshut hended hsplit =>
    cases hserved.symm.trans hses
    rw [Server.lines, hsplit, hread]
    exact (List.append_nil _).symm

variable {maxLineBytes} in
theorem Framed.isPrefix {s : Server} (h : Framed maxLineBytes s) : s.frames <+: s.lines := by
  cases h with
  | ended e hclosed hended hframes hcause => exact hframes
  | serving session hserved hshut hended hsplit =>
    rw [Server.lines, hsplit]
    exact List.prefix_append _ _

variable {maxLineBytes} in
theorem Framed.ofAdapter {s : Server} (h : Framed maxLineBytes s)
    (hlines : ∀ line ∈ s.lines, Readable maxLineBytes line) (hclosed : s.session = none) :
    ∃ e : ServeError, s.ended = some (.error e) ∧ e.OfAdapter := by
  cases h with
  | serving session hserved => cases hclosed.symm.trans hserved
  | ended e _ hended _ hcause =>
    rcases hcause with he | ⟨line, hline, hnot⟩
    · exact ⟨e, hended, he⟩
    · exact absurd (hlines line hline) hnot

/-- **The frames are the lines of the stream**, each once, complete and in order, if the timer never
fires within a line. -/
theorem frames_of_lines (codec : ServerCodec) (maxLineBytes : ℕ) (s₀ : Server) (ops : List ServerOp)
    (hidle : s₀.session = none) (hup : s₀.shutdown = false)
    (hopen : (serverMachine codec maxLineBytes).Each (fun s op => op.KeepsOpen ∧ ¬ Tears s op)
      s₀.accept ops)
    (hlines : ∀ line ∈ ((serverMachine codec maxLineBytes).run s₀ (.connect :: ops)).lines,
      Readable maxLineBytes line) :
    let s := (serverMachine codec maxLineBytes).run s₀ (.connect :: ops)
    s.frames <+: s.lines ∧ (∀ session ∈ s.session, session.buffer = [] → s.frames = s.lines) ∧
    (s.session = none → ∃ e, s.ended = some (.error e) ∧ e.OfAdapter) ∧
    ∀ a, ∃ more, (∀ op ∈ more, op.Goes a) ∧
      let s' := (serverMachine codec maxLineBytes).run s more
      (s'.session = none → ∃ e, s'.ended = some (.error e) ∧ e.OfAdapter) ∧
      ∀ session ∈ s'.session, s'.frames = s.lines := by
  have hcon : (serverMachine codec maxLineBytes).run s₀ (.connect :: ops) =
      (serverMachine codec maxLineBytes).run s₀.accept ops := by
    have hstep : serverStep codec maxLineBytes s₀ .connect = s₀.accept := by
      simp [serverStep, hidle, idleStep, hup]
    exact congrArg (fun s => (serverMachine codec maxLineBytes).run s ops) hstep
  rw [hcon] at hlines ⊢
  have hframed : Framed maxLineBytes ((serverMachine codec maxLineBytes).run s₀.accept ops) :=
    Machine.invariant_run_of_each (fun s op hop hs => hs.step hop.1 hop.2) hopen
      (.serving _ rfl hup rfl rfl)
  intro s
  refine ⟨hframed.isPrefix, fun session hses => hframed.frames_eq hses,
    hframed.ofAdapter hlines, fun a => ?_⟩
  obtain ⟨more, hmore, hrec, hread⟩ := reads_on codec a hframed
  have hnext := hframed.run_goes codec hmore
  have hsame : ((serverMachine codec maxLineBytes).run s more).lines = s.lines := by
    rw [Server.lines, Server.lines, hrec]
  refine ⟨more, hmore, hnext.ofAdapter (by rwa [hsame]), fun session hses => ?_⟩
  rw [← hsame]
  exact hnext.frames_eq hses (hread session hses)

def ServerCodec.sample : ServerCodec := { JsonLineCodec.sample with eventToVec := fun _ => .ok [] }

def Server.sample : Server where
  adapter := .sample
  shutdown := false
  session := none
  ended := none
  received := []
  frames := []
  pushed := []
  delivered := []

def Answers.idle : Answers := .sample none false

def ticksBetween : List ServerOp :=
  [.arrive [97], .poll .idle .idle, .arrive [98, 10, 99], .poll .idle .idle, .write true, .write true,
    .tick .idle .idle .idle, .write true, .poll .idle .idle]

theorem frames_of_lines_between :
    let s := (serverMachine .sample 100).run .sample (.connect :: ticksBetween)
    s.frames = [[97, 98, 10]] ∧ ∀ session ∈ s.session, session.buffer = [] → s.frames = s.lines := by
  refine ⟨by decide +kernel, (frames_of_lines .sample 100 .sample ticksBetween rfl rfl ?_ ?_).2.1⟩
  · decide +kernel
  · decide +kernel

/-- **A frame without its beginning**: the timer fires within a line, and its end is taken for a
frame. -/
theorem frame_torn :
    let ops : List ServerOp := [.arrive [97, 98], .poll .idle .idle, .tick .idle .idle .idle,
      .write true, .arrive [99, 10], .poll .idle .idle]
    let s := (serverMachine .sample 100).run .sample (.connect :: ops)
    s.lines = [[97, 98, 99, 10]] ∧ Readable 100 [97, 98, 99, 10] ∧ (∀ op ∈ ops, op.KeepsOpen) ∧
      s.session.isSome ∧ s.frames = [[99, 10]] := by
  decide +kernel

end CodexMarathon.Adapter
