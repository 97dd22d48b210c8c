/-
**Events across connections.**

Events are added at the end of the queue and stay there across connections.  The server takes all of
them out at once, and then encodes and writes them one by one: what is not written when that fails
is gone.
-/

import CodexMarathon.Adapter.Server

namespace CodexMarathon

open Result

namespace Adapter

open Stateful

variable {lost : Prop} {chunks : List Chunk}

/-! ### The queue -/

def Grows (s s' : RuntimeAdapter) : Prop := s.events <+: s'.events

instance : Std.Refl Grows := ⟨fun _ => List.prefix_rfl⟩

instance : IsTrans RuntimeAdapter Grows := ⟨fun _ _ _ => List.IsPrefix.trans⟩

theorem grows_transitional : Transitional Grows where
  event _ _ := List.prefix_append _ _
  count _ _ := List.prefix_rfl
  boundary _ _ := List.prefix_rfl
  version _ _ := List.prefix_rfl
  calls _ _ _ := List.prefix_rfl
  pending _ _ := List.prefix_rfl
  identity _ _ := List.prefix_rfl
  reload _ := List.prefix_rfl

theorem grows_recovering : Recovering Grows where
  toRoutine := grows_transitional.toRoutine
  seen _ _ := List.prefix_rfl
  recoveries _ _ := List.prefix_rfl
  results _ _ := List.prefix_rfl
  release _ _ := List.prefix_rfl

section Grows

variable {a : Answers}

theorem grows_dispatch (request : Request) : Keeps Grows (dispatch a request) := by
  by_cases hrel : ∃ params, request = .releaseRecovery params
  · obtain ⟨params, rfl⟩ := hrel
    exact (keeps_liftExcept _).bind fun _ =>
      (grows_recovering.releaseRecovery _).bind fun _ => keeps_pure _
  · exact grows_transitional.dispatch (not_exists.1 hrel)

theorem grows_handleRequest (s : RuntimeAdapter) (r : RpcRequest) :
    Grows s (handleRequest a s r).2 := by
  unfold handleRequest
  cases admitRequest s r with
  | error error => exact refl_of _ s
  | ok u => exact grows_dispatch r.request s

theorem grows_handleFrame (codec : JsonLineCodec) (s : RuntimeAdapter) (frame : List UInt8) :
    Grows s (handleFrame codec a s frame).2 := by
  unfold handleFrame
  cases codec.decode frame with
  | error error => exact refl_of _ s
  | ok decoded => exact grows_handleRequest s decoded.2

theorem grows_step (s : RuntimeAdapter) {op : AdapterOp} (h : op ≠ .drainEvents) :
    Grows s (step s (op, a)).1 := by
  cases op with
  | request r => exact grows_handleRequest s r
  | prepare params =>
    simp only [step]
    exact grows_transitional.prepare params s
  | commit params =>
    simp only [step]
    exact grows_transitional.commit params s
  | cancel params =>
    simp only [step]
    exact grows_transitional.settling.cancel params s
  | forwardRecovery event =>
    simp only [step]
    exact grows_recovering.forwardRecovery event s
  | drainNativeRecoveryEvents =>
    simp only [step]
    exact grows_recovering.forwardRecoveries _ s
  | releaseRecovery params =>
    simp only [step]
    exact grows_recovering.releaseRecovery params s
  | _ =>
    refine grows_recovering.step ?_ h s a
    exact trivial

end Grows

/-! ### The events of a server -/

def Server.inFlight (s : Server) : List RuntimeEvent :=
  (s.session.bind Session.writing).elim [] fun chunks => chunks.flatMap Chunk.events

def Server.held (s : Server) : List RuntimeEvent := s.delivered ++ s.inFlight ++ s.adapter.events

def Moves (s s' : Server) : Prop :=
  ∃ new, s'.pushed = s.pushed ++ new ∧ s'.held = s.held ++ new

def Drops (s s' : Server) : Prop :=
  ∃ new, s'.pushed = s.pushed ++ new ∧ s'.held.length < (s.held ++ new).length

section Moves

variable {codec : ServerCodec} {maxLineBytes : ℕ} {s s₁ s' : Server} {session : Session}

theorem Moves.of_eq (hpushed : s'.pushed = s.pushed) (hheld : s'.held = s.held) : Moves s s' :=
  ⟨[], hpushed.trans (List.append_nil _).symm, hheld.trans (List.append_nil _).symm⟩

theorem Moves.refl (s : Server) : Moves s s := .of_eq rfl rfl

theorem Moves.trans (h : Moves s s₁) (h' : Moves s₁ s') : Moves s s' := by
  obtain ⟨new, hpushed, hheld⟩ := h
  obtain ⟨new', hpushed', hheld'⟩ := h'
  refine ⟨new ++ new', ?_, ?_⟩
  · rw [hpushed', hpushed, List.append_assoc]
  · rw [hheld', hheld, List.append_assoc]

theorem Moves.trans_drops (h : Moves s s₁) (h' : Drops s₁ s') : Drops s s' := by
  obtain ⟨new, hpushed, hheld⟩ := h
  obtain ⟨new', hpushed', hheld'⟩ := h'
  refine ⟨new ++ new', ?_, ?_⟩
  · rw [hpushed', hpushed, List.append_assoc]
  · rwa [hheld, List.append_assoc] at hheld'

theorem moves_withAdapter {adapter : RuntimeAdapter} (h : Grows s.adapter adapter) :
    Moves s (s.withAdapter adapter) := by
  obtain ⟨new, hnew⟩ := h
  refine ⟨new, ?_, ?_⟩
  · rw [Server.withAdapter, ← hnew, List.drop_left]
  · change s.delivered ++ s.inFlight ++ adapter.events = _
    rw [← hnew, Server.held, List.append_assoc _ _ new]

theorem Server.held_close (result : Except ServeError Unit) :
    (s.close result).held = s.delivered ++ s.adapter.events := by
  change s.delivered ++ [] ++ s.adapter.events = _
  rw [List.append_nil]

theorem moves_close (h : s.inFlight = []) (result : Except ServeError Unit) :
    Moves s (s.close result) := by
  refine .of_eq rfl ?_
  rw [Server.held_close, Server.held, h, List.append_nil]

theorem drops_close (h : s.inFlight ≠ []) (result : Except ServeError Unit) :
    Drops s (s.close result) := by
  refine ⟨[], (List.append_nil _).symm, ?_⟩
  have hlength := List.length_pos_of_ne_nil h
  rw [Server.held_close]
  simp only [Server.held, List.append_nil, List.length_append]
  omega

theorem inFlight_eq_nil (h : s.session.bind Session.writing = none) : s.inFlight = [] := by
  rw [Server.inFlight, h]
  rfl

def Encodes (codec : ServerCodec) (event : RuntimeEvent) : Prop :=
  ∃ chunk, codec.encodeEvent event = .ok chunk

instance (event : RuntimeEvent) : Decidable (Encodes codec event) :=
  match h : codec.encodeEvent event with
  | .ok chunk => isTrue ⟨chunk, h⟩
  | .error _ => isFalse fun ⟨_, hchunk⟩ => nomatch h.symm.trans hchunk

theorem events_of_drain {events : List RuntimeEvent}
    (h : List.Forall₂ (fun event chunk => codec.encodeEvent event = .ok chunk) events chunks) :
    chunks.flatMap Chunk.events = events := by
  induction h with
  | nil => rfl
  | cons hchunk _ ih =>
    obtain ⟨text, htext, h⟩ := bind_eq_ok.1 hchunk
    simp only at h
    split_ifs at h
    cases h
    rw [List.flatMap_cons, ih]
    rfl

def Accounts (s s' : Server) (lost : Prop) : Prop := (¬ lost ∧ Moves s s') ∨ (lost ∧ Drops s s')

theorem Accounts.of_moves (h : Moves s s') (hlost : ¬ lost) : Accounts s s' lost :=
  .inl ⟨hlost, h⟩

theorem Moves.trans_accounts (h : Moves s s₁) (h' : Accounts s₁ s' lost) : Accounts s s' lost :=
  h'.imp (.imp_right h.trans) (.imp_right h.trans_drops)

theorem accounts_writeEvents (codec : ServerCodec) (session : Session)
    (hres : chunks.flatMap Chunk.events = []) (hidle : s.inFlight = []) :
    Accounts s (s.writeEvents codec session chunks)
      (¬ ∀ event ∈ s.adapter.events, Encodes codec event) := by
  unfold Server.writeEvents drainEventLines
  simp only
  split
  · rename_i e he
    have hnot : ¬ ∀ event ∈ s.adapter.events, Encodes codec event := by
      intro hall
      obtain ⟨chunks, hchunks⟩ := exists_mapM_iff.2 hall
      cases he.symm.trans hchunks
    -- the queue is empty already, and the connection ends
    refine .inr ⟨hnot, [], (List.append_nil _).symm, ?_⟩
    have hqueue : 0 < s.adapter.events.length := by
      refine List.length_pos_iff_ne_nil.2 fun hnil => ?_
      rw [hnil] at hnot
      exact hnot (List.forall_mem_nil _)
    rw [Server.held_close]
    simp only [Server.held, List.append_nil, List.length_append]
    omega
  · rename_i events hevents
    refine .of_moves (.of_eq rfl ?_) (not_not.2 (exists_mapM_iff.1 ⟨events, hevents⟩))
    change s.delivered ++ (chunks ++ events).flatMap Chunk.events ++ [] = _
    rw [List.flatMap_append, hres, events_of_drain (mapM_eq_ok.1 hevents), Server.held,
      hidle]
    simp

/-! ### The branches -/

structure Answered (s : Server) (r : Except ServeError (List Chunk) × Server) : Prop where
  moves : Moves s r.2
  session : r.2.session = s.session
  response : ∀ chunks, r.1 = .ok chunks → chunks.flatMap Chunk.events = []

theorem moves_drain (s : Server) (drain : Answers) :
    Moves s (s.withAdapter ((drainNativeRecoveryEvents drain).exec s.adapter).2) :=
  moves_withAdapter (grows_recovering.forwardRecoveries _ s.adapter)

theorem answered_answerLine (codec : ServerCodec) (maxLineBytes : ℕ) (s : Server)
    (drain frame : Answers) (line : List UInt8) :
    Answered s (s.answerLine codec maxLineBytes drain frame line) := by
  unfold Server.answerLine
  split_ifs
  · exact ⟨.refl s, rfl, nofun⟩
  · exact ⟨.refl s, rfl, nofun⟩
  · simp only
    have hdrain := moves_drain s drain
    split
    · exact ⟨hdrain, rfl, nofun⟩
    · have hframe := hdrain.trans (moves_withAdapter
        (grows_handleFrame (a := frame) codec.toJsonLineCodec _ line))
      split
      · exact ⟨hframe, rfl, nofun⟩
      · refine ⟨hframe, rfl, fun chunks hchunks => ?_⟩
        cases hchunks
        rfl

theorem moves_observe (s : Server) (count rates : Answers) :
    Moves s (s.observe count rates) ∧ (s.observe count rates).session = s.session := by
  unfold Server.observe
  split_ifs
  · refine ⟨Moves.trans (moves_withAdapter (grows_recovering.observeTurnCount (a := count) s.adapter)) ?_, rfl⟩
    exact moves_withAdapter (grows_recovering.reporting.readAndForwardRateLimits _)
  · exact ⟨.refl s, rfl⟩

theorem answered_answerTick (s : Server) (drain count rates : Answers) :
    Answered s (s.answerTick drain count rates) := by
  unfold Server.answerTick
  simp only
  have hdrain := moves_drain s drain
  split
  · exact ⟨hdrain, rfl, nofun⟩
  · obtain ⟨hobs, hses⟩ := moves_observe
      (s.withAdapter ((drainNativeRecoveryEvents drain).exec s.adapter).2) count rates
    refine ⟨hdrain.trans hobs, hses, fun chunks hchunks => ?_⟩
    cases hchunks
    rfl

def FailsToEncode (codec : ServerCodec) (r : Except ServeError (List Chunk) × Server) : Prop :=
  match r.1 with
  | .error _ => False
  | .ok _ => ¬ ∀ event ∈ r.2.adapter.events, Encodes codec event

instance : (r : Except ServeError (List Chunk) × Server) → Decidable (FailsToEncode codec r)
  | (.error _, _) => inferInstanceAs (Decidable False)
  | (.ok _, s) => inferInstanceAs (Decidable (¬ ∀ event ∈ s.adapter.events, Encodes codec event))

theorem Answered.accounts {r : Except ServeError (List Chunk) × Server} (h : Answered s r)
    (codec : ServerCodec) (session : Session) (hwaits : s.session.bind Session.writing = none) :
    Accounts s (Server.finish codec session r) (FailsToEncode codec r) := by
  have hidle : r.2.inFlight = [] := inFlight_eq_nil (by rwa [h.session])
  obtain ⟨answer, server⟩ := r
  cases answer with
  | error e => exact .of_moves (h.moves.trans (moves_close hidle _)) id
  | ok chunks =>
    exact h.moves.trans_accounts (accounts_writeEvents codec session (h.response chunks rfl) hidle)

def ServerOp.breaks : ServerOp → Bool
  | .write false => true
  | _ => false

def Session.branch (codec : ServerCodec) (maxLineBytes : ℕ) (session : Session) (s : Server) :
    ServerOp → Option (Except ServeError (List Chunk) × Server)
  | .poll drain frame =>
    (Lines.cut 10 session.buffer).map fun r =>
      s.answerLine codec maxLineBytes drain frame (session.line ++ r.1)
  | .eof drain frame =>
    if session.buffer = [] ∧ session.line ≠ [] then
      some (s.answerLine codec maxLineBytes drain frame session.line)
    else none
  | .tick drain count rates => some (s.answerTick drain count rates)
  | _ => none

/-- **Events are lost** where a write fails while some are still to be written, or one has no
notification. -/
def Loses (codec : ServerCodec) (maxLineBytes : ℕ) (s : Server) (op : ServerOp) : Prop :=
  (op.breaks = true ∧ s.inFlight ≠ []) ∨
    ∃ session ∈ s.session, session.writing = none ∧
      ∃ r ∈ session.branch codec maxLineBytes s op, FailsToEncode codec r

instance (op : ServerOp) : Decidable (Loses codec maxLineBytes s op) :=
  inferInstanceAs (Decidable (_ ∨ _))

theorem loses_of_waiting (hserved : s.session = some session) (hwaits : session.writing = none)
    (op : ServerOp) : Loses codec maxLineBytes s op ↔
      ∃ r ∈ session.branch codec maxLineBytes s op, FailsToEncode codec r := by
  have hidle : s.inFlight = [] := inFlight_eq_nil (by rw [hserved]; exact hwaits)
  simp [Loses, hidle, hserved, hwaits]

theorem accounts_waiting (hserved : s.session = some session) (hwaits : session.writing = none)
    (op : ServerOp) :
    Accounts s (waitingStep codec maxLineBytes session s op) (Loses codec maxLineBytes s op) := by
  have hnone : s.session.bind Session.writing = none := by
    rw [hserved]
    exact hwaits
  have hline := fun drain frame line onward =>
    (answered_answerLine codec maxLineBytes s drain frame line).accounts codec onward hnone
  rw [loses_of_waiting hserved hwaits]
  cases op with
  | connect | arrive | write | call => exact .of_moves (.refl s) (by simp [Session.branch])
  | readFails =>
    exact .of_moves (moves_close (inFlight_eq_nil hnone) _) (by simp [Session.branch])
  | shutdown =>
    refine .of_moves (.of_eq rfl ?_) (by simp [Session.branch])
    exact (Server.held_close _).trans (by rw [Server.held, inFlight_eq_nil hnone, List.append_nil])
  | tick drain count rates =>
    simp only [Session.branch, Option.mem_some_iff, exists_eq_left']
    exact (answered_answerTick s drain count rates).accounts codec _ hnone
  | poll drain frame =>
    simp only [waitingStep, Session.branch]
    cases Lines.cut 10 session.buffer with
    | none =>
      refine .of_moves (.of_eq rfl ?_) (by simp)
      change s.delivered ++ session.writing.elim [] _ ++ s.adapter.events = _
      rw [hwaits, Server.held, inFlight_eq_nil hnone]
      rfl
    | some r =>
      simp only [Option.map_some, Option.mem_some_iff, exists_eq_left']
      exact hline drain frame _ _
  | eof drain frame =>
    simp only [waitingStep, Session.branch]
    by_cases hbuffer : session.buffer = []
    · rw [if_neg (not_not.2 hbuffer)]
      by_cases hempty : session.line = []
      · rw [if_pos hempty, if_neg fun h => h.2 hempty]
        exact .of_moves (moves_close (inFlight_eq_nil hnone) _) (by simp)
      · rw [if_neg hempty, if_pos ⟨hbuffer, hempty⟩]
        simp only [Option.mem_some_iff, exists_eq_left']
        exact hline drain frame _ _
    · rw [if_pos hbuffer, if_neg fun h => hbuffer h.1]
      exact .of_moves (.refl s) (by simp)

theorem accounts_writing (hserved : s.session = some session)
    (hwrit : session.writing = some chunks) (op : ServerOp) :
    Accounts s (writingStep session s op) (Loses codec maxLineBytes s op) := by
  have hloses : Loses codec maxLineBytes s op ↔ op.breaks = true ∧ s.inFlight ≠ [] := by
    simp [Loses, hserved, hwrit]
  rw [hloses]
  cases op with
  | connect | arrive | poll | eof | readFails | tick | call =>
    exact .of_moves (.refl s) (by simp [ServerOp.breaks])
  | shutdown => exact .of_moves (.of_eq rfl rfl) (by simp [ServerOp.breaks])
  | write success =>
    cases success with
    | false =>
      by_cases hidle : s.inFlight = []
      · exact .of_moves (moves_close hidle _) fun h => h.2 hidle
      · exact .inr ⟨⟨rfl, hidle⟩, drops_close hidle _⟩
    | true =>
      -- what is written moves from the one to the other, in order
      refine .of_moves ?_ (by simp [ServerOp.breaks])
      have hflight : s.inFlight = chunks.flatMap Chunk.events := by
        simp [Server.inFlight, hserved, hwrit]
      simp only [writingStep, Server.written, hwrit]
      cases chunks with
      | nil =>
        split_ifs
        · exact moves_close hflight _
        · refine .of_eq rfl ?_
          rw [Server.held, Server.held, hflight]
          rfl
      | cons chunk chunks =>
        refine .of_eq rfl ?_
        rw [Server.held, Server.held, hflight, List.flatMap_cons, ← List.append_assoc]
        rfl

theorem moves_idle (hidle : s.session = none) (op : ServerOp) : Moves s (idleStep s op) := by
  cases op with
  | connect =>
    simp only [idleStep]
    split_ifs
    · exact .refl s
    · refine .of_eq rfl ?_
      change s.delivered ++ [] ++ s.adapter.events = _
      rw [Server.held, inFlight_eq_nil (by rw [hidle]; rfl)]
  | shutdown => exact .of_eq rfl rfl
  | arrive | poll | eof | readFails | tick | write | call => exact .refl s

theorem accounts_session (hserved : s.session = some session) (op : ServerOp) :
    Accounts s (sessionStep codec maxLineBytes session s op) (Loses codec maxLineBytes s op) := by
  cases op with
  | arrive bytes =>
    refine .of_moves (.of_eq rfl ?_) (by simp [Loses, ServerOp.breaks, Session.branch])
    rw [Server.held, Server.held, Server.inFlight, Server.inFlight, hserved]
    rfl
  | connect | poll | eof | readFails | tick | write | shutdown | call =>
    simp only [sessionStep]
    cases hwrit : session.writing with
    | none => exact accounts_waiting hserved hwrit _
    | some chunks => exact accounts_writing hserved hwrit _

theorem accounts_step (codec : ServerCodec) (maxLineBytes : ℕ) (s : Server) (op : ServerOp) :
    Accounts s (serverStep codec maxLineBytes s op) (Loses codec maxLineBytes s op) := by
  cases op with
  | call op a =>
    exact .of_moves (moves_withAdapter (grows_step s.adapter op.2))
      (by simp [Loses, ServerOp.breaks, Session.branch])
  | connect | arrive | poll | eof | readFails | tick | write | shutdown =>
    simp only [serverStep]
    cases hses : s.session with
    | none =>
      refine .of_moves (moves_idle hses _) ?_
      simp [Loses, hses, inFlight_eq_nil (by rw [hses]; rfl)]
    | some session => exact accounts_session hses _

def Sound (s : Server) : Prop := s.held.length ≤ s.pushed.length

theorem Accounts.sound (h : Accounts s s' lost) (hs : Sound s) : Sound s' := by
  unfold Sound at hs ⊢
  rcases h with ⟨-, new, hpushed, hheld⟩ | ⟨-, new, hpushed, hheld⟩
  · rw [hpushed, hheld, List.length_append, List.length_append]
    omega
  · rw [List.length_append] at hheld
    rw [hpushed, List.length_append]
    omega

theorem Accounts.lost_iff (h : Accounts s s' lost) (hs : Sound s) :
    s'.pushed ≠ s'.held ↔ s.pushed ≠ s.held ∨ lost := by
  rcases h with ⟨hlost, new, hpushed, hheld⟩ | ⟨hlost, new, hpushed, hheld⟩
  · rw [hpushed, hheld, Ne, List.append_left_inj, or_iff_left hlost]
  · -- a step that loses events leaves fewer than were pushed, and none is ever found again
    refine iff_of_true (fun heq => ?_) (.inr hlost)
    rw [← heq, hpushed, List.length_append, List.length_append] at hheld
    unfold Sound at hs
    omega

end Moves

/-- **Every event is written, still to be written or in the queue**, exactly if no step failed
between the draining and the last write. -/
theorem events_accounted (codec : ServerCodec) (maxLineBytes : ℕ) {s₀ : Server}
    (hnew : s₀.pushed = s₀.held) (ops : List ServerOp) :
    let s := (serverMachine codec maxLineBytes).run s₀ ops
    let loses := (serverMachine codec maxLineBytes).Once (Loses codec maxLineBytes) s₀ ops
    (s.pushed = s.delivered ++ s.inFlight ++ s.adapter.events ↔ ¬ loses) ∧
    (¬ loses → ∀ event ∈ s.pushed,
      event ∈ s.adapter.events ∨ event ∈ s.inFlight ∨ event ∈ s.delivered) := by
  intro s loses
  have hsound := Machine.always_of_invariant (M := serverMachine codec maxLineBytes)
    (fun s op hs => (accounts_step codec maxLineBytes s op).sound hs) ops
    (Nat.le_of_eq (congrArg List.length hnew.symm))
  have hlatch := Machine.latch_run_iff
    (f := fun s => s.pushed ≠ s.held)
    (fun s op hs _ => (accounts_step codec maxLineBytes s op).lost_iff hs) ops hsound
  have hiff : s.pushed = s.delivered ++ s.inFlight ++ s.adapter.events ↔ ¬ loses := by
    rw [← not_iff_not, not_not]
    exact hlatch.trans (or_iff_right (not_not.2 hnew))
  refine ⟨hiff, fun hloses event hevent => ?_⟩
  rw [hiff.2 hloses, List.mem_append, List.mem_append] at hevent
  rcases hevent with (hdel | hflight) | hqueue
  · exact .inr (.inr hdel)
  · exact .inr (.inl hflight)
  · exact .inl hqueue

def parkedDelivery (success : Bool) : List ServerOp :=
  [.connect, .call ⟨.forwardRecovery (.parked "r" "usage_limit" none none none), nofun⟩ .idle,
    .tick .idle .idle .idle, .write success]

theorem events_accounted_parked :
    let s := (serverMachine .sample 100).run .sample (parkedDelivery true)
    s.pushed.length = 1 ∧ s.pushed = s.delivered ++ s.inFlight ++ s.adapter.events := by
  refine ⟨by decide +kernel, (events_accounted .sample 100 rfl (parkedDelivery true)).1.2 ?_⟩
  decide +kernel

def parkedAgain : List ServerOp := parkedDelivery false ++ parkedDelivery true

/-- **A lost event**: the connection breaks when it is written, and the next observation is not
forwarded. -/
theorem event_lost :
    let s := (serverMachine .sample 100).run .sample parkedAgain
    s.pushed.length = 1 ∧ ∀ event ∈ s.pushed, event ∉ s.adapter.events ∧ event ∉ s.delivered := by
  have hlost : let s := (serverMachine .sample 100).run .sample parkedAgain
      s.pushed.length = 1 ∧ s.adapter.events = [] ∧ s.delivered = [] := by
    decide +kernel
  obtain ⟨hpushed, hevents, hdel⟩ := hlost
  refine ⟨hpushed, fun event _ => ?_⟩
  rw [hevents, hdel]
  exact ⟨List.not_mem_nil, List.not_mem_nil⟩

end Adapter

end CodexMarathon
