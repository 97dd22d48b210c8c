/-
**Frames from a controller.**

A connection carries one request a line, which is decoded, handled by the adapter and answered.
Beside frames, a connection sees native observations and resets, and the owner of the adapter calls
it directly.
-/

import CodexMarathon.Adapter.Transition
import CodexMarathon.Lib.Lines

namespace CodexMarathon

open Result

namespace Adapter

open Stateful

inductive FramingError
  | json (message : String)
  | oversized (maxBytes : ℕ)
deriving DecidableEq

/-- `JsonLineCodec`, with what `serde_json` makes of a frame and of a response. -/
structure JsonLineCodec where
  maxFrameBytes : ℕ
  fromSlice : List UInt8 → Except String (Json × RpcRequest)
  toVec : Json → Except RpcError Reply → Except String (List UInt8)

namespace JsonLineCodec

def decode (codec : JsonLineCodec) (frame : List UInt8) : Except FramingError (Json × RpcRequest) :=
  if codec.maxFrameBytes < frame.length then .error (.oversized codec.maxFrameBytes)
  else (codec.fromSlice frame).mapError .json

def encode (codec : JsonLineCodec) (id : Json) (response : Except RpcError Reply) :
    Except FramingError (List UInt8) := do
  let text ← (codec.toVec id response).mapError .json
  let frame := text ++ [10]
  if codec.maxFrameBytes < frame.length then .error (.oversized codec.maxFrameBytes)
  else pure frame

end JsonLineCodec

variable (codec : JsonLineCodec)

def handleFrame (a : Answers) (s : RuntimeAdapter) (frame : List UInt8) :
    Except FramingError (List UInt8) × RuntimeAdapter :=
  match codec.decode frame with
  | .error error => (.error error, s)
  | .ok (id, request) =>
    (codec.encode id (handleRequest a s request).1, (handleRequest a s request).2)

/-! ### Reading frames -/

def isAsciiWhitespace (b : UInt8) : Bool := b ∈ [32, 9, 10, 12, 13]

def trimFrame (frame : List UInt8) : List UInt8 :=
  let frame := if frame.getLast? = some 10 then frame.dropLast else frame
  if frame.getLast? = some 13 then frame.dropLast else frame

/-- The loop of `read_frame`, on what `fill_buf` answers call by call, for at most `n` lines. -/
def readFrameLoop (maxFrameBytes : ℕ) :
    ℕ → List (List UInt8) → Except FramingError (Option (List UInt8)) × List (List UInt8)
  | 0, chunks => (.ok none, chunks)
  | n + 1, chunks =>
    match Lines.fill 10 1 maxFrameBytes [] chunks with
    | .error left => (.error (.oversized maxFrameBytes), left)
    | .ok (frame, delimited, left) =>
      if frame = [] ∧ delimited = false then (.ok none, left)
      else if (trimFrame frame).all isAsciiWhitespace then readFrameLoop maxFrameBytes n left
      else (.ok (some (trimFrame frame)), left)

/-- `read_frame`: every turn of the loop but the last one takes a line. -/
def readFrame (maxFrameBytes : ℕ) (chunks : List (List UInt8)) :
    Except FramingError (Option (List UInt8)) × List (List UInt8) :=
  readFrameLoop maxFrameBytes (chunks.flatten.length + 1) chunks

def frameOf (maxFrameBytes : ℕ) (line : List UInt8) : Option (Except FramingError (List UInt8)) :=
  if maxFrameBytes < line.length then some (.error (.oversized maxFrameBytes))
  else if (trimFrame line).all isAsciiWhitespace then none
  else some (.ok (trimFrame line))

def framesOf (maxFrameBytes : ℕ) (bytes : List UInt8) : List (Except FramingError (List UInt8)) :=
  (Lines.parts 10 bytes).filterMap (frameOf maxFrameBytes)

def decodeAs {T : Type} (maxFrameBytes : ℕ) (fromSlice : List UInt8 → Except String T)
    (frame : List UInt8) : Except FramingError T :=
  if maxFrameBytes < frame.length then .error (.oversized maxFrameBytes)
  else (fromSlice frame).mapError .json

def encodeAs {T : Type} (maxFrameBytes : ℕ) (toVec : T → Except String (List UInt8)) (value : T) :
    Except FramingError (List UInt8) := do
  let text ← (toVec value).mapError .json
  let frame := text ++ [10]
  if maxFrameBytes < frame.length then .error (.oversized maxFrameBytes)
  else pure frame

theorem decode_eq_decodeAs : codec.decode = decodeAs codec.maxFrameBytes codec.fromSlice := rfl

theorem encode_eq_encodeAs (id : Json) (response : Except RpcError Reply) :
    codec.encode id response =
      encodeAs codec.maxFrameBytes (fun r => codec.toVec r.1 r.2) (id, response) := rfl

section Reading

variable {maxFrameBytes : ℕ} {chunks : List (List UInt8)}

theorem readFrameLoop_next {n : ℕ} (hchunks : [] ∉ chunks) (hn : chunks.flatten.length < n) :
    Lines.Next (fun chunks => framesOf maxFrameBytes chunks.flatten) ([] ∉ ·) chunks
      (readFrameLoop maxFrameBytes n chunks) := by
  induction n generalizing chunks with
  | zero => omega
  | succ n ih =>
    rw [readFrameLoop]
    cases hcut : Lines.cut 10 chunks.flatten with
    | some r =>
      obtain ⟨first, rest⟩ := r
      have hfill := Lines.fill_of_cut 1 maxFrameBytes hchunks hcut []
      simp only [List.length_nil, Nat.zero_add, Nat.sub_add_cancel (Lines.pos_of_cut hcut),
        List.nil_append] at hfill
      simp only [Lines.Next, framesOf, Lines.parts_of_cut hcut, List.filterMap_cons, frameOf]
      split_ifs at hfill with hlong
      · obtain ⟨left, hfill⟩ := hfill
        simp only [hfill, if_pos hlong]
      · obtain ⟨left, hfill, rfl, hleft⟩ := hfill
        simp only [hfill, if_neg hlong, Bool.true_eq_false, and_false, if_false]
        split_ifs
        · -- a blank line is skipped
          have hless := Lines.length_of_cut hcut
          exact ih hleft (by omega)
        · exact ⟨rfl, rfl, hleft⟩
    | none =>
      have hfill := Lines.fill_of_cut_eq_none 1 maxFrameBytes hchunks hcut [] (Nat.zero_le _)
      simp only [List.length_nil, Nat.zero_add, List.nil_append] at hfill
      simp only [Lines.Next, framesOf, Lines.parts_of_cut_eq_none hcut]
      by_cases hend : chunks.flatten = []
      · rw [hend] at hfill
        simp only [List.length_nil, Nat.not_lt_zero, if_false] at hfill
        simp [hfill, hend]
      · simp only [if_neg hend, List.filterMap_cons, List.filterMap_nil, frameOf]
        split_ifs at hfill with hlong
        · obtain ⟨left, hfill⟩ := hfill
          simp only [hfill, if_pos hlong]
        · simp only [hfill, if_neg hlong, hend, false_and, if_false]
          split_ifs
          · have hpos := List.length_pos_iff.2 hend
            exact ih List.not_mem_nil (by rw [List.flatten_nil, List.length_nil]; omega)
          · exact ⟨rfl, rfl, List.not_mem_nil⟩

theorem readFrame_of_text {text rest : List UInt8} (hchunks : [] ∉ chunks)
    (hflat : chunks.flatten = text ++ 10 :: rest) (hline : 10 ∉ text)
    (hlast : text.getLast? ≠ some 13) (hblank : text.all isAsciiWhitespace = false)
    (hshort : text.length < maxFrameBytes) :
    ∃ left, readFrame maxFrameBytes chunks = (.ok (some text), left) ∧ left.flatten = rest := by
  have hcut : Lines.cut 10 chunks.flatten = some (text ++ [10], rest) := by
    rw [hflat, Lines.cut_of_not_mem hline]
  have hfill := Lines.fill_of_cut 1 maxFrameBytes hchunks hcut []
  rw [if_neg (by simp; omega)] at hfill
  obtain ⟨left, hfill, hleft, -⟩ := hfill
  have htrim : trimFrame (text ++ [10]) = text := by
    simp [trimFrame, hlast]
  refine ⟨left, ?_, hleft⟩
  simp [readFrame, readFrameLoop, hfill, htrim, hblank]

end Reading

/-- `serde_json` writes a value as one line that is not blank, and reads it back. -/
def Serde {T : Type} (toVec : T → Except String (List UInt8))
    (fromSlice : List UInt8 → Except String T) : Prop :=
  ∀ value text, toVec value = .ok text → 10 ∉ text ∧ text.getLast? ≠ some 13 ∧
    text.all isAsciiWhitespace = false ∧ fromSlice text = .ok value

/-- **Frames do not depend on the chunks**, up to the first that is too long, and an encoded value
is read back. -/
theorem frames_read (maxFrameBytes : ℕ) (chunks : List (List UInt8)) (hchunks : [] ∉ chunks) :
    (∀ n, (framesOf maxFrameBytes chunks.flatten).length < n →
      Lines.calls (readFrame maxFrameBytes) n chunks =
        Lines.untilError (framesOf maxFrameBytes chunks.flatten)) ∧
    ∀ (T : Type) (toVec : T → Except String (List UInt8)) (fromSlice : List UInt8 → Except String T)
      (value : T) (frame rest : List UInt8), Serde toVec fromSlice →
      encodeAs maxFrameBytes toVec value = .ok frame → chunks.flatten = frame ++ rest →
      ∃ text left, toVec value = .ok text ∧
        readFrame maxFrameBytes chunks = (.ok (some text), left) ∧ left.flatten = rest ∧
        decodeAs maxFrameBytes fromSlice text = .ok value := by
  constructor
  · intro n hn
    exact Lines.calls_eq_untilError
      (fun _ h => readFrameLoop_next h (Nat.lt_succ_self _)) hchunks hn
  · intro T toVec fromSlice value frame rest hserde hencode hflat
    obtain ⟨text, htext, hframe⟩ := bind_eq_ok.1 hencode
    replace htext := mapError_eq_ok.1 htext
    simp only at hframe
    split_ifs at hframe with hlong
    cases hframe
    obtain ⟨hline, hlast, hblank, hparse⟩ := hserde value text htext
    rw [List.length_append, List.length_singleton] at hlong
    obtain ⟨left, hread, hleft⟩ := readFrame_of_text hchunks
      (by rw [hflat, List.append_assoc, List.singleton_append]) hline hlast hblank
      (Nat.lt_of_succ_le (Nat.not_lt.1 hlong))
    refine ⟨text, left, htext, hread, hleft, ?_⟩
    rw [decodeAs, if_neg (by omega), hparse]
    rfl

theorem frames_read_sample :
    Lines.calls (readFrame 3) 5 [[97, 13], [10, 32, 10, 98], [10, 99, 100, 101, 10, 102]] =
      [.ok [97], .ok [98], .error (.oversized 3)] :=
  (frames_read 3 _ (by decide)).1 5 (by decide)

/-- **After an error the chunks matter**: the one that is too long is still there. -/
theorem frames_after_oversized :
    [[97, 98, 99, 10]].flatten = ([[97, 98], [99, 10]] : List (List UInt8)).flatten ∧
    (readFrame 2 (readFrame 2 [[97, 98, 99, 10]]).2).1 = .error (.oversized 2) ∧
    (readFrame 2 (readFrame 2 [[97, 98], [99, 10]]).2).1 = .ok (some [99]) := ⟨rfl, rfl, rfl⟩

inductive ConnectionOp
  | frame (bytes : List UInt8)
  | call (op : AdapterOp)

inductive ConnectionAnswer
  | frame (response : Except FramingError (List UInt8))
  | call (answer : AdapterAnswer)

def connectionStep (s : RuntimeAdapter) (i : ConnectionOp × Answers) :
    RuntimeAdapter × ConnectionAnswer :=
  match i.1 with
  | .frame bytes => ((handleFrame codec i.2 s bytes).2, .frame (handleFrame codec i.2 s bytes).1)
  | .call op => ((step s (op, i.2)).1, .call (step s (op, i.2)).2)

def connectionMachine : Machine RuntimeAdapter (ConnectionOp × Answers) ConnectionAnswer :=
  ⟨connectionStep codec⟩

def ConnectionOp.adapterOp : ConnectionOp → Option AdapterOp
  | .frame bytes => (codec.decode bytes).toOption.map fun decoded => .request decoded.2
  | .call op => some op

variable {codec} {s : RuntimeAdapter} {i : ConnectionOp × Answers}

theorem connectionStep_of_none (h : i.1.adapterOp codec = none) :
    (connectionStep codec s i).1 = s := by
  obtain ⟨op, a⟩ := i
  cases op with
  | call op => cases h
  | frame bytes =>
    simp only [ConnectionOp.adapterOp] at h
    simp only [connectionStep, handleFrame]
    cases hdecode : codec.decode bytes with
    | error error => rfl
    | ok decoded =>
      rw [hdecode] at h
      cases h

theorem connectionStep_of_some {op : AdapterOp} (h : i.1.adapterOp codec = some op) :
    (connectionStep codec s i).1 = (step s (op, i.2)).1 := by
  obtain ⟨op', a⟩ := i
  cases op' with
  | call op' =>
    cases h
    rfl
  | frame bytes =>
    simp only [ConnectionOp.adapterOp] at h
    simp only [connectionStep, handleFrame]
    cases hdecode : codec.decode bytes with
    | error error =>
      rw [hdecode] at h
      cases h
    | ok decoded =>
      rw [hdecode] at h
      cases h
      rfl

/-! ### Reloads and preparations -/

variable (codec)

def connectionCalls (s : RuntimeAdapter) (i : ConnectionOp × Answers) : List BackendCall :=
  (connectionStep codec s i).1.backendCalls.drop s.backendCalls.length

def ConnectionOp.commitCall (s : RuntimeAdapter) (op : ConnectionOp) :
    Option AuthTransitionParams :=
  (op.adapterOp codec).bind (·.commitCall s)

def ConnectionOp.prepareCall (s : RuntimeAdapter) (op : ConnectionOp) :
    Option AuthTransitionParams :=
  (op.adapterOp codec).bind (·.prepareCall s)

def InvokesReload (s : RuntimeAdapter) (i : ConnectionOp × Answers) : Prop :=
  .reloadAuthAndInvalidate ∈ connectionCalls codec s i

instance (s : RuntimeAdapter) (i : ConnectionOp × Answers) : Decidable (InvokesReload codec s i) :=
  inferInstanceAs (Decidable (_ ∈ _))

def RegistersPrepared (s : RuntimeAdapter) (i : ConnectionOp × Answers) : Prop :=
  ∃ params, i.1.prepareCall codec s = some params ∧ s.prepared = none ∧
    (connectionStep codec s i).1.prepared = some params

/-- The step commits the pending transition after it has counted no running turn. -/
def ReloadsPrepared (s : RuntimeAdapter) (i : ConnectionOp × Answers) : Prop :=
  ∃ params, i.1.commitCall codec s = some params ∧ s.prepared = some params ∧
    connectionCalls codec s i = [.activeTurnCount 0, .reloadAuthAndInvalidate]

variable {codec}

theorem not_invokesReload_of_append (calls : List BackendCall)
    (hcalls : (connectionStep codec s i).1.backendCalls = s.backendCalls ++ calls)
    (hnot : .reloadAuthAndInvalidate ∉ calls) : ¬ InvokesReload codec s i := by
  rwa [InvokesReload, connectionCalls, hcalls, List.drop_left]

/-- **What a step does to the transition**: a reload commits and removes it, and only a preparation
brings a new one. -/
theorem connection_transition (codec : JsonLineCodec) (s : RuntimeAdapter)
    (i : ConnectionOp × Answers) : (InvokesReload codec s i → ReloadsPrepared codec s i ∧
      (connectionStep codec s i).1.prepared = none) ∧
    (¬ RegistersPrepared codec s i → s.prepared = none →
      (connectionStep codec s i).1.prepared = none) := by
  cases hop : i.1.adapterOp codec with
  | none =>
    have hstep := connectionStep_of_none (s := s) hop
    constructor
    · intro hreload
      refine absurd hreload (not_invokesReload_of_append [] ?_ (by simp))
      rw [hstep, List.append_nil]
    · intro _ hnone
      rw [hstep]
      exact hnone
  | some op =>
    have hstep := connectionStep_of_some (s := s) hop
    rw [hstep]
    cases step_transition s (op, i.2) with
    | same h =>
      obtain ⟨calls, hcalls, hnot⟩ := h.calls
      constructor
      · intro hreload
        exact absurd hreload (not_invokesReload_of_append calls (hstep ▸ hcalls) hnot)
      · intro _ hnone
        exact h.prepared.trans hnone
    | registers params hcall h =>
      obtain ⟨calls, hcalls, hnot⟩ := h.calls
      constructor
      · intro hreload
        exact absurd hreload (not_invokesReload_of_append calls (hstep ▸ hcalls) hnot)
      · intro hreg
        refine absurd ⟨params, ?_, h.free, hstep ▸ h.prepared⟩ hreg
        rw [ConnectionOp.prepareCall, hop]
        exact hcall
    | cancels params hcall h =>
      constructor
      · intro hreload
        refine absurd hreload (not_invokesReload_of_append [] ?_ (by simp))
        rw [hstep, h.calls, List.append_nil]
      · intro _ _
        exact h.cleared
    | reloaded params hcall h =>
      constructor
      · intro _
        refine ⟨⟨params, ?_, h.reloads.pending, ?_⟩, h.cleared⟩
        · rw [ConnectionOp.commitCall, hop]
          exact hcall
        · rw [connectionCalls, hstep, h.calls, List.drop_left]
      · intro _ _
        exact h.cleared

/-- The backend was not called; transition, identity and recoveries have not changed. -/
structure Untouched (s s' : RuntimeAdapter) : Prop where
  calls : s'.backendCalls = s.backendCalls
  pending : s'.pending = s.pending
  identity : s'.identity = s.identity
  recoveries : s'.recoveries = s.recoveries
  results : s'.releaseResults = s.releaseResults

instance : Std.Refl Untouched := ⟨fun _ => ⟨rfl, rfl, rfl, rfl, rfl⟩⟩

instance : IsTrans RuntimeAdapter Untouched where
  trans _ _ _ h h' :=
    ⟨h'.calls.trans h.calls, h'.pending.trans h.pending, h'.identity.trans h.identity,
      h'.recoveries.trans h.recoveries, h'.results.trans h.results⟩

theorem isNegotiate_of_admitRequest {r : RpcRequest} (hver : s.negotiatedVersion = none)
    (h : admitRequest s r = .ok ()) : ∃ params, r.request = .negotiate params := by
  have h := ok_of_bind h
  obtain ⟨⟨⟩, hfirst, -⟩ := bind_eq_ok.1 h
  have hneg := require_eq_ok.1 hfirst
  rw [hver] at hneg
  cases hreq : r.request with
  | negotiate params => exact ⟨params, rfl⟩
  | _ => simp [hreq, Request.isNegotiate] at hneg

theorem untouched_handleFrame (codec : JsonLineCodec) (hver : s.negotiatedVersion = none)
    (a : Answers) (frame : List UInt8) : Untouched s (handleFrame codec a s frame).2 := by
  unfold handleFrame
  cases codec.decode frame with
  | error error => exact refl_of _ s
  | ok decoded =>
    obtain ⟨id, r⟩ := decoded
    rcases step_request s r a with hsame | ⟨hacc, hstep⟩
    · change Untouched s (step s (.request r, a)).1
      rw [hsame]
      exact refl_of _ s
    · change Untouched s (step s (.request r, a)).1
      obtain ⟨params, hparams⟩ := isNegotiate_of_admitRequest hver hacc
      rw [hstep, hparams]
      have hkeeps : Keeps Untouched (dispatch a (.negotiate params)) := by
        refine (keeps_liftExcept _).bind fun params => Keeps.bind ?_ fun _ => keeps_pure _
        exact keeps_negotiate (fun _ _ _ => ⟨rfl, rfl, rfl, rfl, rfl⟩)
          (fun _ _ => ⟨rfl, rfl, rfl, rfl, rfl⟩) params
      exact hkeeps s

/-- **The guard of the reload.** A step that reloads commits the pending transition and has found no
running turn; between two of them a transition is prepared. Until a version is negotiated, a frame
does nothing. -/
theorem reload_guarded (codec : JsonLineCodec) (s₀ : RuntimeAdapter)
    (is : List (ConnectionOp × Answers)) :
    let s := (connectionMachine codec).run s₀ is
    (∀ i, InvokesReload codec s i → ReloadsPrepared codec s i) ∧
    (∀ i js j, InvokesReload codec s i →
      InvokesReload codec ((connectionMachine codec).run (connectionStep codec s i).1 js) j →
      (connectionMachine codec).Once (RegistersPrepared codec) (connectionStep codec s i).1 js) ∧
    (s.negotiatedVersion = none → ∀ a frame, Untouched s (handleFrame codec a s frame).2) := by
  intro s
  refine ⟨fun i hi => ((connection_transition codec s i).1 hi).1, ?_,
    fun hver a frame => untouched_handleFrame codec hver a frame⟩
  intro i js j hi hj
  by_contra hnever
  -- nothing is pending after the first reload, and the second one commits what is pending
  have hnone := Machine.invariant_run_of_not_once (M := connectionMachine codec)
    (I := fun s => s.prepared = none)
    (fun s i hnot hs => (connection_transition codec s i).2 hnot hs) hnever
    ((connection_transition codec s i).1 hi).2
  obtain ⟨⟨params, -, hpen, -⟩, -⟩ := (connection_transition codec _ j).1 hj
  cases hnone.symm.trans hpen

def JsonLineCodec.sample : JsonLineCodec where
  maxFrameBytes := 4194304
  fromSlice _ := .ok (.null,
    { jsonrpc := "2.0", paramsAreObject := true, request := .commitAuthTransition (.ok .sample) })
  toVec _ _ := .ok []

theorem reload_guarded_sample :
    let s := (connectionMachine .sample).run .sample
      [(.call (.prepare .sample), .sample none false)]
    let i : ConnectionOp × Answers := (.call (.commit .sample), .sample (some "b") true)
    InvokesReload .sample s i ∧ ReloadsPrepared .sample s i ∧ s.negotiatedVersion = none ∧
      Untouched s (handleFrame .sample (.sample (some "b") true) s []).2 := by
  intro s i
  have hreload : InvokesReload .sample s i := by decide
  obtain ⟨hprep, -, hunt⟩ := reload_guarded .sample .sample
    [(.call (.prepare .sample), .sample none false)]
  exact ⟨hreload, hprep i hreload, rfl, hunt rfl _ _⟩

end Adapter

end CodexMarathon
