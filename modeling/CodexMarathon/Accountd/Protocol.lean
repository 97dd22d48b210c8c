/-
**The protocol of the account daemon.**

Client and daemon exchange one JSON envelope a line.  Both ends read lines with the same loop, which
takes what is available piece by piece and refuses a line that is too long; what `serde_json` makes of
an envelope is a parameter.
-/

import CodexMarathon.Expiry.Status
import CodexMarathon.Store.Vault
import CodexMarathon.Lib.Lines

namespace CodexMarathon.Accountd

/-! ### Envelopes -/

def protocolVersion : UInt32 := 1

def maxRequestBytes : ℕ := 64 * 1024

def maxResponseBytes : ℕ := 4 * 1024 * 1024

def isValidRequestId : Option Json → Bool
  | none | some .null | some (.bool _) | some (.number _) | some (.string _) => true
  | some (.array _) | some (.object _) => false

def eqScalar : Json → Json → Bool
  | .null, .null => true
  | .bool a, .bool b => a = b
  | .number a, .number b => a = b
  | .string a, .string b => a = b
  | _, _ => false

structure Request where
  version : UInt32
  id : Option Json
  method : String
  params : Json

def Request.new (id : Option Json) (method : String) (params : Json) : Request where
  version := protocolVersion
  id := id
  method := method
  params := params

structure ProtocolError where
  code : String
  message : String
deriving DecidableEq

structure Response where
  version : UInt32
  id : Option Json
  ok : Bool
  result : Option Json
  error : Option ProtocolError

namespace Response

def success (id : Option Json) (result : Json) : Response where
  version := protocolVersion
  id := id
  ok := true
  result := some result
  error := none

def failure (id : Option Json) (code message : String) : Response where
  version := protocolVersion
  id := id
  ok := false
  result := none
  error := some ⟨code, message⟩

end Response

/-- `AccountdError`, without the causes that are kept from the clients. -/
inductive AccountdError
  | stateUnavailable
  | invalidConfig
  | home
  | invalidRequest
  | unsupportedVersion
  | requestTooLarge
  | requestTimeout
  | responseTooLarge
  | socketUnavailable
  | socketConfig
  | socketInUse
  | persistence
  | corruptState
  | quota
  | io
deriving DecidableEq, Repr

namespace AccountdError

def publicCode : AccountdError → String
  | .stateUnavailable | .persistence | .corruptState => "state_unavailable"
  | .invalidConfig | .home | .socketConfig => "invalid_config"
  | .invalidRequest => "invalid_request"
  | .unsupportedVersion => "unsupported_version"
  | .requestTooLarge => "request_too_large"
  | .requestTimeout => "request_timeout"
  | .responseTooLarge => "response_too_large"
  | .socketUnavailable | .socketInUse | .io => "socket_unavailable"
  | .quota => "quota_unavailable"

def publicMessage : AccountdError → String
  | .stateUnavailable | .persistence | .corruptState => "account metadata state is unavailable"
  | .invalidConfig | .home | .socketConfig => "accountd configuration is invalid"
  | .invalidRequest => "request is invalid"
  | .unsupportedVersion => "protocol version is unsupported"
  | .requestTooLarge => "request exceeds the size limit"
  | .requestTimeout => "request timed out"
  | .responseTooLarge => "response exceeds the size limit"
  | .socketUnavailable | .socketInUse | .io => "socket is unavailable"
  | .quota => "quota metadata is unavailable"

def ofExpiry : Expiry.AccountdError → AccountdError
  | .invalidRequest => .invalidRequest
  | .corruptState => .corruptState
  | .persistence => .persistence

end AccountdError

def protocolErrorResponse (id : Option Json) (error : AccountdError) : Response :=
  .failure id error.publicCode error.publicMessage

structure EventsSinceParams where
  after : Option ℤ
  limit : Option UInt32

structure ExpirySet where
  enabled : Bool
  expectedCodexHome : String

/-- The functions of `serde_json` that client and daemon use. -/
structure Codec where
  requestToVec : Request → Option Bytes
  requestFromSlice : Bytes → Option Request
  responseToVec : Response → Option Bytes
  responseFromSlice : Bytes → Option Response
  eventsSince : Json → Option EventsSinceParams
  expirySet : Json → Option ExpirySet
  observation : Json → Option Expiry.ExpiryObservation
  completion : Json → Option Expiry.ExpiryCompletion
  statusToValue : Expiry.ExpiryStatus → Option Json
  jobToValue : Option Expiry.ExpiryJob → Option Json

def OneLine (text : Bytes) : Prop := 10 ∉ text ∧ text.getLast? ≠ some 13

instance (text : Bytes) : Decidable (OneLine text) := inferInstanceAs (Decidable (_ ∧ _))

/-! ### Lines -/

def stripDelimiter (line : Bytes) : Bytes :=
  let line := if line.getLast? = some 10 then line.dropLast else line
  if line.getLast? = some 13 then line.dropLast else line

/-- `read_line_bounded`, on what `fill_buf` answers call by call. -/
def readLineBounded (maxBytes : ℕ) (line : Bytes) : List Bytes → Except Unit (Option Bytes × List Bytes)
  | [] => .ok (if line = [] then none else some line, [])
  | available :: parts =>
    if available = [] then .ok (if line = [] then none else some line, available :: parts)
    else
      match Lines.cut 10 available with
      | none =>
        if maxBytes < line.length + available.length then .error ()
        else readLineBounded maxBytes (line ++ available) parts
      | some (first, rest) =>
        if maxBytes < line.length + (first.length - 1) then .error ()
        else .ok (some (stripDelimiter (line ++ first)), if rest = [] then parts else rest :: parts)

theorem stripDelimiter_of_oneLine {text : Bytes} (h : OneLine text) :
    stripDelimiter (text ++ [10]) = text := by
  simp [stripDelimiter, h.2]

theorem readLineBounded_eq_fill (maxBytes : ℕ) (line : Bytes) (chunks : List Bytes) :
    readLineBounded maxBytes line chunks =
      match Lines.fill 10 0 maxBytes line chunks with
      | .error _ => .error ()
      | .ok (line, delimited, left) =>
        .ok (if delimited then some (stripDelimiter line) else if line = [] then none else some line,
          left) := by
  induction chunks generalizing line with
  | nil => rfl
  | cons available chunks ih =>
    rw [readLineBounded, Lines.fill]
    by_cases hend : available = []
    · rw [if_pos hend, if_pos hend]
      rfl
    · rw [if_neg hend, if_neg hend]
      cases Lines.cut 10 available with
      | some r =>
        simp only [Nat.add_zero]
        split_ifs <;> rfl
      | none =>
        simp only
        split_ifs
        · rfl
        · exact ih _

/-- One call of `read_line_bounded`, and what is left of the stream. -/
def takeLine (maxBytes : ℕ) (chunks : List Bytes) : Except Unit (Option Bytes) × List Bytes :=
  match readLineBounded maxBytes [] chunks with
  | .error () => (.error (), chunks)
  | .ok (line, left) => (.ok line, left)

def lineResult (maxBytes : ℕ) (line : Bytes) : Except Unit Bytes :=
  if line.getLast? = some 10 then
    if maxBytes < line.length - 1 then .error () else .ok (stripDelimiter line)
  else if maxBytes < line.length then .error () else .ok line

theorem takeLine_next (maxBytes : ℕ) {chunks : List Bytes} (hchunks : [] ∉ chunks) :
    Lines.Next (fun chunks => (Lines.parts 10 chunks.flatten).map (lineResult maxBytes))
      ([] ∉ ·) chunks (takeLine maxBytes chunks) := by
  unfold Lines.Next takeLine
  simp only [readLineBounded_eq_fill]
  cases hcut : Lines.cut 10 chunks.flatten with
  | some r =>
    have hfill := Lines.fill_of_cut 0 maxBytes hchunks hcut []
    simp only [Lines.parts_of_cut hcut, List.map_cons, lineResult, Lines.getLast?_of_cut hcut, if_true]
    simp only [List.length_nil, Nat.zero_add, Nat.add_zero, List.nil_append] at hfill
    split_ifs at hfill ⊢
    · obtain ⟨left, hfill⟩ := hfill
      rw [hfill]
    · obtain ⟨left, hfill, hleft, hempty⟩ := hfill
      rw [hfill]
      exact ⟨rfl, by rw [hleft], hempty⟩
  | none =>
    have hfill := Lines.fill_of_cut_eq_none 0 maxBytes hchunks hcut [] (Nat.zero_le _)
    have hlast : chunks.flatten.getLast? ≠ some 10 := fun h =>
      Lines.not_mem_of_cut_eq_none hcut (List.mem_of_getLast? h)
    simp only [List.length_nil, Nat.zero_add, List.nil_append] at hfill
    rw [Lines.parts_of_cut_eq_none hcut]
    by_cases hnil : chunks.flatten = []
    · rw [hnil] at hfill
      simp only [List.length_nil, Nat.not_lt_zero, if_false] at hfill
      simp [hfill, hnil]
    · simp only [if_neg hnil, List.map_cons, List.map_nil, lineResult, if_neg hlast]
      split_ifs at hfill ⊢
      · obtain ⟨left, hfill⟩ := hfill
        rw [hfill]
      · rw [hfill]
        simp [hnil, Lines.parts, Lines.split]

theorem readLineBounded_of_cut {maxBytes : ℕ} {parts : List Bytes} {first rest : Bytes}
    (hparts : [] ∉ parts) (hcut : Lines.cut 10 parts.flatten = some (first, rest))
    (hshort : first.length - 1 ≤ maxBytes) :
    ∃ left, readLineBounded maxBytes [] parts = .ok (some (stripDelimiter first), left) ∧
      left.flatten = rest ∧ [] ∉ left := by
  have hfill := Lines.fill_of_cut 0 maxBytes hparts hcut []
  rw [if_neg (by simpa using hshort)] at hfill
  obtain ⟨left, hfill, hleft⟩ := hfill
  exact ⟨left, by rw [readLineBounded_eq_fill, hfill]; rfl, hleft⟩

theorem readLineBounded_of_oneLine {maxBytes : ℕ} {parts : List Bytes} {text rest : Bytes}
    (hparts : [] ∉ parts) (hflat : parts.flatten = text ++ 10 :: rest) (htext : OneLine text)
    (hshort : text.length ≤ maxBytes) :
    ∃ left, readLineBounded maxBytes [] parts = .ok (some text, left) ∧
      left.flatten = rest ∧ [] ∉ left := by
  have hcut : Lines.cut 10 parts.flatten = some (text ++ [10], rest) := by
    rw [hflat, Lines.cut_of_not_mem htext.1]
  obtain ⟨left, hread, hleft⟩ := readLineBounded_of_cut hparts hcut (by simpa using hshort)
  exact ⟨left, by rw [hread, stripDelimiter_of_oneLine htext], hleft⟩

end CodexMarathon.Accountd
