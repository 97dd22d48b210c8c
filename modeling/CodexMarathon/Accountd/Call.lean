/-
**A call of the account daemon.**

The client sends one request on a connection of its own and reads one line.  It knows the answer by
its id, which the daemon leaves out where the handler passes its deadline and where the response is
too long.
-/

import CodexMarathon.Accountd.Daemon

namespace CodexMarathon.Accountd

/-! ### The client -/

inductive AccountdClientError
  | socketPathUnavailable
  | invalidRequest (message : String)
  | requestIdExhausted
  | requestTooLarge
  | responseTooLarge
  | timeout
  | unsupportedVersion (expected actual : UInt32)
  | responseIdMismatch
  | invalidResponseId
  | invalidResponse
  | remote (code message : String)
  | io
  | json
  | decode
deriving DecidableEq, Repr

structure AccountdClient where
  nextId : UInt64

def idValue (id : UInt64) : Json := .number (toString id.toNat)

def nextRequestId (client : AccountdClient) : Except AccountdClientError (Json × AccountdClient) :=
  if client.nextId.toNat + 1 < UInt64.size then .ok (idValue client.nextId, ⟨client.nextId + 1⟩)
  else .error .requestIdExhausted

def validateResponse (response : Response) (requestId : Json) : Except AccountdClientError Unit :=
  if response.version ≠ protocolVersion then
    .error (.unsupportedVersion protocolVersion response.version)
  else if isValidRequestId response.id = false then .error .invalidResponseId
  else if response.id.any (eqScalar · requestId) = false then .error .responseIdMismatch
  else if response.ok then
    Result.require (¬ (response.result.isNone ∨ response.error.isSome)) .invalidResponse
  else
    match response.error with
    | none => .error .invalidResponse
    | some error => .error (.remote error.code error.message)

inductive Failure
  | timeout
  | io

def Failure.toError : Failure → AccountdClientError
  | .timeout => .timeout
  | .io => .io

section Client

variable {T : Type} (codec : Codec) (fromValue : Json → Option T)

def accept (response : Response) (id : Json) : Except AccountdClientError T := do
  validateResponse response id
  let result ← Result.okOr response.result .invalidResponse
  Result.okOr (fromValue result) .decode

def receive (incoming : List Bytes) (id : Json) : Except AccountdClientError T := do
  let r ← (readLineBounded maxResponseBytes [] incoming).mapError fun _ => .responseTooLarge
  let line ← Result.okOr r.1 .invalidResponse
  let response ← Result.okOr (codec.responseFromSlice line) .json
  accept fromValue response id

/-- A connection: what comes back for what is sent, piece by piece. -/
abbrev Connection : Type := Bytes → Except Failure (List Bytes)

def send (connection : Connection) (id : Json) (method : String) (params : Json) :
    Except AccountdClientError T := do
  let encoded ← Result.okOr (codec.requestToVec (.new (some id) method params)) .json
  Result.require (encoded.length ≤ maxRequestBytes) .requestTooLarge
  let incoming ← (connection (encoded ++ [10])).mapError Failure.toError
  receive codec fromValue incoming id

def call (connection : Connection) (method : String) (params : Json) (client : AccountdClient) :
    Except AccountdClientError T × AccountdClient :=
  match nextRequestId client with
  | .error e => (.error e, client)
  | .ok (id, client) => (send codec fromValue connection id method params, client)

end Client

def Carries (codec : Codec) (response : Response) : Prop :=
  ∃ text, codec.responseToVec response = some text ∧ OneLine text ∧
    codec.responseFromSlice text = some response

def fits (codec : Codec) (response : Response) : Bool :=
  (codec.responseToVec response).all fun text => text.length ≤ maxResponseBytes

def tooLarge : Response := protocolErrorResponse none .responseTooLarge

def timedOut : Response := protocolErrorResponse none .requestTimeout

/-- **The result, or the error, that the daemon has for a request.** -/
def decision (U : UuidSource) (codec : Codec) (turn : Turn) (request : Request) (d : AccountDaemon) :
    Except AccountdError Json :=
  if turn.inTime = false then .error .requestTimeout
  else if fits codec (handleRequest U codec turn.outside request d).1 = false then
    .error .responseTooLarge
  else ((handled U codec turn.outside request).exec d).1

def agreed {T : Type} (fromValue : Json → Option T) :
    Except AccountdError Json → Except AccountdClientError T
  | .ok value => Result.okOr (fromValue value) .decode
  | .error e => .error (.remote e.publicCode e.publicMessage)

structure Intact (U : UuidSource) (codec : Codec) (turn : Turn) (turns : List Turn)
    (d : AccountDaemon) (connection : Connection) (sent : Bytes) : Prop where
  reads : turn.reading = .reads
  writes : turn.written = none
  pieces : ∃ incoming received, connection sent = .ok received ∧
    [] ∉ incoming ∧ incoming.flatten = sent ∧
    [] ∉ received ∧ received.flatten = (serveConnection U codec (turn :: turns) incoming d).1

section Ends

variable {T : Type} {U : UuidSource} {codec : Codec} {fromValue : Json → Option T} {turn : Turn}
  {d : AccountDaemon} {text : Bytes}

theorem serveConnection_first (turns : List Turn) (hreads : turn.reading = .reads) (hwrites : turn.written = none)
    {incoming : List Bytes} (hinc : [] ∉ incoming) (hflat : incoming.flatten = text ++ [10])
    (hline : OneLine text) (hshort : text.length ≤ maxRequestBytes) {reply : Bytes}
    (hreply : responseText codec (answerLine U codec turn text d).1 = some reply) :
    ∃ rest, (serveConnection U codec (turn :: turns) incoming d).1 = reply ++ 10 :: rest := by
  obtain ⟨left, hread, -⟩ := readLineBounded_of_oneLine hinc hflat hline hshort
  have hwrite : writeResponse codec turn (answerLine U codec turn text d).1 = (reply ++ [10], true) := by
    rw [writeResponse, hreply]
    simp only [hwrites]
  refine ⟨(serveConnection U codec turns left (answerLine U codec turn text d).2).1, ?_⟩
  simp only [serveConnection, hreads, hread, hwrite, if_true]
  rw [List.append_assoc, List.singleton_append]

def written (codec : Codec) (response : Response) : Response :=
  if fits codec response then response else tooLarge

theorem responseText_of_carries {response : Response} (hcar : Carries codec response)
    (hlarge : Carries codec tooLarge) (hfits : fits codec tooLarge = true) :
    ∃ text, responseText codec response = some text ∧ OneLine text ∧
      text.length ≤ maxResponseBytes ∧ codec.responseFromSlice text = some (written codec response) := by
  obtain ⟨text, htext, hline, hparse⟩ := hcar
  have hiff : fits codec response = true ↔ text.length ≤ maxResponseBytes := by
    simp [fits, htext]
  unfold responseText written
  by_cases hshort : text.length ≤ maxResponseBytes
  · refine ⟨text, ?_, hline, hshort, ?_⟩
    · simp only [htext, if_neg (Nat.not_lt.2 hshort)]
    · rw [if_pos (hiff.2 hshort), hparse]
  · obtain ⟨short, hshortText, hshortLine, hshortParse⟩ := hlarge
    refine ⟨short, ?_, hshortLine, ?_, ?_⟩
    · simp only [htext, if_pos (Nat.lt_of_not_le hshort)]
      exact hshortText
    · simpa [fits, hshortText] using hfits
    · rw [if_neg (hiff.not.2 hshort), hshortParse]

theorem accept_respond (id : UInt64) (r : Except AccountdError Json) :
    accept fromValue (respond (some (idValue id)) r) (idValue id) = agreed fromValue r := by
  cases r with
  | ok value =>
    have hvalid : validateResponse (.success (some (idValue id)) value) (idValue id) = .ok () := by
      simp [validateResponse, Response.success, isValidRequestId, idValue, eqScalar]
    rw [respond, accept, hvalid]
    rfl
  | error e =>
    have hvalid : validateResponse (protocolErrorResponse (some (idValue id)) e) (idValue id) =
        .error (.remote e.publicCode e.publicMessage) := by
      simp [validateResponse, protocolErrorResponse, Response.failure, isValidRequestId, idValue,
        eqScalar]
    rw [respond, accept, hvalid]
    rfl

theorem accept_anonymous (id : Json) (e : AccountdError) :
    accept fromValue (protocolErrorResponse none e) id = .error .responseIdMismatch := rfl

end Ends

structure Sends (codec : Codec) (client : AccountdClient) (method : String) (params : Json)
    (text : Bytes) : Prop where
  id : client.nextId.toNat + 1 < UInt64.size
  encoded : codec.requestToVec (.new (some (idValue client.nextId)) method params) = some text
  line : OneLine text
  short : text.length ≤ maxRequestBytes

structure Decodes (codec : Codec) (client : AccountdClient) (text : Bytes) (request : Request) :
    Prop where
  decoded : codec.requestFromSlice text = some request
  id : request.id = some (idValue client.nextId)

section Agreement

variable {T : Type} {U : UuidSource} {codec : Codec} {fromValue : Json → Option T} {turn : Turn}
  {turns : List Turn} {d : AccountDaemon} {connection : Connection} {client : AccountdClient}
  {method : String} {params : Json} {text : Bytes} {request : Request}

theorem call_eq_accept (hsends : Sends codec client method params text)
    (hintact : Intact U codec turn turns d connection (text ++ [10]))
    (hcar : Carries codec (answerLine U codec turn text d).1)
    (hlarge : Carries codec tooLarge) (hfits : fits codec tooLarge = true) :
    (call codec fromValue connection method params client).1 =
      accept fromValue (written codec (answerLine U codec turn text d).1) (idValue client.nextId) := by
  obtain ⟨incoming, received, hcon, hinc, hsent, hrec, hwrit⟩ := hintact.pieces
  obtain ⟨reply, hreply, hline, hshort, hparse⟩ := responseText_of_carries hcar hlarge hfits
  obtain ⟨rest, hserved⟩ := serveConnection_first turns hintact.reads hintact.writes hinc hsent
    hsends.line hsends.short hreply
  have hsend : send codec fromValue connection (idValue client.nextId) method params =
      receive codec fromValue received (idValue client.nextId) := by
    rw [send, hsends.encoded]
    change Result.require (text.length ≤ maxRequestBytes) _ >>= _ = _
    rw [Result.require, if_pos hsends.short]
    change Except.mapError _ (connection (text ++ [10])) >>= _ = _
    rw [hcon]
    rfl
  rw [call, nextRequestId, if_pos hsends.id]
  simp only
  rw [hsend]
  obtain ⟨left, hread, -⟩ := readLineBounded_of_oneLine hrec (hwrit.trans hserved) hline hshort
  rw [receive, hread]
  change Result.okOr (codec.responseFromSlice _) _ >>= _ = _
  rw [hparse]
  rfl

theorem handleRequest_eq (hdec : Decodes codec client text request) :
    (handleRequest U codec turn.outside request d).1 =
      respond (some (idValue client.nextId)) ((handled U codec turn.outside request).exec d).1 := by
  have hvalid : isValidRequestId request.id = true := by
    rw [hdec.id]
    rfl
  rw [handleRequest, if_neg (by simp [hvalid]), hdec.id]

end Agreement

/-- **Client and daemon agree**, if the handler is done before its deadline and the response is
short enough; otherwise the client gets a mismatch of ids instead of the error. -/
theorem call_agrees {T : Type} (U : UuidSource) (codec : Codec) (fromValue : Json → Option T)
    (connection : Connection) (turn : Turn) (turns : List Turn) (d : AccountDaemon)
    (client : AccountdClient) (method : String) (params : Json) (text : Bytes) (request : Request)
    (hsends : Sends codec client method params text) (hdecodes : Decodes codec client text request)
    (hintact : Intact U codec turn turns d connection (text ++ [10]))
    (hcarries : ∀ response ∈ [(handleRequest U codec turn.outside request d).1, timedOut, tooLarge],
      Carries codec response) (hfits : fits codec tooLarge = true) :
    let recognised := turn.inTime = true ∧
      fits codec (handleRequest U codec turn.outside request d).1 = true
    let result := (call codec fromValue connection method params client).1
    (recognised → result = agreed fromValue (decision U codec turn request d)) ∧
    (¬ recognised → result = .error .responseIdMismatch) := by
  intro recognised result
  have hanswer : (answerLine U codec turn text d).1 =
      if turn.inTime then (handleRequest U codec turn.outside request d).1 else timedOut := by
    rw [answerLine, hdecodes.decoded]
    simp only
    split_ifs <;> rfl
  have hresult : result = accept fromValue (written codec (answerLine U codec turn text d).1)
      (idValue client.nextId) := by
    refine call_eq_accept hsends hintact ?_ (hcarries _ (by simp)) hfits
    rw [hanswer]
    split_ifs
    · exact hcarries _ (by simp)
    · exact hcarries _ (by simp)
  rw [hresult, hanswer]
  constructor
  · rintro ⟨hinTime, hfit⟩
    rw [if_pos hinTime, written, if_pos hfit, decision, if_neg (by simp [hinTime]),
      if_neg (by simp [hfit]), handleRequest_eq hdecodes]
    exact accept_respond _ _
  · intro hnot
    -- neither response repeats the id
    unfold written
    split_ifs with hinTime hfit hfit
    · exact absurd ⟨hinTime, hfit⟩ hnot
    · exact accept_anonymous _ _
    · exact accept_anonymous _ _
    · exact accept_anonymous _ _

/-! ### A sample exchange -/

def Codec.sample : Codec where
  requestToVec _ := some [1]
  requestFromSlice _ := some (.new (some (idValue 1)) "health" .null)
  responseToVec response :=
    some (if response.ok then [2] else if response.error.any (·.code = "request_timeout") then [3] else [4])
  responseFromSlice
    | [2] => some (.success (some (idValue 1)) healthResult)
    | [3] => some timedOut
    | [4] => some tooLarge
    | _ => none
  eventsSince _ := none
  expirySet _ := none
  observation _ := none
  completion _ := none
  statusToValue _ := none
  jobToValue _ := none

def Outside.sample : Outside where
  now := Expiry.clock
  clock := Expiry.clock
  registry := none
  canonicalize _ := none
  persists := true
  reads := true
  status := .error .quota
  accounts := .error .quota
  eventsSince _ _ := .error .persistence

def Turn.sample (inTime : Bool) : Turn where
  reading := .reads
  outside := .sample
  inTime := inTime
  commits := false
  written := none

def AccountDaemon.sample : AccountDaemon := ⟨.init, none⟩

def Connection.sample (turn : Turn) : Connection := fun sent =>
  .ok [(serveConnection .binary .sample [turn] [sent] .sample).1]

theorem sends_sample : Sends .sample ⟨1⟩ "health" .null [1] where
  id := by decide
  encoded := rfl
  line := by decide
  short := by decide

theorem decodes_sample :
    Decodes .sample ⟨1⟩ [1] (.new (some (idValue 1)) "health" .null) := ⟨rfl, rfl⟩

theorem intact_sample (inTime : Bool) :
    Intact .binary .sample (.sample inTime) [] .sample (.sample (.sample inTime)) [1, 10] where
  reads := rfl
  writes := rfl
  pieces := by
    refine ⟨[[1, 10]], _, rfl, by decide, rfl, ?_, List.append_nil _⟩
    cases inTime
    · decide +kernel
    · decide +kernel

theorem call_agrees_health :
    (call .sample some (.sample (.sample true)) "health" .null ⟨1⟩).1 = .ok healthResult := by
  have hagrees := call_agrees .binary .sample some (.sample (.sample true)) (.sample true) [] .sample
    ⟨1⟩ "health" .null [1] _ sends_sample decodes_sample (intact_sample true) ?_ (by decide)
  · exact (hagrees.1 ⟨rfl, by decide⟩).trans rfl
  · intro response hres
    simp only [List.mem_cons, List.not_mem_nil, or_false] at hres
    rcases hres with rfl | rfl | rfl
    · exact ⟨[2], rfl, by decide, rfl⟩
    · exact ⟨[3], rfl, by decide, rfl⟩
    · exact ⟨[4], rfl, by decide, rfl⟩

/-- **A mismatch of ids**: the handler passes the deadline, and the client is not told so. -/
theorem call_mismatch : Sends .sample ⟨1⟩ "health" .null [1] ∧
    Decodes .sample ⟨1⟩ [1] (.new (some (idValue 1)) "health" .null) ∧
    Intact .binary .sample (.sample false) [] .sample (.sample (.sample false)) [1, 10] ∧
    decision .binary .sample (.sample false) (.new (some (idValue 1)) "health" .null) .sample =
      .error .requestTimeout ∧
    (call .sample some (.sample (.sample false)) "health" .null ⟨1⟩).1 = .error .responseIdMismatch :=
  ⟨sends_sample, decodes_sample, intact_sample false, rfl, rfl⟩

/-- `serde_json` writes no line breaks, and the response for one that is too long is short. -/
structure Compact (codec : Codec) : Prop where
  request : ∀ request text, codec.requestToVec request = some text → OneLine text
  response : ∀ response text, codec.responseToVec response = some text → OneLine text
  tooLarge : fits codec tooLarge = true

section Lines

variable {codec : Codec} {text rest : Bytes} {chunks : List Bytes}

theorem takeLine_of_oneLine {maxBytes : ℕ} (hchunks : [] ∉ chunks)
    (hflat : chunks.flatten = text ++ 10 :: rest) (htext : OneLine text)
    (hshort : text.length ≤ maxBytes) :
    ∃ left, takeLine maxBytes chunks = (.ok (some text), left) ∧ left.flatten = rest := by
  obtain ⟨left, hread, hleft, -⟩ := readLineBounded_of_oneLine hchunks hflat htext hshort
  exact ⟨left, by rw [takeLine, hread], hleft⟩

theorem send_of_too_large {T : Type} {fromValue : Json → Option T} {connection : Connection}
    {id params : Json} {method : String}
    (htext : codec.requestToVec (.new (some id) method params) = some text)
    (hlong : maxRequestBytes < text.length) :
    send codec fromValue connection id method params = .error .requestTooLarge := by
  rw [send, htext]
  change Result.require (text.length ≤ maxRequestBytes) _ >>= _ = _
  rw [Result.require, if_neg (Nat.not_le.2 hlong)]
  rfl

theorem oneLine_of_responseText (hcodec : Compact codec) {response : Response}
    (htext : responseText codec response = some text) :
    OneLine text ∧ text.length ≤ maxResponseBytes := by
  unfold responseText at htext
  cases hvec : codec.responseToVec response with
  | none =>
    rw [hvec] at htext
    cases htext
  | some whole =>
    rw [hvec] at htext
    simp only at htext
    split_ifs at htext with hlong
    · have hfits := hcodec.tooLarge
      rw [fits, tooLarge, htext] at hfits
      exact ⟨hcodec.response _ _ htext, of_decide_eq_true hfits⟩
    · cases htext
      exact ⟨hcodec.response _ _ hvec, Nat.not_lt.1 hlong⟩

end Lines

/-- **Both ends read lines, however they arrive**: each up to the first that is too long, a request
that is not refused as it was encoded, and every response as it was written. -/
theorem lines_as_written {T : Type} (codec : Codec) (hcodec : Compact codec)
    (fromValue : Json → Option T) (chunks : List Bytes) (hchunks : [] ∉ chunks) :
    (∀ maxBytes n, (Lines.parts 10 chunks.flatten).length < n →
      Lines.calls (takeLine maxBytes) n chunks =
        Lines.untilError ((Lines.parts 10 chunks.flatten).map (lineResult maxBytes))) ∧
    (∀ id method params text rest, codec.requestToVec (.new (some id) method params) = some text →
      chunks.flatten = text ++ 10 :: rest → if maxRequestBytes < text.length then
        ∀ connection, send codec fromValue connection id method params = .error .requestTooLarge
      else ∃ left, takeLine maxRequestBytes chunks = (.ok (some text), left) ∧ left.flatten = rest) ∧
    ∀ response text rest, responseText codec response = some text →
      chunks.flatten = text ++ 10 :: rest →
      ∃ left, takeLine maxResponseBytes chunks = (.ok (some text), left) ∧ left.flatten = rest := by
  refine ⟨?_, ?_, ?_⟩
  · intro maxBytes n hn
    exact Lines.calls_eq_untilError (fun _ h => takeLine_next maxBytes h) hchunks
      (by rwa [List.length_map])
  · intro id method params text rest htext hflat
    split_ifs with hlong
    · exact fun connection => send_of_too_large htext hlong
    · exact takeLine_of_oneLine hchunks hflat (hcodec.request _ _ htext) (Nat.not_lt.1 hlong)
  · intro response text rest htext hflat
    obtain ⟨hline, hshort⟩ := oneLine_of_responseText hcodec htext
    exact takeLine_of_oneLine hchunks hflat hline hshort

theorem lines_as_written_sample : Compact .sample ∧
    Lines.calls (takeLine 2) 4 [[1, 10, 2, 13], [10], [3, 13]] = [.ok [1], .ok [2], .ok [3, 13]] := by
  have hcodec : Compact .sample :=
    { request := by
        rintro _ _ ⟨⟩
        decide
      response := by
        rintro response _ ⟨⟩
        split_ifs <;> decide
      tooLarge := by decide }
  exact ⟨hcodec, (lines_as_written .sample hcodec some _ (by decide)).1 2 4 (by decide)⟩

end CodexMarathon.Accountd
