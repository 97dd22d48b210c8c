/-
**The account daemon.**

A connection is served request by request: a line is read, decoded and handled, and one response is
written.  Reading, handling and writing have a deadline each.  What the daemon asks besides the expiry
store, and what passes its deadline, is given turn by turn.
-/

import CodexMarathon.Accountd.Protocol
import CodexMarathon.Expiry.Log
import CodexMarathon.Lib.Stateful

namespace CodexMarathon.Accountd

structure AccountDaemon where
  ledger : Expiry.Ledger
  codexHome : Option String

structure RegistryPreview where
  enabled : Bool
  accounts : List String

/-- The clock, the results of the other stores as JSON values, and whether SQLite carries out the
transaction and the queries. -/
structure Outside where
  now : DateTime
  clock : DateTime
  registry : Option RegistryPreview
  canonicalize : String → Option String
  persists : Bool
  reads : Bool
  status : Except AccountdError Json
  accounts : Except AccountdError Json
  eventsSince : ℤ → UInt32 → Except AccountdError Json

def Outside.master (o : Outside) : Bool := o.registry.any (·.enabled)

def Outside.eligible (o : Outside) : List String := (o.registry.map (·.accounts)).getD []

abbrev AccountdM (α : Type) : Type := Stateful AccountDaemon AccountdError α

variable (U : UuidSource) (codec : Codec) (o : Outside)

def expiryStore (op : Expiry.Op) : AccountdM Expiry.Answer := do
  let d ← get
  -- a transaction that SQLite does not carry out leaves the tables as they were
  let r := Expiry.keyedStep U d.ledger (if o.persists then op else .abort)
  set { d with ledger := r.1 }
  pure r.2

def doneOf : Expiry.Answer → Except AccountdError Unit
  | .done result => result.mapError .ofExpiry
  | .claimed result => (result.mapError .ofExpiry).map fun _ => ()

def jobOf : Expiry.Answer → Except AccountdError (Option Expiry.ExpiryJob)
  | .claimed result => result.mapError .ofExpiry
  | .done result => (result.mapError .ofExpiry).map fun _ => none

def expiryStatus : AccountdM Json := do
  let d ← get
  let status ← liftM (if o.reads then
      (d.ledger.db.status o.master d.codexHome o.now).mapError AccountdError.ofExpiry
    else .error .persistence)
  liftM (Result.okOr (codec.statusToValue status) AccountdError.stateUnavailable)

def decodeParams {α : Type} (decoded : Option α) : AccountdM α :=
  liftM (Result.okOr decoded AccountdError.invalidRequest)

def refuseUnless (c : Prop) [Decidable c] : AccountdM Unit :=
  liftM (Result.require c AccountdError.invalidRequest)

def isNull : Json → Bool
  | .null => true
  | _ => false

def expiryMutation (home method : String) (params : Json) : AccountdM Json :=
  match method with
  | "auto_reset_expiry_set" => do
      let setting ← decodeParams (codec.expirySet params)
      let expected ← decodeParams (o.canonicalize setting.expectedCodexHome)
      refuseUnless (expected = home)
      liftM (doneOf (← expiryStore U o (.set setting.enabled o.clock)))
      -- the setting stays even if the report fails
      expiryStatus codec o
  | "expiry_observe" => do
      let observation ← decodeParams (codec.observation params)
      refuseUnless (observation.accountId ∈ o.eligible)
      liftM (doneOf (← expiryStore U o (.observe observation o.now)))
      pure .null
  | "expiry_claim" => do
      refuseUnless (isNull params = true)
      let job ← liftM (jobOf (← expiryStore U o (.claim o.eligible o.master o.now)))
      liftM (Result.okOr (codec.jobToValue job) AccountdError.stateUnavailable)
  | "expiry_complete" => do
      let completion ← decodeParams (codec.completion params)
      liftM (doneOf (← expiryStore U o (.complete completion o.now)))
      pure .null
  | "expiry_executor_heartbeat" => do
      refuseUnless (isNull params = true)
      liftM (doneOf (← expiryStore U o (.heartbeat o.now)))
      pure .null
  | _ => throw .invalidRequest

def expiryRequest (method : String) (params : Json) : AccountdM Json :=
  if method = "auto_reset_expiry_status" then expiryStatus codec o
  else do
    let d ← get
    -- a home that was guessed from the path of the database does not do
    let home ← liftM (Result.okOr d.codexHome AccountdError.stateUnavailable)
    expiryMutation U codec o home method params

def defaultEventLimit : UInt32 := 100

def eventsSinceResult (params : Json) : AccountdM Json := do
  let params ←
    if isNull params then pure { after := none, limit := none }
    else decodeParams (codec.eventsSince params)
  let limit := params.limit.getD defaultEventLimit
  refuseUnless (limit ≠ 0)
  liftM (o.eventsSince (params.after.getD 0) limit)

def healthResult : Json :=
  .object [("protocol_version", .number "1"), ("service", .string "codexmarathon-accountd"),
    ("status", .string "ok")]

def handleMethod (request : Request) : AccountdM Json :=
  match request.method with
  | "health" => pure healthResult
  | "status" => liftM o.status
  | "accounts" => liftM o.accounts
  | "events_since" => eventsSinceResult codec o request.params
  | "auto_reset_expiry_status" | "auto_reset_expiry_set" | "expiry_observe" | "expiry_claim"
  | "expiry_complete" | "expiry_executor_heartbeat" =>
    expiryRequest U codec o request.method request.params
  | _ => throw .invalidRequest

def handled (request : Request) : AccountdM Json := do
  if request.version ≠ protocolVersion then throw .unsupportedVersion
  refuseUnless (¬ (request.method = "" ∨ Expiry.maxIdentifierBytes < request.method.utf8ByteSize))
  handleMethod U codec o request

def respond (id : Option Json) : Except AccountdError Json → Response
  | .ok value => .success id value
  | .error error => protocolErrorResponse id error

def handleRequest (request : Request) (d : AccountDaemon) : Response × AccountDaemon :=
  if isValidRequestId request.id = false then (protocolErrorResponse none .invalidRequest, d)
  else
    let r := (handled U codec o request).exec d
    (respond request.id r.1, r.2)

/-- How the reading of a line ends, where it is not by what is read. -/
inductive Reading
  | reads
  | fails
  | timesOut

/-- Whether the handler is done in time, whether its transaction is committed if not, and how much
is written where the writing fails. -/
structure Turn where
  reading : Reading
  outside : Outside
  inTime : Bool
  commits : Bool
  written : Option ℕ

def answerLine (turn : Turn) (line : Bytes) (d : AccountDaemon) : Response × AccountDaemon :=
  match codec.requestFromSlice line with
  | none => (protocolErrorResponse none .invalidRequest, d)
  | some request =>
    let r := handleRequest U codec turn.outside request d
    if turn.inTime then r
    else (protocolErrorResponse none .requestTimeout, if turn.commits then r.2 else d)

def responseText (response : Response) : Option Bytes :=
  match codec.responseToVec response with
  | none => none
  | some text =>
    if maxResponseBytes < text.length then
      codec.responseToVec (protocolErrorResponse none .responseTooLarge)
    else some text

/-- `write_response`: what is written, and whether the connection goes on. -/
def writeResponse (turn : Turn) (response : Response) : Bytes × Bool :=
  match responseText codec response with
  | none => ([], false)
  | some text =>
    match turn.written with
    | none => (text ++ [10], true)
    | some n => ((text ++ [10]).take n, false)

/-- `serve_connection`, on what arrives piece by piece: what is written. -/
def serveConnection : List Turn → List Bytes → AccountDaemon → Bytes × AccountDaemon
  | [], _, d => ([], d)
  | turn :: turns, incoming, d =>
    match turn.reading with
    | .fails => ((writeResponse codec turn (protocolErrorResponse none .io)).1, d)
    | .timesOut => ((writeResponse codec turn (protocolErrorResponse none .requestTimeout)).1, d)
    | .reads =>
      match readLineBounded maxRequestBytes [] incoming with
      | .error () =>
        ((writeResponse codec turn (protocolErrorResponse none .requestTooLarge)).1, d)
      | .ok (none, _) => ([], d)
      | .ok (some line, rest) =>
        let a := answerLine U codec turn line d
        let w := writeResponse codec turn a.1
        if w.2 then
          let r := serveConnection turns rest a.2
          (w.1 ++ r.1, r.2)
        else (w.1, a.2)

end CodexMarathon.Accountd
