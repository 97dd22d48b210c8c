/-
**Credentials of the native runtime.**

The documents the native runtime stores in `auth.json`, the authentication values it builds from
them, and the three comparisons the account machinery rests on: whose credentials these are, when
two of them are the same credentials, and when they belong to the same owner.
-/

import CodexMarathon.Primitives

namespace CodexMarathon.Auth

inductive IoErrorKind
  | notFound
  | permissionDenied
  | unsupported
  | invalidData
  | wouldBlock
  | other
deriving DecidableEq, Repr

structure IoError where
  kind : IoErrorKind
  message : String
deriving DecidableEq

/-! ### The stored document -/

inductive AuthMode
  | apiKey
  | chatgpt
  | chatgptAuthTokens
  | headers
  | agentIdentity
  | personalAccessToken
  | bedrockApiKey
  | bedrockAccessKeys
deriving DecidableEq, Repr

def AuthMode.usesCodexBackend : AuthMode → Bool
  | .chatgpt | .chatgptAuthTokens | .headers | .agentIdentity | .personalAccessToken => true
  | .apiKey | .bedrockApiKey | .bedrockAccessKeys => false

def AuthMode.display : AuthMode → String
  | .apiKey => "ApiKey"
  | .chatgpt => "Chatgpt"
  | .chatgptAuthTokens => "chatgptAuthTokens"
  | .headers => "headers"
  | .agentIdentity => "agentIdentity"
  | .personalAccessToken => "personalAccessToken"
  | .bedrockApiKey => "bedrockApiKey"
  | .bedrockAccessKeys => "bedrockAccessKeys"

/-- The claims of an identity token.  The name of a plan stands for it. -/
structure IdTokenInfo where
  email : Option String
  chatgptPlanType : Option String
  chatgptUserId : Option String
  chatgptAccountId : Option String
  chatgptAccountIsFedramp : Bool
  rawJwt : String
deriving DecidableEq

structure TokenData where
  idToken : IdTokenInfo
  accessToken : String
  refreshToken : String
  accountId : Option String
deriving DecidableEq

structure AgentIdentityAuthRecord where
  agentRuntimeId : String
  agentPrivateKey : String
  accountId : String
  chatgptUserId : String
  email : Option String
  planType : String
  chatgptAccountIsFedramp : Bool
  taskId : Option String
deriving DecidableEq

inductive AgentIdentityStorage
  | jwt (jwt : String)
  | record (record : AgentIdentityAuthRecord)
deriving DecidableEq

structure BedrockApiKeyAuth where
  apiKey : String
  region : String
deriving DecidableEq

structure BedrockAccessKeysAuth where
  accessKeyId : String
  secretAccessKey : String
  sessionToken : Option String
deriving DecidableEq

/-- The contents of `$CODEX_HOME/auth.json`. -/
structure AuthDotJson where
  authMode : Option AuthMode
  openaiApiKey : Option String
  tokens : Option TokenData
  lastRefresh : Option DateTime
  agentIdentity : Option AgentIdentityStorage
  personalAccessToken : Option String
  bedrockApiKey : Option BedrockApiKeyAuth
  bedrockAccessKeys : Option BedrockAccessKeysAuth
deriving DecidableEq

def AuthDotJson.resolvedMode (auth : AuthDotJson) : AuthMode :=
  match auth.authMode with
  | some mode => mode
  | none =>
    if auth.personalAccessToken.isSome then .personalAccessToken
    else if auth.bedrockApiKey.isSome then .bedrockApiKey
    else if auth.bedrockAccessKeys.isSome then .bedrockAccessKeys
    else if auth.openaiApiKey.isSome then .apiKey
    else .chatgpt

/-! ### Loaded credentials -/

structure AuthHeaders where
  headers : List (String × String)
deriving DecidableEq

structure PersonalAccessTokenAuth where
  accessToken : String
  email : Option String
  chatgptUserId : String
  chatgptAccountId : String
  planType : String
  chatgptAccountIsFedramp : Bool
deriving DecidableEq

/-- `CodexAuth`; token-backed variants hold their document. -/
inductive CodexAuth
  | apiKey (key : String)
  | chatgpt (auth : Option AuthDotJson)
  | chatgptAuthTokens (auth : Option AuthDotJson)
  | headers (headers : AuthHeaders)
  | agentIdentity (record : AgentIdentityAuthRecord)
  | personalAccessToken (auth : PersonalAccessTokenAuth)
  | bedrockApiKey (auth : BedrockApiKeyAuth)
  | bedrockAccessKeys (auth : BedrockAccessKeysAuth)
deriving DecidableEq

namespace CodexAuth

def apiAuthMode : CodexAuth → AuthMode
  | .apiKey _ => .apiKey
  | .chatgpt _ => .chatgpt
  | .chatgptAuthTokens _ => .chatgptAuthTokens
  | .headers _ => .headers
  | .agentIdentity _ => .agentIdentity
  | .personalAccessToken _ => .personalAccessToken
  | .bedrockApiKey _ => .bedrockApiKey
  | .bedrockAccessKeys _ => .bedrockAccessKeys

/-- `auth_mode`: externally managed ChatGPT tokens count as ChatGPT. -/
def authMode : CodexAuth → AuthMode
  | .chatgptAuthTokens _ => .chatgpt
  | auth => auth.apiAuthMode

def getCurrentAuthJson : CodexAuth → Option AuthDotJson
  | .chatgpt auth | .chatgptAuthTokens auth => auth
  | _ => none

def getCurrentTokenData (auth : CodexAuth) : Option TokenData :=
  auth.getCurrentAuthJson.bind (·.tokens)

/-- `get_token_data`: tokens count only once they have been refreshed. -/
def getTokenData (auth : CodexAuth) : Option TokenData :=
  (auth.getCurrentAuthJson.filter (·.lastRefresh.isSome)).bind (·.tokens)

/-- For token-backed credentials this is the stored `account_id` only, not a claim of the identity
token. -/
def getAccountId : CodexAuth → Option String
  | .headers h =>
    ((h.headers.find? (fun entry => entry.1 = "chatgpt-account-id")).map (·.2)).filter
      (fun id => !id.isEmpty && trim id = id)
  | .agentIdentity record => some record.accountId
  | .personalAccessToken auth => some auth.chatgptAccountId
  | auth => auth.getCurrentTokenData.bind (·.accountId)

def getChatgptUserId : CodexAuth → Option String
  | .headers _ => none
  | .agentIdentity record => some record.chatgptUserId
  | .personalAccessToken auth => some auth.chatgptUserId
  | auth => auth.getCurrentTokenData.bind (·.idToken.chatgptUserId)

def knownPlans : List String :=
  ["free", "go", "plus", "pro", "prolite", "promax", "team", "self_serve_business_prolite",
    "self_serve_business_usage_based", "business", "ent26", "enterprise_cbp_automation",
    "enterprise_cbp_usage_based", "enterprise", "edu", "edu_plus", "edu_pro"]

/-- `account_plan_type`: a plan that is not known is reported as unknown. -/
def accountPlanType : CodexAuth → Option String
  | .headers _ => none
  | .agentIdentity record => some record.planType
  | .personalAccessToken auth => some auth.planType
  | auth => auth.getCurrentTokenData.map fun tokens =>
    (tokens.idToken.chatgptPlanType.filter (· ∈ knownPlans)).getD "unknown"

end CodexAuth

def authsEqualForRefresh : Option CodexAuth → Option CodexAuth → Bool
  | none, none => true
  | some (.apiKey a), some (.apiKey b) => a = b
  | some (.chatgpt a), some (.chatgpt b) => a = b
  | some (.chatgptAuthTokens a), some (.chatgptAuthTokens b) => a.bind (·.tokens) = b.bind (·.tokens)
  | some (.headers a), some (.headers b) => a = b
  | some (.agentIdentity a), some (.agentIdentity b) => a = b
  | some (.personalAccessToken a), some (.personalAccessToken b) => a = b
  | some (.bedrockApiKey a), some (.bedrockApiKey b) => a = b
  | some (.bedrockAccessKeys a), some (.bedrockAccessKeys b) => a = b
  | _, _ => false

/-- `same_owner`: one user and one workspace, both known, in one mode. -/
def sameOwner : Option CodexAuth → Option CodexAuth → Bool
  | some previous, some current =>
    if previous.apiAuthMode ≠ current.apiAuthMode then false
    else
      match previous.getChatgptUserId, previous.getAccountId with
      | some user, some workspace =>
        !isBlank user && !isBlank workspace && current.getChatgptUserId = some user
          && current.getAccountId = some workspace
      | _, _ => false
  | _, _ => false

/-! ### Snapshots for a transition -/

/-- `transition_account_id`: an account identity that can name a transition. -/
def transitionAccountId (value : Option String) : Except IoError String :=
  match value.filter (fun id => !isBlank id) with
  | none => .error ⟨.invalidData, "managed auth snapshot has no account identity"⟩
  | some id =>
    if id.toList.any isControl then
      .error ⟨.invalidData, "managed auth snapshot has an invalid account identity"⟩
    else .ok id

def unsupportedMode (mode : AuthMode) : IoError :=
  ⟨.unsupported, "auth transitions do not support " ++ mode.display ++ " authentication"⟩

/-- `managed_transition_account_id`: here the claim of the identity token stands in for a missing
`account_id`. -/
def managedTransitionAccountId (auth : AuthDotJson) : Except IoError String :=
  if auth.resolvedMode ≠ .chatgpt then .error (unsupportedMode auth.resolvedMode)
  else
    match auth.tokens with
    | none => .error ⟨.invalidData, "managed ChatGPT auth snapshot has no token data"⟩
    | some tokens =>
      if tokens.accountId.isSome ∧ tokens.idToken.chatgptAccountId.isSome
          ∧ tokens.accountId ≠ tokens.idToken.chatgptAccountId then
        .error ⟨.invalidData, "managed auth snapshot has conflicting provider identities"⟩
      else transitionAccountId (tokens.accountId.or tokens.idToken.chatgptAccountId)

structure AuthTransitionSnapshot where
  authDotJson : AuthDotJson
  accountId : String
  accountId_eq : managedTransitionAccountId authDotJson = .ok accountId

def AuthTransitionSnapshot.fromAuthDotJson (auth : AuthDotJson) :
    Except IoError AuthTransitionSnapshot :=
  match h : managedTransitionAccountId auth with
  | .ok accountId => .ok ⟨auth, accountId, h⟩
  | .error e => .error e

theorem AuthTransitionSnapshot.fromAuthDotJson_eq_ok {auth : AuthDotJson}
    {s : AuthTransitionSnapshot} (h : fromAuthDotJson auth = .ok s) : s.authDotJson = auth := by
  unfold fromAuthDotJson at h
  split at h
  · cases h
    rfl
  · cases h

theorem transitionAccountId_eq_ok {value : Option String} {id : String}
    (h : transitionAccountId value = .ok id) : value = some id := by
  unfold transitionAccountId at h
  split at h
  · cases h
  rename_i id' hid
  split at h
  · cases h
  cases h
  exact (Option.filter_eq_some_iff.1 hid).1

theorem managedTransitionAccountId_eq_ok {auth : AuthDotJson} {id : String}
    (h : managedTransitionAccountId auth = .ok id) :
    auth.resolvedMode = .chatgpt ∧ ∃ tokens, auth.tokens = some tokens ∧
      tokens.accountId.or tokens.idToken.chatgptAccountId = some id := by
  unfold managedTransitionAccountId at h
  split at h
  · cases h
  rename_i hmode
  split at h
  · cases h
  rename_i tokens htokens
  split at h
  · cases h
  exact ⟨not_not.1 hmode, tokens, htokens, transitionAccountId_eq_ok h⟩

def AuthDotJson.sample (account refreshToken : String) : AuthDotJson where
  authMode := some .chatgpt
  openaiApiKey := none
  tokens := some
    { idToken :=
        { email := none, chatgptPlanType := none, chatgptUserId := some "user"
          chatgptAccountId := some account, chatgptAccountIsFedramp := false, rawJwt := "jwt" }
      accessToken := "access", refreshToken, accountId := some account }
  lastRefresh := none
  agentIdentity := none
  personalAccessToken := none
  bedrockApiKey := none
  bedrockAccessKeys := none

end CodexMarathon.Auth
