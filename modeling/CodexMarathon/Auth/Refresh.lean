/-
**Refreshing the tokens of the managed login.**

A refresh holds the refresh lock of its process and the refresh file lock of the home.  It first
reloads the credentials from storage: if another process has rotated the tokens, that is all it
does, and if the account is another one it gives up.  Otherwise it asks the provider for new tokens,
stores them and reloads.
-/

import CodexMarathon.Auth.Manager

namespace CodexMarathon.Auth

inductive RefreshTokenError
  | permanent (error : RefreshTokenFailedError)
  | transient (error : IoError)
  | policy
deriving DecidableEq

structure RefreshResponse where
  idToken : Option String
  accessToken : Option String
  refreshToken : Option String
deriving DecidableEq

structure RefreshAnswer where
  response : Except RefreshTokenError RefreshResponse
  parseIdToken : String → Except IoError IdTokenInfo
  now : DateTime

def TokenData.default : TokenData where
  idToken :=
    { email := none, chatgptPlanType := none, chatgptUserId := none, chatgptAccountId := none
      chatgptAccountIsFedramp := false, rawJwt := "" }
  accessToken := ""
  refreshToken := ""
  accountId := none

def RefreshAnswer.idToken (answer : RefreshAnswer) (stored : IdTokenInfo) :
    Option String → Except IoError IdTokenInfo
  | some token => answer.parseIdToken token
  | none => .ok stored

def RefreshAnswer.refreshed (answer : RefreshAnswer) (response : RefreshResponse)
    (auth : AuthDotJson) : Except IoError AuthDotJson := do
  let tokens := auth.tokens.getD .default
  let idToken ← answer.idToken tokens.idToken response.idToken
  pure
    { auth with
      tokens := some
        { tokens with
          idToken
          accessToken := response.accessToken.getD tokens.accessToken
          refreshToken := response.refreshToken.getD tokens.refreshToken }
      lastRefresh := some answer.now }

def refreshTokenAccountMismatchMessage : String :=
  "Your access token could not be refreshed because you have since logged out or signed in to " ++
    "another account. Please sign in again."

inductive ReloadOutcome
  | reloadedChanged
  | reloadedNoChange
  | skipped
deriving DecidableEq, Repr

namespace AuthManager

variable (cfg : AuthConfig) (answer : RefreshAnswer) (m : AuthManager)

def loadActive : Option CodexAuth :=
  ((loadAuth cfg (some cfg.allowedLoginMethods) cfg.effectiveChatgptWorkspaces
    m.storage).toOption.join).filter fun auth =>
      (validateAuthRestrictions (some cfg.allowedLoginMethods) cfg.effectiveChatgptWorkspaces
        auth).toOption.isSome

def reload : AuthManager := (m.setCachedAuth (m.loadActive cfg)).2

def reloadIfAccountIdMatches (expected : Option String) : ReloadOutcome × AuthManager :=
  match expected, m.loadAuthFromStorage cfg with
  | none, _ | _, .error _ => (.skipped, m)
  | some expected, .ok new =>
    if new.bind (·.getAccountId) ≠ some expected then (.skipped, m)
    else
      (if authsEqualForRefresh m.authCached new then .reloadedNoChange else .reloadedChanged,
        (m.setCachedAuth new).2)

/-- `persist_tokens`: the manager with the rewritten document in storage. -/
def persistTokens (response : RefreshResponse) : Except IoError AuthManager := do
  let stored ← m.storage
  let auth ← Result.okOr stored ⟨.other, "Token data is not available."⟩
  let refreshed ← answer.refreshed response auth
  cfg.storageSave
  pure { m with storage := .ok (some refreshed) }

def refreshAndPersist : Except RefreshTokenError AuthManager := do
  let response ← answer.response
  let persisted ← (m.persistTokens cfg answer response).mapError .transient
  pure (persisted.reload cfg)

def refreshFailureForAuth (auth : CodexAuth) : Option RefreshTokenFailedError :=
  (m.inner.permanentRefreshFailure.filter fun failure =>
    authsEqualForRefresh (some auth) (some failure.auth)).map (·.error)

def recordPermanentRefreshFailure (attempted : CodexAuth) (error : RefreshTokenFailedError) :
    AuthManager :=
  if authsEqualForRefresh (some attempted) m.authCached then
    { m with inner.permanentRefreshFailure := some ⟨attempted, error⟩ }
  else m

def refreshTokenFromAuthorityImpl : Except RefreshTokenError Unit × AuthManager :=
  match m.authCached with
  | some (.chatgpt doc) =>
    match m.refreshFailureForAuth (.chatgpt doc) with
    | some error => (.error (.permanent error), m)
    | none =>
      if (doc.bind (·.tokens)).isNone then
        (.error (.transient ⟨.other, "Token data is not available."⟩), m)
      else
        match m.refreshAndPersist cfg answer with
        | .ok refreshed => (.ok (), refreshed)
        | .error (.permanent error) =>
          (.error (.permanent error), m.recordPermanentRefreshFailure (.chatgpt doc) error)
        | .error error => (.error error, m)
  | some auth =>
    match m.refreshFailureForAuth auth with
    | some error => (.error (.permanent error), m)
    | none => (.ok (), m)
  | none => (.ok (), m)

def refreshGuarded : Except RefreshTokenError Unit × AuthManager :=
  match m.reloadIfAccountIdMatches cfg m.cachedAccount with
  | (.reloadedChanged, reloaded) => (.ok (), reloaded)
  | (.reloadedNoChange, reloaded) => reloaded.refreshTokenFromAuthorityImpl cfg answer
  | (.skipped, m) =>
    (.error (.permanent ⟨.other, refreshTokenAccountMismatchMessage⟩), m)

def refreshToken : Except RefreshTokenError Unit × AuthManager :=
  match m.acquireRefreshFileLock cfg with
  | .error e => (.error (.transient e), m)
  | .ok () =>
    match m.authCached with
    | some (.apiKey _) | some (.personalAccessToken _) => (.ok (), m)
    | _ => m.refreshGuarded cfg answer

def refreshTokenFromAuthority : Except RefreshTokenError Unit × AuthManager :=
  match m.acquireRefreshFileLock cfg with
  | .error e => (.error (.transient e), m)
  | .ok () => m.refreshGuarded cfg answer

end AuthManager

end CodexMarathon.Auth
