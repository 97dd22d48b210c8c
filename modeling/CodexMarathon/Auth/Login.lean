/-
**The credentials a request is made with.**

`AuthManager.auth` hands out the cached credentials, after a refresh if the access token is about to
expire.  A refresh that fails does not keep them back: the request is then made with the credentials
that were cached before.
-/

import CodexMarathon.Auth.Refresh

namespace CodexMarathon.Auth

structure AuthAnswer where
  refresh : RefreshAnswer
  resolveExternalAuth : Except RefreshTokenError CodexAuth
  parseJwtExpiration : String → Except IoError (Option DateTime)

def longBefore (t : DateTime) (secs : ℤ) (u : DateTime) : Bool :=
  t.secs + secs < u.secs || (t.secs + secs = u.secs && t.nanos < u.nanos)

def accessTokenRefreshWindow : ℤ := 5 * 60

def tokenRefreshInterval : ℤ := 8 * 24 * 60 * 60

namespace AuthManager

variable (cfg : AuthConfig) (answer : AuthAnswer) (m : AuthManager)

def tokenExpiration (doc : AuthDotJson) : Option DateTime :=
  doc.tokens.bind fun tokens => (answer.parseJwtExpiration tokens.accessToken).toOption.join

/-- `should_refresh_proactively`: the time of the last refresh counts only for a token that does not
name its expiration. -/
def shouldRefreshProactively : CodexAuth → Bool
  | .chatgpt (some doc) =>
    match tokenExpiration answer doc with
    | some expiresAt => !longBefore answer.refresh.now accessTokenRefreshWindow expiresAt
    | none =>
      doc.lastRefresh.any fun lastRefresh =>
        longBefore lastRefresh tokenRefreshInterval answer.refresh.now
  | _ => false

def loadExternalAuth : Option CodexAuth × AuthManager :=
  if m.authCached.any fun auth => (m.refreshFailureForAuth auth).isSome then (m.authCached, m)
  else
    match answer.resolveExternalAuth with
    | .ok auth => (some auth, m)
    | .error (.permanent error) =>
      (m.authCached,
        (m.authCached.map fun auth => m.recordPermanentRefreshFailure auth error).getD m)
    | .error (.transient _) => (none, m)
    | .error .policy => (m.authCached, m)

def refreshedAuth (auth : CodexAuth) : Option CodexAuth × AuthManager :=
  if shouldRefreshProactively answer auth then
    match m.refreshToken cfg answer.refresh with
    | (.error _, m') => (some auth, m')
    | (.ok (), m') => (m'.authCached, m')
  else (m.authCached, m)

def auth : Option CodexAuth × AuthManager :=
  if cfg.hasExternalAuth then
    let (loaded, recorded) := m.loadExternalAuth answer
    let reloaded := (recorded.setCachedAuth loaded).2
    (reloaded.authCached, reloaded)
  else
    match m.authCached with
    | none => (none, m)
    | some cached => m.refreshedAuth cfg answer cached

def authAccount : Option String := (m.auth cfg answer).1.bind (·.getAccountId)

theorem auth_eq (cfg : AuthConfig) (answer : AuthAnswer) (m : AuthManager) :
    (m.auth cfg answer).1 = (m.auth cfg answer).2.authCached ∨
      (m.auth cfg answer).1 = m.authCached := by
  unfold auth
  split_ifs
  · exact .inl rfl
  · cases hcached : m.authCached with
    | none => exact .inr rfl
    | some cached =>
      simp only [refreshedAuth]
      split_ifs
      · split
        · exact .inr rfl
        · exact .inl rfl
      · exact .inr hcached

theorem auth_account (cfg : AuthConfig) (answer : AuthAnswer) (m : AuthManager) :
    m.authAccount cfg answer = (m.auth cfg answer).2.cachedAccount ∨
      m.authAccount cfg answer = m.cachedAccount := by
  unfold authAccount cachedAccount
  rcases auth_eq cfg answer m with h | h
  · rw [h]
    exact .inl rfl
  · rw [h]
    exact .inr rfl

end AuthManager

def AuthAnswer.sample : AuthAnswer where
  refresh :=
    { response := .error .policy
      parseIdToken := fun _ => .error ⟨.invalidData, "not a token"⟩
      now := .epoch }
  resolveExternalAuth := .error .policy
  parseJwtExpiration := fun _ => .ok none

end CodexMarathon.Auth
