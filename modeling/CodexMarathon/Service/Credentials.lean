/-
**What changes the native credentials.**

The authentication manager of the process is shared.  Apart from the switches of the service, logins
and logouts, reloads and refreshes of the tokens change its credentials, and other processes rewrite
the storage it loads them from.  None of these goes through the service.
-/

import CodexMarathon.Tui.Reload

namespace CodexMarathon

open Auth

variable [Externals]

namespace World

def reload (w : World) : World := { w with native := w.native.reload w.config }

/-- A login that has saved `doc`, where the process keeps its credentials. -/
def login (w : World) (doc : AuthDotJson) : World :=
  if w.config.authCredentialsStoreMode = .ephemeral then
    reload { w with config.ephemeralStorage := .ok (some doc) }
  else reload { w with native.storage := .ok (some doc) }

/-- A login with tokens that the client manages: they are kept in memory only. -/
def loginTokens (w : World) (doc : AuthDotJson) : World :=
  reload { w with config.ephemeralStorage := .ok (some doc) }

/-- `logout_all_stores`, for the given outcomes of its deletions. -/
def logoutAllStores (w : World) (ephemeral managed : Except IoError Unit) :
    Except IoError Unit × World :=
  match ephemeral with
  | .error e => (.error e, w)
  | .ok () =>
    let cleared := { w with config.ephemeralStorage := .ok none }
    if w.config.authCredentialsStoreMode = .ephemeral then (.ok (), cleared)
    else
      match managed with
      | .error e => (.error e, cleared)
      | .ok () => (.ok (), { cleared with native.storage := .ok none })

def logout (w : World) (ephemeral managed : Except IoError Unit) : World :=
  match w.logoutAllStores ephemeral managed with
  | (.error _, w') => w'
  | (.ok (), w') => w'.reload

end World

inductive CredentialOp
  | login (doc : AuthDotJson)
  | loginTokens (doc : AuthDotJson)
  | logout (ephemeral managed : Except IoError Unit)
  | refreshToken (fromAuthority : Bool) (answer : RefreshAnswer)
  | turnStart
  | getAccount (read : Except String Bool)
  | writeStorage (storage : Except IoError (Option AuthDotJson))
  | runningTurns (turns : ℕ)

namespace CredentialOp

def apply (w : World) : CredentialOp → World
  | .login doc => w.login doc
  | .loginTokens doc => w.loginTokens doc
  | .logout ephemeral managed => w.logout ephemeral managed
  | .refreshToken fromAuthority answer => Tui.refreshed w fromAuthority answer
  | .turnStart => Tui.reloadAuthFromStorageIfIdle w
  | .getAccount read => (Tui.getAccount w read).2
  | .writeStorage storage => { w with native.storage := storage }
  | .runningTurns turns => { w with runningTurns := turns }

theorem authGeneration_reloadIfIdle (w : World) :
    (Tui.reloadIfIdle w).2.authGeneration = w.authGeneration := by
  unfold Tui.reloadIfIdle
  split_ifs
  · rfl
  · split <;> rfl

theorem authGeneration_apply (w : World) (op : CredentialOp) :
    (op.apply w).authGeneration = w.authGeneration := by
  cases op with
  | login doc =>
    unfold apply World.login
    split_ifs <;> rfl
  | logout ephemeral managed =>
    unfold apply World.logout World.logoutAllStores
    cases ephemeral with
    | error e => rfl
    | ok u =>
      simp only
      split_ifs
      · rfl
      · cases managed <;> rfl
  | turnStart => exact authGeneration_reloadIfIdle w
  | getAccount read =>
    rw [apply, Tui.getAccount_snd]
    exact authGeneration_reloadIfIdle w
  | _ => rfl

end CredentialOp

end CodexMarathon
