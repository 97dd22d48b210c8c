/-
**Reloads of the native credentials.**

Everything in the process that reloads the credentials from storage does so under one lock and only
while no turn is running: the start of a turn, a client that asks for the account, and the commit of
an account transition.
-/

import CodexMarathon.Adapter.Runtime
import CodexMarathon.Auth.Refresh
import CodexMarathon.Service.World

namespace CodexMarathon.Tui

open Auth Adapter

variable [Externals]

/-- Nothing while a turn is running; tracked threads drop their transports if it changed something.
-/
def reloadIfIdle (w : World) : Option AuthReloadStatus × World :=
  if w.runningTurns ≠ 0 then (none, w)
  else
    match w.native.reloadWithStatus w.config with
    | (.failed, _) => (some .failed, w)
    | (.reloaded changed, native) =>
      (some (.reloaded changed),
        { w with
          native
          transportCaches := if changed then w.transportCaches + 1 else w.transportCaches })

def reloadAuthFromStorageIfIdle (w : World) : World := (reloadIfIdle w).2

/-- `get_account` with `reload_auth_from_storage`; `read` is what `read_account` answers. -/
def getAccount (w : World) (read : Except String Bool) : Except String (Bool × Bool) × World :=
  match reloadIfIdle w with
  | (none, w) => (read.map (false, ·), w)
  | (some .failed, w) => (.error "failed to reload auth from storage", w)
  | (some (.reloaded changed), w) => (read.map (changed, ·), w)

def identityFromManager (m : AuthManager) : BackendIdentity where
  accountId := m.cachedAccount
  authMode := m.authCached.map (·.apiAuthMode.display)

def nativeReload (w : World) : Except BackendError BackendReload × World :=
  match reloadIfIdle w with
  | (none, w) =>
    (.error ⟨"active_turns", "Codex has a running turn; auth reload remains pending"⟩, w)
  | (some .failed, w) =>
    (.error ⟨"auth_reload_failed", "Codex AuthManager could not reload auth storage"⟩, w)
  | (some (.reloaded changed), w) =>
    (.ok { identity := identityFromManager w.native, changed }, w)

theorem getAccount_snd (w : World) (read : Except String Bool) :
    (getAccount w read).2 = (reloadIfIdle w).2 := by
  unfold getAccount
  rcases reloadIfIdle w with ⟨_ | changed | _, w'⟩ <;> rfl

/-- The answers of the native backend; the rest of it answers as in `a`. -/
def nativeAnswers (w : World) (a : Answers) : Answers :=
  { a with
    activeTurnCount := .ofNat (min w.runningTurns 4294967295)
    reloadAuthAndInvalidate := (nativeReload w).1 }

def refreshed (w : World) (fromAuthority : Bool) (answer : RefreshAnswer) : World :=
  { w with
    native :=
      if fromAuthority then (w.native.refreshTokenFromAuthority w.config answer).2
      else (w.native.refreshToken w.config answer).2 }

end CodexMarathon.Tui
