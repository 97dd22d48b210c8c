/-
**Published revisions.**

Consumers of the authentication manager watch the revisions published with the cached credentials: a
connection is bound to the owner revision it was established under.  Of a reload and an install,
which both write the cache, only the reload publishes.
-/

import CodexMarathon.Auth.Manager

namespace CodexMarathon.Auth

/-- `ConnectionAuth`: the owner revision a connection was established under. -/
structure ConnectionAuth where
  ownerGeneration : UInt64
deriving DecidableEq, Repr

namespace ConnectionAuth

def capture (m : AuthManager) : ConnectionAuth := ⟨m.authChangeState.ownerGeneration⟩

/-- `is_current`.  The channel of a live manager is never closed. -/
def isCurrent (c : ConnectionAuth) (m : AuthManager) : Bool :=
  m.authChangeState.ownerGeneration = c.ownerGeneration

end ConnectionAuth

def credentialsChanged (previous new : Option CodexAuth) : Bool :=
  !authsEqualForRefresh previous new

def ownerChanged (previous new : Option CodexAuth) : Bool :=
  credentialsChanged previous new && !sameOwner previous new

theorem add_one_ne_self (n : UInt64) : n + 1 ≠ n := by
  intro h
  have := congrArg UInt64.toNat h
  have hn := n.toNat_lt
  rw [UInt64.toNat_add] at this
  simp only [UInt64.toNat_one] at this
  omega

namespace AuthManager

variable {cfg : AuthConfig} {m m' : AuthManager}

theorem setCachedAuth_published (new : Option CodexAuth) :
    ((m.setCachedAuth new).2.authChangeState.generation = m.authChangeState.generation + 1
        ↔ credentialsChanged m.authCached new = true) ∧
      ((m.setCachedAuth new).2.authChangeState.ownerGeneration
          = m.authChangeState.ownerGeneration + 1 ↔ ownerChanged m.authCached new = true) := by
  have hne := fun n : UInt64 => (add_one_ne_self n).symm
  simp only [setCachedAuth, credentialsChanged, ownerChanged]
  constructor
  · split <;> simp_all
  · split <;> simp_all

theorem install_published {source : Option String} {s : AuthTransitionSnapshot}
    {status : AuthReloadStatus} (h : m.install cfg source s = .ok (status, m')) :
    m'.authChangeState = m.authChangeState ∧ m'.networkPolicy = m.networkPolicy := by
  rw [(install_eq_ok h).2]
  exact ⟨rfl, rfl⟩

end AuthManager

/-- `m'` has published what `set_cached_auth` publishes when it caches `new`. -/
structure PublishesAsReload (m m' : AuthManager) (new : CodexAuth) : Prop where
  state : m'.authChangeState = (m.setCachedAuth (some new)).2.authChangeState
  policy : m'.networkPolicy = (m.setCachedAuth (some new)).2.networkPolicy
  connections : ownerChanged m.authCached (some new) = true →
    ∀ c : ConnectionAuth, c.isCurrent m = true → c.isCurrent m' = false

/-- **Installs and reloads publish alike only when nothing changes**, and never on a process without
credentials. -/
theorem install_publishes_iff (cfg : AuthConfig) (m m' : AuthManager) (source : Option String)
    (s : AuthTransitionSnapshot) (status : AuthReloadStatus)
    (h : m.install cfg source s = .ok (status, m')) :
    PublishesAsReload m m' (.chatgpt (some s.authDotJson)) ↔
      authsEqualForRefresh m.authCached (some (.chatgpt (some s.authDotJson))) = true := by
  obtain ⟨hstate, hpolicy⟩ := AuthManager.install_published h
  constructor
  · intro hp
    by_contra hne
    -- the credentials changed, so a reload advances the generation, which an install does not
    have hgen := (AuthManager.setCachedAuth_published (some (.chatgpt (some s.authDotJson)))).1.2
      (by simpa [credentialsChanged] using hne)
    rw [← hp.state, hstate] at hgen
    exact add_one_ne_self _ hgen.symm
  · intro heq
    refine ⟨?_, ?_, ?_⟩
    · rw [hstate]
      simp [AuthManager.setCachedAuth, heq]
    · rw [hpolicy]
      simp [AuthManager.setCachedAuth, heq]
    · intro howner
      simp [ownerChanged, credentialsChanged, heq] at howner

/-- Reinstalling the credentials that are cached publishes what a reload would: nothing. -/
theorem install_publishes_unchanged :
    PublishesAsReload (.sample (.sample "a" "ra")) (.sample (.sample "a" "ra"))
      (.chatgpt (some (.sample "a" "ra"))) :=
  (install_publishes_iff .sample (.sample (.sample "a" "ra")) _ (some "a")
    ⟨.sample "a" "ra", "a", rfl⟩ (.reloaded false) rfl).2 (by decide)

/-- Installing `b` over `a` changes the owner, and still a connection of `a` counts as current. -/
theorem install_keeps_connection :
    ∃ (s : AuthTransitionSnapshot) (status : AuthReloadStatus) (m' : AuthManager),
      let m := AuthManager.sample (.sample "a" "ra")
      m.install .sample (some "a") s = .ok (status, m') ∧
        ownerChanged m.authCached (some (.chatgpt (some s.authDotJson))) = true ∧
        (ConnectionAuth.capture m).isCurrent m' = true ∧
        ¬ PublishesAsReload m m' (.chatgpt (some s.authDotJson)) := by
  refine ⟨⟨.sample "b" "rb", "b", rfl⟩, .reloaded true, _, rfl, by decide, by decide, ?_⟩
  intro h
  have hgen := congrArg AuthChangeState.generation h.state
  revert hgen
  decide

end CodexMarathon.Auth
