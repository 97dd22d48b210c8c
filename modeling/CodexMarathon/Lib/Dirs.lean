/-
**Directory trees with symbolic links.**

A tree maps places, that is, the names on the way from the root, to directories, files and symbolic
links.  What a path *denotes* is where a walk that follows links ends; what it *says* is the place
that its components spell.
-/

import CodexMarathon.Lib.Result
import Mathlib.Logic.Function.Basic

namespace Dirs

variable {N C ε : Type}

/-! ### Paths -/

inductive Component (N : Type)
  | curDir
  | parentDir
  | normal (name : N)
deriving DecidableEq, Repr

/-- A path by its components; `absolute` is whether it starts at the root. -/
structure Path (N : Type) where
  absolute : Bool
  components : List (Component N)
deriving DecidableEq, Repr

abbrev Place (N : Type) : Type := List N

def Path.ofPlace (p : Place N) : Path N := ⟨true, p.map .normal⟩

def Path.base (cwd : Place N) (path : Path N) : Place N := if path.absolute then [] else cwd

def Path.join (path other : Path N) : Path N :=
  if other.absolute then other else ⟨path.absolute, path.components ++ other.components⟩

def Path.parent (path : Path N) : Option (Path N) :=
  if path.components.isEmpty then none else some ⟨path.absolute, path.components.dropLast⟩

def Path.startsWith [DecidableEq N] (path base : Path N) : Bool :=
  path.absolute == base.absolute && base.components.isPrefixOf path.components

def Component.go (p : Place N) : Component N → Place N
  | curDir => p
  | parentDir => p.dropLast
  | normal n => p ++ [n]

def lexical (p : Place N) (components : List (Component N)) : Place N := components.foldl Component.go p

@[simp] theorem lexical_nil (p : Place N) : lexical p [] = p := rfl

@[simp] theorem lexical_cons (p : Place N) (c : Component N) (components : List (Component N)) :
    lexical p (c :: components) = lexical (c.go p) components := rfl

theorem lexical_append (p : Place N) (cs ds : List (Component N)) :
    lexical p (cs ++ ds) = lexical (lexical p cs) ds := List.foldl_append ..

theorem lexical_map_normal (p q : Place N) : lexical p (q.map .normal) = p ++ q := by
  induction q generalizing p with
  | nil => simp
  | cons n q ih => simp [Component.go, ih]

/-! ### Trees -/

inductive Entry (N C : Type)
  | dir
  | file (contents : C)
  | link (target : Path N)
deriving DecidableEq, Repr

def Entry.isDir : Entry N C → Bool
  | dir => true
  | file _ | link _ => false

def Entry.isLink : Entry N C → Bool
  | link _ => true
  | dir | file _ => false

/-- A tree: the root is a directory, and everything else lies in one. -/
structure Tree (N C : Type) where
  entry : Place N → Option (Entry N C)
  root : entry [] = some .dir
  parents : ∀ p n, entry (p ++ [n]) ≠ none → entry p = some .dir

namespace Tree

def empty : Tree N C where
  entry
    | [] => some .dir
    | _ :: _ => none
  root := rfl
  parents p n h := by cases p <;> exact absurd rfl h

variable (t : Tree N C)

def isDir (p : Place N) : Bool := (t.entry p).any Entry.isDir

variable {t}

theorem isDir_iff {p : Place N} : t.isDir p = true ↔ t.entry p = some .dir := by
  unfold isDir
  rcases t.entry p with _ | _ | _ | _ <;> simp [Entry.isDir]

theorem entry_append_eq_none {p : Place N} (h : t.entry p = none) (n : N) :
    t.entry (p ++ [n]) = none := by
  by_contra hsome
  rw [t.parents p n hsome] at h
  cases h

theorem entry_lexical_eq_none {p : Place N} (h : t.entry p = none) {cs : List (Component N)}
    (hcs : .parentDir ∉ cs) : t.entry (lexical p cs) = none := by
  induction cs generalizing p with
  | nil => exact h
  | cons c cs ih =>
    rw [List.mem_cons, not_or] at hcs
    refine ih ?_ hcs.2
    cases c with
    | curDir => exact h
    | parentDir => exact absurd rfl hcs.1
    | normal n => exact entry_append_eq_none h n

theorem entry_base {cwd : Place N} (hcwd : t.entry cwd = some .dir) (path : Path N) :
    t.entry (path.base cwd) = some .dir := by
  unfold Path.base
  split_ifs
  · exact t.root
  · exact hcwd

end Tree

/-! ### The walk -/

inductive Errno
  | notFound
  | notADirectory
  | alreadyExists
  | filesystemLoop
deriving DecidableEq, Repr

namespace Tree

variable (t : Tree N C)

def walkWith (follow : Place N → List (Component N) → Except Errno (Place N)) :
    Place N → List (Component N) → Except Errno (Place N)
  | p, [] => .ok p
  | p, .curDir :: rest => walkWith follow p rest
  | p, .parentDir :: rest => walkWith follow p.dropLast rest
  | p, .normal n :: rest =>
    match t.entry (p ++ [n]) with
    | none => .error .notFound
    | some .dir => walkWith follow (p ++ [n]) rest
    | some (.file _) => if rest = [] then .ok (p ++ [n]) else .error .notADirectory
    | some (.link target) => follow (target.base p) (target.components ++ rest)

def walk : ℕ → Place N → List (Component N) → Except Errno (Place N)
  | 0 => t.walkWith fun _ _ => .error .filesystemLoop
  | links + 1 => t.walkWith (walk links)

def Denotes (cwd : Place N) (path : Path N) (p : Place N) : Prop :=
  ∃ links, t.walk links (path.base cwd) path.components = .ok p

/-- `lstat`: what a path denotes, where a link at its end is not followed. -/
def lstat (links : ℕ) (cwd : Place N) (path : Path N) : Except Errno (Entry N C) :=
  match path.components.getLast? with
  | some (.normal n) => do
      let d ← t.walk links (path.base cwd) path.components.dropLast
      Result.require (t.isDir d) .notADirectory
      Result.okOr (t.entry (d ++ [n])) .notFound
  | _ => do
      let p ← t.walk links (path.base cwd) path.components
      Result.okOr (t.entry p) .notFound

def target (links : ℕ) (cwd : Place N) (path : Path N) : Except Errno (Place N × N) :=
  match path.components.getLast? with
  | some (.normal n) => do
      let d ← t.walk links (path.base cwd) path.components.dropLast
      Result.require (t.isDir d) .notADirectory
      pure (d, n)
  | _ => .error .alreadyExists

def statIsDir (links : ℕ) (cwd : Place N) (path : Path N) : Bool :=
  match t.walk links (path.base cwd) path.components with
  | .ok p => t.isDir p
  | .error _ => false

def Direct : Place N → List (Component N) → Prop
  | _, [] => True
  | p, c :: rest => (∀ target, t.entry (c.go p) ≠ some (.link target)) ∧ Direct (c.go p) rest

variable {t} {p q : Place N} {cs ds : List (Component N)}

theorem not_link_iff {e : Option (Entry N C)} :
    (∀ target, e ≠ some (.link target)) ↔ e.any Entry.isLink = false := by
  rcases e with _ | _ | _ | target <;> simp [Entry.isLink]

instance Direct.decidable : ∀ (p : Place N) (cs : List (Component N)), Decidable (t.Direct p cs)
  | _, [] => isTrue trivial
  | p, c :: cs =>
    haveI := Direct.decidable (c.go p) cs
    haveI := decidable_of_iff _ (not_link_iff (e := t.entry (c.go p))).symm
    inferInstanceAs (Decidable (_ ∧ _))

theorem direct_append : t.Direct p (cs ++ ds) ↔ t.Direct p cs ∧ t.Direct (lexical p cs) ds := by
  induction cs generalizing p with
  | nil => simp [Direct]
  | cons c cs ih => simp [Direct, ih, and_assoc]

theorem Direct.entry_lexical (h : t.Direct p cs) (hp : ∀ target, t.entry p ≠ some (.link target)) :
    ∀ target, t.entry (lexical p cs) ≠ some (.link target) := by
  induction cs generalizing p with
  | nil => exact hp
  | cons c cs ih => exact ih h.2 h.1

theorem Direct.walkWith_eq {follow : Place N → List (Component N) → Except Errno (Place N)}
    (h : t.Direct p cs) (hwalk : t.walkWith follow p cs = .ok q) : q = lexical p cs := by
  induction cs generalizing p with
  | nil => exact (Except.ok.inj hwalk).symm
  | cons c cs ih =>
    cases c with
    | curDir | parentDir => exact ih h.2 hwalk
    | normal n =>
      simp only [walkWith] at hwalk
      split at hwalk
      · cases hwalk
      · exact ih h.2 hwalk
      · split_ifs at hwalk with hrest
        subst hrest
        exact (Except.ok.inj hwalk).symm
      · rename_i target hlink
        exact absurd hlink (h.1 target)

theorem Direct.walk_eq {links : ℕ} (h : t.Direct p cs) (hwalk : t.walk links p cs = .ok q) :
    q = lexical p cs := by
  cases links <;> exact h.walkWith_eq hwalk

theorem Denotes.eq_lexical {cwd : Place N} {path : Path N} (hden : t.Denotes cwd path q)
    (h : t.Direct (path.base cwd) path.components) : q = lexical (path.base cwd) path.components := by
  obtain ⟨links, hwalk⟩ := hden
  exact h.walk_eq hwalk

theorem Direct.target_eq {links : ℕ} {cwd d : Place N} {path : Path N} {n : N}
    (h : t.Direct (path.base cwd) path.components) (htarget : t.target links cwd path = .ok (d, n)) :
    d ++ [n] = lexical (path.base cwd) path.components := by
  unfold target at htarget
  split at htarget
  · rename_i m hlast
    obtain ⟨d', hwalk, htarget⟩ := Result.bind_eq_ok.1 htarget
    obtain ⟨-, -, htarget⟩ := Result.bind_eq_ok.1 htarget
    cases htarget
    have hsplit : path.components = path.components.dropLast ++ [.normal n] :=
      (List.dropLast_append_getLast? _ hlast).symm
    rw [hsplit] at h ⊢
    rw [lexical_append, ← (direct_append.1 h).1.walk_eq hwalk]
    rfl
  · cases htarget

theorem Direct.entry_eq_none {follow : Place N → List (Component N) → Except Errno (Place N)}
    (h : t.Direct p cs) (hcs : .parentDir ∉ cs) (hwalk : t.walkWith follow p cs = .error .notFound) :
    t.entry (lexical p cs) = none := by
  induction cs generalizing p with
  | nil => cases hwalk
  | cons c cs ih =>
    rw [List.mem_cons, not_or] at hcs
    cases c with
    | curDir => exact ih h.2 hcs.2 hwalk
    | parentDir => exact absurd rfl hcs.1
    | normal n =>
      simp only [walkWith] at hwalk
      split at hwalk
      · rename_i hnone
        exact entry_lexical_eq_none hnone hcs.2
      · exact ih h.2 hcs.2 hwalk
      · split_ifs at hwalk
        cases hwalk
      · rename_i target hlink
        exact absurd hlink (h.1 target)

section RejectLinks

variable {links : ℕ} {cwd : Place N} {absolute : Bool} {current rest : List (Component N)}

theorem Direct.concat {c : Component N} (links : ℕ) (hbase : t.entry p = some .dir) (h : t.Direct p current)
    (hup : .parentDir ∉ current) (hc : c ≠ .parentDir) (hp : Path.base cwd ⟨absolute, []⟩ = p)
    (hlink : ∀ target, t.lstat links cwd ⟨absolute, current ++ [c]⟩ ≠ .ok (.link target))
    (herror : ∀ e, t.lstat links cwd ⟨absolute, current ++ [c]⟩ = .error e → e = .notFound) :
    t.Direct p (current ++ [c]) := by
  refine direct_append.2 ⟨h, fun target => ?_, trivial⟩
  cases c with
  | parentDir => exact absurd rfl hc
  | curDir => exact h.entry_lexical (by simp [hbase]) target
  | normal n =>
    have hstart : Path.base cwd ⟨absolute, current ++ [.normal n]⟩ = p := hp
    simp only [lstat, hstart, List.getLast?_concat, List.dropLast_concat] at hlink herror
    change t.entry (lexical p current ++ [n]) ≠ some (.link target)
    cases hwalk : t.walk links p current with
    | error e =>
      rw [hwalk] at herror
      obtain rfl := herror e rfl
      have hnone : t.entry (lexical p current) = none := by
        cases links <;> exact h.entry_eq_none hup hwalk
      simp [entry_append_eq_none hnone]
    | ok d =>
      obtain rfl := h.walk_eq hwalk
      rw [hwalk] at hlink herror
      by_cases hdir : t.isDir (lexical p current) = true
      · intro hentry
        refine hlink target (Result.bind_eq_ok.2 ⟨_, rfl, Result.bind_eq_ok.2 ⟨(), ?_, ?_⟩⟩)
        · exact Result.require_eq_ok.2 hdir
        · exact Result.okOr_eq_ok.2 hentry
      · refine absurd (herror .notADirectory ?_) (by decide)
        simp [hdir, Result.require, bind, Except.bind]

variable [DecidableEq N]

/-- No component goes up, and none of the paths that end at a component is a link. `current` are the
components before. -/
def rejectLinks (t : Tree N C) (links : ℕ) (bad : ε) (io : Errno → ε) (cwd : Place N)
    (absolute : Bool) : List (Component N) → List (Component N) → Except ε Unit
  | _, [] => .ok ()
  | current, c :: rest =>
    if c = .parentDir then .error bad
    else
      match t.lstat links cwd ⟨absolute, current ++ [c]⟩ with
      | .ok (.link _) => .error bad
      | .ok _ | .error .notFound =>
        rejectLinks t links bad io cwd absolute (current ++ [c]) rest
      | .error e => .error (io e)

theorem direct_of_rejectLinks_append {bad : ε} {io : Errno → ε} (hbase : t.entry p = some .dir)
    (hp : Path.base cwd ⟨absolute, []⟩ = p) (hcur : t.Direct p current) (hup : .parentDir ∉ current)
    (h : t.rejectLinks links bad io cwd absolute current rest = .ok ()) :
    t.Direct p (current ++ rest) ∧ .parentDir ∉ current ++ rest := by
  induction rest generalizing current with
  | nil => simpa using ⟨hcur, hup⟩
  | cons c rest ih =>
    simp only [rejectLinks] at h
    split_ifs at h with hc
    have hup' : .parentDir ∉ current ++ [c] := by
      simpa [hup] using Ne.symm hc
    rw [List.append_cons current c rest]
    split at h
    · cases h
    · rename_i e hlink he
      refine ih (hcur.concat links hbase hup hc hp ?_ (by simp [he])) hup' h
      simpa [he] using hlink
    · rename_i he
      exact ih (hcur.concat links hbase hup hc hp (by simp [he]) (by simp [he])) hup' h
    · cases h

theorem direct_of_rejectLinks {bad : ε} {io : Errno → ε} {path : Path N}
    (hbase : t.entry (path.base cwd) = some .dir)
    (h : t.rejectLinks links bad io cwd path.absolute [] path.components = .ok ()) :
    t.Direct (path.base cwd) path.components := by
  have hnil : t.Direct (path.base cwd) [] := trivial
  exact (direct_of_rejectLinks_append hbase rfl hnil List.not_mem_nil h).1

end RejectLinks

section Changes

variable [DecidableEq N]

def put (t : Tree N C) (d : Place N) (n : N) (e : Entry N C) : Tree N C :=
  if h : t.isDir d = true ∧ t.isDir (d ++ [n]) = false then
    { entry := Function.update t.entry (d ++ [n]) (some e)
      root := by simpa [Function.update] using t.root
      parents := by
        intro p m hpm
        have hne : p ≠ d ++ [n] := by
          rintro rfl
          have hold : t.entry (d ++ [n] ++ [m]) ≠ none := by simpa [Function.update] using hpm
          rw [isDir_iff.2 (t.parents _ m hold)] at h
          exact absurd h.2 (by decide)
        rw [Function.update_of_ne hne]
        by_cases heq : p ++ [m] = d ++ [n]
        · obtain ⟨rfl, -⟩ := List.append_inj' heq rfl
          exact isDir_iff.1 h.1
        · rw [Function.update_of_ne heq] at hpm
          exact t.parents p m hpm }
  else t

def remove (t : Tree N C) (q : Place N) : Tree N C :=
  if h : t.isDir q = false then
    { entry := Function.update t.entry q none
      root := by
        rw [Function.update_of_ne, t.root]
        rintro rfl
        rw [isDir_iff.2 t.root] at h
        cases h
      parents := by
        intro p m hpm
        have hold : t.entry (p ++ [m]) ≠ none := by
          by_cases heq : p ++ [m] = q <;> simp_all
        have hp := t.parents p m hold
        rw [Function.update_of_ne, hp]
        rintro rfl
        rw [isDir_iff.2 hp] at h
        cases h }
  else t

def createDirAll (links : ℕ) : Tree N C → Place N → List (Component N) → Except Errno (Tree N C)
  | t, _, [] => .ok t
  | t, p, .curDir :: rest => createDirAll links t p rest
  | t, p, .parentDir :: rest => createDirAll links t p.dropLast rest
  | t, p, .normal n :: rest =>
    match t.entry (p ++ [n]) with
    | none => createDirAll links (t.put p n .dir) (p ++ [n]) rest
    | some .dir => createDirAll links t (p ++ [n]) rest
    | some (.file _) => .error (if rest = [] then .alreadyExists else .notADirectory)
    | some (.link _) =>
      match t.walk links p [.normal n] with
      | .ok q => if t.isDir q then createDirAll links t q rest else .error .alreadyExists
      | .error _ => .error .alreadyExists

def LinksIn (t' t : Tree N C) : Prop :=
  ∀ p target, t'.entry p = some (.link target) → t.entry p = some (.link target)

variable {t t' t'' : Tree N C} {d : Place N} {n : N}

omit [DecidableEq N] in
theorem LinksIn.refl (t : Tree N C) : t.LinksIn t := fun _ _ h => h

omit [DecidableEq N] in
theorem LinksIn.trans (h : t''.LinksIn t') (h' : t'.LinksIn t) : t''.LinksIn t :=
  fun p target hp => h' p target (h p target hp)

omit [DecidableEq N] in
theorem Direct.mono (hlinks : t'.LinksIn t) {p : Place N} (h : t.Direct p cs) : t'.Direct p cs := by
  induction cs generalizing p with
  | nil => trivial
  | cons c cs ih => exact ⟨fun target hentry => h.1 target (hlinks _ _ hentry), ih h.2⟩

theorem linksIn_put {e : Entry N C} (he : ∀ target, e ≠ .link target) : (t.put d n e).LinksIn t := by
  intro p target hp
  unfold put at hp
  split_ifs at hp with h
  · by_cases heq : p = d ++ [n]
    · subst heq
      have hnew := (Function.update_self (d ++ [n]) (some e) t.entry).symm.trans hp
      exact absurd (Option.some.inj hnew) (he target)
    · exact (Function.update_of_ne heq ..).symm.trans hp
  · exact hp

theorem linksIn_remove {q : Place N} : (t.remove q).LinksIn t := by
  intro p target hp
  unfold remove at hp
  split_ifs at hp with h
  · by_cases heq : p = q
    · subst heq
      cases (Function.update_self p none t.entry).symm.trans hp
    · exact (Function.update_of_ne heq ..).symm.trans hp
  · exact hp

theorem linksIn_createDirAll {links : ℕ} {p : Place N} (h : createDirAll links t p cs = .ok t') :
    t'.LinksIn t := by
  induction cs generalizing t p with
  | nil =>
    cases h
    exact .refl _
  | cons c cs ih =>
    cases c with
    | curDir | parentDir => exact ih h
    | normal n =>
      simp only [createDirAll] at h
      split at h
      · exact (ih h).trans (linksIn_put nofun)
      · exact ih h
      · cases h
      · split at h
        · split_ifs at h
          exact ih h
        · cases h

end Changes

end Tree

end Dirs
