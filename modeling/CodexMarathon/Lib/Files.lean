/-
**Files in a directory, and replacing one at once.**

Every call on a directory can fail, and may have taken effect all the same; but renaming and
removing happen at once or not at all.  A process that is killed during a call leaves what the call
could have left by failing.
-/

import CodexMarathon.Lib.Hoare
import Mathlib.Logic.Function.Basic

namespace Files

variable {C E : Type}

/-! ### Directories -/

inductive Entry (C : Type)
  | file (contents : C)
  | other

inductive Kind
  | file
  | other
deriving DecidableEq, Repr

def Entry.kind : Entry C → Kind
  | file _ => .file
  | other => .other

def Entry.contents? : Entry C → Option C
  | file contents => some contents
  | other => none

/-- `placed` records what was renamed into place. -/
structure Volume (C : Type) where
  entries : String → Option (Entry C)
  placed : List (String × C)

namespace Volume

variable {v w : Volume C}

def put (v : Volume C) (name : String) (contents : C) : Volume C :=
  { v with entries := Function.update v.entries name (some (.file contents)) }

def drop (v : Volume C) (name : String) : Volume C :=
  { v with entries := Function.update v.entries name none }

def place (v : Volume C) (name : String) (contents : C) : Volume C :=
  { v.put name contents with placed := v.placed ++ [(name, contents)] }

structure AgreeOff (name : String) (v w : Volume C) : Prop where
  entries : ∀ n, n ≠ name → w.entries n = v.entries n
  placed : w.placed = v.placed

namespace AgreeOff

variable {name : String}

theorem refl (name : String) (v : Volume C) : v.AgreeOff name v := ⟨fun _ _ => rfl, rfl⟩

theorem put (h : v.AgreeOff name w) (contents : C) : v.AgreeOff name (w.put name contents) where
  entries n hn := (Function.update_of_ne hn _ _).trans (h.entries n hn)
  placed := h.placed

theorem drop (h : v.AgreeOff name w) : v.AgreeOff name (w.drop name) where
  entries n hn := (Function.update_of_ne hn _ _).trans (h.entries n hn)
  placed := h.placed

theorem place (h : v.AgreeOff name w) (path : String) (contents : C) :
    (v.place path contents).AgreeOff name ((w.drop name).place path contents) where
  entries n hn := by
    rcases eq_or_ne n path with rfl | hpath
    · simp [Volume.place, Volume.put]
    · simp only [Volume.place, Volume.put, Volume.drop]
      rw [Function.update_of_ne hpath, Function.update_of_ne hn, Function.update_of_ne hpath]
      exact h.entries n hn
  placed := congrArg (· ++ [(path, contents)]) h.placed

end AgreeOff

end Volume

inductive Call (C : Type)
  | prepare
  | components
  | inspect (name : String)
  | tryExists (name : String)
  | create (name : String)
  | protect (name : String)
  | write (name : String) (contents : C)
  | rename (source target : String)
  | remove (name : String)
  | read (name : String)
  | list
  | sync

/-- A listing can fail at every entry, and gives no name where it is not text. -/
abbrev Call.Val (E : Type) : Call C → Type
  | .inspect _ => Option Kind
  | .tryExists _ => Bool
  | .read _ => Option C
  | .list => Option (List (Except E (Option String)))
  | _ => Unit

abbrev Call.Ans (E : Type) (c : Call C) : Type := Except E (c.Val E)

def Failed {α : Type} (a : Except E α) : Prop := ∃ e, a = .error e

/-- In `v`, the call `c` may be answered with `a` and leave `v'`. -/
def Call.Effect : (c : Call C) → Volume C → c.Ans E → Volume C → Prop
  | .inspect name, v, a, v' => v' = v ∧ ∀ kind, a = .ok kind → kind = (v.entries name).map Entry.kind
  | .tryExists name, v, a, v' =>
    -- a link that leads nowhere is an entry that does not exist
    v' = v ∧ ∀ there, a = .ok there →
      (v.entries name = none → there = false) ∧
        ∀ x, v.entries name = some (.file x) → there = true
  | .create name, v, a, v' =>
    (v' = v ∧ Failed a) ∨ v.entries name = none ∧ ∃ x, v' = v.put name x
  | .write name contents, v, a, v' =>
    (v' = v ∧ Failed a) ∨ ∃ x, v' = v.put name x ∧ (a = .ok () → x = contents)
  | .rename source target, v, a, v' =>
    (v' = v ∧ Failed a) ∨
      ∃ x, v.entries source = some (.file x) ∧ v' = (v.drop source).place target x
  | .remove name, v, a, v' => (v' = v ∧ Failed a) ∨ v' = v.drop name
  | .read name, v, a, v' =>
    v' = v ∧ (a = .ok none → v.entries name = none) ∧
      ∀ x, a = .ok (some x) → v.entries name = some (.file x)
  | .list, v, a, v' =>
    v' = v ∧ (a = .ok none → ∀ name, v.entries name = none) ∧
      ∀ names, a = .ok (some names) → ∀ name, .ok (some name) ∈ names → v.entries name ≠ none
  | .prepare, v, _, v' | .components, v, _, v' | .protect _, v, _, v' | .sync, v, _, v' => v' = v

def Call.quiet : Call C → Bool
  | .create _ | .write _ _ | .rename _ _ | .remove _ => false
  | _ => true

theorem Call.Effect.eq_of_quiet {c : Call C} {v v' : Volume C} {a : c.Ans E}
    (h : c.Effect v a v') (hc : c.quiet = true) : v' = v := by
  cases c with
  | create | write | rename | remove => cases hc
  | inspect | tryExists | read | list => exact h.1
  | prepare | components | protect | sync => exact h

def semantics (J : Volume C → Prop) : Prog.Semantics (Call C) (Call.Ans E) (Volume C) :=
  ⟨fun _ v => J v, Call.Effect⟩

/-! ### Replacing a file -/

abbrev FileM (C E α : Type) : Type := ExceptT E (Prog (Call C) (Call.Ans E)) α

def attempt (c : Call C) : FileM C E (c.Val E) := ExceptT.mk (Prog.perform c)

def cleaning (temporary : String) (p : FileM C E Unit) : FileM C E Unit :=
  ExceptT.mk (p.run >>= fun r =>
    match r with
    | .ok () => pure (.ok ())
    | .error e => Prog.perform (.remove temporary) >>= fun _ => pure (.error e))

/-- Write the contents to a temporary file and rename it to `path`. -/
def replaceVia (temporary path : String) (contents : C) : FileM C E Unit := do
  attempt (.create temporary)
  attempt (.protect temporary)
  cleaning temporary (attempt (.write temporary contents))
  cleaning temporary (attempt (.rename temporary path))
  attempt .sync

variable {J : Volume C → Prop} {v w : Volume C} {temporary path : String} {contents : C}

/-- The directory agrees with what it was, or with what it is to become. -/
def Replacing (temporary path : String) (contents : C) (v w : Volume C) : Prop :=
  v.AgreeOff temporary w ∨ (v.place path contents).AgreeOff temporary w

theorem safe_cleaning {p : FileM C E Unit} {Q : Unit → Volume C → Prop}
    (hJ : ∀ w, Replacing temporary path contents v w → J w)
    (hp : p.run.Safe (semantics J) (Prog.Outcome Q (Replacing temporary path contents v)) w) :
    (cleaning temporary p).run.Safe (semantics J)
      (Prog.Outcome Q (Replacing temporary path contents v)) w := by
  change (p.run >>= _).Safe (semantics J) _ w
  rw [Prog.safe_bind]
  refine hp.mono ?_
  rintro (e | ⟨⟩) w' h
  · refine ⟨hJ w' h, ?_⟩
    rintro a w'' (⟨rfl, -⟩ | rfl)
    · exact h
    · exact h.imp Volume.AgreeOff.drop Volume.AgreeOff.drop
  · exact h

/-- **The replacement is atomic**: an invariant of the directory as it was and as it is to become
holds at every point. -/
theorem safe_replaceVia (hJ : ∀ w, Replacing temporary path contents v w → J w) :
    (replaceVia temporary path contents : FileM C E Unit).run.Safe (semantics J)
      (Prog.Outcome (fun _ w => (v.place path contents).AgreeOff temporary w)
        (Replacing temporary path contents v)) v := by
  have hstart : v.AgreeOff temporary v := .refl temporary v
  refine Prog.safe_seq (Q := fun _ w => v.AgreeOff temporary w)
    ⟨hJ v (.inl hstart), ?_⟩ ?_
  · rintro (e | ⟨⟩) w (⟨rfl, ⟨e', he⟩⟩ | ⟨-, x, rfl⟩)
    · exact .inl hstart
    · exact .inl (hstart.put x)
    · cases he
    · exact hstart.put x
  rintro ⟨⟩ w hw
  refine Prog.safe_seq (Q := fun _ w => v.AgreeOff temporary w) ⟨hJ w (.inl hw), ?_⟩ ?_
  · rintro (e | ⟨⟩) w' rfl
    · exact .inl hw
    · exact hw
  rintro ⟨⟩ w hw
  -- the temporary holds all contents before it is renamed
  refine Prog.safe_seq
    (Q := fun _ w => v.AgreeOff temporary w ∧ w.entries temporary = some (.file contents))
    (safe_cleaning hJ ⟨hJ w (.inl hw), ?_⟩) ?_
  · rintro (e | ⟨⟩) w' (⟨rfl, ⟨e', he⟩⟩ | ⟨x, rfl, hx⟩)
    · exact .inl hw
    · exact .inl (hw.put x)
    · cases he
    · cases hx rfl
      exact ⟨hw.put contents, by simp [Volume.put]⟩
  rintro ⟨⟩ w ⟨hw, hfile⟩
  refine Prog.safe_seq (Q := fun _ w => (v.place path contents).AgreeOff temporary w)
    (safe_cleaning hJ ⟨hJ w (.inl hw), ?_⟩) ?_
  · rintro (e | ⟨⟩) w' (⟨rfl, ⟨e', he⟩⟩ | ⟨x, hx, rfl⟩)
    · exact .inl hw
    · rw [hfile] at hx
      cases hx
      exact .inr (hw.place path contents)
    · cases he
    · rw [hfile] at hx
      cases hx
      exact hw.place path contents
  rintro ⟨⟩ w hw
  refine ⟨hJ w (.inr hw), ?_⟩
  rintro (e | ⟨⟩) w' rfl
  · exact .inr hw
  · exact hw

theorem runs_replaceVia (hfree : v.entries temporary = none) :
    Prog.Runs Call.Effect (replaceVia temporary path contents : FileM C E Unit).run v (.ok ())
      (((v.put temporary contents).drop temporary).place path contents) := by
  have hput : (v.put temporary contents).put temporary contents = v.put temporary contents := by
    simp [Volume.put]
  refine Prog.runs_seq
    ⟨.ok (), _, .inr ⟨hfree, contents, rfl⟩, rfl, rfl⟩ ?_
  refine Prog.runs_seq ⟨.ok (), _, rfl, rfl, rfl⟩ ?_
  refine Prog.runs_seq
    ⟨.ok (), _, .inr ⟨contents, hput.symm, fun _ => rfl⟩, rfl, rfl⟩ ?_
  refine Prog.runs_seq
    ⟨.ok (), _, .inr ⟨contents, by simp [Volume.put], rfl⟩, rfl, rfl⟩ ?_
  exact ⟨.ok (), _, rfl, rfl, rfl⟩

end Files
