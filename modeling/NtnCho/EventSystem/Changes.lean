import NtnCho.EventSystem.Basic

/-!
# Changes of an observation

An observation of the state changes along a run, here and there. `changes` lists these changes, each
with the values before and after it. They form a path (`IsPath`) from what is observed at the start to
what is observed at the end, whatever the system does: `Run.changes_path`.
-/

namespace EventSystem

variable {τ σ ε α : Type*}

/-- The steps, each from its first to its second component, lead from the one point to the other. -/
def IsPath : α → List (α × α) → α → Prop
  | x, [], y => x = y
  | x, (a, b) :: steps, y => a = x ∧ IsPath b steps y

theorem IsPath.nil (x : α) : IsPath x [] x := rfl

theorem IsPath.append {x y z : α} {steps steps' : List (α × α)} (path : IsPath x steps y)
    (path' : IsPath y steps' z) : IsPath x (steps ++ steps') z := by
  induction steps generalizing x with
  | nil =>
      obtain rfl : x = y := path
      exact path'
  | cons step steps ih => exact ⟨path.1, ih path.2⟩

theorem IsPath.snoc {x y z : α} {steps : List (α × α)} (path : IsPath x steps y) :
    IsPath x (steps ++ [(y, z)]) z := path.append ⟨rfl, rfl⟩

/-- Where a path leads is determined. -/
theorem IsPath.end_unique {x y z : α} {steps : List (α × α)} (path : IsPath x steps y)
    (path' : IsPath x steps z) : y = z := by
  induction steps generalizing x with
  | nil =>
      obtain rfl : x = y := path
      exact path'
  | cons step steps ih => exact ih path.2 path'.2

variable [DecidableEq α]

/-- The change of an observation by a firing, if there is one. -/
def change (observe : Conf τ σ ε → α) (f : Firing τ σ ε) : Option (α × α) :=
  if observe f.before = observe f.after then none else some (observe f.before, observe f.after)

/-- The changes of an observation along a history. -/
def changes (observe : Conf τ σ ε → α) (h : List (Firing τ σ ε)) : List (α × α) :=
  h.filterMap (change observe)

theorem changes_append (observe : Conf τ σ ε → α) (h h' : List (Firing τ σ ε)) :
    changes observe (h ++ h') = changes observe h ++ changes observe h' := List.filterMap_append

theorem changes_singleton_of_eq {observe : Conf τ σ ε → α} {f : Firing τ σ ε}
    (same : observe f.before = observe f.after) : changes observe [f] = [] := by
  simp [changes, change, same]

theorem changes_singleton_of_ne {observe : Conf τ σ ε → α} {f : Firing τ σ ε}
    (other : observe f.before ≠ observe f.after) :
    changes observe [f] = [(observe f.before, observe f.after)] := by
  simp [changes, change, other]

variable {M : Handler τ σ ε} {ok : Policy τ ε} {c₀ c : Conf τ σ ε} {h : List (Firing τ σ ε)}

/-- The changes of an observation lead from what is observed at the start of a run to what is
observed at its end. -/
theorem Run.changes_path (observe : Conf τ σ ε → α) (run : Run M ok c₀ h c) :
    IsPath (observe c₀) (changes observe h) (observe c) := by
  induction run with
  | nil => exact .nil _
  | @snoc h c c' p _ _ ih =>
      rw [changes_append]
      by_cases same : observe c = observe c'
      · rw [changes_singleton_of_eq (f := ⟨c, p, c'⟩) same, List.append_nil, ← same]
        exact ih
      · rw [changes_singleton_of_ne (f := ⟨c, p, c'⟩) same]
        exact ih.snoc

end EventSystem
