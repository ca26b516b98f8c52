import Mathlib.Data.List.Basic
import Mathlib.Order.Lattice
import Mathlib.Order.Nat

/-!
# The lower bound in a sorted table

`lowerBoundIndex` is the search of `std::lower_bound`, which halves a range until it is empty. In a table
whose rows with `before` come first it finds where they end (`isBound_lowerBoundIndex`); such an index is
unique (`IsBound.unique`).
-/

namespace Frames

variable {α τ : Type*} {before : α → Bool} {l : List α}

/-- The search in the `len` entries from `first` on. -/
def lowerBoundFrom (before : α → Bool) (l : List α) (first len : ℕ) : ℕ :=
  if len = 0 then first
  else
    let half := len / 2
    match l[first + half]? with
    | none => first
    | some a =>
        if before a then lowerBoundFrom before l (first + half + 1) (len - half - 1)
        else lowerBoundFrom before l first half
termination_by len
decreasing_by all_goals omega

/-- `std::lower_bound`, as an index. -/
def lowerBoundIndex (before : α → Bool) (l : List α) : ℕ := lowerBoundFrom before l 0 l.length

/-- The entries before index `r` satisfy `before`, those from `r` on do not. -/
structure IsBound (before : α → Bool) (l : List α) (r : ℕ) : Prop where
  le : r ≤ l.length
  below : ∀ i a, i < r → l[i]? = some a → before a = true
  above : ∀ i a, r ≤ i → l[i]? = some a → before a = false

theorem IsBound.le_bound {r r' : ℕ} (bound : IsBound before l r) (bound' : IsBound before l r') :
    r ≤ r' := by
  by_contra more
  have inside : r' < l.length := by have := bound.le; omega
  have holds := bound.below r' l[r'] (by omega) (List.getElem?_eq_getElem inside)
  have fails := bound'.above r' l[r'] le_rfl (List.getElem?_eq_getElem inside)
  rw [fails] at holds
  cases holds

theorem IsBound.unique {r r' : ℕ} (bound : IsBound before l r) (bound' : IsBound before l r') :
    r = r' := le_antisymm (bound.le_bound bound') (bound'.le_bound bound)

/-- The invariant of the search: the end of the entries with `before` lies in the range. -/
theorem isBound_lowerBoundFrom
    (sorted : ∀ (i j : ℕ) (a b : α), i ≤ j → l[i]? = some a → l[j]? = some b → before b = true → before a = true)
    {first len : ℕ} (inside : first + len ≤ l.length)
    (below : ∀ i a, i < first → l[i]? = some a → before a = true)
    (above : ∀ i a, first + len ≤ i → l[i]? = some a → before a = false) :
    IsBound before l (lowerBoundFrom before l first len) := by
  induction len using Nat.strong_induction_on generalizing first with
  | _ len ih =>
      rw [lowerBoundFrom]
      split
      · rename_i empty
        subst empty
        exact ⟨inside, below, above⟩
      · rename_i some_entry
        have middle : first + len / 2 < l.length := by omega
        simp only [List.getElem?_eq_getElem middle]
        split
        · rename_i holds
          refine ih (len - len / 2 - 1) (by omega) (by omega) (fun i a less at_i => ?_)
            fun i a le at_i => above i a (by omega) at_i
          exact sorted i (first + len / 2) a _ (by omega) at_i (List.getElem?_eq_getElem middle) holds
        · rename_i fails
          refine ih (len / 2) (by omega) (by omega) below fun i a le at_i => ?_
          by_contra holds
          rw [Bool.not_eq_false] at holds
          exact fails (sorted (first + len / 2) i _ a le (List.getElem?_eq_getElem middle) at_i holds)

/-- **The search of a table sorted by `key`** finds the first row whose key is not less than `t`. -/
theorem isBound_lowerBoundIndex [LinearOrder τ] {key : α → τ}
    (sorted : l.Pairwise fun a b => key a ≤ key b) (t : τ) :
    IsBound (fun a => decide (key a < t)) l (lowerBoundIndex (fun a => decide (key a < t)) l) := by
  refine isBound_lowerBoundFrom ?_ (by omega) (fun i a less => absurd less (Nat.not_lt_zero i)) ?_
  · intro i j a b le at_i at_j less
    have small : key b < t := of_decide_eq_true less
    refine decide_eq_true ?_
    rcases Nat.eq_or_lt_of_le le with rfl | before_j
    · obtain rfl := Option.some.inj (at_i.symm.trans at_j)
      exact small
    · obtain ⟨inside, rfl⟩ := List.getElem?_eq_some_iff.mp at_i
      obtain ⟨inside', rfl⟩ := List.getElem?_eq_some_iff.mp at_j
      exact (List.pairwise_iff_getElem.mp sorted i j inside inside' before_j).trans_lt small
  · intro i a le at_i
    rw [Nat.zero_add] at le
    rw [List.getElem?_eq_none le] at at_i
    cases at_i

end Frames
