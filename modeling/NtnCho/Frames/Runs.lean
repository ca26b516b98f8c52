import Mathlib.Data.Nat.Init
import Mathlib.Order.Nat

/-!
# Maximal runs of joined neighbours

The indices below `n` fall into maximal runs: `joined k` says that `k` and `k + 1` belong together. A scan
that goes on from an index while its neighbours are joined ends at the last index of the run that the
index is in, wherever in the run it starts.
-/

namespace Frames

/-- A scan from `start` that goes on while neighbours are joined ends at `last`. -/
structure RunEnd (joined : ℕ → Prop) (n start last : ℕ) : Prop where
  le : start ≤ last
  inside : last < n
  joins : ∀ k, start ≤ k → k < last → joined k
  ends : last + 1 < n → ¬ joined last

/-- The indices from `first` to `last` are a maximal run of joined neighbours. -/
structure IsRun (joined : ℕ → Prop) (n first last : ℕ) : Prop extends
    RunEnd joined n first last where
  starts : ∀ k, k + 1 = first → ¬ joined k

variable {joined : ℕ → Prop} {n start first last : ℕ}

theorem RunEnd.stop (inside : start < n) (ends : start + 1 < n → ¬ joined start) :
    RunEnd joined n start start :=
  ⟨le_rfl, inside, fun _ from_start before => absurd before (not_lt.mpr from_start), ends⟩

theorem RunEnd.step (join : joined start) (scan : RunEnd joined n (start + 1) last) :
    RunEnd joined n start last where
  le := by have := scan.le; omega
  inside := scan.inside
  joins k from_start before := by
    rcases Nat.eq_or_lt_of_le from_start with rfl | later
    · exact join
    · exact scan.joins k later before
  ends := scan.ends

theorem RunEnd.unique {last' : ℕ} (scan : RunEnd joined n start last)
    (scan' : RunEnd joined n start last') : last = last' := by
  have inside := scan.inside
  have inside' := scan'.inside
  rcases Nat.lt_trichotomy last last' with less | same | more
  · exact absurd (scan'.joins last scan.le less) (scan.ends (by omega))
  · exact same
  · exact absurd (scan.joins last' scan'.le more) (scan'.ends (by omega))

theorem exists_runEnd (joined : ℕ → Prop) (inside : start < n) :
    ∃ last, RunEnd joined n start last := by
  -- by induction on the number of indices behind `start`
  obtain ⟨left, rfl⟩ : ∃ left, n = start + 1 + left := ⟨n - (start + 1), by omega⟩
  induction left generalizing start with
  | zero => exact ⟨start, .stop (by omega) (by omega)⟩
  | succ left ih =>
      by_cases join : joined start
      · obtain ⟨last, scan⟩ := ih (show start + 1 < start + 1 + 1 + left by omega)
        have same : start + 1 + 1 + left = start + 1 + (left + 1) := by omega
        rw [same] at scan
        exact ⟨last, scan.step join⟩
      · exact ⟨start, .stop inside fun _ => join⟩

/-- Every index starts the joined indices up to it somewhere. -/
theorem exists_runStart (joined : ℕ → Prop) (k : ℕ) :
    ∃ first ≤ k, (∀ j, first ≤ j → j < k → joined j) ∧ ∀ j, j + 1 = first → ¬ joined j := by
  induction k with
  | zero => exact ⟨0, le_rfl, by omega, by omega⟩
  | succ k ih =>
      by_cases join : joined k
      · obtain ⟨first, le, joins, starts⟩ := ih
        refine ⟨first, by omega, fun j from_first before => ?_, starts⟩
        rcases Nat.eq_or_lt_of_le (Nat.le_of_lt_succ before) with rfl | earlier
        · exact join
        · exact joins j from_first earlier
      · refine ⟨k + 1, le_rfl, by omega, fun j at_start => ?_⟩
        obtain rfl : j = k := by omega
        exact join

/-- Every index is in a maximal run. -/
theorem exists_isRun (joined : ℕ → Prop) {k : ℕ} (inside : k < n) :
    ∃ first last, IsRun joined n first last ∧ first ≤ k ∧ k ≤ last := by
  obtain ⟨first, le, joins, starts⟩ := exists_runStart joined k
  obtain ⟨last, scan⟩ := exists_runEnd joined inside
  refine ⟨first, last, ⟨⟨le.trans scan.le, scan.inside, fun j from_first before => ?_, scan.ends⟩, starts⟩,
    le, scan.le⟩
  rcases Nat.lt_or_ge j k with earlier | later
  · exact joins j from_first earlier
  · exact scan.joins j later before

/-- A scan from anywhere in a maximal run ends where the run does. -/
theorem IsRun.runEnd (run : IsRun joined n first last) {k : ℕ} (from_first : first ≤ k)
    (before : k ≤ last) : RunEnd joined n k last :=
  ⟨before, run.inside, fun j from_k => run.joins j (from_first.trans from_k), run.ends⟩

/-- A maximal run goes on over joined neighbours. -/
theorem IsRun.succ_le (run : IsRun joined n first last) {k : ℕ} (inside : k + 1 < n)
    (before : k ≤ last) (join : joined k) : k + 1 ≤ last := by
  by_contra beyond
  obtain rfl : k = last := by omega
  exact run.ends inside join

end Frames
