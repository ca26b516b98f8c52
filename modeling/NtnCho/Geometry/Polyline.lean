import Mathlib.Algebra.Order.Floor.Ring
import Mathlib.Tactic.FieldSimp
import Mathlib.Tactic.Linarith
import Mathlib.Tactic.Ring
import Mathlib.Topology.Algebra.Order.Field
import Mathlib.Topology.Order.LeftRight

/-!
# Polylines

The polyline through the points `(n, v n)` of all integers `n`. It is continuous, and between two of its
points it stays between their values.
-/

namespace Geometry

variable {K : Type*} [Field K] [LinearOrder K] [FloorRing K] {v : ℤ → K} {x : K} {n : ℤ}

def polyline (v : ℤ → K) (x : K) : K := v ⌊x⌋ + (x - ⌊x⌋) * (v (⌊x⌋ + 1) - v ⌊x⌋)

variable [IsStrictOrderedRing K]

@[simp]
theorem polyline_intCast (v : ℤ → K) (n : ℤ) : polyline v n = v n := by
  simp [polyline]

/-- On the way to the next point the polyline is a segment, both ends included. -/
theorem polyline_eq (low : (n : K) ≤ x) (high : x ≤ n + 1) :
    polyline v x = v n + (x - n) * (v (n + 1) - v n) := by
  rcases high.lt_or_eq with inside | rfl
  · rw [polyline, Int.floor_eq_iff.mpr ⟨low, inside⟩]
  · have next := polyline_intCast v (n + 1)
    push_cast at next
    rw [next]
    ring

/-- Between two points the polyline is between their values. -/
theorem polyline_mem_uIcc (low : (n : K) ≤ x) (high : x ≤ n + 1) :
    polyline v x ∈ Set.uIcc (v n) (v (n + 1)) := by
  have nonneg : 0 ≤ x - n := sub_nonneg.mpr low
  have le_one : x - n ≤ 1 := by linarith
  rw [polyline_eq low high, Set.mem_uIcc]
  rcases le_total (v n) (v (n + 1)) with up | down
  · have rise : 0 ≤ v (n + 1) - v n := sub_nonneg.mpr up
    have part := mul_le_of_le_one_left rise le_one
    exact .inl ⟨le_add_of_nonneg_right (mul_nonneg nonneg rise), by linarith⟩
  · have fall : 0 ≤ v n - v (n + 1) := sub_nonneg.mpr down
    have part := mul_le_of_le_one_left fall le_one
    have whole := mul_nonneg nonneg fall
    exact .inr ⟨by linarith, by linarith⟩

/-- A polyline is continuous: on either side of a point it is one segment. -/
theorem continuous_polyline [TopologicalSpace K] [OrderTopology K] (v : ℤ → K) :
    Continuous (polyline v) := by
  have segment : ∀ n : ℤ, ContinuousOn (polyline v) (Set.Icc (n : K) (n + 1)) := by
    intro n
    have affine : ContinuousOn (fun x : K => v n + (x - n) * (v (n + 1) - v n))
        (Set.Icc (n : K) (n + 1)) := by fun_prop
    exact affine.congr fun x inside => polyline_eq inside.1 inside.2
  refine continuous_iff_continuousAt.mpr fun x => ?_
  rw [continuousAt_iff_continuous_left_right]
  constructor
  · have low : ((⌈x⌉ - 1 : ℤ) : K) < x := by
      push_cast
      linarith [Int.ceil_lt_add_one x]
    have high : x ≤ ((⌈x⌉ - 1 : ℤ) : K) + 1 := by
      push_cast
      linarith [Int.le_ceil x]
    exact (segment (⌈x⌉ - 1) x ⟨low.le, high⟩).mono_of_mem_nhdsWithin
      (Icc_mem_nhdsLE_of_mem ⟨low, high⟩)
  · have low := Int.floor_le x
    have high := Int.lt_floor_add_one x
    exact (segment ⌊x⌋ x ⟨low, high.le⟩).mono_of_mem_nhdsWithin
      (Icc_mem_nhdsGE_of_mem ⟨low, high⟩)

end Geometry
