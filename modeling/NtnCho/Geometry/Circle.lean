import Mathlib.Algebra.Order.Round
import Mathlib.Tactic.Linarith
import Mathlib.Tactic.Ring

/-!
# Distance on a circle

Numbers that differ by a multiple of the period `p` are one point of the circle. The distance of two points
is the shorter way around, at most half of the period, and a point between two numbers at most half a
period apart lies on the shorter arc (`onShorterArc_between`).
-/

namespace Geometry

/-- The numbers are one point of the circle. -/
def Congruent {K : Type*} [Ring K] (p a b : K) : Prop := ∃ k : ℤ, a = b + k * p

section Congruent

variable {K : Type*} [CommRing K] {p a b c : K}

theorem Congruent.refl (p a : K) : Congruent p a a := ⟨0, by push_cast; ring⟩

theorem Congruent.symm (same : Congruent p a b) : Congruent p b a := by
  obtain ⟨k, rfl⟩ := same
  refine ⟨-k, ?_⟩
  push_cast
  ring

theorem Congruent.trans (same : Congruent p a b) (same' : Congruent p b c) : Congruent p a c := by
  obtain ⟨k, rfl⟩ := same
  obtain ⟨l, rfl⟩ := same'
  refine ⟨l + k, ?_⟩
  push_cast
  ring

end Congruent

variable {K : Type*} [Field K] [LinearOrder K] [FloorRing K] {p a b a' b' x : K}

/-- How far `a` and `b` are apart when the whole turns between them do not count. -/
def circularDistance (p a b : K) : K := |a - b - round ((a - b) / p) * p|

/-- `x` is on the way from `a` to `b` the shorter way around. -/
def OnShorterArc (p a b x : K) : Prop :=
  circularDistance p a x + circularDistance p x b = circularDistance p a b

variable [IsStrictOrderedRing K]

theorem circularDistance_nonneg (p a b : K) : 0 ≤ circularDistance p a b := abs_nonneg _

/-- No number of whole turns brings the points nearer. -/
theorem circularDistance_le (positive : 0 < p) (a b : K) (k : ℤ) :
    circularDistance p a b ≤ |a - b - k * p| := by
  have scaled : ∀ n : ℤ, |a - b - n * p| = |(a - b) / p - n| * p := by
    intro n
    rw [← abs_of_pos positive, ← abs_mul, abs_of_pos positive, sub_mul, div_mul_cancel₀ _ positive.ne']
  rw [circularDistance, scaled, scaled]
  exact mul_le_mul_of_nonneg_right (round_le _ k) positive.le

theorem circularDistance_comm (positive : 0 < p) (a b : K) :
    circularDistance p a b = circularDistance p b a := by
  have half : ∀ c d : K, circularDistance p c d ≤ circularDistance p d c := by
    intro c d
    refine (circularDistance_le positive c d (-round ((d - c) / p))).trans_eq ?_
    rw [circularDistance, ← abs_neg]
    push_cast
    ring_nf
  exact le_antisymm (half a b) (half b a)

theorem circularDistance_congr (positive : 0 < p) (same : Congruent p a a') (same' : Congruent p b b') :
    circularDistance p a b = circularDistance p a' b' := by
  have half : ∀ {c c' d d' : K}, Congruent p c c' → Congruent p d d' →
      circularDistance p c d ≤ circularDistance p c' d' := by
    rintro c c' d d' ⟨k, rfl⟩ ⟨l, rfl⟩
    refine (circularDistance_le positive _ _ (round ((c' - d') / p) + k - l)).trans_eq ?_
    rw [circularDistance]
    push_cast
    ring_nf
  exact le_antisymm (half same same') (half same.symm same'.symm)

/-- Numbers at most half a period apart are as far apart on the circle. -/
theorem circularDistance_eq_abs (positive : 0 < p) (near : |a - b| ≤ p / 2) :
    circularDistance p a b = |a - b| := by
  refine le_antisymm ((circularDistance_le positive a b 0).trans_eq (by simp)) ?_
  unfold circularDistance
  rcases eq_or_ne (round ((a - b) / p)) 0 with zero | turned
  · simp [zero]
  · have turn : p ≤ |(round ((a - b) / p) : K) * p| := by
      rw [abs_mul, abs_of_pos positive, ← Int.cast_abs]
      refine le_mul_of_one_le_left positive.le ?_
      exact_mod_cast Int.one_le_abs turned
    have triangle := abs_sub_abs_le_abs_sub ((round ((a - b) / p) : K) * p) (a - b)
    rw [abs_sub_comm _ (a - b)] at triangle
    linarith

theorem onShorterArc_congr (positive : 0 < p) (same : Congruent p a a') (same' : Congruent p b b')
    {y : K} (same'' : Congruent p x y) : OnShorterArc p a b x ↔ OnShorterArc p a' b' y := by
  unfold OnShorterArc
  rw [circularDistance_congr positive same same', circularDistance_congr positive same same'',
    circularDistance_congr positive same'' same']

/-- What lies between two numbers at most half a period apart lies on the shorter arc. -/
theorem onShorterArc_between (positive : 0 < p) (near : |b - a| ≤ p / 2) {alpha : K} (nonneg : 0 ≤ alpha)
    (atMost : alpha ≤ 1) : OnShorterArc p a b (a + alpha * (b - a)) := by
  have first : |a - (a + alpha * (b - a))| = alpha * |b - a| := by
    rw [show a - (a + alpha * (b - a)) = -(alpha * (b - a)) by ring, abs_neg, abs_mul,
      abs_of_nonneg nonneg]
  have second : |a + alpha * (b - a) - b| = (1 - alpha) * |b - a| := by
    rw [show a + alpha * (b - a) - b = -((1 - alpha) * (b - a)) by ring, abs_neg, abs_mul,
      abs_of_nonneg (sub_nonneg.mpr atMost)]
  have whole : |a - b| = |b - a| := abs_sub_comm a b
  have part : alpha * |b - a| ≤ |b - a| := mul_le_of_le_one_left (abs_nonneg _) atMost
  have part' : (1 - alpha) * |b - a| ≤ |b - a| :=
    mul_le_of_le_one_left (abs_nonneg _) (by linarith)
  unfold OnShorterArc
  rw [circularDistance_eq_abs positive (by linarith), circularDistance_eq_abs positive (by linarith),
    circularDistance_eq_abs positive (by linarith), first, second, whole]
  ring

/-- A point on the shorter arc is no farther from the ends than they are from each other. -/
theorem OnShorterArc.le (onArc : OnShorterArc p a b x) :
    circularDistance p a x ≤ circularDistance p a b ∧ circularDistance p x b ≤ circularDistance p a b := by
  unfold OnShorterArc at onArc
  have first := circularDistance_nonneg p a x
  have second := circularDistance_nonneg p x b
  constructor <;> linarith

end Geometry
