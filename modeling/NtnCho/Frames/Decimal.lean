import Mathlib.Algebra.Order.Floor.Ring
import Mathlib.Data.Rat.Floor
import Mathlib.Tactic.Linarith
import Mathlib.Tactic.Positivity

/-!
# Decimal rounding

The value of a number printed with a fixed number of decimals: the closest decimal, a tie to the even
digit. Printing keeps the order of numbers and does not move whole numbers.
-/

namespace Frames

/-- The closest integer, a tie to the even one. -/
def roundHalfEven (x : ℚ) : ℤ :=
  if 1 / 2 < Int.fract x ∨ (Int.fract x = 1 / 2 ∧ ⌊x⌋ % 2 = 1) then ⌊x⌋ + 1 else ⌊x⌋

/-- The value of `x` printed with `precision` decimals. -/
def decimals (precision : ℕ) (x : ℚ) : ℚ := roundHalfEven (x * 10 ^ precision) / 10 ^ precision

theorem floor_le_roundHalfEven (x : ℚ) : ⌊x⌋ ≤ roundHalfEven x := by
  unfold roundHalfEven
  split <;> omega

theorem roundHalfEven_le (x : ℚ) : roundHalfEven x ≤ ⌊x⌋ + 1 := by
  unfold roundHalfEven
  split <;> omega

theorem roundHalfEven_mono {x y : ℚ} (le : x ≤ y) : roundHalfEven x ≤ roundHalfEven y := by
  rcases (Int.floor_le_floor le).lt_or_eq with below | same
  · have upper := roundHalfEven_le x
    have lower := floor_le_roundHalfEven y
    omega
  · have fract : Int.fract x ≤ Int.fract y := by
      have left := Int.floor_add_fract x
      have right := Int.floor_add_fract y
      rw [same] at left
      linarith
    unfold roundHalfEven
    rw [same]
    split
    · rename_i up
      rw [if_pos]
      rcases up with above | ⟨tie, odd⟩
      · exact .inl (above.trans_le fract)
      · rw [tie] at fract
        rcases fract.lt_or_eq with above | same_tie
        · exact .inl above
        · exact .inr ⟨same_tie.symm, odd⟩
    · split <;> omega

theorem roundHalfEven_intCast (n : ℤ) : roundHalfEven n = n := by
  unfold roundHalfEven
  rw [Int.fract_intCast, Int.floor_intCast, if_neg]
  norm_num

theorem roundHalfEven_sub_even (x : ℚ) (k : ℤ) :
    roundHalfEven (x - (2 * k : ℤ)) = roundHalfEven x - 2 * k := by
  have parity : (⌊x⌋ - 2 * k) % 2 = ⌊x⌋ % 2 := by omega
  unfold roundHalfEven
  rw [Int.fract_sub_intCast, Int.floor_sub_intCast, parity]
  split <;> omega

theorem roundHalfEven_nonneg {x : ℚ} (nonneg : 0 ≤ x) : 0 ≤ roundHalfEven x :=
  (Int.floor_nonneg.mpr nonneg).trans (floor_le_roundHalfEven x)

/-- Rounding is symmetric: ties go to the even number on either side of 0. -/
theorem roundHalfEven_neg (x : ℚ) : roundHalfEven (-x) = -roundHalfEven x := by
  by_cases whole : Int.fract x = 0
  · have cast : x = ⌊x⌋ := by
      have parts := Int.floor_add_fract x
      rw [whole, add_zero] at parts
      exact parts.symm
    rw [cast, ← Int.cast_neg, roundHalfEven_intCast, roundHalfEven_intCast]
  · have floor : ⌊-x⌋ = -⌊x⌋ - 1 := by
      have parts := Int.floor_add_fract x
      have pos := (Int.fract_nonneg x).lt_of_ne' whole
      have lt := Int.fract_lt_one x
      rw [Int.floor_eq_iff]
      push_cast
      constructor <;> linarith
    have fract : Int.fract (-x) = 1 - Int.fract x := Int.fract_neg whole
    unfold roundHalfEven
    rw [floor, fract]
    rcases lt_trichotomy (Int.fract x) (1 / 2) with below | tie | above
    · rw [if_pos (.inl (by linarith)), if_neg]
      · omega
      · rintro (above | ⟨tie, -⟩) <;> linarith
    · rw [tie]
      norm_num
      split <;> split <;> omega
    · rw [if_neg, if_pos (.inl above)]
      · omega
      · rintro (below | ⟨tie, -⟩) <;> linarith

theorem decimals_neg (precision : ℕ) (x : ℚ) : decimals precision (-x) = -decimals precision x := by
  unfold decimals
  rw [neg_mul, roundHalfEven_neg]
  push_cast
  exact neg_div _ _

theorem decimals_mono (precision : ℕ) {x y : ℚ} (le : x ≤ y) :
    decimals precision x ≤ decimals precision y := by
  have scaled : x * 10 ^ precision ≤ y * 10 ^ precision := by
    exact mul_le_mul_of_nonneg_right le (by positivity)
  have rounded : (roundHalfEven (x * 10 ^ precision) : ℚ) ≤ roundHalfEven (y * 10 ^ precision) := by
    exact_mod_cast roundHalfEven_mono scaled
  exact div_le_div_of_nonneg_right rounded (by positivity)

/-- A whole number is printed as it is. -/
theorem decimals_natCast (precision n : ℕ) : decimals precision n = n := by
  have whole : (n : ℚ) * 10 ^ precision = ((n * 10 ^ precision : ℕ) : ℤ) := by push_cast; ring
  unfold decimals
  rw [whole, roundHalfEven_intCast]
  push_cast
  exact mul_div_cancel_right₀ _ (by positivity)

/-- With a decimal at least, printing commutes with subtracting a whole number. -/
theorem decimals_sub_natCast (precision : ℕ) (x : ℚ) (n : ℕ) :
    decimals (precision + 1) (x - n) = decimals (precision + 1) x - n := by
  have shift : (x - n) * 10 ^ (precision + 1) =
      x * 10 ^ (precision + 1) - ((2 * (5 * 10 ^ precision * n) : ℤ) : ℚ) := by
    push_cast
    ring
  unfold decimals
  rw [shift, roundHalfEven_sub_even]
  push_cast
  rw [sub_div]
  congr 1
  field_simp
  ring

/-- Printing does not take a number below a whole number that it reaches. -/
theorem natCast_le_decimals (precision : ℕ) {n : ℕ} {x : ℚ} (le : (n : ℚ) ≤ x) :
    (n : ℚ) ≤ decimals precision x := by
  have mono := decimals_mono precision le
  rwa [decimals_natCast] at mono

example : decimals 3 7.9998 = 8 := by decide +kernel

end Frames
