import Mathlib.Algebra.BigOperators.Group.List.Basic
import Mathlib.Algebra.Order.BigOperators.Group.Finset
import Mathlib.Algebra.Order.BigOperators.Group.List
import Mathlib.Analysis.Real.Sqrt

/-!
# Closeness to an ideal

Alternatives with a real number for each of finitely many criteria are ranked by their closeness: the
distance to the worst point as a share of the distances to the best and to the worst. An alternative that
is nowhere farther from the best nor nearer to the worst than another, and somewhere nearer to the best,
has the higher closeness. Also here are the two ingredients of such rankings, the standard deviation of a
column and the choice of the first of the highest.
-/

namespace Decision

/-! ## The standard deviation -/

noncomputable section

def mean (l : List ℝ) : ℝ := l.sum / l.length

/-- The standard deviation of a list of numbers. -/
def deviation (l : List ℝ) : ℝ := √((l.map fun x => (x - mean l) ^ 2).sum / l.length)

/-- Numbers that differ deviate. -/
theorem deviation_pos {l : List ℝ} {x y : ℝ} (first : x ∈ l) (second : y ∈ l) (differ : x ≠ y) :
    0 < deviation l := by
  have nonneg : ∀ d ∈ l.map fun x => (x - mean l) ^ 2, 0 ≤ d := by
    intro d member
    obtain ⟨z, -, rfl⟩ := List.mem_map.mp member
    positivity
  -- one of the two is not the mean
  have away : ∃ z ∈ l, z ≠ mean l := by
    by_contra all
    push Not at all
    exact differ ((all x first).trans (all y second).symm)
  obtain ⟨z, member, apart⟩ := away
  have term : (z - mean l) ^ 2 ≤ (l.map fun x => (x - mean l) ^ 2).sum :=
    List.single_le_sum nonneg _ (List.mem_map_of_mem member)
  have square : 0 < (z - mean l) ^ 2 := by
    have := sub_ne_zero.mpr apart
    positivity
  have length : (0 : ℝ) < l.length := by exact_mod_cast List.length_pos_of_mem member
  exact Real.sqrt_pos.mpr (div_pos (square.trans_le term) length)

/-! ## The distance -/

variable {ι : Type} [Fintype ι]

/-- The Euclidean distance. -/
def distance (x y : ι → ℝ) : ℝ := √(∑ j, (x j - y j) ^ 2)

theorem distance_nonneg (x y : ι → ℝ) : 0 ≤ distance x y := Real.sqrt_nonneg _

theorem distance_lt {x x' y : ι → ℝ} (nearer : ∀ j, |x j - y j| ≤ |x' j - y j|)
    (somewhere : ∃ j, |x j - y j| < |x' j - y j|) : distance x y < distance x' y := by
  obtain ⟨j, less⟩ := somewhere
  refine Real.sqrt_lt_sqrt (Finset.sum_nonneg fun j _ => sq_nonneg _) ?_
  exact Finset.sum_lt_sum (fun j _ => sq_le_sq.mpr (nearer j)) ⟨j, Finset.mem_univ j, sq_lt_sq.mpr less⟩

/-! ## The closeness -/

/-- How close `x` is to `best`, as seen from `worst`. -/
def closeness (best worst x : ι → ℝ) : ℝ :=
  if 0 < distance x best + distance x worst then
    distance x worst / (distance x best + distance x worst)
  else 0

theorem closeness_nonneg (best worst x : ι → ℝ) : 0 ≤ closeness best worst x := by
  unfold closeness
  split_ifs with apart
  · exact div_nonneg (distance_nonneg x worst) apart.le
  · rfl

theorem closeness_le_one (best worst x : ι → ℝ) : closeness best worst x ≤ 1 := by
  unfold closeness
  split_ifs with apart
  · exact (div_le_one apart).mpr (by linarith [distance_nonneg x best])
  · exact zero_le_one

theorem share_lt_share {p p' q q' : ℝ} (nearer : p' < p) (farther : q < q') (p'_nonneg : 0 ≤ p')
    (q_nonneg : 0 ≤ q) : q / (p + q) < q' / (p' + q') := by
  have p_pos : 0 < p := p'_nonneg.trans_lt nearer
  rw [div_lt_div_iff₀ (by linarith) (by linarith)]
  have product : q * p' ≤ q * p := mul_le_mul_of_nonneg_left nearer.le q_nonneg
  have strict : q * p < q' * p := mul_lt_mul_of_pos_right farther p_pos
  linarith

theorem closeness_lt {best worst x x' : ι → ℝ} (nearer : distance x' best < distance x best)
    (farther : distance x worst < distance x' worst) :
    closeness best worst x < closeness best worst x' := by
  have toBest := distance_nonneg x' best
  have toWorst := distance_nonneg x worst
  rw [closeness, closeness, if_pos (by linarith), if_pos (by linarith)]
  exact share_lt_share nearer farther toBest toWorst

/-- `y` lies between `x` and `z`. -/
def Between (x y z : ℝ) : Prop := x ≤ y ∧ y ≤ z ∨ z ≤ y ∧ y ≤ x

theorem Between.nearer {x y z : ℝ} (between : Between x y z) : |y - z| ≤ |x - z| := by
  rcases between with ⟨first, second⟩ | ⟨first, second⟩
  · rw [abs_of_nonpos (by linarith), abs_of_nonpos (by linarith)]
    linarith
  · rw [abs_of_nonneg (by linarith), abs_of_nonneg (by linarith)]
    linarith

theorem Between.nearer_of_ne {x y z : ℝ} (between : Between x y z) (differ : x ≠ y) :
    |y - z| < |x - z| := by
  rcases between with ⟨first, second⟩ | ⟨first, second⟩
  · have less := lt_of_le_of_ne first differ
    rw [abs_of_nonpos (by linarith), abs_of_neg (by linarith)]
    linarith
  · have less := lt_of_le_of_ne second differ.symm
    rw [abs_of_nonneg (by linarith), abs_of_pos (by linarith)]
    linarith

/-- Going from `x` to `x'` towards the best and away from the worst raises the closeness. -/
theorem closeness_lt_of_between {best worst x x' : ι → ℝ} (towards : ∀ j, Between (x j) (x' j) (best j))
    (away : ∀ j, Between (x' j) (x j) (worst j)) (differ : ∃ j, x j ≠ x' j) :
    closeness best worst x < closeness best worst x' := by
  obtain ⟨j, apart⟩ := differ
  refine closeness_lt ?_ ?_
  · exact distance_lt (fun j => (towards j).nearer) ⟨j, (towards j).nearer_of_ne apart⟩
  · exact distance_lt (fun j => (away j).nearer) ⟨j, (away j).nearer_of_ne apart.symm⟩

end

/-! ## The first of the highest -/

section

variable {α K : Type} [LinearOrder K]

theorem le_foldl_max (f : α → K) (l : List α) (start : K) :
    start ≤ l.foldl (fun found x => max found (f x)) start ∧
      ∀ x ∈ l, f x ≤ l.foldl (fun found x => max found (f x)) start := by
  induction l generalizing start with
  | nil => exact ⟨le_rfl, fun _ member => absurd member List.not_mem_nil⟩
  | cons y l ih =>
      obtain ⟨kept, others⟩ := ih (max start (f y))
      refine ⟨(le_max_left _ _).trans kept, fun x member => ?_⟩
      rcases List.mem_cons.mp member with rfl | later
      · exact (le_max_right _ _).trans kept
      · exact others x later

theorem foldl_min_le (f : α → K) (l : List α) (start : K) :
    l.foldl (fun found x => min found (f x)) start ≤ start ∧
      ∀ x ∈ l, l.foldl (fun found x => min found (f x)) start ≤ f x :=
  le_foldl_max (K := Kᵒᵈ) f l start

/-- Keep the alternative with the higher score, the earlier one of equals. -/
def higher (best scored : α × K) : α × K := if best.2 < scored.2 then scored else best

theorem le_foldl_higher (scored : List (α × K)) (best : α × K) :
    best.2 ≤ (scored.foldl higher best).2 ∧ ∀ entry ∈ scored, entry.2 ≤ (scored.foldl higher best).2 := by
  induction scored generalizing best with
  | nil => exact ⟨le_rfl, fun _ member => absurd member List.not_mem_nil⟩
  | cons entry scored ih =>
      obtain ⟨kept, others⟩ := ih (higher best entry)
      have step : best.2 ≤ (higher best entry).2 ∧ entry.2 ≤ (higher best entry).2 := by
        unfold higher
        split_ifs with less
        · exact ⟨less.le, le_rfl⟩
        · exact ⟨le_rfl, not_lt.mp less⟩
      refine ⟨step.1.trans kept, fun other member => ?_⟩
      rcases List.mem_cons.mp member with rfl | later
      · exact step.2.trans kept
      · exact others other later

theorem foldl_higher_mem (scored : List (α × K)) (best : α × K) :
    scored.foldl higher best ∈ best :: scored := by
  induction scored generalizing best with
  | nil => exact List.mem_cons_self
  | cons entry scored ih =>
      have member := ih (higher best entry)
      unfold higher at member ⊢
      rw [List.foldl_cons]
      split_ifs at member ⊢ with less
      · exact List.mem_cons_of_mem _ member
      · rcases List.mem_cons.mp member with same | later
        · exact List.mem_cons.mpr (.inl same)
        · exact List.mem_cons_of_mem _ (List.mem_cons_of_mem _ later)

/-- From a start below all scores the fold chooses an alternative of the highest score. -/
theorem foldl_higher_spec {scored : List (α × K)} {start : α × K} (nonempty : scored ≠ [])
    (below : ∀ entry ∈ scored, start.2 < entry.2) :
    scored.foldl higher start ∈ scored ∧ ∀ entry ∈ scored, entry.2 ≤ (scored.foldl higher start).2 := by
  refine ⟨?_, (le_foldl_higher scored start).2⟩
  rcases List.mem_cons.mp (foldl_higher_mem scored start) with same | member
  · obtain ⟨entry, member⟩ := List.exists_mem_of_ne_nil scored nonempty
    have reached := (le_foldl_higher scored start).2 entry member
    rw [same] at reached
    exact absurd (below entry member) (not_lt.mpr reached)
  · exact member

end

end Decision
