import NtnCho.Decision.Closeness
import NtnCho.Topsis

/-!
# SD-TOPSIS over exact real numbers

`FindBestTargetWithSD_TOPSIS` for any type of numbers: over the rationals with the functions of `<cmath>`
it is the one of the simulator, `findBestTarget_ofLibm`, and over the reals with the exact square root it
is the algorithm without rounding. There it never chooses a dominated satellite, and its choice depends
neither on the units of a criterion nor on the order of the candidates. Neither the sentinels of the ideal
points nor the cut-off of the weights gets in the way: normalized values lie between -1 and 1, and a
criterion in which two candidates differ has a positive weight on both sides of the cut-off.
-/

namespace NtnCho

open Decision

namespace SdTopsis

open Topsis (Criterion)

/-- What the algorithm takes from `<cmath>`: `std::sqrt(x)` and `std::pow(x, 2)`. -/
structure Arithmetic (K : Type) where
  sqrt : K → K
  square : K → K

/-! ## The algorithm -/

section

variable {K : Type} [DivisionRing K] [LinearOrder K] (A : Arithmetic K)

def overCriteria (f : Criterion → K) : K := f .sinr + f .elevation + f .distance

/-- Step 1, vector normalization: `sumSquares`. -/
def sumSquares (matrix : List (Criterion → K)) (j : Criterion) : K :=
  (matrix.map fun r : Criterion → K => r j * r j).sum

/-- Step 1, a row of the normalized matrix. -/
def normRow (matrix : List (Criterion → K)) (r : Criterion → K) (j : Criterion) : K :=
  if 0 < sumSquares matrix j then r j / A.sqrt (sumSquares matrix j) else r j

def normMatrix (matrix : List (Criterion → K)) : List (Criterion → K) := matrix.map (normRow A matrix)

/-- Step 2, the standard deviation of each column. -/
def stdDev (normalized : List (Criterion → K)) (j : Criterion) : K :=
  let mean := (normalized.map fun r : Criterion → K => r j).sum / normalized.length
  A.sqrt ((normalized.map fun r : Criterion → K => A.square (r j - mean)).sum / normalized.length)

def weight (normalized : List (Criterion → K)) (j : Criterion) : K :=
  let sumStdDev := overCriteria (stdDev A normalized)
  if 1 / 1000000 < sumStdDev then stdDev A normalized j / sumStdDev else 1 / 3

/-- Step 3, a row of the weighted normalized matrix. -/
def weightedRow (matrix : List (Criterion → K)) (r : Criterion → K) (j : Criterion) : K :=
  normRow A matrix r j * weight A (normMatrix A matrix) j

def weighted (matrix : List (Criterion → K)) : List (Criterion → K) := matrix.map (weightedRow A matrix)

def greatest (matrix : List (Criterion → K)) (j : Criterion) : K :=
  matrix.foldl (fun found r => max found (r j)) (-1000000000)

def least (matrix : List (Criterion → K)) (j : Criterion) : K :=
  matrix.foldl (fun found r => min found (r j)) 1000000000

/-- Step 4, the positive ideal solution. -/
def pis (matrix : List (Criterion → K)) : Criterion → K
  | .distance => least matrix .distance
  | j => greatest matrix j

/-- Step 4, the negative ideal solution. -/
def nis (matrix : List (Criterion → K)) : Criterion → K
  | .distance => greatest matrix .distance
  | j => least matrix j

/-- Step 5, the score of a weighted row. -/
def score (matrix : List (Criterion → K)) (r : Criterion → K) : K :=
  let distance (ideal : Criterion → K) := A.sqrt (overCriteria fun j => A.square (r j - ideal j))
  let distPIS := distance (pis matrix)
  let distNIS := distance (nis matrix)
  if 0 < distPIS + distNIS then distNIS / (distPIS + distNIS) else 0

/-- The scores of the rows of a decision matrix. -/
def scores (matrix : List (Criterion → K)) : List K :=
  (weighted A matrix).map (score A (weighted A matrix))

/-- `FindBestTargetWithSD_TOPSIS` for candidates with the given rows. -/
def findBestTargetWithSD_TOPSIS {α : Type} (row : α → Criterion → K) (candidates : List α) : Option α :=
  match candidates with
  | [] => none
  | [candidate] => some candidate
  | first :: rest =>
      some (((first :: rest).zip (scores A ((first :: rest).map row))).foldl higher (first, -1)).1

end

/-! ## The algorithm of the simulator -/

/-- The arithmetic of the simulators. -/
def ofLibm (libm : Libm) : Arithmetic ℚ := ⟨libm.sqrt, fun x => libm.pow x 2⟩

variable {libm : Libm}

theorem normMatrix_ofLibm (matrix : List Topsis.Row) :
    Topsis.normMatrix libm matrix = normMatrix (ofLibm libm) matrix := rfl

theorem stdDev_ofLibm (normalized : List Topsis.Row) :
    Topsis.stdDev libm normalized = stdDev (ofLibm libm) normalized := rfl

theorem weight_ofLibm (normalized : List Topsis.Row) :
    Topsis.weight libm normalized = weight (ofLibm libm) normalized := by
  funext j
  have cutOff : (0.000001 : ℚ) = 1 / 1000000 := by norm_num
  rw [Topsis.weight, stdDev_ofLibm, cutOff]
  rfl

theorem weighted_ofLibm (matrix : List Topsis.Row) :
    Topsis.weighted libm matrix = weighted (ofLibm libm) matrix := by
  rw [Topsis.weighted, normMatrix_ofLibm, weight_ofLibm, normMatrix, List.map_map]
  rfl

theorem pis_ofLibm (matrix : List Topsis.Row) : Topsis.pis matrix = pis matrix := by
  funext j
  cases j <;> rfl

theorem nis_ofLibm (matrix : List Topsis.Row) : Topsis.nis matrix = nis matrix := by
  funext j
  cases j <;> rfl

theorem score_ofLibm (matrix : List Topsis.Row) :
    Topsis.score libm matrix = score (ofLibm libm) matrix := by
  funext r
  rw [Topsis.score, pis_ofLibm, nis_ofLibm]
  rfl

/-- The simulator chooses by the algorithm over the arithmetic of its `<cmath>`. -/
theorem findBestTarget_ofLibm (libm : Libm) (candidates : List MeasResultCell) :
    Topsis.findBestTargetWithSD_TOPSIS libm candidates =
      findBestTargetWithSD_TOPSIS (ofLibm libm) Topsis.row candidates := by
  match candidates with
  | [] => rfl
  | [candidate] => rfl
  | first :: second :: rest =>
      rw [Topsis.findBestTargetWithSD_TOPSIS, weighted_ofLibm, score_ofLibm]
      · rfl
      · simp

/-! ## Exact arithmetic -/

instance : Fintype Criterion where
  elems := {.sinr, .elevation, .distance}
  complete j := by cases j <;> decide

noncomputable section

/-- The arithmetic without rounding. -/
def exact : Arithmetic ℝ := ⟨Real.sqrt, fun x => x ^ 2⟩

theorem overCriteria_eq_sum (f : Criterion → ℝ) : overCriteria f = ∑ j, f j := by
  have all : (Finset.univ : Finset Criterion) = {.sinr, .elevation, .distance} := rfl
  rw [overCriteria, all, Finset.sum_insert (by decide), Finset.sum_insert (by decide),
    Finset.sum_singleton, add_assoc]

theorem score_exact (matrix : List (Criterion → ℝ)) :
    score exact matrix = closeness (pis matrix) (nis matrix) := by
  funext r
  simp only [score, closeness, distance, exact, overCriteria_eq_sum]
  rfl

theorem stdDev_exact (normalized : List (Criterion → ℝ)) (j : Criterion) :
    stdDev exact normalized j = deviation (normalized.map fun r => r j) := by
  simp only [stdDev, deviation, Decision.mean, exact, List.map_map, List.length_map]
  rfl

/-! ## Weights -/

/-- What the normalization multiplies a column with. -/
def normFactor (matrix : List (Criterion → ℝ)) (j : Criterion) : ℝ :=
  if 0 < sumSquares matrix j then 1 / √(sumSquares matrix j) else 1

theorem normFactor_pos (matrix : List (Criterion → ℝ)) (j : Criterion) : 0 < normFactor matrix j := by
  unfold normFactor
  split_ifs with positive
  · exact one_div_pos.mpr (Real.sqrt_pos.mpr positive)
  · exact one_pos

theorem normRow_eq (matrix : List (Criterion → ℝ)) (r : Criterion → ℝ) (j : Criterion) :
    normRow exact matrix r j = r j * normFactor matrix j := by
  unfold normRow normFactor
  split_ifs
  · exact div_eq_mul_one_div _ _
  · exact (mul_one _).symm

theorem stdDev_nonneg (normalized : List (Criterion → ℝ)) (j : Criterion) :
    0 ≤ stdDev exact normalized j := Real.sqrt_nonneg _

theorem weight_nonneg (normalized : List (Criterion → ℝ)) (j : Criterion) :
    0 ≤ weight exact normalized j := by
  unfold weight
  dsimp only
  split_ifs with varied
  · have cutOff : (0 : ℝ) < 1 / 1000000 := by norm_num
    exact div_nonneg (stdDev_nonneg normalized j) (cutOff.trans varied).le
  · norm_num

/-- A criterion in which two candidates differ has a positive weight. -/
theorem weight_pos {matrix : List (Criterion → ℝ)} {r r' : Criterion → ℝ} {j : Criterion}
    (member : r ∈ matrix) (member' : r' ∈ matrix) (differ : r j ≠ r' j) :
    0 < weight exact (normMatrix exact matrix) j := by
  have column {q : Criterion → ℝ} (inside : q ∈ matrix) :
      normRow exact matrix q j ∈ (normMatrix exact matrix).map fun q => q j :=
    List.mem_map_of_mem (List.mem_map_of_mem inside)
  have apart : normRow exact matrix r j ≠ normRow exact matrix r' j := by
    rw [normRow_eq, normRow_eq]
    exact fun same => differ (mul_right_cancel₀ (normFactor_pos matrix j).ne' same)
  have deviates : 0 < stdDev exact (normMatrix exact matrix) j := by
    rw [stdDev_exact]
    exact deviation_pos (column member) (column member') apart
  unfold weight
  dsimp only
  split_ifs with varied
  · have cutOff : (0 : ℝ) < 1 / 1000000 := by norm_num
    exact div_pos deviates (cutOff.trans varied)
  · norm_num

/-- What the two steps multiply a column with. -/
def factor (matrix : List (Criterion → ℝ)) (j : Criterion) : ℝ :=
  normFactor matrix j * weight exact (normMatrix exact matrix) j

theorem weightedRow_eq (matrix : List (Criterion → ℝ)) (r : Criterion → ℝ) (j : Criterion) :
    weightedRow exact matrix r j = r j * factor matrix j := by
  rw [weightedRow, normRow_eq, factor, mul_assoc]

theorem factor_nonneg (matrix : List (Criterion → ℝ)) (j : Criterion) : 0 ≤ factor matrix j :=
  mul_nonneg (normFactor_pos matrix j).le (weight_nonneg _ j)

theorem weightedRow_le (matrix : List (Criterion → ℝ)) {r r' : Criterion → ℝ} {j : Criterion}
    (le : r j ≤ r' j) : weightedRow exact matrix r j ≤ weightedRow exact matrix r' j := by
  rw [weightedRow_eq, weightedRow_eq]
  exact mul_le_mul_of_nonneg_right le (factor_nonneg matrix j)

theorem weightedRow_ne {matrix : List (Criterion → ℝ)} {r r' : Criterion → ℝ} {j : Criterion}
    (member : r ∈ matrix) (member' : r' ∈ matrix) (differ : r j ≠ r' j) :
    weightedRow exact matrix r j ≠ weightedRow exact matrix r' j := by
  have positive : 0 < factor matrix j :=
    mul_pos (normFactor_pos matrix j) (weight_pos member member' differ)
  rw [weightedRow_eq, weightedRow_eq]
  exact fun same => differ (mul_right_cancel₀ positive.ne' same)

/-! ## The ideal points -/

theorem le_greatest {matrix : List (Criterion → ℝ)} {r : Criterion → ℝ} (member : r ∈ matrix)
    (j : Criterion) : r j ≤ greatest matrix j :=
  (le_foldl_max (fun r : Criterion → ℝ => r j) matrix _).2 r member

theorem least_le {matrix : List (Criterion → ℝ)} {r : Criterion → ℝ} (member : r ∈ matrix)
    (j : Criterion) : least matrix j ≤ r j :=
  (foldl_min_le (fun r : Criterion → ℝ => r j) matrix _).2 r member

/-! ## Dominated candidates -/

/-- `r` is at least as good as `r'` in every criterion, and better in one. -/
def Dominates (r r' : Criterion → ℝ) : Prop :=
  r' .sinr ≤ r .sinr ∧ r' .elevation ≤ r .elevation ∧ r .distance ≤ r' .distance ∧
    (r' .sinr < r .sinr ∨ r' .elevation < r .elevation ∨ r .distance < r' .distance)

/-- The score of a candidate with the row `r`. -/
def closenessOf (matrix : List (Criterion → ℝ)) (r : Criterion → ℝ) : ℝ :=
  score exact (weighted exact matrix) (weightedRow exact matrix r)

theorem scores_exact (matrix : List (Criterion → ℝ)) :
    scores exact matrix = matrix.map (closenessOf matrix) := by
  rw [scores, weighted, List.map_map]
  rfl

/-- A dominated candidate has a lower score. -/
theorem Dominates.closenessOf_lt {matrix : List (Criterion → ℝ)} {r r' : Criterion → ℝ}
    (dominates : Dominates r r') (member : r ∈ matrix) (member' : r' ∈ matrix) :
    closenessOf matrix r' < closenessOf matrix r := by
  obtain ⟨sinr, elevation, distance, better⟩ := dominates
  have inside : weightedRow exact matrix r ∈ weighted exact matrix := List.mem_map_of_mem member
  have inside' : weightedRow exact matrix r' ∈ weighted exact matrix := List.mem_map_of_mem member'
  have differ : ∃ j, weightedRow exact matrix r' j ≠ weightedRow exact matrix r j := by
    rcases better with better | better | better
    · exact ⟨.sinr, weightedRow_ne member' member better.ne⟩
    · exact ⟨.elevation, weightedRow_ne member' member better.ne⟩
    · exact ⟨.distance, weightedRow_ne member' member better.ne'⟩
  rw [closenessOf, closenessOf, score_exact]
  refine closeness_lt_of_between (fun j => ?_) (fun j => ?_) differ
  · cases j with
    | sinr => exact .inl ⟨weightedRow_le matrix sinr, le_greatest inside _⟩
    | elevation => exact .inl ⟨weightedRow_le matrix elevation, le_greatest inside _⟩
    | distance => exact .inr ⟨least_le inside _, weightedRow_le matrix distance⟩
  · cases j with
    | sinr => exact .inr ⟨least_le inside' _, weightedRow_le matrix sinr⟩
    | elevation => exact .inr ⟨least_le inside' _, weightedRow_le matrix elevation⟩
    | distance => exact .inl ⟨weightedRow_le matrix distance, le_greatest inside' _⟩

/-! ## The choice -/

variable {α : Type} {row : α → Criterion → ℝ} {candidates : List α}

/-- The candidates with their scores. -/
def scored (row : α → Criterion → ℝ) (candidates : List α) : List (α × ℝ) :=
  candidates.zip (scores exact (candidates.map row))

theorem scored_eq (row : α → Criterion → ℝ) (candidates : List α) :
    scored row candidates =
      candidates.map fun x => (x, closenessOf (candidates.map row) (row x)) := by
  rw [scored, scores_exact, List.map_map]
  have pairs := List.zip_map' (f := id) (g := closenessOf (candidates.map row) ∘ row) (l := candidates)
  rw [List.map_id] at pairs
  exact pairs

theorem closenessOf_nonneg (matrix : List (Criterion → ℝ)) (r : Criterion → ℝ) :
    0 ≤ closenessOf matrix r := by
  rw [closenessOf, score_exact]
  exact closeness_nonneg _ _ _

theorem closenessOf_le_one (matrix : List (Criterion → ℝ)) (r : Criterion → ℝ) :
    closenessOf matrix r ≤ 1 := by
  rw [closenessOf, score_exact]
  exact closeness_le_one _ _ _

/-- The choice is a candidate of the highest score. -/
theorem findBestTarget_spec (row : α → Criterion → ℝ) (nonempty : candidates ≠ []) :
    ∃ best ∈ scored row candidates, (∀ entry ∈ scored row candidates, entry.2 ≤ best.2) ∧
      findBestTargetWithSD_TOPSIS exact row candidates = some best.1 := by
  match candidates with
  | [candidate] =>
      rw [scored_eq]
      refine ⟨_, List.mem_singleton_self _, fun entry member => ?_, rfl⟩
      rw [List.mem_singleton.mp member]
  | first :: second :: rest =>
      have below : ∀ entry ∈ scored row (first :: second :: rest), (-1 : ℝ) < entry.2 := by
        intro entry member
        rw [scored_eq] at member
        obtain ⟨x, -, rfl⟩ := List.mem_map.mp member
        linarith [closenessOf_nonneg ((first :: second :: rest).map row) (row x)]
      have some_scored : scored row (first :: second :: rest) ≠ [] := by
        rw [scored_eq]
        exact List.cons_ne_nil _ _
      obtain ⟨member, highest⟩ :=
        foldl_higher_spec some_scored (show ∀ entry ∈ _, ((first, -1) : α × ℝ).2 < _ from below)
      exact ⟨_, member, highest, rfl⟩

/-- The chosen candidate has the highest of the scores, which lie between 0 and 1, and no candidate
dominates it. -/
theorem best_undominated (row : α → Criterion → ℝ) (candidates : List α) (nonempty : candidates ≠ []) :
    ∃ best s, findBestTargetWithSD_TOPSIS exact row candidates = some best ∧
      (best, s) ∈ candidates.zip (scores exact (candidates.map row)) ∧
      (∀ s' ∈ scores exact (candidates.map row), 0 ≤ s' ∧ s' ≤ 1 ∧ s' ≤ s) ∧
      ∀ other ∈ candidates, ¬ Dominates (row other) (row best) := by
  obtain ⟨⟨best, s⟩, member, highest, found⟩ := findBestTarget_spec row nonempty
  refine ⟨best, s, found, member, ?_, ?_⟩
  · intro s' score
    rw [scores_exact, List.map_map] at score
    obtain ⟨x, candidate, rfl⟩ := List.mem_map.mp score
    refine ⟨closenessOf_nonneg _ _, closenessOf_le_one _ _, ?_⟩
    rw [scored_eq] at highest
    exact highest _ (List.mem_map_of_mem candidate)
  · intro other candidate dominates
    rw [scored_eq] at member highest
    obtain ⟨x, chosen, same⟩ := List.mem_map.mp member
    obtain ⟨rfl, rfl⟩ := Prod.mk.inj same
    have lower := dominates.closenessOf_lt (List.mem_map_of_mem candidate) (List.mem_map_of_mem chosen)
    exact absurd (highest _ (List.mem_map_of_mem candidate)) (not_le.mpr lower)

/-- Candidates at the same distance, with their number as SINR and elevation. -/
def sampleRow (n : ℕ) : Criterion → ℝ
  | .distance => 1000
  | _ => n

theorem best_undominated_two :
    [1, 2] ≠ ([] : List ℕ) ∧ ∃ best s,
      findBestTargetWithSD_TOPSIS exact sampleRow [1, 2] = some best ∧
      (best, s) ∈ [1, 2].zip (scores exact ([1, 2].map sampleRow)) ∧
      (∀ s' ∈ scores exact ([1, 2].map sampleRow), 0 ≤ s' ∧ s' ≤ 1 ∧ s' ≤ s) ∧
      ∀ other ∈ [1, 2], ¬ Dominates (sampleRow other) (sampleRow best) :=
  ⟨by decide, best_undominated sampleRow [1, 2] (by decide)⟩

/-! ## Units and order -/

/-- The row in other units: criterion `j` counted in `unit j`. -/
def rescaled (unit : Criterion → ℝ) (r : Criterion → ℝ) : Criterion → ℝ := fun j => unit j * r j

theorem sumSquares_nonneg (matrix : List (Criterion → ℝ)) (j : Criterion) : 0 ≤ sumSquares matrix j := by
  refine List.sum_nonneg fun x member => ?_
  obtain ⟨r, -, rfl⟩ := List.mem_map.mp member
  exact mul_self_nonneg (r j)

theorem eq_zero_of_sumSquares {matrix : List (Criterion → ℝ)} {j : Criterion}
    (zero : sumSquares matrix j = 0) {r : Criterion → ℝ} (member : r ∈ matrix) : r j = 0 := by
  have nonneg : ∀ x ∈ matrix.map fun r : Criterion → ℝ => r j * r j, 0 ≤ x := by
    intro x inside
    obtain ⟨q, -, rfl⟩ := List.mem_map.mp inside
    exact mul_self_nonneg (q j)
  have term : r j * r j ≤ sumSquares matrix j :=
    List.single_le_sum nonneg _ (List.mem_map_of_mem member)
  rw [zero] at term
  exact mul_self_eq_zero.mp (le_antisymm term (mul_self_nonneg _))

theorem sumSquares_rescaled (unit : Criterion → ℝ) (matrix : List (Criterion → ℝ)) (j : Criterion) :
    sumSquares (matrix.map (rescaled unit)) j = unit j ^ 2 * sumSquares matrix j := by
  rw [sumSquares, sumSquares, List.map_map, ← List.sum_map_mul_left]
  congr 1
  refine List.map_congr_left fun r _ => ?_
  simp only [Function.comp_apply, rescaled]
  ring

/-- The normalization takes the units out. -/
theorem normMatrix_rescaled {unit : Criterion → ℝ} (positive : ∀ j, 0 < unit j)
    (matrix : List (Criterion → ℝ)) :
    normMatrix exact (matrix.map (rescaled unit)) = normMatrix exact matrix := by
  rw [normMatrix, normMatrix, List.map_map]
  refine List.map_congr_left fun r member => ?_
  funext j
  rw [Function.comp_apply, normRow, normRow, sumSquares_rescaled]
  have square : 0 < unit j ^ 2 := pow_pos (positive j) 2
  by_cases varied : 0 < sumSquares matrix j
  · rw [if_pos (mul_pos square varied), if_pos varied]
    simp only [rescaled, exact]
    rw [Real.sqrt_mul square.le, Real.sqrt_sq (positive j).le]
    exact mul_div_mul_left _ _ (positive j).ne'
  · have none_left : sumSquares matrix j = 0 := le_antisymm (not_lt.mp varied) (sumSquares_nonneg _ j)
    rw [none_left, mul_zero, if_neg (lt_irrefl _), if_neg (lt_irrefl _), rescaled,
      eq_zero_of_sumSquares none_left member, mul_zero]

theorem weighted_eq (matrix : List (Criterion → ℝ)) :
    weighted exact matrix = (normMatrix exact matrix).map fun r j =>
      r j * weight exact (normMatrix exact matrix) j := by
  rw [weighted]
  conv_rhs => rw [normMatrix, List.map_map]
  rfl

theorem scores_rescaled {unit : Criterion → ℝ} (positive : ∀ j, 0 < unit j)
    (matrix : List (Criterion → ℝ)) :
    scores exact (matrix.map (rescaled unit)) = scores exact matrix := by
  rw [scores, scores, weighted_eq, weighted_eq, normMatrix_rescaled positive]

theorem sumSquares_perm {matrix matrix' : List (Criterion → ℝ)} (perm : matrix'.Perm matrix) :
    sumSquares matrix' = sumSquares matrix := by
  funext j
  exact (perm.map _).sum_eq

theorem normMatrix_perm {matrix matrix' : List (Criterion → ℝ)} (perm : matrix'.Perm matrix) :
    (normMatrix exact matrix').Perm (normMatrix exact matrix) := by
  have same : normRow exact matrix' = normRow exact matrix := by
    funext r j
    rw [normRow, normRow, sumSquares_perm perm]
  rw [normMatrix, normMatrix, same]
  exact perm.map _

theorem stdDev_perm {normalized normalized' : List (Criterion → ℝ)}
    (perm : normalized'.Perm normalized) : stdDev exact normalized' = stdDev exact normalized := by
  funext j
  rw [stdDev, stdDev]
  rw [(perm.map _).sum_eq, (perm.map _).sum_eq, perm.length_eq]

theorem weightedRow_perm {matrix matrix' : List (Criterion → ℝ)} (perm : matrix'.Perm matrix) :
    weightedRow exact matrix' = weightedRow exact matrix := by
  funext r j
  rw [weightedRow, weightedRow, normRow, normRow, sumSquares_perm perm, weight, weight,
    stdDev_perm (normMatrix_perm perm)]

theorem greatest_perm {matrix matrix' : List (Criterion → ℝ)} (perm : matrix'.Perm matrix) :
    greatest matrix' = greatest matrix := by
  funext j
  exact perm.foldl_eq' (fun x _ y _ found => max_right_comm found (x j) (y j)) _

theorem least_perm {matrix matrix' : List (Criterion → ℝ)} (perm : matrix'.Perm matrix) :
    least matrix' = least matrix := by
  funext j
  exact perm.foldl_eq' (fun x _ y _ found => min_right_comm found (x j) (y j)) _

theorem closenessOf_perm {matrix matrix' : List (Criterion → ℝ)} (perm : matrix'.Perm matrix) :
    closenessOf matrix' = closenessOf matrix := by
  have rows : (weighted exact matrix').Perm (weighted exact matrix) := by
    rw [weighted, weighted, weightedRow_perm perm]
    exact perm.map _
  have best : pis (weighted exact matrix') = pis (weighted exact matrix) := by
    funext j
    cases j <;> simp only [pis, greatest_perm rows, least_perm rows]
  have worst : nis (weighted exact matrix') = nis (weighted exact matrix) := by
    funext j
    cases j <;> simp only [nis, greatest_perm rows, least_perm rows]
  funext r
  rw [closenessOf, closenessOf, score_exact, score_exact, best, worst, weightedRow_perm perm]

theorem scored_perm {candidates' : List α} (row : α → Criterion → ℝ)
    (perm : candidates'.Perm candidates) : (scored row candidates').Perm (scored row candidates) := by
  rw [scored_eq, scored_eq, closenessOf_perm (perm.map row)]
  exact perm.map _

theorem scored_rescaled {unit : Criterion → ℝ} (positive : ∀ j, 0 < unit j)
    (row : α → Criterion → ℝ) (candidates : List α) :
    scored (fun x => rescaled unit (row x)) candidates = scored row candidates := by
  have rows : candidates.map (fun x => rescaled unit (row x)) =
      (candidates.map row).map (rescaled unit) := by
    rw [List.map_map]
    rfl
  rw [scored, scored, rows, scores_rescaled positive]

/-- One candidate alone has the highest score. -/
def OnlyHighest (scored : List (α × ℝ)) (best : α) : Prop :=
  ∃ s, (best, s) ∈ scored ∧ ∀ entry ∈ scored, entry = (best, s) ∨ entry.2 < s

theorem OnlyHighest.perm {l l' : List (α × ℝ)} {best : α} (only : OnlyHighest l best)
    (perm : l'.Perm l) : OnlyHighest l' best := by
  obtain ⟨s, member, others⟩ := only
  exact ⟨s, perm.mem_iff.mpr member, fun entry inside => others entry (perm.mem_iff.mp inside)⟩

/-- A candidate that alone has the highest score is chosen. -/
theorem OnlyHighest.chosen {best : α} (only : OnlyHighest (scored row candidates) best) :
    findBestTargetWithSD_TOPSIS exact row candidates = some best := by
  obtain ⟨s, member, others⟩ := only
  have nonempty : candidates ≠ [] := by
    rintro rfl
    exact absurd member List.not_mem_nil
  obtain ⟨entry, inside, highest, found⟩ := findBestTarget_spec row nonempty
  rcases others entry inside with rfl | lower
  · exact found
  · exact absurd (highest _ member) (not_le.mpr lower)

/-- Other units leave the scores, another order permutes them with the candidates, and a candidate that
alone has the highest score is chosen in all units and orders. -/
theorem choice_invariant (row : α → Criterion → ℝ) (unit : Criterion → ℝ) (positive : ∀ j, 0 < unit j)
    (candidates candidates' : List α) (perm : candidates'.Perm candidates) :
    scores exact (candidates.map fun x => rescaled unit (row x)) = scores exact (candidates.map row) ∧
      (candidates'.zip (scores exact (candidates'.map row))).Perm
        (candidates.zip (scores exact (candidates.map row))) ∧
      ∀ best, OnlyHighest (candidates.zip (scores exact (candidates.map row))) best →
        findBestTargetWithSD_TOPSIS exact row candidates = some best ∧
        findBestTargetWithSD_TOPSIS exact (fun x => rescaled unit (row x)) candidates' = some best := by
  refine ⟨?_, scored_perm row perm, fun best only => ⟨OnlyHighest.chosen only, ?_⟩⟩
  · rw [← scores_rescaled positive (candidates.map row), List.map_map]
    rfl
  · refine OnlyHighest.chosen ?_
    rw [scored_rescaled positive]
    exact OnlyHighest.perm only (scored_perm row perm)

theorem onlyHighest_sample : OnlyHighest (scored sampleRow [1, 2]) 2 := by
  have dominates : Dominates (sampleRow 2) (sampleRow 1) := by
    simp only [Dominates, sampleRow]
    norm_num
  have lower : closenessOf ([1, 2].map sampleRow) (sampleRow 1) <
      closenessOf ([1, 2].map sampleRow) (sampleRow 2) :=
    dominates.closenessOf_lt (by simp) (by simp)
  rw [scored_eq]
  refine ⟨_, List.mem_map_of_mem (List.mem_cons_of_mem _ List.mem_cons_self), fun entry member => ?_⟩
  obtain ⟨x, candidate, rfl⟩ := List.mem_map.mp member
  rcases List.mem_pair.mp candidate with rfl | rfl
  · exact .inr lower
  · exact .inl rfl

/-- Distances in kilometres, and the two candidates in the other order. -/
theorem choice_invariant_two :
    findBestTargetWithSD_TOPSIS exact
      (fun n => rescaled (fun j => if j = .distance then 1 / 1000 else 1) (sampleRow n)) [2, 1] =
        some 2 := by
  have positive (j : Criterion) : (0 : ℝ) < if j = .distance then 1 / 1000 else 1 := by
    split_ifs <;> norm_num
  have invariant := choice_invariant sampleRow _ positive [1, 2] [2, 1] (List.Perm.swap ..)
  exact (invariant.2.2 2 onlyHighest_sample).2

end

end SdTopsis

end NtnCho
