import Mathlib.Algebra.BigOperators.Group.List.Basic
import Mathlib.Algebra.Order.Floor.Ring
import Mathlib.Data.List.GetD
import Mathlib.Data.Rat.Floor
import Mathlib.Tactic.Linarith
import Mathlib.Tactic.FieldSimp
import Mathlib.Tactic.Ring

/-!
# Bins

A vector of counters that grows when an index is too large for it, `addAt`, and what such a vector says of
the values that were counted in it: `Tallies`. The sum of the values lies between the sums of the starts
and of the ends of their bins (`Tallies.sum_mem`).

The values that follow each other in a list are paired by `pairs`.
-/

namespace Frames

/-! ## Counters -/

/-- The first `k` entries of `v`, or `v` followed by zeros. -/
def resize (k : ℕ) (v : List ℕ) : List ℕ := v.take k ++ List.replicate (k - v.length) 0

theorem length_resize (k : ℕ) (v : List ℕ) : (resize k v).length = k := by
  unfold resize
  rw [List.length_append, List.length_take, List.length_replicate]
  omega

theorem getD_resize {k : ℕ} {v : List ℕ} (short : v.length ≤ k) (j : ℕ) :
    (resize k v).getD j 0 = v.getD j 0 := by
  unfold resize
  rw [List.take_of_length_le short]
  by_cases inside : j < v.length
  · rw [List.getD_append v _ 0 j inside]
  · rw [List.getD_append_right v _ 0 j (by omega), List.getD_eq_default v 0 (by omega)]
    simp only [List.getD_eq_getElem?_getD, List.getElem?_replicate]
    split <;> rfl

/-- `amount` is added to the entry at `index`, which is made if it is not there. -/
def addAt (index amount : ℕ) (v : List ℕ) : List ℕ :=
  (if v.length < index + 1 then resize (index + 1) v else v).modify index (· + amount)

@[simp] theorem getD_addAt (index amount : ℕ) (v : List ℕ) (j : ℕ) :
    (addAt index amount v).getD j 0 = v.getD j 0 + if j = index then amount else 0 := by
  have grown : ∀ j, (if v.length < index + 1 then resize (index + 1) v else v).getD j 0 = v.getD j 0 := by
    intro j
    split
    · exact getD_resize (by omega) j
    · rfl
  have long : index < (if v.length < index + 1 then resize (index + 1) v else v).length := by
    split
    · rw [length_resize]
      omega
    · omega
  unfold addAt
  rw [← grown j]
  generalize (if v.length < index + 1 then resize (index + 1) v else v) = u at long
  simp only [List.getD_eq_getElem?_getD, List.getElem?_modify]
  by_cases here : index = j
  · subst here
    rw [List.getElem?_eq_getElem long]
    simp
  · have other : ¬ j = index := fun same => here same.symm
    simp [here, other]

/-! ## Bins of values -/

/-- The bin of a value. -/
def binOf (width value : ℚ) : ℕ := ⌊value / width⌋.toNat

theorem binOf_mem {width value : ℚ} (pos : 0 < width) (nonneg : 0 ≤ value) :
    binOf width value * width ≤ value ∧ value < (binOf width value + 1) * width := by
  have floor_nonneg : 0 ≤ ⌊value / width⌋ := Int.floor_nonneg.mpr (div_nonneg nonneg pos.le)
  have cast : ((binOf width value : ℕ) : ℚ) = ⌊value / width⌋ := by
    unfold binOf
    exact_mod_cast Int.toNat_of_nonneg floor_nonneg
  rw [cast]
  constructor
  · exact (le_div_iff₀ pos).mp (Int.floor_le _)
  · exact (div_lt_iff₀ pos).mp (Int.lt_floor_add_one _)

/-- Every bin holds the number of the values that fall into it. -/
def Tallies (width : ℚ) (bins : List ℕ) (values : List ℚ) : Prop :=
  ∀ i, bins.getD i 0 = values.countP fun value => binOf width value = i

theorem tallies_nil (width : ℚ) : Tallies width [] [] := fun _ => rfl

theorem Tallies.snoc {width : ℚ} {bins : List ℕ} {values : List ℚ} (tallies : Tallies width bins values)
    (value : ℚ) : Tallies width (addAt (binOf width value) 1 bins) (values ++ [value]) := by
  intro i
  rw [getD_addAt, tallies i, List.countP_append, List.countP_singleton]
  by_cases here : binOf width value = i
  · simp [here]
  · have other : ¬ i = binOf width value := fun same => here same.symm
    simp [here, other]

/-- The sum of the entries, each times the weight of its index. -/
def weighed (weight : ℕ → ℚ) : List ℕ → ℚ
  | [] => 0
  | n :: v => weight 0 * n + weighed (fun i => weight (i + 1)) v

/-- Bins that tally weigh what the values weigh. -/
theorem weighed_of_counts (weight : ℕ → ℚ) (bin : ℚ → ℕ) {bins : List ℕ} {values : List ℚ}
    (counts : ∀ i, bins.getD i 0 = values.countP fun value => bin value = i) :
    weighed weight bins = (values.map fun value => weight (bin value)).sum := by
  induction bins generalizing weight bin values with
  | nil =>
      have none : values = [] := by
        by_contra some_value
        obtain ⟨value, member⟩ := List.exists_mem_of_ne_nil values some_value
        have zero := (counts (bin value)).symm
        rw [List.getD_nil, List.countP_eq_zero] at zero
        exact zero value member (by simp)
      rw [none]
      rfl
  | cons n bins ih =>
      -- the values of the first bin, and the others with their bins one lower
      have first : n = values.countP fun value => bin value = 0 := counts 0
      have split : (values.map fun value => weight (bin value)).sum = weight 0 * n +
          ((values.filter fun value => bin value ≠ 0).map fun value => weight (bin value)).sum := by
        rw [first]
        clear counts first ih
        induction values with
        | nil => simp
        | cons value values ih =>
            rw [List.map_cons, List.sum_cons, ih]
            by_cases zero : bin value = 0
            · rw [List.countP_cons_of_pos (by simpa using zero),
                List.filter_cons_of_neg (by simpa using zero), zero]
              push_cast
              ring
            · rw [List.countP_cons_of_neg (by simpa using zero),
                List.filter_cons_of_pos (by simpa using zero), List.map_cons, List.sum_cons]
              ring
      have rest : ∀ i, bins.getD i 0 =
          (values.filter fun value => bin value ≠ 0).countP fun value => bin value - 1 = i := by
        intro i
        rw [List.countP_filter, ← List.getD_cons_succ (x := n), counts (i + 1)]
        refine List.countP_congr fun value _ => ?_
        simp only [decide_eq_true_eq, Bool.and_eq_true]
        omega
      rw [weighed, ih (fun i => weight (i + 1)) (fun value => bin value - 1) rest, split]
      congr 2
      refine List.map_congr_left fun value member => ?_
      have pos : bin value ≠ 0 := by simpa using (List.mem_filter.mp member).2
      rw [Nat.sub_add_cancel (Nat.pos_of_ne_zero pos)]

namespace Tallies

variable {width : ℚ} {bins : List ℕ} {values : List ℚ}

theorem weighed (tallies : Tallies width bins values) (weight : ℕ → ℚ) :
    Frames.weighed weight bins = (values.map fun value => weight (binOf width value)).sum :=
  weighed_of_counts weight (binOf width) tallies

/-- The bins hold as many values as were counted. -/
theorem length (tallies : Tallies width bins values) :
    Frames.weighed (fun _ => 1) bins = values.length := by
  rw [tallies.weighed, List.map_const', List.sum_replicate, nsmul_eq_mul, mul_one]

/-- **The sum of the values, from the bins.** -/
theorem sum_mem (tallies : Tallies width bins values) (pos : 0 < width)
    (nonneg : ∀ value ∈ values, 0 ≤ value) :
    Frames.weighed (fun i => i * width) bins ≤ values.sum ∧
      values.sum ≤ Frames.weighed (fun i => (i + 1) * width) bins := by
  rw [tallies.weighed, tallies.weighed]
  clear tallies
  induction values with
  | nil => exact ⟨le_rfl, le_rfl⟩
  | cons value values ih =>
      obtain ⟨lower, upper⟩ := ih fun v member => nonneg v (List.mem_cons_of_mem value member)
      obtain ⟨start, stop⟩ := binOf_mem pos (nonneg value List.mem_cons_self)
      simp only [List.map_cons, List.sum_cons]
      constructor <;> linarith

end Tallies

/-! ## Neighbours in a list -/

variable {α : Type*}

/-- Each element of a list with the next one. -/
def pairs (l : List α) : List (α × α) := l.zip l.tail

theorem pairs_snoc (l : List α) (a b : α) : pairs (l ++ [a] ++ [b]) = pairs (l ++ [a]) ++ [(a, b)] := by
  induction l with
  | nil => rfl
  | cons c l ih =>
      cases l with
      | nil => rfl
      | cons d l =>
          unfold pairs at ih ⊢
          simp only [List.cons_append, List.tail_cons, List.zip_cons_cons] at ih ⊢
          rw [ih]

end Frames
