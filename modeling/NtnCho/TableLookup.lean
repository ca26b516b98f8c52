import Mathlib.Tactic.IntervalCases
import Mathlib.Topology.Instances.Rat
import NtnCho.Channel
import NtnCho.Geometry.Polyline

/-!
# Looking up a table

`Get3GPPParameter` rounds the elevation down and up to multiples of ten, which it looks up;
`UpdateSatelliteState` clamps the elevation and searches for the angle before it. Both follow the polyline
through the nine entries, and its end values beyond them.
-/

namespace TableLookup

open Geometry
open NtnCho (get3GPPParameter losTableScan losProbability)

-- the numeral of the steps of ten degrees, in any field
local instance ten : Nat.AtLeastTwo 10 := ⟨by decide⟩

/-! ## Rounding -/

section Rounding

variable {K : Type} [Field K] [LinearOrder K] [FloorRing K]

/-- `elev_low` -/
def elevLow (elevation : K) : ℤ := max 10 (min 90 (⌊elevation / 10⌋ * 10))

/-- `elev_high` -/
def elevHigh (elevation : K) : ℤ := max 10 (min 90 (⌈elevation / 10⌉ * 10))

/-- `Get3GPPParameter` divides by the difference of `elev_high` and `elev_low`. -/
def Divides (elevation : K) : Prop := ¬ (elevLow elevation = elevHigh elevation ∨ elevation ≤ 10)

theorem not_divides_of_le {elevation : K} (low : elevation ≤ 10) : ¬ Divides elevation :=
  not_not.mpr (.inr low)

theorem get3GPPParameter_of_not_divides {elevation : K} (direct : ¬ Divides elevation)
    (table : List (ℤ × K)) : get3GPPParameter table elevation = table.lookup (elevLow elevation) :=
  if_pos (not_not.mp direct)

theorem get3GPPParameter_of_divides {elevation valLow valHigh : K} {table : List (ℤ × K)}
    (divides : Divides elevation) (low : table.lookup (elevLow elevation) = some valLow)
    (high : table.lookup (elevHigh elevation) = some valHigh) :
    get3GPPParameter table elevation =
      some (valLow + (elevation - elevLow elevation) / (elevHigh elevation - elevLow elevation) *
        (valHigh - valLow)) := by
  refine (if_neg divides).trans ?_
  change ((table.lookup (elevLow elevation)).bind fun valLow =>
    (table.lookup (elevHigh elevation)).bind fun valHigh =>
      some (valLow + (elevation - elevLow elevation) / (elevHigh elevation - elevLow elevation) *
        (valHigh - valLow))) = _
  rw [low, high]
  rfl

end Rounding

/-! ## The search -/

section Search

variable {K : Type} [Field K] [LinearOrder K]

/-- The loop of `UpdateSatelliteState` over `elevAngles` from `idx` on. -/
def angleIndex (elevAngles : List K) (clampedElev : K) (idx : ℕ) : ℕ :=
  if idx < elevAngles.length - 1 then
    match elevAngles[idx + 1]? with
    | none => idx
    | some next => if next ≤ clampedElev then angleIndex elevAngles clampedElev (idx + 1) else idx
  else idx
termination_by elevAngles.length - idx

/-- `plos` with the index that has been found; `none` is an index out of range. -/
def plosAt (elevAngles probTable : List K) (clampedElev : K) (idx : ℕ) : Option K :=
  if idx = elevAngles.length - 1 then probTable[idx]?
  else do
    let angle ← elevAngles[idx]?
    let next ← elevAngles[idx + 1]?
    let prob ← probTable[idx]?
    let prob' ← probTable[idx + 1]?
    let alpha := (clampedElev - angle) / (next - angle)
    pure (prob + alpha * (prob' - prob))

/-- `plos` of `UpdateSatelliteState` for the nine values of a table. -/
def plos (probTable : List K) (elevation : K) : Option K :=
  let elevAngles := [10, 20, 30, 40, 50, 60, 70, 80, 90]
  let clampedElev := max 10 (min 90 elevation)
  plosAt elevAngles probTable clampedElev (angleIndex elevAngles clampedElev 0)

/-- The search by index reads the table as the scan of its rows does. -/
theorem plosAt_angleIndex {rows : List (K × K)} {clampedElev : K} {idx : ℕ} (inside : idx < rows.length) :
    plosAt (rows.map Prod.fst) (rows.map Prod.snd) clampedElev
        (angleIndex (rows.map Prod.fst) clampedElev idx) =
      some (losTableScan clampedElev (rows.drop idx)) := by
  rw [angleIndex, List.length_map, List.drop_eq_getElem_cons inside]
  by_cases last : idx < rows.length - 1
  case neg =>
    have ends : idx = rows.length - 1 := by omega
    have none_after : rows.drop (idx + 1) = [] := List.drop_eq_nil_of_le (by omega)
    rw [if_neg last, plosAt, List.length_map, if_pos ends, none_after, List.getElem?_map,
      List.getElem?_eq_getElem inside]
    rfl
  case pos =>
    have next_inside : idx + 1 < rows.length := by omega
    rw [if_pos last, List.getElem?_map, List.getElem?_eq_getElem next_inside,
      List.drop_eq_getElem_cons next_inside]
    dsimp only [Option.map_some]
    rw [losTableScan]
    by_cases further : rows[idx + 1].1 ≤ clampedElev
    · rw [if_pos further, if_pos further, plosAt_angleIndex next_inside,
        List.drop_eq_getElem_cons next_inside]
    · have before_last : idx ≠ rows.length - 1 := by omega
      rw [if_neg further, if_neg further, plosAt, List.length_map, if_neg before_last]
      simp only [List.getElem?_map, List.getElem?_eq_getElem inside, List.getElem?_eq_getElem next_inside]
      rfl
termination_by rows.length - idx

/-- The line-of-sight probability is searched for in this way. -/
theorem plos_losProbability (isUrban : Bool) (elevation : ℚ) :
    plos (if isUrban then [0.246, 0.386, 0.493, 0.613, 0.726, 0.805, 0.919, 0.968, 0.992]
      else [0.782, 0.869, 0.919, 0.929, 0.935, 0.940, 0.949, 0.952, 0.998]) elevation =
      some (losProbability isUrban elevation) := by
  cases isUrban with
  | false =>
      exact @plosAt_angleIndex ℚ _ _ (List.zip [10, 20, 30, 40, 50, 60, 70, 80, 90]
        [0.782, 0.869, 0.919, 0.929, 0.935, 0.940, 0.949, 0.952, 0.998]) _ 0 (by decide)
  | true =>
      exact @plosAt_angleIndex ℚ _ _ (List.zip [10, 20, 30, 40, 50, 60, 70, 80, 90]
        [0.246, 0.386, 0.493, 0.613, 0.726, 0.805, 0.919, 0.968, 0.992]) _ 0 (by decide)

end Search

/-! ## The polyline -/

variable {K : Type} [Field K] [LinearOrder K] [IsStrictOrderedRing K] [FloorRing K] {v : ℤ → K}
  {elevation : K}

/-- The function that both codes compute: the polyline through the entries `v 1, ..., v 9`, and beyond
them their first and last value. -/
def entryLine (v : ℤ → K) (elevation : K) : K := polyline v (max 1 (min 9 (elevation / 10)))

/-- The table has the entries `v 1, ..., v 9` at 10, 20, ..., 90 degrees. -/
def Entries (table : List (ℤ × K)) (v : ℤ → K) : Prop :=
  ∀ n, 1 ≤ n → n ≤ 9 → table.lookup (10 * n) = some (v n)

theorem entryLine_low (low : elevation ≤ 10) : entryLine v elevation = v 1 := by
  have below : elevation / 10 ≤ 1 := by linarith
  have first := polyline_intCast v 1
  rw [Int.cast_one] at first
  rw [entryLine, min_eq_right (below.trans (by norm_num)), max_eq_left below, first]

theorem entryLine_inside (low : 10 ≤ elevation) (high : elevation ≤ 90) :
    entryLine v elevation = polyline v (elevation / 10) := by
  have above : 1 ≤ elevation / 10 := by linarith
  have below : elevation / 10 ≤ 9 := by linarith
  rw [entryLine, min_eq_right below, max_eq_right above]

theorem entryLine_entry (v : ℤ → K) {n : ℤ} (first : 1 ≤ n) (last : n ≤ 9) :
    entryLine v (10 * n) = v n := by
  have low : (1 : K) ≤ n := by exact_mod_cast first
  have high : (n : K) ≤ 9 := by exact_mod_cast last
  rw [entryLine_inside (by linarith) (by linarith), mul_div_cancel_left₀ _ (by norm_num : (10 : K) ≠ 0),
    polyline_intCast]

theorem entryLine_mem_uIcc (v : ℤ → K) {n : ℤ} (first : 1 ≤ n) (last : n < 9)
    (low : 10 * (n : K) ≤ elevation) (high : elevation ≤ 10 * (n + 1)) :
    entryLine v elevation ∈ Set.uIcc (v n) (v (n + 1)) := by
  have above : (1 : K) ≤ n := by exact_mod_cast first
  have below : (n : K) + 1 ≤ 9 := by exact_mod_cast last
  rw [entryLine_inside (by linarith) (by linarith)]
  exact polyline_mem_uIcc (by linarith) (by linarith)

theorem continuous_entryLine [TopologicalSpace K] [OrderTopology K] (v : ℤ → K) :
    Continuous (entryLine v) := by
  have clamped : Continuous fun elevation : K => max 1 (min 9 (elevation / 10)) := by fun_prop
  exact (continuous_polyline v).comp clamped

/-! ### Rounding follows the polyline -/

theorem elevLow_of_le (low : elevation ≤ 10) : elevLow elevation = 10 := by
  have floor : ⌊elevation / 10⌋ ≤ 1 := by
    have below : elevation / 10 < 2 := by linarith
    exact Int.lt_add_one_iff.mp (Int.floor_lt.mpr (by exact_mod_cast below))
  unfold elevLow
  omega

/-- Within the table the elevation is rounded to the entries around it. -/
theorem elevLow_inside {n : ℤ} (first : 1 ≤ n) (last : n ≤ 9) (low : 10 * (n : K) ≤ elevation)
    (high : elevation < 10 * (n + 1)) : elevLow elevation = 10 * n := by
  have floor : ⌊elevation / 10⌋ = n := Int.floor_eq_iff.mpr ⟨by linarith, by linarith⟩
  unfold elevLow
  omega

theorem elevHigh_inside {n : ℤ} (first : 1 ≤ n) (last : n < 9) (low : 10 * (n : K) < elevation)
    (high : elevation ≤ 10 * (n + 1)) : elevHigh elevation = 10 * (n + 1) := by
  have ceil : ⌈elevation / 10⌉ = n + 1 := by
    rw [Int.ceil_eq_iff]
    push_cast
    exact ⟨by linarith, by linarith⟩
  unfold elevHigh
  omega

theorem elevHigh_entry {n : ℤ} (first : 1 ≤ n) (last : n ≤ 9) (here : elevation = 10 * n) :
    elevHigh elevation = 10 * n := by
  have ceil : ⌈elevation / 10⌉ = n := by
    rw [here, mul_div_cancel_left₀ _ (by norm_num : (10 : K) ≠ 0), Int.ceil_intCast]
  unfold elevHigh
  omega

/-- Within the table the elevation is that of an entry, or strictly between two. -/
theorem entry_or_between (above : 10 < elevation) (le : elevation ≤ 90) :
    (∃ n : ℤ, 1 ≤ n ∧ n ≤ 9 ∧ elevation = 10 * n) ∨
      ∃ n : ℤ, 1 ≤ n ∧ n < 9 ∧ 10 * (n : K) < elevation ∧ elevation < 10 * (n + 1) := by
  have floor := Int.floor_le (elevation / 10)
  have next := Int.lt_floor_add_one (elevation / 10)
  have first : 1 ≤ ⌊elevation / 10⌋ := by
    rw [Int.le_floor, Int.cast_one]
    linarith
  have last : ⌊elevation / 10⌋ ≤ 9 := by
    have below : elevation / 10 < 10 := by linarith
    exact Int.lt_add_one_iff.mp (Int.floor_lt.mpr (by exact_mod_cast below))
  have low : 10 * (⌊elevation / 10⌋ : K) ≤ elevation := by linarith
  have high : elevation < 10 * ((⌊elevation / 10⌋ : K) + 1) := by linarith
  rcases low.eq_or_lt with here | low
  · exact .inl ⟨_, first, last, here.symm⟩
  · refine .inr ⟨_, first, lt_of_le_of_ne last fun nine => ?_, low, high⟩
    rw [nine, Int.cast_ofNat] at low
    linarith

theorem not_divides_entry {n : ℤ} (first : 1 ≤ n) (last : n ≤ 9) : ¬ Divides (10 * (n : K)) := by
  refine not_not.mpr (.inl ?_)
  rw [elevLow_inside first last le_rfl (by linarith), elevHigh_entry first last rfl]

/-- Where `Get3GPPParameter` divides, it divides by ten. -/
theorem elevHigh_sub_elevLow (divides : Divides elevation) (le : elevation ≤ 90) :
    (elevHigh elevation : K) - elevLow elevation = 10 := by
  rcases entry_or_between (not_le.mp fun low => not_divides_of_le low divides) le with
    ⟨n, first, last, rfl⟩ | ⟨n, first, last, low, high⟩
  · exact absurd divides (not_divides_entry first last)
  · rw [elevHigh_inside first last low high.le, elevLow_inside first last.le low.le high]
    push_cast
    ring

/-- `Get3GPPParameter` follows the polyline. -/
theorem get3GPPParameter_eq {table : List (ℤ × K)} (entries : Entries table v) (le : elevation ≤ 90) :
    get3GPPParameter table elevation = some (entryLine v elevation) := by
  rcases le_or_gt elevation 10 with low | above
  · rw [get3GPPParameter_of_not_divides (not_divides_of_le low), elevLow_of_le low, entryLine_low low]
    exact entries 1 le_rfl (by norm_num)
  rcases entry_or_between above le with ⟨n, first, last, rfl⟩ | ⟨n, first, last, low, high⟩
  · rw [get3GPPParameter_of_not_divides (not_divides_entry first last),
      elevLow_inside first last le_rfl (by linarith), entryLine_entry v first last]
    exact entries n first last
  · have lowest := elevLow_inside first last.le low.le high
    have highest := elevHigh_inside first last low high.le
    have divides : Divides elevation := by
      refine not_or.mpr ⟨?_, not_le.mpr above⟩
      rw [lowest, highest]
      omega
    have divisor := elevHigh_sub_elevLow divides le
    rw [get3GPPParameter_of_divides divides (lowest ▸ entries n first last.le)
      (highest ▸ entries (n + 1) (by omega) last), divisor, lowest,
      entryLine_inside above.le le, @polyline_eq K _ _ _ v (elevation / 10) n _ (by linarith) (by linarith)]
    have alpha : (elevation - ((10 * n : ℤ) : K)) / 10 = elevation / 10 - n := by
      push_cast
      ring
    rw [alpha]

/-! ### The search follows the polyline -/

/-- The rows of the search from entry `n` on, with `k` more. -/
def entryRows (v : ℤ → K) : ℤ → ℕ → List (K × K)
  | n, 0 => [(10 * n, v n)]
  | n, k + 1 => (10 * n, v n) :: entryRows v (n + 1) k

/-- The scan of the rows from entry `n` on follows the polyline up to the last one. -/
theorem losTableScan_entryRows (v : ℤ → K) {n : ℤ} (k : ℕ) (low : 10 * (n : K) ≤ elevation) :
    losTableScan elevation (entryRows v n k) = polyline v (min (n + k) (elevation / 10)) := by
  induction k generalizing n with
  | zero =>
      have above : (n : K) ≤ elevation / 10 := by linarith
      rw [Nat.cast_zero, add_zero, min_eq_left above, polyline_intCast]
      rfl
  | succ k ih =>
      obtain ⟨rest, rows⟩ : ∃ rest, entryRows v (n + 1) k = (10 * ((n + 1 : ℤ) : K), v (n + 1)) :: rest := by
        cases k <;> exact ⟨_, rfl⟩
      rw [entryRows, rows, losTableScan]
      split
      · rename_i further
        rw [← rows, ih further]
        push_cast
        ring_nf
      · rename_i here
        push_cast at here ⊢
        have nonneg : (0 : K) ≤ k := Nat.cast_nonneg k
        rw [min_eq_right (by linarith), @polyline_eq K _ _ _ v (elevation / 10) n _ (by linarith) (by linarith)]
        have alpha : (elevation - 10 * (n : K)) / (10 * (n + 1) - 10 * n) = elevation / 10 - n := by
          field_simp
          ring
        rw [alpha]

/-- The search by index follows the polyline. -/
theorem plos_eq (v : ℤ → K) (elevation : K) :
    plos [v 1, v 2, v 3, v 4, v 5, v 6, v 7, v 8, v 9] elevation = some (entryLine v elevation) := by
  have angles : (entryRows v 1 8).map Prod.fst = [10, 20, 30, 40, 50, 60, 70, 80, 90] := by
    simp only [entryRows, List.map_cons, List.map_nil]
    norm_num
  have values : (entryRows v 1 8).map Prod.snd = [v 1, v 2, v 3, v 4, v 5, v 6, v 7, v 8, v 9] := rfl
  have found := @plosAt_angleIndex K _ _ (entryRows v 1 8) (max 10 (min 90 elevation)) 0
    (Nat.succ_pos _)
  rw [angles, values] at found
  have clamped : min (((1 : ℤ) : K) + (8 : ℕ)) (max 10 (min 90 elevation) / 10) =
      max 1 (min 9 (elevation / 10)) := by
    have ten : (0 : K) ≤ 10 := by norm_num
    have scaled : max 10 (min 90 elevation) / 10 = max 1 (min 9 (elevation / 10)) := by
      rw [← max_div_div_right ten, ← min_div_div_right ten]
      norm_num
    have last : ((1 : ℤ) : K) + (8 : ℕ) = 9 := by norm_num
    rw [scaled, last]
    exact min_eq_right (max_le (by norm_num) (min_le_left _ _))
  refine found.trans ?_
  rw [List.drop_zero, losTableScan_entryRows v 8 (by simp), clamped]
  rfl

/-! ## The two codes agree -/

/-- A function that interpolates the entries `v 1, ..., v 9` linearly between -90 and 90 degrees. -/
structure Interpolates [TopologicalSpace K] (v : ℤ → K) (f : K → K) : Prop where
  entry : ∀ n : ℤ, 1 ≤ n → n ≤ 9 → f (10 * n) = v n
  below : ∀ elevation ≤ 10, f elevation = v 1
  between : ∀ (n : ℤ) (elevation : K), 1 ≤ n → n < 9 → 10 * n ≤ elevation → elevation ≤ 10 * (n + 1) →
    f elevation ∈ Set.uIcc (v n) (v (n + 1))
  continuous : ContinuousOn f (Set.Icc (-90) 90)

/-- **Looking up a table.** For every table with entries at 10, 20, ..., 90 degrees and every elevation in
[-90, 90], over every ordered field, `Get3GPPParameter` finds its keys, never divides by zero, and returns
what the search of `UpdateSatelliteState` does for the same nine values: the value of a continuous function
that goes through the entries, stays between neighbours, and is constant below 10 degrees. -/
theorem lookups_agree [TopologicalSpace K] [OrderTopology K] {table : List (ℤ × K)} {v : ℤ → K}
    (entries : Entries table v) :
    (∃ f, Interpolates v f ∧ ∀ elevation ∈ Set.Icc (-90) 90,
        get3GPPParameter table elevation = some (f elevation) ∧
          plos [v 1, v 2, v 3, v 4, v 5, v 6, v 7, v 8, v 9] elevation = some (f elevation)) ∧
      ∀ elevation ∈ Set.Icc (-90 : K) 90, Divides elevation →
        (elevHigh elevation : K) - elevLow elevation ≠ 0 := by
  refine ⟨⟨entryLine v, ?_, fun elevation range => ⟨get3GPPParameter_eq entries range.2, plos_eq v _⟩⟩, ?_⟩
  · exact ⟨fun n => entryLine_entry v, fun elevation => entryLine_low,
      fun n elevation => entryLine_mem_uIcc v, (continuous_entryLine v).continuousOn⟩
  · intro elevation range divides
    rw [elevHigh_sub_elevLow divides range.2]
    norm_num

theorem lookups_agree_troposphericScintillation :
    ∃ f : ℚ → ℚ, (∀ elevation ∈ Set.Icc (-90) 90,
        get3GPPParameter NtnCho.troposphericScintillation elevation = some (f elevation)) ∧
      f 30 = 0.30 := by
  let v : ℤ → ℚ := fun n =>
    [1.08, 0.48, 0.30, 0.22, 0.17, 0.13, 0.12, 0.12, 0.12].getD (n - 1).toNat 0
  have entries : Entries NtnCho.troposphericScintillation v := by
    intro n first last
    interval_cases n <;> rfl
  obtain ⟨⟨f, interpolates, agree⟩, -⟩ := lookups_agree entries
  refine ⟨f, fun elevation range => (agree elevation range).1, ?_⟩
  have third := interpolates.entry 3 (by norm_num) (by norm_num)
  norm_num at third
  rw [third]
  rfl

end TableLookup
