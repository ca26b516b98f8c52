import NtnCho.Geometry.Circle
import NtnCho.Interpolation
import NtnCho.Snapshot

/-!
# Longitudes between two samples

`InterpolateGeoPosition` of the TD-CHO simulator adds a turn to one of two longitudes more than 180 degrees
apart, so the longitude between them stays on the shorter arc (`interpolateGeoPosition_shorter_arc`). The
mobility model in geographic mode does not, and agrees with it exactly as long as no two such neighbours
surround the time (`geographic_agrees_iff`).
-/

namespace NtnCho

open Geometry Mobility

/-! ## The loops of `NormalizeLongitude` -/

/-- The first loop of `NormalizeLongitude`. -/
def wrapDown (lonDeg : ℚ) : ℚ := if 180 < lonDeg then wrapDown (lonDeg - 360) else lonDeg
termination_by ⌊lonDeg⌋.toNat
decreasing_by
  rename_i above
  have floor : (180 : ℤ) ≤ ⌊lonDeg⌋ := Int.le_floor.mpr (by exact_mod_cast above.le)
  have lower : ⌊lonDeg - 360⌋ = ⌊lonDeg⌋ - 360 := Int.floor_sub_ofNat lonDeg 360
  omega

/-- The second loop of `NormalizeLongitude`. -/
def wrapUp (lonDeg : ℚ) : ℚ := if lonDeg < -180 then wrapUp (lonDeg + 360) else lonDeg
termination_by (-⌊lonDeg⌋).toNat
decreasing_by
  rename_i below
  have floor : ⌊lonDeg⌋ < -180 := Int.floor_lt.mpr (by exact_mod_cast below)
  have higher : ⌊lonDeg + 360⌋ = ⌊lonDeg⌋ + 360 := Int.floor_add_ofNat lonDeg 360
  omega

/-- `NormalizeLongitude` with its loops. -/
def normalizeLongitudeLoops (lonDeg : ℚ) : ℚ := wrapUp (wrapDown lonDeg)

theorem wrapDown_spec (lonDeg : ℚ) :
    wrapDown lonDeg ≤ 180 ∧ (-180 ≤ lonDeg → -180 ≤ wrapDown lonDeg) ∧
      Congruent 360 (wrapDown lonDeg) lonDeg := by
  fun_induction wrapDown lonDeg with
  | case1 lonDeg above ih =>
      obtain ⟨upper, lower, same⟩ := ih
      refine ⟨upper, fun _ => lower (by linarith), same.trans ⟨-1, ?_⟩⟩
      push_cast
      ring
  | case2 lonDeg inside => exact ⟨not_lt.mp inside, id, .refl 360 lonDeg⟩

theorem wrapUp_spec (lonDeg : ℚ) :
    -180 ≤ wrapUp lonDeg ∧ (lonDeg ≤ 180 → wrapUp lonDeg ≤ 180) ∧
      Congruent 360 (wrapUp lonDeg) lonDeg := by
  fun_induction wrapUp lonDeg with
  | case1 lonDeg below ih =>
      obtain ⟨lower, upper, same⟩ := ih
      refine ⟨lower, fun _ => upper (by linarith), same.trans ⟨1, ?_⟩⟩
      push_cast
      ring
  | case2 lonDeg inside => exact ⟨not_lt.mp inside, id, .refl 360 lonDeg⟩

theorem normalizeLongitude_wrapDown (lonDeg : ℚ) :
    normalizeLongitude (wrapDown lonDeg) = normalizeLongitude lonDeg := by
  fun_induction wrapDown lonDeg with
  | case1 lonDeg above ih => rw [ih, normalizeLongitude_of_gt above]
  | case2 lonDeg inside => rfl

theorem normalizeLongitude_wrapUp (lonDeg : ℚ) :
    normalizeLongitude (wrapUp lonDeg) = normalizeLongitude lonDeg := by
  fun_induction wrapUp lonDeg with
  | case1 lonDeg below ih => rw [ih, normalizeLongitude_of_lt below]
  | case2 lonDeg inside => rfl

theorem normalizeLongitudeLoops_spec (lonDeg : ℚ) :
    -180 ≤ normalizeLongitudeLoops lonDeg ∧ normalizeLongitudeLoops lonDeg ≤ 180 ∧
      Congruent 360 (normalizeLongitudeLoops lonDeg) lonDeg := by
  obtain ⟨upper, -, same⟩ := wrapDown_spec lonDeg
  obtain ⟨lower, keeps, same'⟩ := wrapUp_spec (wrapDown lonDeg)
  exact ⟨lower, keeps upper, same'.trans same⟩

/-- The loops end with what the rounded number of turns gives. -/
theorem normalizeLongitudeLoops_eq (lonDeg : ℚ) :
    normalizeLongitudeLoops lonDeg = normalizeLongitude lonDeg := by
  obtain ⟨lower, upper, -⟩ := normalizeLongitudeLoops_spec lonDeg
  have normal : normalizeLongitude (normalizeLongitudeLoops lonDeg) = normalizeLongitudeLoops lonDeg := by
    rw [normalizeLongitude, if_neg (not_lt.mpr upper), if_neg (not_lt.mpr lower)]
  rw [← normal, normalizeLongitudeLoops, normalizeLongitude_wrapUp, normalizeLongitude_wrapDown]

/-! ## Between two points -/

/-- The longitudes that `InterpolateGeoPosition` interpolates between. -/
def unwrapLongitudes (lon1 lon2 : ℚ) : ℚ × ℚ :=
  if 180 < |lon2 - lon1| then
    if lon1 < lon2 then (lon1 + 360, lon2) else (lon1, lon2 + 360)
  else (lon1, lon2)

/-- The end of `InterpolateGeoPosition`, between `p1` and `p2`. -/
def interpolateGeoBetween (alpha : ℚ) (p1 p2 : TrajectoryPoint) : GeoPosition :=
  let lons := unwrapLongitudes p1.lonDeg p2.lonDeg
  { latDeg := p1.latDeg + alpha * (p2.latDeg - p1.latDeg)
    lonDeg := normalizeLongitudeLoops (lons.1 + alpha * (lons.2 - lons.1))
    altKm := (p1.altM + alpha * (p2.altM - p1.altM)) / 1000 }

/-- Inside the trajectory `InterpolateGeoPosition` is its end. -/
theorem interpolateGeoPosition_inside {simTime : ℚ} {front : TrajectoryPoint} {rest : List TrajectoryPoint}
    (after : front.time < simTime) (before : simTime < (rest.getLastD front).time) :
    interpolateGeoPosition simTime (front :: rest) =
      interpolateGeoBetween
        ((simTime - (surroundingPoints simTime front rest).1.time) /
          ((surroundingPoints simTime front rest).2.time - (surroundingPoints simTime front rest).1.time))
        (surroundingPoints simTime front rest).1 (surroundingPoints simTime front rest).2 := by
  rw [interpolateGeoPosition]
  simp only [if_neg (not_le.mpr after), if_neg (not_le.mpr before)]
  cases surroundingPoints simTime front rest with
  | mk p1 p2 =>
  simp only [interpolateGeoBetween, normalizeLongitudeLoops_eq, unwrapLongitudes]
  by_cases far : 180 < |p2.lonDeg - p1.lonDeg|
  · by_cases less : p1.lonDeg < p2.lonDeg <;> simp [far, less]
  · simp [far]

/-- The two are one point of the circle each, and at most 180 degrees apart. -/
theorem unwrapLongitudes_spec {lon1 lon2 : ℚ} (range1 : |lon1| ≤ 180) (range2 : |lon2| ≤ 180) :
    Congruent 360 (unwrapLongitudes lon1 lon2).1 lon1 ∧
      Congruent 360 (unwrapLongitudes lon1 lon2).2 lon2 ∧
      |(unwrapLongitudes lon1 lon2).2 - (unwrapLongitudes lon1 lon2).1| ≤ 360 / 2 := by
  have turned : ∀ lon : ℚ, Congruent 360 (lon + 360) lon := fun lon => ⟨1, by push_cast; ring⟩
  rw [abs_le] at range1 range2
  unfold unwrapLongitudes
  split
  · rename_i far
    split
    · rename_i less
      rw [abs_of_pos (by linarith)] at far
      exact ⟨turned lon1, .refl 360 lon2, abs_le.mpr ⟨by dsimp only; linarith, by dsimp only; linarith⟩⟩
    · rename_i more
      rw [abs_of_nonpos (by linarith)] at far
      exact ⟨.refl 360 lon1, turned lon2, abs_le.mpr ⟨by dsimp only; linarith, by dsimp only; linarith⟩⟩
  · rename_i near
    exact ⟨.refl 360 lon1, .refl 360 lon2, (not_lt.mp near).trans_eq (by norm_num)⟩

theorem interpolateGeoBetween_lonDeg (alpha : ℚ) (p1 p2 : TrajectoryPoint) :
    -180 ≤ (interpolateGeoBetween alpha p1 p2).lonDeg ∧
      (interpolateGeoBetween alpha p1 p2).lonDeg ≤ 180 ∧
      Congruent 360 (interpolateGeoBetween alpha p1 p2).lonDeg
        ((unwrapLongitudes p1.lonDeg p2.lonDeg).1 + alpha * ((unwrapLongitudes p1.lonDeg p2.lonDeg).2 -
          (unwrapLongitudes p1.lonDeg p2.lonDeg).1)) :=
  normalizeLongitudeLoops_spec _

theorem onShorterArc_interpolateGeoBetween {p1 p2 : TrajectoryPoint} (range1 : |p1.lonDeg| ≤ 180)
    (range2 : |p2.lonDeg| ≤ 180) {alpha : ℚ} (nonneg : 0 ≤ alpha) (atMost : alpha ≤ 1) :
    OnShorterArc 360 p1.lonDeg p2.lonDeg (interpolateGeoBetween alpha p1 p2).lonDeg := by
  have turn : (0 : ℚ) < 360 := by norm_num
  obtain ⟨same1, same2, near⟩ := unwrapLongitudes_spec range1 range2
  obtain ⟨-, -, same⟩ := interpolateGeoBetween_lonDeg alpha p1 p2
  exact (onShorterArc_congr turn same1 same2 same.symm).mp (onShorterArc_between turn near nonneg atMost)

/-- **`InterpolateGeoPosition` stays on the shorter arc.** -/
theorem interpolateGeoPosition_shorter_arc {p1 p2 : TrajectoryPoint} (range1 : |p1.lonDeg| ≤ 180)
    (range2 : |p2.lonDeg| ≤ 180) {alpha : ℚ} (positive : 0 < alpha) (atMost : alpha ≤ 1) :
    -180 ≤ (interpolateGeoBetween alpha p1 p2).lonDeg ∧
      (interpolateGeoBetween alpha p1 p2).lonDeg ≤ 180 ∧
      circularDistance 360 (interpolateGeoBetween alpha p1 p2).lonDeg p1.lonDeg ≤
        circularDistance 360 p1.lonDeg p2.lonDeg ∧
      circularDistance 360 (interpolateGeoBetween alpha p1 p2).lonDeg p2.lonDeg ≤
        circularDistance 360 p1.lonDeg p2.lonDeg ∧
      circularDistance 360 p1.lonDeg (interpolateGeoBetween alpha p1 p2).lonDeg +
          circularDistance 360 (interpolateGeoBetween alpha p1 p2).lonDeg p2.lonDeg =
        circularDistance 360 p1.lonDeg p2.lonDeg ∧
      ∀ lonDeg, Congruent 360 (normalizeLongitudeLoops lonDeg) lonDeg := by
  have turn : (0 : ℚ) < 360 := by norm_num
  obtain ⟨lower, upper, -⟩ := interpolateGeoBetween_lonDeg alpha p1 p2
  have onArc := onShorterArc_interpolateGeoBetween range1 range2 positive.le atMost
  obtain ⟨first, second⟩ := onArc.le
  refine ⟨lower, upper, ?_, second, onArc, fun lonDeg => (normalizeLongitudeLoops_spec lonDeg).2.2⟩
  rw [circularDistance_comm turn]
  exact first

/-- Two points ten degrees on either side of the antimeridian, and one further east. -/
def datelinePositions : List PositionData :=
  [⟨0, 0, 170, 500000, 0, 0, 0, 0, 0, 0⟩, ⟨10, 0, -170, 500000, 0, 0, 0, 0, 0, 0⟩,
    ⟨20, 0, -160, 500000, 0, 0, 0, 0, 0, 0⟩]

theorem interpolateGeoPosition_shorter_arc_dateline :
    circularDistance 360 170 (interpolateGeoBetween (1 / 2) ⟨0, 0, 0, 0, 0, 170, 500000⟩
          ⟨10, 0, 0, 0, 0, -170, 500000⟩).lonDeg +
        circularDistance 360 (interpolateGeoBetween (1 / 2) ⟨0, 0, 0, 0, 0, 170, 500000⟩
          ⟨10, 0, 0, 0, 0, -170, 500000⟩).lonDeg (-170) =
      circularDistance 360 170 (-170) :=
  (@interpolateGeoPosition_shorter_arc ⟨0, 0, 0, 0, 0, 170, 500000⟩ ⟨10, 0, 0, 0, 0, -170, 500000⟩
    (by norm_num) (by norm_num) (1 / 2) (by norm_num) (by norm_num)).2.2.2.2.1

/-! ## The mobility model in geographic mode -/

/-- Without the turn the longitude is the same point of the circle at the second point only, unless the two
are at most 180 degrees apart. -/
theorem congruent_unwrapped_iff {lon1 lon2 alpha : ℚ} (positive : 0 < alpha) (atMost : alpha ≤ 1) :
    Congruent 360 (lon1 + alpha * (lon2 - lon1))
        ((unwrapLongitudes lon1 lon2).1 + alpha * ((unwrapLongitudes lon1 lon2).2 -
          (unwrapLongitudes lon1 lon2).1)) ↔
      alpha = 1 ∨ |lon2 - lon1| ≤ 180 := by
  -- the fraction is no whole number
  have whole : ∀ k : ℤ, alpha = k → alpha = 1 := by
    intro k same
    have above : (0 : ℤ) < k := by exact_mod_cast same ▸ positive
    have below : k ≤ (1 : ℤ) := by exact_mod_cast same ▸ atMost
    rw [same, show k = 1 by omega, Int.cast_one]
  unfold unwrapLongitudes
  by_cases far : 180 < |lon2 - lon1|
  case neg =>
    rw [if_neg far]
    exact ⟨fun _ => .inr (not_lt.mp far), fun _ => .refl 360 _⟩
  case pos =>
    rw [if_pos far, or_iff_left (not_le.mpr far)]
    split
    · constructor
      · rintro ⟨k, same⟩
        refine whole (k + 1) ?_
        push_cast
        linarith
      · rintro rfl
        exact ⟨0, by push_cast; ring⟩
    · constructor
      · rintro ⟨k, same⟩
        refine whole (-k) ?_
        push_cast
        linarith
      · rintro rfl
        exact ⟨-1, by push_cast; ring⟩

/-- The position of the mobility model is that of `InterpolateGeoPosition`, on the shorter arc between the
neighbours. -/
structure SameGround (t : ℚ) (positions : List PositionData) (v : Vector) : Prop where
  lat : v.x = (interpolateGeoPosition t (positions.map PositionData.trajectoryPoint)).latDeg
  alt : v.z = (interpolateGeoPosition t (positions.map PositionData.trajectoryPoint)).altKm * 1000
  lon : Congruent 360 v.y (interpolateGeoPosition t (positions.map PositionData.trajectoryPoint)).lonDeg
  shorter : ∀ i p1 p2, Around PositionData.time t positions i p1 p2 → t < p2.time →
    OnShorterArc 360 p1.lon p2.lon v.y

/-- The time is between neighbours whose longitudes are more than 180 degrees apart. -/
def CrossesAntimeridian (t : ℚ) (positions : List PositionData) : Prop :=
  ∃ i p1 p2, Around PositionData.time t positions i p1 p2 ∧ t < p2.time ∧ 180 < |p2.lon - p1.lon|

section Positions

variable {t : ℚ} {front : PositionData} {rest : List PositionData} {i : ℕ} {p1 p2 : PositionData}

/-- A time between neighbours is inside the trajectory. -/
theorem Around.inside (sorted : (front :: rest).Pairwise fun a b => a.time ≤ b.time)
    (around : Around PositionData.time t (front :: rest) i p1 p2) (strict : t < p2.time) :
    front.time < t ∧ t < (rest.getLastD front).time := by
  have refl : Std.Refl fun a b : PositionData => a.time ≤ b.time := ⟨fun a => le_rfl⟩
  have first : front.time ≤ p1.time := sorted.rel_head (List.mem_of_getElem? around.first)
  have last := sorted.rel_getLast (List.mem_of_getElem? around.second)
  have back : (front :: rest).getLast (List.cons_ne_nil front rest) = rest.getLastD front :=
    Option.some.inj ((List.getLast?_eq_some_getLast _).symm.trans (getLast?_cons_getLastD front rest))
  rw [back] at last
  exact ⟨first.trans_lt around.after, strict.trans_le last⟩

variable {m : Sgp4CsvMobilityModel}

/-- The model between the points of the trajectory. -/
theorem interpolatePosition_geographic (loaded : m.trajectoryLoaded = true) (geographic : m.useEcef = false)
    (points : m.trajectory = front :: rest) (after : front.time < t)
    (before : t < (rest.getLastD front).time) {p1 p2 : PositionData}
    (pair : lowerBound t front rest = (p1, p2)) :
    m.interpolatePosition t =
      some ⟨p1.lat + (t - p1.time) / (p2.time - p1.time) * (p2.lat - p1.lat),
        p1.lon + (t - p1.time) / (p2.time - p1.time) * (p2.lon - p1.lon),
        p1.alt + (t - p1.time) / (p2.time - p1.time) * (p2.alt - p1.alt)⟩ := by
  unfold Sgp4CsvMobilityModel.interpolatePosition
  rw [points, getLast?_cons_getLastD, loaded, geographic, if_neg (by simp)]
  simp only [List.head?_cons, List.tail_cons, Option.bind_eq_bind, Option.bind_some,
    if_neg (not_le.mpr after), if_neg (not_le.mpr before), pair]
  rfl

/-- The model outside the trajectory. -/
theorem interpolatePosition_outside (loaded : m.trajectoryLoaded = true) (geographic : m.useEcef = false)
    (points : m.trajectory = front :: rest) (outside : ¬ (front.time < t ∧ t < (rest.getLastD front).time)) :
    ∃ p : PositionData, m.interpolatePosition t = some ⟨p.lat, p.lon, p.alt⟩ ∧
      interpolateGeoPosition t (m.trajectory.map PositionData.trajectoryPoint) =
        ⟨p.lat, p.lon, p.alt / 1000⟩ := by
  unfold Sgp4CsvMobilityModel.interpolatePosition
  rw [points, getLast?_cons_getLastD, loaded, geographic, if_neg (by simp), List.map_cons,
    interpolateGeoPosition]
  simp only [List.head?_cons, Option.bind_eq_bind, Option.bind_some, getLastD_map_trajectoryPoint]
  by_cases atFirst : t ≤ front.time
  case pos =>
    rw [if_pos atFirst, if_pos (show t ≤ front.trajectoryPoint.time from atFirst)]
    exact ⟨front, rfl, rfl⟩
  case neg =>
    have atLast : (rest.getLastD front).time ≤ t :=
      not_lt.mp fun before => outside ⟨not_le.mp atFirst, before⟩
    rw [if_neg atFirst, if_pos atLast, if_neg (show ¬ t ≤ front.trajectoryPoint.time from atFirst),
      if_pos (show (rest.getLastD front).trajectoryPoint.time ≤ t from atLast)]
    exact ⟨rest.getLastD front, rfl, rfl⟩

end Positions

/-- **Geographic interpolation.** On a trajectory with times that do not decrease the mobility model finds the
position of `InterpolateGeoPosition` exactly at the times that are not between two neighbours on either side of
the antimeridian. -/
theorem geographic_agrees_iff {m : Sgp4CsvMobilityModel} (loaded : m.trajectoryLoaded = true)
    (geographic : m.useEcef = false) (sorted : m.trajectory.Pairwise fun a b => a.time ≤ b.time)
    (range : ∀ p ∈ m.trajectory, |p.lon| ≤ 180) (t : ℚ) :
    (∃ v, m.interpolatePosition t = some v ∧ SameGround t m.trajectory v) ↔
      ¬ CrossesAntimeridian t m.trajectory := by
  cases points : m.trajectory with
  | nil =>
      refine iff_of_true ⟨⟨0, 0, 0⟩, ?_, ⟨rfl, ?_, .refl 360 0, ?_⟩⟩ ?_
      · simp [Sgp4CsvMobilityModel.interpolatePosition, points]
      · simp [interpolateGeoPosition]
      · rintro i p1 p2 ⟨first, -, -, -⟩
        simp at first
      · rintro ⟨i, p1, p2, ⟨first, -, -, -⟩, -⟩
        simp at first
  | cons front rest =>
  rw [points] at sorted range
  by_cases inside : front.time < t ∧ t < (rest.getLastD front).time
  case neg =>
    obtain ⟨p, found, same⟩ := interpolatePosition_outside loaded geographic points inside
    rw [points] at same
    refine iff_of_true ⟨_, found, ⟨?_, ?_, ?_, ?_⟩⟩ ?_
    · rw [same]
    · rw [same]
      exact (div_mul_cancel₀ p.alt (by norm_num)).symm
    · rw [same]
      exact .refl 360 p.lon
    · intro i p1 p2 around strict
      exact absurd (around.inside sorted strict) inside
    · rintro ⟨i, p1, p2, around, strict, -⟩
      exact inside (around.inside sorted strict)
  case pos =>
    obtain ⟨after, before⟩ := inside
    obtain ⟨i, around⟩ := around_lowerBound after before
    have points' := surroundingPoints_map t front rest
    cases pair : lowerBound t front rest with
    | mk p1 p2 =>
    rw [pair] at around points'
    obtain ⟨apart, positive, atMost⟩ := around.fraction
    have found := interpolatePosition_geographic loaded geographic points after before pair
    have simulator : interpolateGeoPosition t ((front :: rest).map PositionData.trajectoryPoint) =
        interpolateGeoBetween ((t - p1.time) / (p2.time - p1.time)) p1.trajectoryPoint
          p2.trajectoryPoint := by
      rw [List.map_cons, interpolateGeoPosition_inside after
        (by rw [getLastD_map_trajectoryPoint]; exact before), points']
      rfl
    have ends : (t - p1.time) / (p2.time - p1.time) = 1 ↔ ¬ t < p2.time := by
      rw [div_eq_one_iff_eq apart.ne', not_lt]
      exact ⟨fun same => by linarith, fun le => by linarith [around.upTo]⟩
    generalize (t - p1.time) / (p2.time - p1.time) = alpha at *
    obtain ⟨-, -, unwrapped⟩ := interpolateGeoBetween_lonDeg alpha p1.trajectoryPoint p2.trajectoryPoint
    have turn : (0 : ℚ) < 360 := by norm_num
    have onArc := @onShorterArc_interpolateGeoBetween p1.trajectoryPoint p2.trajectoryPoint
      (range p1 (List.mem_of_getElem? around.first)) (range p2 (List.mem_of_getElem? around.second))
      alpha positive.le atMost
    have same_lon : Congruent 360 (p1.lon + alpha * (p2.lon - p1.lon))
        (interpolateGeoBetween alpha p1.trajectoryPoint p2.trajectoryPoint).lonDeg ↔
        alpha = 1 ∨ |p2.lon - p1.lon| ≤ 180 :=
      Iff.trans ⟨fun same => same.trans unwrapped, fun same => same.trans unwrapped.symm⟩
        (congruent_unwrapped_iff positive atMost)
    constructor
    · rintro ⟨v, found', ground⟩ ⟨j, q1, q2, around', strict, far⟩
      obtain ⟨-, rfl, rfl⟩ := around.unique sorted around'
      obtain rfl := Option.some.inj (found.symm.trans found')
      have same := ground.lon
      rw [simulator] at same
      rcases same_lon.mp same with atEnd | near
      · exact ends.mp atEnd strict
      · exact absurd far (not_lt.mpr near)
    · intro apart
      have same := same_lon.mpr <| by
        by_contra neither
        rw [not_or, ends, not_not, not_le] at neither
        exact apart ⟨i, p1, p2, around, neither⟩
      refine ⟨_, found, ⟨?_, ?_, ?_, ?_⟩⟩
      · rw [simulator]
        rfl
      · rw [simulator]
        exact (div_mul_cancel₀ _ (by norm_num)).symm
      · rw [simulator]
        exact same
      · intro j q1 q2 around' strict
        obtain ⟨-, rfl, rfl⟩ := around.unique sorted around'
        exact (onShorterArc_congr turn (.refl 360 _) (.refl 360 _) same).mpr onArc

def datelineModel : Sgp4CsvMobilityModel :=
  { trajectory := datelinePositions, useEcef := false, trajectoryLoaded := true }

theorem datelinePositions_sorted : datelinePositions.Pairwise fun a b => a.time ≤ b.time := by
  simp [datelinePositions]
  norm_num

theorem datelinePositions_range : ∀ p ∈ datelinePositions, |p.lon| ≤ 180 := by
  simp [datelinePositions, abs_le]
  norm_num

theorem geographic_agrees_iff_dateline :
    ∃ v, datelineModel.interpolatePosition 15 = some v ∧ SameGround 15 datelinePositions v := by
  refine (geographic_agrees_iff (m := datelineModel) rfl rfl datelinePositions_sorted
    datelinePositions_range 15).mpr ?_
  rintro ⟨i, p1, p2, around, strict, wide⟩
  rcases i with _ | _ | i
  · obtain rfl := Option.some.inj around.second
    exact absurd strict (by norm_num)
  · obtain rfl := Option.some.inj around.first
    obtain rfl := Option.some.inj around.second
    norm_num at wide
  · have beyond := around.second
    simp [datelineModel, datelinePositions] at beyond

/-- Halfway between the first two points the model is on the other side of the Earth. -/
theorem geographic_disagrees :
    ¬ ∀ (m : Sgp4CsvMobilityModel) (t : ℚ), m.trajectoryLoaded = true → m.useEcef = false →
      (m.trajectory.Pairwise fun a b => a.time ≤ b.time) →
      (∀ p ∈ m.trajectory, |p.lon| ≤ 180 ∧ |p.lat| ≤ 90) →
      ∃ v, m.interpolatePosition t = some v ∧ SameGround t m.trajectory v := by
  intro always
  have range : ∀ p ∈ datelineModel.trajectory, |p.lon| ≤ 180 ∧ |p.lat| ≤ 90 := by
    intro p member
    refine ⟨datelinePositions_range p member, ?_⟩
    have equator : ∀ p ∈ datelinePositions, p.lat = 0 := by simp [datelinePositions]
    rw [equator p member, abs_zero]
    norm_num
  obtain ⟨v, found, ground⟩ := always datelineModel 5 rfl rfl datelinePositions_sorted range
  have model : datelineModel.interpolatePosition 5 = some ⟨0, 0, 500000⟩ := by decide +kernel
  have simulator : (interpolateGeoPosition 5
      (datelinePositions.map PositionData.trajectoryPoint)).lonDeg = 180 := by decide +kernel
  obtain rfl := Option.some.inj (model.symm.trans found)
  obtain ⟨k, same⟩ := ground.lon
  rw [show datelineModel.trajectory = datelinePositions from rfl, simulator] at same
  change (0 : ℚ) = 180 + k * 360 at same
  have odd : (0 : ℤ) = 180 + k * 360 := by exact_mod_cast same
  omega

end NtnCho
