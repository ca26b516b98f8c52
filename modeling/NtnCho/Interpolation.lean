import NtnCho.Frames.LowerBound
import NtnCho.Mobility

/-!
# Positions between two samples

Two functions interpolate the same trajectory: `InterpolatePosition` of the simulators scans forward from
the first point, that of `Sgp4CsvMobilityModel` calls `std::lower_bound` and moves its iterator back by one.
`interpolateIndexed` and `interpolateIterators` are the two with their indices, where `none` is an access
out of range; both find the same points, `Around`, and agree (`interpolators_agree`).
-/

namespace NtnCho

open Frames

namespace Mobility

/-- The point of the trajectory that a simulator holds for a position. -/
def PositionData.trajectoryPoint (data : PositionData) : TrajectoryPoint where
  time := data.time
  xEcef := data.xEcef
  yEcef := data.yEcef
  zEcef := data.zEcef
  latDeg := data.lat
  lonDeg := data.lon
  altM := data.alt

def ofEcef (e : Ecef) : Vector := ⟨e.x, e.y, e.z⟩

/-- `InterpolatePosition` of the mobility model with its iterators. -/
def Sgp4CsvMobilityModel.interpolateIterators (t : ℚ) (m : Sgp4CsvMobilityModel) : Option Vector :=
  if !m.trajectoryLoaded || m.trajectory.isEmpty then some ⟨0, 0, 0⟩
  else do
    let front ← m.trajectory.head?
    let back ← m.trajectory.getLast?
    if t ≤ front.time then pure (front.vector m.useEcef)
    else if back.time ≤ t then pure (back.vector m.useEcef)
    else
      let found := lowerBoundIndex (fun data => decide (data.time < t)) m.trajectory
      let it := if found = 0 then found + 1 else found
      let p1 ← m.trajectory[it - 1]?
      let p2 ← m.trajectory[it]?
      let alpha := (t - p1.time) / (p2.time - p1.time)
      let v1 := p1.vector m.useEcef
      let v2 := p2.vector m.useEcef
      pure
        ⟨v1.x + alpha * (v2.x - v1.x), v1.y + alpha * (v2.y - v1.y), v1.z + alpha * (v2.z - v1.z)⟩

end Mobility

open Mobility

/-- The loop of `InterpolatePosition` from index `i` on. -/
def surroundingIndex (trajectory : List TrajectoryPoint) (simTime : ℚ) (i : ℕ) : ℕ :=
  if i < trajectory.length - 1 then
    match trajectory[i + 1]? with
    | none => i
    | some next => if next.time < simTime then surroundingIndex trajectory simTime (i + 1) else i
  else i
termination_by trajectory.length - i

/-- `InterpolatePosition` of a trajectory with its index. -/
def interpolateIndexed (simTime : ℚ) (trajectory : List TrajectoryPoint) : Option Ecef :=
  if trajectory.isEmpty then some ⟨0, 0, 0⟩
  else do
    let front ← trajectory.head?
    let back ← trajectory.getLast?
    if simTime ≤ front.time then pure front.ecef
    else if back.time ≤ simTime then pure back.ecef
    else
      let i := surroundingIndex trajectory simTime 0
      let p1 ← trajectory[i]?
      let p2 ← trajectory[i + 1]?
      let alpha := (simTime - p1.time) / (p2.time - p1.time)
      pure
        { x := p1.xEcef + alpha * (p2.xEcef - p1.xEcef)
          y := p1.yEcef + alpha * (p2.yEcef - p1.yEcef)
          z := p1.zEcef + alpha * (p2.zEcef - p1.zEcef) }

/-! ## The points around a time -/

/-- The points at `i` and `i + 1` are neighbours with `t` after the first and not after the second. -/
structure Around {α : Type} (time : α → ℚ) (t : ℚ) (l : List α) (i : ℕ) (p1 p2 : α) : Prop where
  first : l[i]? = some p1
  second : l[i + 1]? = some p2
  after : time p1 < t
  upTo : t ≤ time p2

section Around

variable {α : Type} {time : α → ℚ} {t : ℚ} {l : List α} {i : ℕ} {p1 p2 : α}

theorem Around.isBound (sorted : l.Pairwise fun a b => time a ≤ time b)
    (around : Around time t l i p1 p2) : IsBound (fun a => decide (time a < t)) l (i + 1) := by
  obtain ⟨inside, rfl⟩ := List.getElem?_eq_some_iff.mp around.first
  obtain ⟨inside', rfl⟩ := List.getElem?_eq_some_iff.mp around.second
  have order := List.pairwise_iff_getElem.mp sorted
  refine ⟨by omega, fun j a less at_j => ?_, fun j a le at_j => ?_⟩
  · obtain ⟨insideJ, rfl⟩ := List.getElem?_eq_some_iff.mp at_j
    refine decide_eq_true ?_
    rcases Nat.eq_or_lt_of_le (Nat.le_of_lt_succ less) with rfl | before
    · exact around.after
    · exact (order j i insideJ inside before).trans_lt around.after
  · obtain ⟨insideJ, rfl⟩ := List.getElem?_eq_some_iff.mp at_j
    refine decide_eq_false (not_lt.mpr ?_)
    rcases Nat.eq_or_lt_of_le le with rfl | behind
    · exact around.upTo
    · exact around.upTo.trans (order (i + 1) j inside' insideJ behind)

/-- There is one such pair of neighbours. -/
theorem Around.unique {j : ℕ} {q1 q2 : α} (sorted : l.Pairwise fun a b => time a ≤ time b)
    (around : Around time t l i p1 p2) (around' : Around time t l j q1 q2) :
    i = j ∧ p1 = q1 ∧ p2 = q2 := by
  have same := (around.isBound sorted).unique (around'.isBound sorted)
  obtain rfl : i = j := by omega
  exact ⟨rfl, Option.some.inj (around.first.symm.trans around'.first),
    Option.some.inj (around.second.symm.trans around'.second)⟩

theorem Around.map {β : Type} {time' : β → ℚ} {f : α → β} (same : ∀ a, time' (f a) = time a)
    (around : Around time t l i p1 p2) : Around time' t (l.map f) i (f p1) (f p2) where
  first := by rw [List.getElem?_map, around.first, Option.map_some]
  second := by rw [List.getElem?_map, around.second, Option.map_some]
  after := (same p1).trans_lt around.after
  upTo := around.upTo.trans_eq (same p2).symm

theorem Around.cons (front : α) (around : Around time t l i p1 p2) :
    Around time t (front :: l) (i + 1) p1 p2 :=
  ⟨around.first, around.second, around.after, around.upTo⟩

/-- Between neighbours the fraction is positive and at most 1. -/
theorem Around.fraction (around : Around time t l i p1 p2) :
    0 < time p2 - time p1 ∧ 0 < (t - time p1) / (time p2 - time p1) ∧
      (t - time p1) / (time p2 - time p1) ≤ 1 := by
  have after := around.after
  have upTo := around.upTo
  have pos : 0 < time p2 - time p1 := by linarith
  refine ⟨pos, div_pos (by linarith) pos, ?_⟩
  rw [div_le_one pos]
  linarith

end Around

/-! ## What the two searches find -/

/-- The scan ends between neighbours when it starts before the time and the trajectory ends behind it. -/
theorem around_surroundingIndex {trajectory : List TrajectoryPoint} {t : ℚ} {i : ℕ}
    {p back : TrajectoryPoint} (at_i : trajectory[i]? = some p) (after : p.time < t)
    (last : trajectory.getLast? = some back) (before : t < back.time) :
    ∃ p1 p2, Around TrajectoryPoint.time t trajectory (surroundingIndex trajectory t i) p1 p2 := by
  have inside := (List.getElem?_eq_some_iff.mp at_i).1
  have next : i < trajectory.length - 1 := by
    by_contra atEnd
    rw [List.getLast?_eq_getElem?, show trajectory.length - 1 = i by omega, at_i] at last
    rw [Option.some.inj last] at after
    exact lt_asymm after before
  have inside' : i + 1 < trajectory.length := by omega
  have at_next : trajectory[i + 1]? = some trajectory[i + 1] := List.getElem?_eq_getElem inside'
  rw [surroundingIndex, if_pos next, at_next]
  dsimp only
  split
  · rename_i further
    exact around_surroundingIndex at_next further last before
  · rename_i ends
    exact ⟨p, _, at_i, at_next, after, not_lt.mp ends⟩
termination_by trajectory.length - i

theorem around_lowerBound {front : PositionData} {rest : List PositionData} {t : ℚ}
    (after : front.time < t) (before : t < (rest.getLastD front).time) :
    ∃ i, Around PositionData.time t (front :: rest) i (lowerBound t front rest).1
      (lowerBound t front rest).2 := by
  induction rest generalizing front with
  | nil => exact absurd (after.trans before) (lt_irrefl _)
  | cons next rest ih =>
      rw [List.getLastD_cons] at before
      unfold lowerBound
      split
      · rename_i further
        obtain ⟨i, around⟩ := ih further before
        exact ⟨i + 1, around.cons front⟩
      · rename_i ends
        exact ⟨0, rfl, rfl, after, not_lt.mp ends⟩

theorem surroundingPoints_map (t : ℚ) (front : PositionData) (rest : List PositionData) :
    surroundingPoints t front.trajectoryPoint (rest.map PositionData.trajectoryPoint) =
      ((lowerBound t front rest).1.trajectoryPoint, (lowerBound t front rest).2.trajectoryPoint) := by
  induction rest generalizing front with
  | nil => rfl
  | cons next rest ih =>
      rw [List.map_cons, surroundingPoints, lowerBound]
      by_cases further : next.time < t
      · rw [if_pos further, if_pos (show next.trajectoryPoint.time < t from further), ih]
      · rw [if_neg further, if_neg (show ¬ next.trajectoryPoint.time < t from further)]

theorem getLastD_map_trajectoryPoint (front : PositionData) (rest : List PositionData) :
    (rest.map PositionData.trajectoryPoint).getLastD front.trajectoryPoint =
      (rest.getLastD front).trajectoryPoint := by
  induction rest generalizing front with
  | nil => rfl
  | cons next rest ih => rw [List.map_cons, List.getLastD_cons, List.getLastD_cons, ih]

/-- The position at the given fraction of the way between two points. -/
def convex (alpha : ℚ) (p1 p2 : PositionData) : Ecef where
  x := (1 - alpha) * p1.xEcef + alpha * p2.xEcef
  y := (1 - alpha) * p1.yEcef + alpha * p2.yEcef
  z := (1 - alpha) * p1.zEcef + alpha * p2.zEcef

/-- `e` is the position at time `t`: that of the first or the last point outside the trajectory, and a
convex combination of the neighbours around `t` inside, which both searches find. -/
structure PositionAt (t : ℚ) (positions : List PositionData) (e : Ecef) : Prop where
  first : ∀ front, positions.head? = some front → t ≤ front.time → e = front.trajectoryPoint.ecef
  last : ∀ front back, positions.head? = some front → positions.getLast? = some back →
    front.time < t → back.time ≤ t → e = back.trajectoryPoint.ecef
  inside : ∀ front back, positions.head? = some front → positions.getLast? = some back →
    front.time < t → t < back.time →
    ∃ i p1 p2, Around PositionData.time t positions i p1 p2 ∧
      surroundingIndex (positions.map PositionData.trajectoryPoint) t 0 = i ∧
      lowerBoundIndex (fun data => decide (data.time < t)) positions = i + 1 ∧
      ∃ alpha, 0 < alpha ∧ alpha ≤ 1 ∧ alpha = (t - p1.time) / (p2.time - p1.time) ∧
        e = convex alpha p1 p2

/-- The formula of the source. -/
theorem weighted (alpha : ℚ) (p1 p2 : PositionData) :
    (⟨p1.xEcef + alpha * (p2.xEcef - p1.xEcef), p1.yEcef + alpha * (p2.yEcef - p1.yEcef),
      p1.zEcef + alpha * (p2.zEcef - p1.zEcef)⟩ : Ecef) = convex alpha p1 p2 := by
  simp only [convex, Ecef.mk.injEq]
  refine ⟨?_, ?_, ?_⟩ <;> ring

theorem getLast?_cons_getLastD {α : Type} (front : α) (rest : List α) :
    (front :: rest).getLast? = some (rest.getLastD front) := by
  rw [List.getLast?_cons, List.getLastD_eq_getLast?]

/-- What the four functions find at `t` is `e`. -/
structure AllFind (t : ℚ) (m : Sgp4CsvMobilityModel) (e : Ecef) : Prop where
  indexed : interpolateIndexed t (m.trajectory.map PositionData.trajectoryPoint) = some e
  iterators : m.interpolateIterators t = some (ofEcef e)
  scan : interpolatePosition t (m.trajectory.map PositionData.trajectoryPoint) = e
  search : m.interpolatePosition t = some (ofEcef e)

section Agree

variable {t : ℚ} {front : PositionData} {rest : List PositionData} {m : Sgp4CsvMobilityModel}

theorem getLast?_map_trajectoryPoint (front : PositionData) (rest : List PositionData) :
    ((front :: rest).map PositionData.trajectoryPoint).getLast? =
      some (rest.getLastD front).trajectoryPoint := by
  rw [List.getLast?_map, getLast?_cons_getLastD, Option.map_some]

/-- Inside the trajectory the four functions interpolate between the same points. -/
theorem allFind_inside (loaded : m.trajectoryLoaded = true) (ecef : m.useEcef = true)
    (points : m.trajectory = front :: rest)
    (sorted : (front :: rest).Pairwise fun a b => a.time ≤ b.time) (after : front.time < t)
    (before : t < (rest.getLastD front).time) :
    ∃ i p1 p2, Around PositionData.time t (front :: rest) i p1 p2 ∧
      surroundingIndex ((front :: rest).map PositionData.trajectoryPoint) t 0 = i ∧
      lowerBoundIndex (fun data => decide (data.time < t)) (front :: rest) = i + 1 ∧
      AllFind t m (convex ((t - p1.time) / (p2.time - p1.time)) p1 p2) := by
  have last := getLast?_cons_getLastD front rest
  have last' := getLast?_map_trajectoryPoint front rest
  have outside : ¬ t ≤ front.time := not_le.mpr after
  have outside' : ¬ (rest.getLastD front).time ≤ t := not_le.mpr before
  obtain ⟨i, around⟩ := around_lowerBound after before
  have bound := isBound_lowerBoundIndex sorted t
  have found : lowerBoundIndex (fun data => decide (data.time < t)) (front :: rest) = i + 1 :=
    bound.unique (around.isBound sorted)
  have scanned : surroundingIndex ((front :: rest).map PositionData.trajectoryPoint) t 0 = i := by
    have sorted' : ((front :: rest).map PositionData.trajectoryPoint).Pairwise
        fun a b => a.time ≤ b.time := List.pairwise_map.mpr sorted
    obtain ⟨q1, q2, around'⟩ := around_surroundingIndex (i := 0) (p := front.trajectoryPoint) rfl after
      last' before
    have same : ∀ a : PositionData, a.trajectoryPoint.time = a.time := fun _ => rfl
    exact (around'.unique sorted' (around.map same)).1
  have points' := surroundingPoints_map t front rest
  cases pair : lowerBound t front rest with
  | mk p1 p2 =>
  rw [pair] at around points'
  have first' : ((front :: rest).map PositionData.trajectoryPoint)[i]? = some p1.trajectoryPoint := by
    rw [List.getElem?_map, around.first, Option.map_some]
  have second' : ((front :: rest).map PositionData.trajectoryPoint)[i + 1]? =
      some p2.trajectoryPoint := by
    rw [List.getElem?_map, around.second, Option.map_some]
  refine ⟨i, p1, p2, around, scanned, found, ?_, ?_, ?_, ?_⟩
  · unfold interpolateIndexed
    rw [points, last', if_neg (by simp), show ((front :: rest).map PositionData.trajectoryPoint).head? =
      some front.trajectoryPoint from rfl]
    simp only [Option.bind_eq_bind, Option.bind_some, scanned, first', second']
    rw [if_neg (show ¬ t ≤ front.trajectoryPoint.time from outside),
      if_neg (show ¬ (rest.getLastD front).trajectoryPoint.time ≤ t from outside')]
    exact congrArg some (weighted _ p1 p2)
  · unfold Sgp4CsvMobilityModel.interpolateIterators
    rw [points, last, found, loaded, ecef, if_neg (by simp)]
    simp only [List.head?_cons, Option.bind_eq_bind, Option.bind_some, if_neg outside, if_neg outside',
      Nat.add_one_ne_zero, if_false, Nat.add_sub_cancel, around.first, around.second]
    exact congrArg (fun e => some (ofEcef e)) (weighted _ p1 p2)
  · rw [points, List.map_cons, interpolatePosition]
    simp only [getLastD_map_trajectoryPoint, points']
    rw [if_neg (show ¬ t ≤ front.trajectoryPoint.time from outside),
      if_neg (show ¬ (rest.getLastD front).trajectoryPoint.time ≤ t from outside')]
    exact weighted _ p1 p2
  · unfold Sgp4CsvMobilityModel.interpolatePosition
    rw [points, last, loaded, ecef, if_neg (by simp)]
    simp only [List.head?_cons, List.tail_cons, Option.bind_eq_bind, Option.bind_some, if_neg outside,
      if_neg outside', pair]
    exact congrArg (fun e => some (ofEcef e)) (weighted _ p1 p2)

theorem allFind_first (loaded : m.trajectoryLoaded = true) (ecef : m.useEcef = true)
    (points : m.trajectory = front :: rest) (atFirst : t ≤ front.time) :
    AllFind t m front.trajectoryPoint.ecef := by
  have last := getLast?_cons_getLastD front rest
  have last' := getLast?_map_trajectoryPoint front rest
  have atFirst' : t ≤ front.trajectoryPoint.time := atFirst
  refine ⟨?_, ?_, ?_, ?_⟩
  · unfold interpolateIndexed
    rw [points, last', if_neg (by simp)]
    simp only [List.map_cons, List.head?_cons, Option.bind_eq_bind, Option.bind_some, if_pos atFirst']
    rfl
  · unfold Sgp4CsvMobilityModel.interpolateIterators
    rw [points, last, loaded, ecef, if_neg (by simp)]
    simp only [List.head?_cons, Option.bind_eq_bind, Option.bind_some, if_pos atFirst]
    rfl
  · rw [points, List.map_cons, interpolatePosition, if_pos atFirst']
  · unfold Sgp4CsvMobilityModel.interpolatePosition
    rw [points, last, loaded, ecef, if_neg (by simp)]
    simp only [List.head?_cons, Option.bind_eq_bind, Option.bind_some, if_pos atFirst]
    rfl

theorem allFind_last (loaded : m.trajectoryLoaded = true) (ecef : m.useEcef = true)
    (points : m.trajectory = front :: rest) (after : front.time < t)
    (atLast : (rest.getLastD front).time ≤ t) :
    AllFind t m (rest.getLastD front).trajectoryPoint.ecef := by
  have last := getLast?_cons_getLastD front rest
  have last' := getLast?_map_trajectoryPoint front rest
  have outside : ¬ t ≤ front.time := not_le.mpr after
  have outside' : ¬ t ≤ front.trajectoryPoint.time := outside
  have atLast' : (rest.getLastD front).trajectoryPoint.time ≤ t := atLast
  refine ⟨?_, ?_, ?_, ?_⟩
  · unfold interpolateIndexed
    rw [points, last', if_neg (by simp)]
    simp only [List.map_cons, List.head?_cons, Option.bind_eq_bind, Option.bind_some, if_neg outside',
      if_pos atLast']
    rfl
  · unfold Sgp4CsvMobilityModel.interpolateIterators
    rw [points, last, loaded, ecef, if_neg (by simp)]
    simp only [List.head?_cons, Option.bind_eq_bind, Option.bind_some, if_neg outside, if_pos atLast]
    rfl
  · rw [points, List.map_cons, interpolatePosition, if_neg outside']
    simp only [getLastD_map_trajectoryPoint, if_pos atLast']
  · unfold Sgp4CsvMobilityModel.interpolatePosition
    rw [points, last, loaded, ecef, if_neg (by simp)]
    simp only [List.head?_cons, Option.bind_eq_bind, Option.bind_some, if_neg outside, if_pos atLast]
    rfl

end Agree

/-- **The interpolators agree.** On every trajectory with a point and times that do not decrease, all find the
same position at every time, without an access out of range. -/
theorem interpolators_agree {m : Sgp4CsvMobilityModel} (loaded : m.trajectoryLoaded = true)
    (ecef : m.useEcef = true) (some_point : m.trajectory ≠ [])
    (sorted : m.trajectory.Pairwise fun a b => a.time ≤ b.time) (t : ℚ) :
    ∃ e, AllFind t m e ∧ PositionAt t m.trajectory e := by
  cases points : m.trajectory with
  | nil => exact absurd points some_point
  | cons front rest =>
  rw [points] at sorted
  have last := getLast?_cons_getLastD front rest
  by_cases atFirst : t ≤ front.time
  · refine ⟨_, allFind_first loaded ecef points atFirst, ⟨?_, ?_, ?_⟩⟩
    · rintro front' ⟨⟩ _
      rfl
    · rintro front' back ⟨⟩ _ after _
      exact absurd atFirst (not_le.mpr after)
    · rintro front' back ⟨⟩ _ after _
      exact absurd atFirst (not_le.mpr after)
  have after := not_le.mp atFirst
  by_cases atLast : (rest.getLastD front).time ≤ t
  · refine ⟨_, allFind_last loaded ecef points after atLast, ⟨?_, ?_, ?_⟩⟩
    · rintro front' ⟨⟩ earlier
      exact absurd earlier atFirst
    · rintro front' back ⟨⟩ at_back _ _
      rw [Option.some.inj (last.symm.trans at_back)]
    · rintro front' back ⟨⟩ at_back _ before
      rw [← Option.some.inj (last.symm.trans at_back)] at before
      exact absurd atLast (not_le.mpr before)
  have before := not_le.mp atLast
  obtain ⟨i, p1, p2, around, scanned, found, all⟩ :=
    allFind_inside loaded ecef points sorted after before
  refine ⟨_, all, ⟨?_, ?_, ?_⟩⟩
  · rintro front' ⟨⟩ earlier
    exact absurd earlier atFirst
  · rintro front' back ⟨⟩ at_back _ later
    rw [← Option.some.inj (last.symm.trans at_back)] at later
    exact absurd later atLast
  · rintro front' back ⟨⟩ _ _ _
    obtain ⟨-, pos, atMost⟩ := around.fraction
    exact ⟨i, p1, p2, around, scanned, found, _, pos, atMost, rfl, rfl⟩

/-- Two points ten seconds apart, the second at the time of a third. -/
def samplePositions : List PositionData :=
  [⟨0, 0, 0, 0, 100, 0, 0, 0, 0, 0⟩, ⟨10, 0, 0, 0, 200, 0, 0, 0, 0, 0⟩, ⟨10, 0, 0, 0, 300, 0, 0, 0, 0, 0⟩]

def sampleMobilityModel : Sgp4CsvMobilityModel :=
  { trajectory := samplePositions, trajectoryLoaded := true }

theorem interpolators_agree_sample :
    ∃ e, AllFind 4 sampleMobilityModel e ∧ PositionAt 4 samplePositions e :=
  interpolators_agree (m := sampleMobilityModel) rfl rfl (List.cons_ne_nil _ _)
    (by simp [sampleMobilityModel, samplePositions]) 4

end NtnCho
