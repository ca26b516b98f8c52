import Mathlib.Data.List.Chain
import NtnCho.Frames.Runs
import NtnCho.ServingTime
import NtnCho.Simulator

/-!
# The remaining service time

A trajectory falls into passes, maximal runs of samples whose gaps are at most
`TRAJECTORY_GAP_THRESHOLD`, and what is left of the service at `t` is the time to the end of the pass that
contains `t`. `FindTrajectoryBracket` settles for the sample before `t`, also where `t` is a sample itself:
at the first sample of a pass behind a gap the scan for the end of the pass starts on the other side of
the gap, `remainingServiceTime_iff`.
-/

namespace NtnCho

open Frames

namespace ServingTime

/-! ## Passes -/

/-- The time of the sample with index `k`. -/
def sampleTime (trajectory : List TrajectoryPoint) (k : ℕ) : ℚ :=
  (trajectory[k]?.map TrajectoryPoint.time).getD 0

/-- The samples `k` and `k + 1` belong to the same pass. -/
def SamePass (trajectory : List TrajectoryPoint) (k : ℕ) : Prop :=
  sampleTime trajectory (k + 1) - sampleTime trajectory k ≤ trajectoryGapThreshold

/-- The samples from `first` to `last` are a visible pass. -/
def IsPass (trajectory : List TrajectoryPoint) (first last : ℕ) : Prop :=
  IsRun (SamePass trajectory) trajectory.length first last

/-- The pass with the samples from `first` to `last` contains the time `t`. -/
def PassContains (trajectory : List TrajectoryPoint) (first last : ℕ) (t : ℚ) : Prop :=
  sampleTime trajectory first ≤ t ∧ t ≤ sampleTime trajectory last

/-- The time from `t` to the end of the pass that contains it, zero where no pass does. -/
def RemainingTime (trajectory : List TrajectoryPoint) (t remaining : ℚ) : Prop :=
  (∃ first last, IsPass trajectory first last ∧ PassContains trajectory first last t ∧
    remaining = sampleTime trajectory last - t) ∨
  ((∀ first last, IsPass trajectory first last → ¬ PassContains trajectory first last t) ∧ remaining = 0)

/-- `t` is the first of two or more samples of a pass behind a gap. -/
def AfterGap (trajectory : List TrajectoryPoint) (t : ℚ) : Prop :=
  ∃ k, k + 2 < trajectory.length ∧ sampleTime trajectory (k + 1) = t ∧
    ¬ SamePass trajectory k ∧ SamePass trajectory (k + 1)

/-- The timestamps increase strictly. -/
def Increasing (trajectory : List TrajectoryPoint) : Prop :=
  trajectory.IsChain fun p q => p.time < q.time

theorem sampleTime_of_lt {trajectory : List TrajectoryPoint} {k : ℕ} (inside : k < trajectory.length) :
    sampleTime trajectory k = trajectory[k].time := by
  rw [sampleTime, List.getElem?_eq_getElem inside]
  rfl

@[simp] theorem sampleTime_cons_succ (p : TrajectoryPoint) (rest : List TrajectoryPoint) (k : ℕ) :
    sampleTime (p :: rest) (k + 1) = sampleTime rest k := rfl

@[simp] theorem sampleTime_cons_zero (p : TrajectoryPoint) (rest : List TrajectoryPoint) :
    sampleTime (p :: rest) 0 = p.time := rfl

theorem Increasing.lt {trajectory : List TrajectoryPoint} (increasing : Increasing trajectory) {j k : ℕ}
    (earlier : j < k) (inside : k < trajectory.length) :
    sampleTime trajectory j < sampleTime trajectory k := by
  have : IsTrans TrajectoryPoint fun p q => p.time < q.time := ⟨fun _ _ _ => lt_trans⟩
  have pairwise := List.isChain_iff_pairwise.mp increasing
  rw [sampleTime_of_lt (earlier.trans inside), sampleTime_of_lt inside]
  exact List.pairwise_iff_getElem.mp pairwise j k (earlier.trans inside) inside earlier

theorem Increasing.le {trajectory : List TrajectoryPoint} (increasing : Increasing trajectory) {j k : ℕ}
    (earlier : j ≤ k) (inside : k < trajectory.length) :
    sampleTime trajectory j ≤ sampleTime trajectory k := by
  rcases Nat.eq_or_lt_of_le earlier with rfl | before
  · rfl
  · exact (increasing.lt before inside).le

theorem Increasing.lt_iff {trajectory : List TrajectoryPoint} (increasing : Increasing trajectory)
    {j k : ℕ} (inside : j < trajectory.length) (inside' : k < trajectory.length) :
    sampleTime trajectory j < sampleTime trajectory k ↔ j < k := by
  constructor
  · intro less
    by_contra later
    exact absurd less (not_lt.mpr (increasing.le (not_lt.mp later) inside))
  · exact fun earlier => increasing.lt earlier inside'

/-! ## The two scans -/

theorem getLastD_time (p : TrajectoryPoint) (rest : List TrajectoryPoint) :
    (rest.getLastD p).time = sampleTime (p :: rest) rest.length := by
  induction rest generalizing p with
  | nil => rfl
  | cons q rest ih =>
      rw [List.getLastD_cons, ih q]
      rfl

theorem covers_iff_sampleTime {trajectory : List TrajectoryPoint} {t : ℚ} :
    covers trajectory t = true ↔ 0 < trajectory.length ∧ sampleTime trajectory 0 ≤ t ∧
      t ≤ sampleTime trajectory (trajectory.length - 1) := by
  cases trajectory with
  | nil => simp [covers]
  | cons p rest =>
      rw [covers, Bool.and_eq_true, decide_eq_true_eq, decide_eq_true_eq, getLastD_time]
      simp

/-- The scan of `FindTrajectoryBracket` stops at the sample before the first one that is not earlier. -/
theorem bracketIndex_spec {t : ℚ} (p q : TrajectoryPoint) (rest : List TrajectoryPoint)
    (within : t ≤ sampleTime (p :: q :: rest) (rest.length + 1)) :
    bracketIndex t (p :: q :: rest) < rest.length + 1 ∧
      t ≤ sampleTime (p :: q :: rest) (bracketIndex t (p :: q :: rest) + 1) ∧
      (sampleTime (p :: q :: rest) (bracketIndex t (p :: q :: rest)) < t ∨
        bracketIndex t (p :: q :: rest) = 0) := by
  induction rest generalizing p q with
  | nil =>
      have reached : ¬ q.time < t := not_lt.mpr within
      rw [bracketIndex, if_neg reached]
      exact ⟨Nat.one_pos, within, .inr rfl⟩
  | cons r rest ih =>
      rw [bracketIndex]
      split_ifs with earlier
      · obtain ⟨inside, reached, before⟩ := ih q r within
        refine ⟨by simpa using inside, reached, .inl ?_⟩
        rcases before with before | start
        · exact before
        · rw [start]
          exact earlier
      · exact ⟨by simp, not_lt.mp earlier, .inr rfl⟩

/-- The scan of `GetSatelliteRemainingServiceTime` goes to the end of the run of joined samples. -/
theorem segmentEnd_spec (trajectory : List TrajectoryPoint) {k : ℕ} {p : TrajectoryPoint}
    {rest : List TrajectoryPoint} (split : trajectory.drop k = p :: rest) :
    ∃ last, RunEnd (SamePass trajectory) trajectory.length k last ∧
      (segmentEnd p rest).time = sampleTime trajectory last := by
  have inside : k < trajectory.length := by
    by_contra outside
    rw [List.drop_eq_nil_of_le (not_lt.mp outside)] at split
    cases split
  have here : sampleTime trajectory k = p.time := by
    rw [sampleTime, ← List.head?_drop, split]
    rfl
  induction rest generalizing k p with
  | nil =>
      have length := congrArg List.length split
      simp only [List.length_drop, List.length_cons, List.length_nil] at length
      exact ⟨k, .stop inside (by omega), here.symm⟩
  | cons q rest ih =>
      have length := congrArg List.length split
      simp only [List.length_drop, List.length_cons] at length
      have split' : trajectory.drop (k + 1) = q :: rest := by
        rw [← List.tail_drop, split]
        rfl
      have there : sampleTime trajectory (k + 1) = q.time := by
        rw [sampleTime, ← List.head?_drop, split']
        rfl
      rw [segmentEnd]
      split_ifs with gap
      · refine ⟨k, .stop inside fun _ joined => ?_, here.symm⟩
        rw [SamePass, here, there] at joined
        exact absurd gap (not_lt.mpr joined)
      · obtain ⟨last, scan, ends⟩ := ih split' (by omega) there
        refine ⟨last, .step ?_ scan, ends⟩
        rw [SamePass, here, there]
        exact not_lt.mp gap

/-! ## The remaining service time -/

theorem getLast?_time {trajectory : List TrajectoryPoint} (nonempty : 0 < trajectory.length) :
    trajectory.getLast?.map TrajectoryPoint.time =
      some (sampleTime trajectory (trajectory.length - 1)) := by
  rw [List.getLast?_eq_getElem?, sampleTime_of_lt (by omega), List.getElem?_eq_getElem (by omega)]
  rfl

theorem findTrajectoryBracket_last {trajectory : List TrajectoryPoint} {t : ℚ}
    (covered : covers trajectory t = true)
    (at_end : sampleTime trajectory (trajectory.length - 1) = t) :
    findTrajectoryBracket trajectory t = some (trajectory.length - 1) := by
  have nonempty := (covers_iff_sampleTime.mp covered).1
  rw [findTrajectoryBracket, covered, getLast?_time nonempty, at_end, Bool.not_true,
    if_neg Bool.false_ne_true, if_pos rfl]

theorem findTrajectoryBracket_before {trajectory : List TrajectoryPoint} {t : ℚ}
    (covered : covers trajectory t = true)
    (before : sampleTime trajectory (trajectory.length - 1) ≠ t) :
    ∃ k, k + 1 < trajectory.length ∧ t ≤ sampleTime trajectory (k + 1) ∧
      (sampleTime trajectory k < t ∨ k = 0 ∧ sampleTime trajectory k = t) ∧
      findTrajectoryBracket trajectory t =
        if trajectoryGapThreshold < sampleTime trajectory (k + 1) - sampleTime trajectory k ∧
          sampleTime trajectory k < t ∧ t < sampleTime trajectory (k + 1) then none else some k := by
  obtain ⟨nonempty, begun, within⟩ := covers_iff_sampleTime.mp covered
  obtain ⟨p, q, rest, rfl⟩ : ∃ p q rest, trajectory = p :: q :: rest := by
    match trajectory, nonempty with
    | [p], _ => exact absurd (le_antisymm begun within).symm (fun same => before same.symm)
    | p :: q :: rest, _ => exact ⟨p, q, rest, rfl⟩
  obtain ⟨inside, reached, passed⟩ := bracketIndex_spec p q rest within
  have not_end : ¬ (p :: q :: rest).getLast?.map TrajectoryPoint.time = some t := by
    rw [getLast?_time nonempty, Option.some.injEq]
    exact before
  refine ⟨bracketIndex t (p :: q :: rest), by simpa using inside, reached, ?_, ?_⟩
  · rcases passed with passed | first
    · exact .inl passed
    · rw [first]
      exact begun.lt_or_eq.imp_right fun same => ⟨rfl, same⟩
  · rw [findTrajectoryBracket, covered, Bool.not_true, if_neg Bool.false_ne_true, if_neg not_end]
    dsimp only
    rw [sampleTime_of_lt (by simp; omega), sampleTime_of_lt (by simp; omega),
      List.getElem?_eq_getElem (by simp; omega), List.getElem?_eq_getElem (by simp; omega)]

theorem remaining_of_none {L : Link} {satName : String} {t : ℚ}
    (outside : findTrajectoryBracket (L.trajectory satName) t = none) :
    getSatelliteRemainingServiceTime L satName t = 0 := by
  rw [getSatelliteRemainingServiceTime, outside]

/-- From the sample found, the remaining time is that to the end of the run of joined samples. -/
theorem remaining_of_some {L : Link} {satName : String} {t : ℚ} {k : ℕ}
    (found : findTrajectoryBracket (L.trajectory satName) t = some k)
    (inside : k < (L.trajectory satName).length) :
    ∃ last, RunEnd (SamePass (L.trajectory satName)) (L.trajectory satName).length k last ∧
      getSatelliteRemainingServiceTime L satName t =
        max 0 (sampleTime (L.trajectory satName) last - t) := by
  rw [getSatelliteRemainingServiceTime, found]
  dsimp only
  have split := List.drop_eq_getElem_cons inside
  obtain ⟨last, scan, ends⟩ := segmentEnd_spec _ split
  rw [split]
  dsimp only
  rw [ends]
  exact ⟨last, scan, rfl⟩

section

variable {trajectory : List TrajectoryPoint} {t : ℚ} {first last k : ℕ}

/-- A pass that contains a time between two samples contains the samples, and joins them. -/
theorem IsPass.joined (increasing : Increasing trajectory) (pass : IsPass trajectory first last)
    (contains : PassContains trajectory first last t) (inside : k + 1 < trajectory.length)
    (before : sampleTime trajectory k < t) (after : t < sampleTime trajectory (k + 1)) :
    SamePass trajectory k := by
  have from_first := (increasing.lt_iff (by have := pass.le; have := pass.inside; omega) inside).mp
    (contains.1.trans_lt after)
  have to_last := (increasing.lt_iff (by omega) pass.inside).mp (before.trans_le contains.2)
  exact pass.joins k (by omega) to_last

/-- A pass that contains the time of a sample contains the sample. -/
theorem IsPass.mem (increasing : Increasing trajectory) (pass : IsPass trajectory first last)
    (contains : PassContains trajectory first last t) (inside : k < trajectory.length)
    (sample : sampleTime trajectory k = t) : first ≤ k ∧ k ≤ last := by
  obtain ⟨begun, within⟩ := contains
  rw [← sample] at begun within
  have le := pass.le
  have last_inside := pass.inside
  constructor
  · by_contra later
    exact absurd (increasing.lt (not_le.mp later) (by omega)) (not_lt.mpr begun)
  · by_contra later
    exact absurd (increasing.lt (not_le.mp later) inside) (not_lt.mpr within)

/-- A sample that is the last of its pass has no service time left, and only such a sample. -/
theorem remainingTime_zero_iff (increasing : Increasing trajectory) (inside : k < trajectory.length)
    (sample : sampleTime trajectory k = t) :
    RemainingTime trajectory t 0 ↔ (k + 1 < trajectory.length → ¬ SamePass trajectory k) := by
  obtain ⟨first, last, pass, from_first, to_last⟩ := exists_isRun (SamePass trajectory) inside
  have contains : PassContains trajectory first last t := by
    rw [PassContains, ← sample]
    exact ⟨increasing.le from_first inside, increasing.le to_last pass.inside⟩
  constructor
  · rintro (⟨first', last', pass', contains', zero⟩ | ⟨outside, -⟩)
    · obtain ⟨-, to_last'⟩ := IsPass.mem increasing pass' contains' inside sample
      have ends : last' = k := by
        by_contra beyond
        have later := increasing.lt (lt_of_le_of_ne to_last' (Ne.symm beyond)) pass'.inside
        linarith
      rw [← ends]
      exact pass'.ends
    · exact absurd contains (outside first last pass)
  · intro ends
    refine .inl ⟨first, last, pass, contains, ?_⟩
    have scan : RunEnd (SamePass trajectory) trajectory.length k k := .stop inside ends
    obtain rfl := (pass.runEnd from_first to_last).unique scan
    rw [sample, sub_self]

theorem remainingTime_of_outside (increasing : Increasing trajectory)
    (outside : covers trajectory t = false) : RemainingTime trajectory t 0 := by
  refine .inr ⟨fun first last pass contains => ?_, rfl⟩
  have inside := pass.inside
  have begun := increasing.le (Nat.zero_le first) (by have := pass.le; omega)
  have within := increasing.le (Nat.le_sub_one_of_lt inside) (by omega)
  have covered : covers trajectory t = true :=
    covers_iff_sampleTime.mpr ⟨by omega, begun.trans contains.1, contains.2.trans within⟩
  rw [outside] at covered
  cases covered

/-- Between joined samples the pass goes on to the end of their run. -/
theorem remainingTime_of_joined (increasing : Increasing trajectory) (inside : k + 1 < trajectory.length)
    (begun : sampleTime trajectory k ≤ t) (reached : t ≤ sampleTime trajectory (k + 1))
    (joined : SamePass trajectory k) (scan : RunEnd (SamePass trajectory) trajectory.length k last) :
    RemainingTime trajectory t (max 0 (sampleTime trajectory last - t)) := by
  obtain ⟨first, last', pass, from_first, to_last⟩ :=
    exists_isRun (SamePass trajectory) (Nat.lt_of_succ_lt inside)
  obtain rfl := (pass.runEnd from_first to_last).unique scan
  have beyond := pass.succ_le inside to_last joined
  have within := reached.trans (increasing.le beyond pass.inside)
  refine .inl ⟨first, last', pass, ⟨?_, within⟩, max_eq_right (sub_nonneg.mpr within)⟩
  exact (increasing.le from_first (by omega)).trans begun

theorem AfterGap.begun (increasing : Increasing trajectory) (after : AfterGap trajectory t) :
    sampleTime trajectory 0 < t := by
  obtain ⟨j, room, rfl, -⟩ := after
  exact increasing.lt (Nat.succ_pos j) (by omega)

/-- A time of a pass behind a gap and of two or more samples is a sample, and not the last one. -/
theorem AfterGap.eq (increasing : Increasing trajectory) (after : AfterGap trajectory t)
    (inside : k + 1 < trajectory.length) (before : sampleTime trajectory k < t)
    (reached : t ≤ sampleTime trajectory (k + 1)) :
    t = sampleTime trajectory (k + 1) ∧ k + 2 < trajectory.length ∧ ¬ SamePass trajectory k ∧
      SamePass trajectory (k + 1) := by
  obtain ⟨j, room, rfl, gap, joined⟩ := after
  have later := (increasing.lt_iff (by omega) (by omega)).mp before
  have within : j + 1 ≤ k + 1 := by
    by_contra beyond
    exact absurd (increasing.lt (not_le.mp beyond) (by omega)) (not_lt.mpr reached)
  obtain rfl : j = k := by omega
  exact ⟨rfl, room, gap, joined⟩

end

/-- `GetSatelliteRemainingServiceTime` is the time to the end of the pass that contains `t`, except at the
first of two or more samples of a pass behind a gap. -/
theorem remainingServiceTime_iff {L : Link} {satName : String} {t : ℚ}
    (increasing : Increasing (L.trajectory satName)) :
    RemainingTime (L.trajectory satName) t (getSatelliteRemainingServiceTime L satName t) ↔
      ¬ AfterGap (L.trajectory satName) t := by
  cases covered : covers (L.trajectory satName) t with
  | false =>
      rw [remaining_of_none (by rw [findTrajectoryBracket, covered]; rfl)]
      refine iff_of_true (remainingTime_of_outside increasing covered) ?_
      rintro ⟨j, room, rfl, -⟩
      have covers_sample := covers_iff_sampleTime.mpr ⟨by omega, increasing.le (Nat.zero_le (j + 1)) (by omega),
        increasing.le (Nat.le_sub_one_of_lt (by omega)) (by omega)⟩
      rw [covered] at covers_sample
      cases covers_sample
  | true =>
      have nonempty := (covers_iff_sampleTime.mp covered).1
      by_cases at_end : sampleTime (L.trajectory satName) ((L.trajectory satName).length - 1) = t
      · -- the last sample ends its pass
        obtain ⟨last, scan, remaining⟩ := remaining_of_some
          (findTrajectoryBracket_last covered at_end) (by omega)
        obtain rfl : last = (L.trajectory satName).length - 1 := by
          have := scan.le
          have := scan.inside
          omega
        rw [remaining, at_end, sub_self, max_self, remainingTime_zero_iff increasing (by omega) at_end]
        refine iff_of_true (by omega) ?_
        rintro ⟨j, room, sample, -⟩
        have earlier := increasing.lt (j := j + 1) (k := (L.trajectory satName).length - 1)
          (by omega) (by omega)
        rw [sample, at_end] at earlier
        exact lt_irrefl _ earlier
      · obtain ⟨k, inside, reached, passed, found⟩ := findTrajectoryBracket_before covered at_end
        have begun : sampleTime (L.trajectory satName) k ≤ t := passed.elim le_of_lt (·.2.le)
        split_ifs at found with gap
        · -- strictly inside a gap no pass contains `t`
          obtain ⟨gap, before, after⟩ := gap
          rw [remaining_of_none found]
          refine iff_of_true (.inr ⟨fun first last pass contains => ?_, rfl⟩) fun after_gap => ?_
          · have joined := IsPass.joined increasing pass contains inside before after
            exact absurd gap (not_lt.mpr joined)
          · exact absurd (after_gap.eq increasing inside before reached).1 after.ne
        · obtain ⟨last, scan, remaining⟩ := remaining_of_some found (by omega)
          rw [remaining]
          by_cases joined : SamePass (L.trajectory satName) k
          · refine iff_of_true (remainingTime_of_joined increasing inside begun reached joined scan) ?_
            intro after_gap
            rcases passed with before | ⟨rfl, first⟩
            · exact (after_gap.eq increasing inside before reached).2.2.1 joined
            · exact absurd (after_gap.begun increasing) first.not_lt
          · -- the scan stops at once, before the gap
            obtain rfl := scan.unique (.stop (by omega) fun _ => joined)
            rw [max_eq_left (sub_nonpos.mpr begun)]
            rcases passed with before | ⟨rfl, first⟩
            · have sample : sampleTime (L.trajectory satName) (last + 1) = t := by
                by_contra between
                exact gap ⟨not_le.mp joined, before, lt_of_le_of_ne reached (Ne.symm between)⟩
              rw [remainingTime_zero_iff increasing inside sample]
              constructor
              · intro ends after_gap
                obtain ⟨-, room, -, goes_on⟩ := after_gap.eq increasing inside before reached
                exact ends room goes_on
              · exact fun ends room goes_on => ends ⟨last, room, sample, joined, goes_on⟩
            · rw [remainingTime_zero_iff increasing (by omega) first]
              refine iff_of_true (fun _ => joined) fun after_gap => ?_
              exact absurd (after_gap.begun increasing) first.not_lt

/-! ## A satellite that comes back -/

/-- The satellite `S` has a pass of one sample and, behind a gap, one of two samples. -/
def twoPasses : Link := sampleLink [overhead "S" [(0, 500000), (100, 500000), (160, 500000)]]

theorem twoPasses_trajectory : (twoPasses.trajectory "S").map TrajectoryPoint.time = [0, 100, 160] := by
  decide +kernel

theorem increasing_of_times {trajectory : List TrajectoryPoint}
    (increasing : (trajectory.map TrajectoryPoint.time).IsChain (· < ·)) : Increasing trajectory := by
  exact (List.isChain_map TrajectoryPoint.time).mp increasing

theorem increasing_twoPasses : Increasing (twoPasses.trajectory "S") :=
  increasing_of_times (by rw [twoPasses_trajectory]; decide)

theorem remainingServiceTime_iff_twoPasses :
    getSatelliteRemainingServiceTime twoPasses "S" 130 = 30 ∧
      RemainingTime (twoPasses.trajectory "S") 130 (getSatelliteRemainingServiceTime twoPasses "S" 130) := by
  refine ⟨by decide +kernel, (remainingServiceTime_iff increasing_twoPasses).mpr ?_⟩
  rintro ⟨j, room, sample, -⟩
  rw [← List.length_map TrajectoryPoint.time, twoPasses_trajectory] at room
  obtain rfl : j = 0 := by
    simp only [List.length_cons, List.length_nil] at room
    omega
  rw [sampleTime, ← List.getElem?_map, twoPasses_trajectory] at sample
  norm_num at sample

/-- At the first sample of the second pass, 60 s before its end, no service time is left. -/
theorem remainingServiceTime_revisited :
    getSatelliteRemainingServiceTime twoPasses "S" 100 = 0 ∧
      RemainingTime (twoPasses.trajectory "S") 100 60 ∧
      ¬ RemainingTime (twoPasses.trajectory "S") 100
        (getSatelliteRemainingServiceTime twoPasses "S" 100) := by
  have length : (twoPasses.trajectory "S").length = 3 := by
    rw [← List.length_map TrajectoryPoint.time, twoPasses_trajectory]
    rfl
  have sample (k : ℕ) : sampleTime (twoPasses.trajectory "S") k = ([0, 100, 160][k]?.getD 0 : ℚ) := by
    rw [sampleTime, ← List.getElem?_map, twoPasses_trajectory]
  have none_left : getSatelliteRemainingServiceTime twoPasses "S" 100 = 0 := by decide +kernel
  have joined : SamePass (twoPasses.trajectory "S") 1 := by
    rw [SamePass, sample, sample]
    decide +kernel
  refine ⟨none_left, .inl ⟨1, 2, ⟨⟨by omega, by omega, ?_, by omega⟩, ?_⟩, ?_, ?_⟩, ?_⟩
  · intro k from_first before
    obtain rfl : k = 1 := by omega
    exact joined
  · intro k start
    obtain rfl : k = 0 := by omega
    rw [SamePass, sample, sample]
    decide +kernel
  · rw [PassContains, sample, sample]
    decide +kernel
  · rw [sample]
    decide +kernel
  · rw [none_left, remainingTime_zero_iff increasing_twoPasses (by omega)
      (show sampleTime (twoPasses.trajectory "S") 1 = 100 from sample 1)]
    exact fun ends => ends (by omega) joined

end ServingTime

end NtnCho
