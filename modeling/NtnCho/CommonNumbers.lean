import NtnCho.Realisation

/-!
# Common random numbers of TD-CHO

Two settings of the handover parameters are compared on one channel realisation. The evaluation of the
neighbours breaks this: `GetDistanceTrend` asks `UpdateSatelliteState` for the metrics one measurement
period ago, which computes the link again, draws from the engine of the UE and overwrites its cache. So
the realisation is common to the runs whose evaluations compute no link (`Undisturbed`), and it is not
in general.
-/

namespace NtnCho

open EventSystem

variable {env : Env}

namespace TdCho

/-- `GetDistanceTrend` computes no link for the cell: it is too early to look back, the cache holds the
metrics of the second looked back to, or the satellite was not usable then. -/
def TrendIdle (env : Env) (geo : UeGeo) (phy : Phy) (currentTime : ℚ) (cellId : String) : Prop :=
  currentTime < env.ho.measurementPeriod ∨
    cacheHit phy.channel cellId (currentTime - env.ho.measurementPeriod) ∨
    ¬ Usable phyRules env.link geo cellId (currentTime - env.ho.measurementPeriod)

theorem getDistanceTrend_of_idle {geo : UeGeo} {phy : Phy} {currentTime : ℚ} {cellId : String}
    (idle : TrendIdle env geo phy currentTime cellId) :
    (getDistanceTrend env geo cellId currentTime phy).2 = phy := by
  unfold getDistanceTrend
  split
  · rfl
  · rename_i late
    dsimp only
    split
    · rfl
    · rcases @updateSatelliteState_cases env phyRules geo cellId
        (currentTime - env.ho.measurementPeriod) phy with same | ⟨usable, miss, -⟩
      · exact same
      · rcases idle with early | hit | unusable
        · exact absurd early late
        · exact absurd hit miss
        · exact absurd usable unusable

/-- If the tick `g` evaluates the neighbours of its UE, no trend that it asks for computes a link. -/
def Undisturbed (env : Env) (g : Firing ℤ (Option UeInfo) Event) : Prop :=
  ∀ ue ∈ g.before.state, ∀ due ∈ (ue.updated tdCho env (fireTime g)).due? (fireTime g),
    ∀ _serving ∈ due.serving? tdCho env (fireTime g), ∀ cellId,
      TrendCalled due.measState.servingCellId
        (uePerformMeasurements (tdCho.snrFloor env.ho) env (fireTime g) due) cellId →
      TrendIdle env due.geo due.phy (fireTime g) cellId

theorem Undisturbed.keepsChannel {i : ℕ} {g : Firing ℤ (Option UeInfo) Event}
    (undisturbed : Undisturbed env g) : KeepsChannel tdCho env i g := by
  intro ue present
  rcases ueTick_phy tdCho env i (fireTime g) ue with same | ⟨due, serving, measured, found, evaluated⟩
  · rw [same]
  · have idle := undisturbed ue present due measured serving found
    have kept : (due.evaluation tdCho env i (fireTime g) serving).phy = due.phy := by
      refine evaluateNeighbors_phy (I := fun phy => phy = due.phy) (fun called same => ?_) rfl
      rw [same]
      exact getDistanceTrend_of_idle (idle _ called)
    rw [evaluated, kept, UeInfo.due_phy measured]

end TdCho

/-- **Common random numbers.** Two runs of TD-CHO on the same dataset, UE list and seed compute the same
metrics at the same tick, whatever their handover parameters, if no evaluation of theirs computes a
link. -/
theorem common_random_numbers {L : Link} {ho ho' : HandoverParams} {rows : List UeRow}
    {h h' : List (Firing ℤ Sim Event)} {c c' : Conf ℤ Sim Event}
    (run : AnyOrderRun tdCho ⟨L, ho⟩ rows h c) (run' : AnyOrderRun tdCho ⟨L, ho'⟩ rows h' c') (i : ℕ)
    (quiet : ∀ g ∈ ticks (ueHistory tdCho ⟨L, ho⟩ i h), TdCho.Undisturbed ⟨L, ho⟩ g)
    (quiet' : ∀ g ∈ ticks (ueHistory tdCho ⟨L, ho'⟩ i h'), TdCho.Undisturbed ⟨L, ho'⟩ g) :
    ∀ f ∈ ticks (ueHistory tdCho ⟨L, ho⟩ i h), ∀ f' ∈ ticks (ueHistory tdCho ⟨L, ho'⟩ i h'),
      fireTime f = fireTime f' → ∀ ue ue', f.before.state = some ue → f'.before.state = some ue' →
        stepOne tdCho ⟨L, ho⟩ (fireTime f) ue = stepOne tdCho ⟨L, ho'⟩ (fireTime f') ue' := by
  intro f ticking f' ticking' same ue ue' present present'
  obtain ⟨n, time, row, atRow, metrics⟩ := stepOne_of_run TdCho.lawful (run.toUe i)
    (fun g member => (quiet g member).keepsChannel) ticking present
  obtain ⟨n', time', row', atRow', metrics'⟩ := stepOne_of_run TdCho.lawful (run'.toUe i)
    (fun g member => (quiet' g member).keepsChannel) ticking' present'
  obtain rfl : n = n' := by exact_mod_cast time.symm.trans (same.trans time')
  obtain rfl := Option.some.inj (atRow.symm.trans atRow')
  rw [metrics, metrics']
  rfl

/-- The time of the last tick of a history and the SNRs that step 1 computed there. -/
def lastSnrs (P : Program) (env : Env) (h : List (Firing ℤ (Option UeInfo) Event)) :
    Option (ℚ × List (String × ℚ)) :=
  (ticks h).getLast?.bind fun f => f.before.state.map fun ue =>
    (fireTime f, (stepOne P env (fireTime f) ue).map fun entry => (entry.1, entry.2.snrDb))

theorem exists_of_lastSnrs {P : Program} {h : List (Firing ℤ (Option UeInfo) Event)} {time : ℚ}
    (seen : (lastSnrs P env h).map Prod.fst = some time) :
    ∃ f ∈ ticks h, ∃ ue, f.before.state = some ue ∧ fireTime f = time ∧
      lastSnrs P env h =
        some (time, (stepOne P env (fireTime f) ue).map fun entry => (entry.1, entry.2.snrDb)) := by
  obtain ⟨snrs, found, rfl⟩ := Option.map_eq_some_iff.mp seen
  obtain ⟨f, last, computed⟩ := Option.bind_eq_some_iff.mp found
  obtain ⟨ue, present, rfl⟩ := Option.map_eq_some_iff.mp computed
  exact ⟨f, List.mem_of_getLast? last, ue, present, rfl, found⟩

/-! ## Sample runs -/

/-- A draw in `[0, 1)` and the next state, by linear congruence. -/
def sampleDraw (n : ℕ) : ℚ × ℕ :=
  let next := (1103515245 * n + 12345) % 2147483648
  ((next : ℚ) / 2147483648, next)

/-- An engine whose draws vary. -/
def varyingRng : Rng where
  seed n := n
  normal n := ((sampleDraw n).1 - 0.5, (sampleDraw n).2)
  normalPair n :=
    let (x, n₁) := sampleDraw n
    let (y, n₂) := sampleDraw n₁
    ((x - 0.5, y - 0.5), n₂)
  uniform := sampleDraw

/-- The satellites of `crossing`, with draws that vary. -/
def varying : Link := { crossing.link with rng := varyingRng, randomSeed := 1 }

def patient : HandoverParams := { measurementPeriod := 100 }

def hesitant : HandoverParams := { measurementPeriod := 50, timeToTrigger := 5 }

theorem undisturbed_of_early {h : List (Firing ℤ (Option UeInfo) Event)}
    (early : ∀ g ∈ ticks h, fireTime g < env.ho.measurementPeriod) :
    ∀ g ∈ ticks h, TdCho.Undisturbed env g :=
  fun g member _ _ _ _ _ _ _ _ => .inl (early g member)

/-- The runs of `varying` under two settings that do not look back compute the same metrics at second
2. -/
theorem common_random_numbers_varying :
    ∃ f ∈ ticks (ueHistory tdCho ⟨varying, patient⟩ 0
        (sampleRun tdCho ⟨varying, patient⟩ sampleRows 3).1),
      ∃ f' ∈ ticks (ueHistory tdCho ⟨varying, hesitant⟩ 0
          (sampleRun tdCho ⟨varying, hesitant⟩ sampleRows 3).1),
        fireTime f = 2 ∧ fireTime f' = 2 ∧ ∃ ue ue', f.before.state = some ue ∧
          f'.before.state = some ue' ∧
          stepOne tdCho ⟨varying, patient⟩ (fireTime f) ue =
            stepOne tdCho ⟨varying, hesitant⟩ (fireTime f') ue' := by
  have early : ∀ g ∈ ticks (ueHistory tdCho ⟨varying, patient⟩ 0
      (sampleRun tdCho ⟨varying, patient⟩ sampleRows 3).1), fireTime g < 100 := by decide +kernel
  have early' : ∀ g ∈ ticks (ueHistory tdCho ⟨varying, hesitant⟩ 0
      (sampleRun tdCho ⟨varying, hesitant⟩ sampleRows 3).1), fireTime g < 50 := by decide +kernel
  have seen : (ticks (ueHistory tdCho ⟨varying, patient⟩ 0
      (sampleRun tdCho ⟨varying, patient⟩ sampleRows 3).1)).getLast?.map (fun f =>
        (fireTime f, f.before.state.isSome)) = some (2, true) := by decide +kernel
  have seen' : (ticks (ueHistory tdCho ⟨varying, hesitant⟩ 0
      (sampleRun tdCho ⟨varying, hesitant⟩ sampleRows 3).1)).getLast?.map (fun f =>
        (fireTime f, f.before.state.isSome)) = some (2, true) := by decide +kernel
  obtain ⟨f, last, seen⟩ := Option.map_eq_some_iff.mp seen
  obtain ⟨f', last', seen'⟩ := Option.map_eq_some_iff.mp seen'
  simp only [Prod.mk.injEq, Option.isSome_iff_exists] at seen seen'
  obtain ⟨time, ue, present⟩ := seen
  obtain ⟨time', ue', present'⟩ := seen'
  have member := List.mem_of_getLast? last
  have member' := List.mem_of_getLast? last'
  exact ⟨f, member, f', member', time, time', ue, ue', present, present',
    common_random_numbers (simRun_sampleRun tdCho ⟨varying, patient⟩ sampleRows 3).anyOrder
      (simRun_sampleRun tdCho ⟨varying, hesitant⟩ sampleRows 3).anyOrder 0
      (undisturbed_of_early early) (undisturbed_of_early early') f member f' member'
      (time.trans time'.symm) ue ue' present present'⟩

/-- With a measurement period of 1 s the evaluation at second 1 draws from the engine, with one of 100 s
it does not: the SNRs of second 2 differ. -/
theorem common_random_numbers_fail :
    ¬ ∀ {L : Link} {ho ho' : HandoverParams} {rows : List UeRow}
      {h h' : List (Firing ℤ Sim Event)} {c c' : Conf ℤ Sim Event},
      SimRun tdCho ⟨L, ho⟩ rows h c → SimRun tdCho ⟨L, ho'⟩ rows h' c' → ∀ i,
        ∀ f ∈ ticks (ueHistory tdCho ⟨L, ho⟩ i h), ∀ f' ∈ ticks (ueHistory tdCho ⟨L, ho'⟩ i h'),
          fireTime f = fireTime f' → ∀ ue ue', f.before.state = some ue → f'.before.state = some ue' →
            (stepOne tdCho ⟨L, ho⟩ (fireTime f) ue).map (fun entry => (entry.1, entry.2.snrDb)) =
              (stepOne tdCho ⟨L, ho'⟩ (fireTime f') ue').map
                (fun entry => (entry.1, entry.2.snrDb)) := by
  intro always
  have seen : (lastSnrs tdCho ⟨varying, {}⟩
      (ueHistory tdCho ⟨varying, {}⟩ 0 (sampleRun tdCho ⟨varying, {}⟩ sampleRows 3).1)).map
        Prod.fst = some 2 := by decide +kernel
  have seen' : (lastSnrs tdCho ⟨varying, patient⟩
      (ueHistory tdCho ⟨varying, patient⟩ 0
        (sampleRun tdCho ⟨varying, patient⟩ sampleRows 3).1)).map Prod.fst = some 2 := by
    decide +kernel
  have differ : lastSnrs tdCho ⟨varying, {}⟩
        (ueHistory tdCho ⟨varying, {}⟩ 0 (sampleRun tdCho ⟨varying, {}⟩ sampleRows 3).1) ≠
      lastSnrs tdCho ⟨varying, patient⟩
        (ueHistory tdCho ⟨varying, patient⟩ 0
          (sampleRun tdCho ⟨varying, patient⟩ sampleRows 3).1) := by decide +kernel
  obtain ⟨f, member, ue, present, time, snrs⟩ := exists_of_lastSnrs seen
  obtain ⟨f', member', ue', present', time', snrs'⟩ := exists_of_lastSnrs seen'
  have same := always (simRun_sampleRun tdCho ⟨varying, {}⟩ sampleRows 3)
    (simRun_sampleRun tdCho ⟨varying, patient⟩ sampleRows 3) 0 f member f' member'
    (time.trans time'.symm) ue ue' present present'
  rw [snrs, snrs', same] at differ
  exact differ rfl

end NtnCho
