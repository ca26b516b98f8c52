import NtnCho.CommonNumbers
import NtnCho.History

/-!
# Looking back from a tick

`GetDistanceTrend` takes the distance one measurement period ago from `UpdateSatelliteState`, which caches
what it computes and draws for it. So a call that computes the earlier link leaves the earlier metrics as
the current ones, and every later call of the tick for this cell finds no trend, `getDistanceTrend_again`.
It measures without disturbing exactly if it computes no link and there is no trend,
`distance_trend_iff`.
-/

namespace NtnCho

open EventSystem

variable {env : Env} {geo : UeGeo}

namespace TdCho

/-! ## Calls -/

/-- `phy'` comes from `phy` by calls of `GetDistanceTrend` in one tick. -/
def TrendReach (env : Env) (geo : UeGeo) (currentTime : ℚ) : Phy → Phy → Prop :=
  Relation.ReflTransGen fun phy phy' =>
    ∃ cellId, phy' = (getDistanceTrend env geo cellId currentTime phy).2

/-- What every call keeps holds after any number of calls. -/
theorem TrendReach.invariant {I : Phy → Prop} {currentTime : ℚ} {phy phy' : Phy}
    (reach : TrendReach env geo currentTime phy phy')
    (keep : ∀ {phy} cellId, I phy → I (getDistanceTrend env geo cellId currentTime phy).2)
    (init : I phy) : I phy' := by
  induction reach with
  | refl => exact init
  | tail _ call ih =>
      obtain ⟨cellId, rfl⟩ := call
      exact keep cellId ih

/-- How much farther away the satellite is than one measurement period ago, from its trajectory. -/
def distanceChange (env : Env) (geo : UeGeo) (cellId : String) (t : ℚ) : ℚ :=
  slantRange env.link geo (env.link.trajectory cellId) t -
    slantRange env.link geo (env.link.trajectory cellId) (t - env.ho.measurementPeriod)

/-- It is too early to look back, or the time looked back to counts as the current second. -/
def LookbackIdle (env : Env) (t : ℚ) : Prop :=
  t < env.ho.measurementPeriod ∨ (⌊t - env.ho.measurementPeriod + 0.000001⌋ : ℚ) = t

instance (env : Env) (t : ℚ) : Decidable (LookbackIdle env t) := inferInstanceAs (Decidable (_ ∨ _))

/-- A call for the cell in the state `phy` measures and does not disturb: it returns the change of the
distance, and leaves the entry of the tick that step 1 left in `start`, the histories and the engine. -/
structure MeasuresOnly (env : Env) (geo : UeGeo) (cellId : String) (t : ℚ) (start phy : Phy) : Prop where
  trend : (getDistanceTrend env geo cellId t phy).1 = distanceChange env geo cellId t
  entry : ∃ m, start.channel.channelCache[cellId]? = some (t, m) ∧
    (getDistanceTrend env geo cellId t phy).2.channel.channelCache[cellId]? = some (t, m)
  snrHistory : (getDistanceTrend env geo cellId t phy).2.snrHistory = phy.snrHistory
  rng : (getDistanceTrend env geo cellId t phy).2.channel.rng = phy.channel.rng

/-- What a call does for a cached cell: nothing while it is idle, else it returns the distance that is
cached minus the earlier one. -/
theorem getDistanceTrend_cases {cellId : String} {t time : ℚ} {m : UeSatMetrics} {phy : Phy}
    (cached : phy.channel.channelCache[cellId]? = some (time, m)) :
    getDistanceTrend env geo cellId t phy = (0, phy) ∨
      (¬ t < env.ho.measurementPeriod ∧
        getDistanceTrend env geo cellId t phy =
          (m.distance -
            (updateSatelliteState phyRules env geo cellId (t - env.ho.measurementPeriod) phy).1.distance,
            (updateSatelliteState phyRules env geo cellId (t - env.ho.measurementPeriod) phy).2)) := by
  unfold getDistanceTrend
  split
  · exact .inl rfl
  · rename_i late
    dsimp only
    rw [cached]
    exact .inr ⟨late, rfl⟩

/-- A call in the current second finds the cached metrics: it returns zero and changes nothing. -/
theorem getDistanceTrend_of_lookbackIdle {cellId : String} {t : ℚ} {m : UeSatMetrics} {phy : Phy}
    (idle : LookbackIdle env t) (cached : phy.channel.channelCache[cellId]? = some (t, m)) :
    getDistanceTrend env geo cellId t phy = (0, phy) := by
  rcases @getDistanceTrend_cases env geo cellId t t m phy cached with nothing | ⟨late, looks⟩
  · exact nothing
  · have second := idle.resolve_left late
    rw [looks]
    unfold updateSatelliteState linkUpdate
    dsimp only
    rw [cached]
    dsimp only
    rw [if_pos second.symm, sub_self]

/-- The update of a usable satellite without metrics of the second computes its link. -/
theorem updateSatelliteState_of_miss {satName : String} {simTime : ℚ} {phy : Phy}
    (usable : Usable phyRules env.link geo satName simTime) (miss : ¬ cacheHit phy.channel satName simTime) :
    (updateSatelliteState phyRules env geo satName simTime phy).1.distance =
        slantRange env.link geo (env.link.trajectory satName) simTime ∧
      ∃ m, (updateSatelliteState phyRules env geo satName simTime phy).2.channel.channelCache[satName]? =
          some (simTime, m) ∧
        m.distance = slantRange env.link geo (env.link.trajectory satName) simTime := by
  unfold updateSatelliteState
  rcases @linkUpdate_cases phyRules geo env.link satName simTime phy.channel with
    ⟨m, hit, -⟩ | ⟨-, refreshed⟩
  · exact absurd ⟨m, hit⟩ miss
  · rcases @linkRefresh_cases phyRules geo env.link satName simTime phy.channel with
      ⟨unusable, -⟩ | ⟨-, computed⟩
    · exact absurd usable unusable
    · rw [refreshed, computed]
      exact ⟨rfl, _, linkCompute_cached .., rfl⟩

/-- Where the look-back has left its metrics, or those of the tick are as far away, a call returns zero
and leaves them. -/
theorem getDistanceTrend_again {cellId : String} {t time : ℚ} {m : UeSatMetrics} {phy : Phy}
    (inside : InCoverage env geo cellId (t - env.ho.measurementPeriod))
    (cached : phy.channel.channelCache[cellId]? = some (time, m))
    (earlier : m.distance =
      slantRange env.link geo (env.link.trajectory cellId) (t - env.ho.measurementPeriod)) :
    (getDistanceTrend env geo cellId t phy).1 = 0 ∧
      ∃ time' m', (getDistanceTrend env geo cellId t phy).2.channel.channelCache[cellId]? =
          some (time', m') ∧
        m'.distance =
          slantRange env.link geo (env.link.trajectory cellId) (t - env.ho.measurementPeriod) := by
  rcases @getDistanceTrend_cases env geo cellId t time m phy cached with nothing | ⟨-, looks⟩
  · rw [nothing]
    exact ⟨rfl, time, m, cached, earlier⟩
  · rw [looks]
    by_cases hit : cacheHit phy.channel cellId (t - env.ho.measurementPeriod)
    case pos =>
      obtain ⟨m', found⟩ := hit
      obtain ⟨same, rfl⟩ := Prod.mk.inj (Option.some.inj (cached.symm.trans found))
      have returned : updateSatelliteState phyRules env geo cellId (t - env.ho.measurementPeriod) phy =
          (m, phy) := by
        unfold updateSatelliteState linkUpdate
        dsimp only
        rw [cached]
        dsimp only
        rw [if_pos same]
      rw [returned]
      exact ⟨sub_self _, time, m, cached, earlier⟩
    case neg =>
      obtain ⟨distance, m', written, distance'⟩ := updateSatelliteState_of_miss
        ⟨inside.1, rfl, inside.2⟩ hit
      exact ⟨by rw [distance, earlier, sub_self], _, m', written, distance'⟩

/-- A call that is not idle leaves the metrics of the earlier link. -/
theorem getDistanceTrend_of_computes {cellId : String} {t : ℚ} {m : UeSatMetrics} {phy : Phy}
    (computes : ¬ LookbackIdle env t) (cached : phy.channel.channelCache[cellId]? = some (t, m))
    (inside : InCoverage env geo cellId (t - env.ho.measurementPeriod)) :
    ∃ m', (getDistanceTrend env geo cellId t phy).2.channel.channelCache[cellId]? =
        some (t - env.ho.measurementPeriod, m') ∧
      m'.distance =
        slantRange env.link geo (env.link.trajectory cellId) (t - env.ho.measurementPeriod) := by
  have miss : ¬ cacheHit phy.channel cellId (t - env.ho.measurementPeriod) := by
    rintro ⟨m', found⟩
    obtain ⟨second, -⟩ := Prod.mk.inj (Option.some.inj (cached.symm.trans found))
    exact computes (.inr second.symm)
  obtain ⟨-, m', written, distance⟩ := updateSatelliteState_of_miss ⟨inside.1, rfl, inside.2⟩ miss
  refine ⟨m', ?_, distance⟩
  unfold getDistanceTrend
  rw [if_neg fun early => computes (.inl early)]
  dsimp only
  rw [cached]
  exact written

/-- Calls for other cells leave what belongs to a cell: what its own calls keep, holds after all. -/
theorem TrendReach.cell {I : Option (ℚ × UeSatMetrics) → Prop} {cellId : String} {t : ℚ} {phy phy' : Phy}
    (reach : TrendReach env geo t phy phy')
    (keep : ∀ {phy}, I phy.channel.channelCache[cellId]? →
      I (getDistanceTrend env geo cellId t phy).2.channel.channelCache[cellId]?)
    (init : I phy.channel.channelCache[cellId]?) : I phy'.channel.channelCache[cellId]? := by
  refine reach.invariant (I := fun phy => I phy.channel.channelCache[cellId]?) ?_ init
  intro phy name holds
  by_cases same : name = cellId
  case pos =>
    subst same
    exact keep holds
  case neg =>
    rw [(Prod.mk.inj (@cell_getDistanceTrend_of_ne env geo _ _ same t phy)).1]
    exact holds

/-- After a call that has looked back every call of the tick for the cell returns zero. -/
theorem trend_eq_zero_of_reach {cellId : String} {t : ℚ} {m : UeSatMetrics} {start phy : Phy}
    (computes : ¬ LookbackIdle env t) (cached : start.channel.channelCache[cellId]? = some (t, m))
    (inside : InCoverage env geo cellId (t - env.ho.measurementPeriod))
    (reach : TrendReach env geo t (getDistanceTrend env geo cellId t start).2 phy) :
    (getDistanceTrend env geo cellId t phy).1 = 0 := by
  obtain ⟨time, m', found, earlier⟩ : ∃ time m', phy.channel.channelCache[cellId]? = some (time, m') ∧
      m'.distance =
        slantRange env.link geo (env.link.trajectory cellId) (t - env.ho.measurementPeriod) := by
    refine reach.cell (I := fun entry => ∃ time m', entry = some (time, m') ∧ m'.distance =
      slantRange env.link geo (env.link.trajectory cellId) (t - env.ho.measurementPeriod)) ?_
      ⟨_, getDistanceTrend_of_computes computes cached inside⟩
    rintro phy ⟨time, m', found, earlier⟩
    exact (getDistanceTrend_again inside found earlier).2
  exact (getDistanceTrend_again inside found earlier).1

/-- From the entry that step 1 leaves the calls measure without disturbing exactly if they compute no
link and the distance has not changed. -/
theorem measuresOnly_iff {cellId : String} {n : ℕ} {m : UeSatMetrics} {start : Phy}
    (cached : start.channel.channelCache[cellId]? = some ((n : ℚ), m))
    (inside : InCoverage env geo cellId (n - env.ho.measurementPeriod)) :
    (∀ phy, TrendReach env geo n start phy → MeasuresOnly env geo cellId n start phy) ↔
      LookbackIdle env n ∧ distanceChange env geo cellId n = 0 := by
  constructor
  · intro measures
    have first := measures start .refl
    by_cases idle : LookbackIdle env n
    case pos =>
      have trend := first.trend
      rw [getDistanceTrend_of_lookbackIdle idle cached] at trend
      exact ⟨idle, trend.symm⟩
    case neg =>
      obtain ⟨m', written, -⟩ := getDistanceTrend_of_computes idle cached inside
      obtain ⟨m'', -, left⟩ := first.entry
      have time := (Prod.mk.inj (Option.some.inj (written.symm.trans left))).1
      refine absurd (.inr ?_) idle
      rw [time, floor_tick]
  · rintro ⟨idle, unchanged⟩ phy reach
    have kept : phy.channel.channelCache[cellId]? = some ((n : ℚ), m) := by
      refine reach.cell (I := fun entry => entry = some ((n : ℚ), m)) (fun {phy} found => ?_) cached
      rw [getDistanceTrend_of_lookbackIdle idle found]
      exact found
    have nothing := @getDistanceTrend_of_lookbackIdle env geo _ _ _ _ idle kept
    refine ⟨?_, ⟨m, cached, ?_⟩, ?_, ?_⟩
    · rw [nothing, unchanged]
    · rw [nothing]
      exact kept
    · rw [nothing]
    · rw [nothing]

end TdCho

open TdCho in
/-- **Looking back.** At every tick, for every cell in coverage now and one measurement period ago, the
calls of `GetDistanceTrend` measure without disturbing exactly if they compute no link and the distance
has not changed. -/
theorem distance_trend_iff {rows : List UeRow} {h : List (Firing ℤ Sim Event)} {c : Conf ℤ Sim Event}
    (run : AnyOrderRun tdCho env rows h c) (i : ℕ) :
    ∀ f ∈ ticks (ueHistory tdCho env i h), ∀ ue, f.before.state = some ue → ∀ cellId,
      InCoverage env ue.geo cellId (fireTime f) →
      InCoverage env ue.geo cellId (fireTime f - env.ho.measurementPeriod) →
        let start := (ue.updated tdCho env (fireTime f)).phy
        (∀ phy, TrendReach env ue.geo (fireTime f) start phy →
          MeasuresOnly env ue.geo cellId (fireTime f) start phy) ↔
        LookbackIdle env (fireTime f) ∧ distanceChange env ue.geo cellId (fireTime f) = 0 := by
  intro f ticking ue present cellId now before start
  obtain ⟨n, second⟩ := fireTime_eq_natCast (run.toUe i) ticking
  rw [second] at now before ⊢
  have usable : Usable phyRules env.link ue.geo cellId n := ⟨now.1, rfl, now.2⟩
  obtain ⟨m, measured⟩ := measuredAt_updateAllSatellites usable (mem_keys_of_covers now.1) ue.phy
  have cached : start.channel.channelCache[cellId]? = some ((n : ℚ), m) := by
    rw [show start = _ from UeInfo.updated_phy (fireTime f) ue, second]
    exact measured
  exact measuresOnly_iff cached before

/-- The satellites of `crossing`, with a measurement period of zero. -/
def instant : Env := { crossing with ho := { measurementPeriod := 0 } }

/-- What an observation of the UE before the last tick of a history yields. -/
def atLastTick {α : Type} (h : List (Firing ℤ (Option UeInfo) Event)) (observe : ℚ → UeInfo → α) :
    Option α :=
  (ticks h).getLast?.bind fun f => f.before.state.map fun ue => observe (fireTime f) ue

theorem exists_of_atLastTick {α : Type} {h : List (Firing ℤ (Option UeInfo) Event)}
    {observe : ℚ → UeInfo → α} {x : α} (seen : atLastTick h observe = some x) :
    ∃ f ∈ ticks h, ∃ ue, f.before.state = some ue ∧ observe (fireTime f) ue = x := by
  obtain ⟨f, last, seen⟩ := Option.bind_eq_some_iff.mp seen
  obtain ⟨ue, present, rfl⟩ := Option.map_eq_some_iff.mp seen
  exact ⟨f, List.mem_of_getLast? last, ue, present, rfl⟩

open TdCho in
/-- In `instant` a call looks back at the tick itself. -/
theorem distance_trend_iff_instant :
    ∃ f ∈ ticks (ueHistory tdCho instant 0 (sampleRun tdCho instant sampleRows 2).1), ∃ ue,
      f.before.state = some ue ∧ ∀ phy,
        TrendReach instant ue.geo (fireTime f) (ue.updated tdCho instant (fireTime f)).phy phy →
          MeasuresOnly instant ue.geo "N" (fireTime f) (ue.updated tdCho instant (fireTime f)).phy phy := by
  have seen : atLastTick (ueHistory tdCho instant 0 (sampleRun tdCho instant sampleRows 2).1)
      (fun t ue => (decide (InCoverage instant ue.geo "N" t), decide (LookbackIdle instant t),
        decide (InCoverage instant ue.geo "N" (t - instant.ho.measurementPeriod)),
        distanceChange instant ue.geo "N" t)) = some (true, true, true, 0) := by decide +kernel
  obtain ⟨f, ticking, ue, present, seen⟩ := exists_of_atLastTick seen
  simp only [Prod.mk.injEq, decide_eq_true_eq] at seen
  obtain ⟨now, idle, before, unchanged⟩ := seen
  exact ⟨f, ticking, ue, present,
    (distance_trend_iff (simRun_sampleRun tdCho instant sampleRows 2).anyOrder 0 f ticking ue present "N"
      now before).mpr ⟨idle, unchanged⟩⟩

open TdCho in
/-- In `crossing` the second call for `N` at tick 1 finds no trend, with `N` half as far away as before. -/
theorem distance_trend_crossing :
    ¬ ∀ {env : Env} {rows : List UeRow} {h : List (Firing ℤ Sim Event)} {c : Conf ℤ Sim Event},
      SimRun tdCho env rows h c → ∀ i, ∀ f ∈ ticks (ueHistory tdCho env i h), ∀ ue,
        f.before.state = some ue → ∀ cellId, InCoverage env ue.geo cellId (fireTime f) →
        InCoverage env ue.geo cellId (fireTime f - env.ho.measurementPeriod) →
        ∀ phy, TrendReach env ue.geo (fireTime f) (ue.updated tdCho env (fireTime f)).phy phy →
          MeasuresOnly env ue.geo cellId (fireTime f) (ue.updated tdCho env (fireTime f)).phy phy := by
  intro always
  have seen : atLastTick (ueHistory tdCho crossing 0 (sampleRun tdCho crossing sampleRows 2).1)
      (fun t ue =>
        let once := (getDistanceTrend crossing ue.geo "N" t (ue.updated tdCho crossing t).phy).2
        (decide (InCoverage crossing ue.geo "N" t),
          decide (InCoverage crossing ue.geo "N" (t - crossing.ho.measurementPeriod)),
          (getDistanceTrend crossing ue.geo "N" t once).1, distanceChange crossing ue.geo "N" t)) =
      some (true, true, 0, -500000) := by decide +kernel
  obtain ⟨f, ticking, ue, present, seen⟩ := exists_of_atLastTick seen
  simp only [Prod.mk.injEq, decide_eq_true_eq] at seen
  obtain ⟨now, before, second, change⟩ := seen
  have measures := always (simRun_sampleRun tdCho crossing sampleRows 2) 0 f ticking ue present "N" now
    before _ (.single ⟨"N", rfl⟩)
  have trend := measures.trend
  rw [second, change] at trend
  norm_num at trend

end NtnCho
