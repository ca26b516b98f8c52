import NtnCho.EventSystem.Window
import NtnCho.Liveness
import NtnCho.Realisation
import NtnCho.Target

/-!
# The window of SNR samples

`UpdateSnrHistory` is called by every computation of a link, that is by step 1 of a tick and by
`GetDistanceTrend` for a past time. The samples that it keeps of a cell are the last ones that step 1 drew
(`sliding_window`) as long as the past is the past, that is the measurement period is not negative, and a
cell that is measured at a tick has been renewed by step 1 of this tick: a satellite closer than a metre
is not.
-/

namespace NtnCho

open EventSystem

variable {env : Env} {geo : UeGeo}

/-! ## What the physical layer holds of a cell -/

/-- The cache entry and the SNR history of a cell. -/
def Phy.cell (phy : Phy) (cellId : String) : Option (ℚ × UeSatMetrics) × Option (List (ℚ × ℚ)) :=
  (phy.channel.channelCache[cellId]?, phy.snrHistory[cellId]?)

namespace TdCho

theorem updateSnrHistory_of_ne {ho : HandoverParams} {name cellId : String} (other : name ≠ cellId)
    (simTime snrDb : ℚ) (snrHistory : SnrHistory) :
    (updateSnrHistory ho name simTime snrDb snrHistory)[cellId]? = snrHistory[cellId]? := by
  have distinct : ¬ compare name cellId = .eq := fun same =>
    other (Std.LawfulEqCmp.eq_of_compare same)
  unfold updateSnrHistory
  dsimp only
  split
  · rfl
  · split
    · split
      · rfl
      · rw [Std.TreeMap.getElem?_insert, if_neg distinct]
    · rw [Std.TreeMap.getElem?_insert, if_neg distinct]

/-- An update of one satellite leaves what belongs to the others. -/
theorem cell_updateSatelliteState_of_ne {name cellId : String} (other : name ≠ cellId) (simTime : ℚ)
    (phy : Phy) :
    (updateSatelliteState phyRules env geo name simTime phy).2.cell cellId = phy.cell cellId := by
  rcases @updateSatelliteState_cases env phyRules geo name simTime phy with same | ⟨-, -, computed⟩
  · rw [same]
  · have distinct : ¬ compare name cellId = .eq := fun same =>
      other (Std.LawfulEqCmp.eq_of_compare same)
    rw [computed]
    unfold Phy.cell
    dsimp only
    rw [linkCompute_channelCache, Std.TreeMap.getElem?_insert, if_neg distinct]
    congr 1
    exact updateSnrHistory_of_ne other ..

theorem cell_updateAllSatellites_of_notMem {cellId : String} {names : List String}
    (unlisted : cellId ∉ names) (simTime : ℚ) (phy : Phy) :
    (updateAllSatellites phyRules env geo simTime names phy).2.cell cellId = phy.cell cellId := by
  induction names generalizing phy with
  | nil => rfl
  | cons name names ih =>
      obtain ⟨other, later⟩ := not_or.mp (List.mem_cons.not.mp unlisted)
      rw [updateAllSatellites_cons, ih later, cell_updateSatelliteState_of_ne (Ne.symm other)]

/-- Step 1 updates every satellite once. -/
theorem exists_updateSatelliteState {cellId : String} {names : List String} (listed : cellId ∈ names)
    (distinct : names.Nodup) (simTime : ℚ) (phy : Phy) :
    ∃ phy₁, phy₁.cell cellId = phy.cell cellId ∧
      (updateAllSatellites phyRules env geo simTime names phy).1.lookup cellId =
        some (updateSatelliteState phyRules env geo cellId simTime phy₁).1 ∧
      (updateAllSatellites phyRules env geo simTime names phy).2.cell cellId =
        (updateSatelliteState phyRules env geo cellId simTime phy₁).2.cell cellId := by
  induction names generalizing phy with
  | nil => cases listed
  | cons name names ih =>
      obtain ⟨fresh, distinct⟩ := List.nodup_cons.mp distinct
      by_cases same : cellId = name
      case pos =>
        subst same
        exact ⟨phy, rfl, List.lookup_cons_self, by
          rw [updateAllSatellites_cons, cell_updateAllSatellites_of_notMem fresh]⟩
      case neg =>
        obtain ⟨phy₁, kept, found, left⟩ := ih ((List.mem_cons.mp listed).resolve_left same) distinct
          (updateSatelliteState phyRules env geo name simTime phy).2
        have other : (cellId == name) = false := by simpa using same
        refine ⟨phy₁, ?_, ?_, left⟩
        · rw [kept, cell_updateSatelliteState_of_ne (Ne.symm same)]
        · simpa only [updateAllSatellites, List.lookup_cons, other] using found

theorem cell_getDistanceTrend_of_ne {name cellId : String} (other : name ≠ cellId) (currentTime : ℚ)
    (phy : Phy) :
    (getDistanceTrend env geo name currentTime phy).2.cell cellId = phy.cell cellId := by
  unfold getDistanceTrend
  dsimp only
  split
  · rfl
  · split
    · rfl
    · exact cell_updateSatelliteState_of_ne other ..

/-! ## Samples -/

/-- `UpdateSnrHistory` appends a sample that is later than those it has by a second, and drops the oldest
one of a full window. -/
theorem pushSample_of_later {N : ℤ} {simTime snrDb : ℚ} {history : List (ℚ × ℚ)}
    (later : ∀ sample ∈ history, sample.1 + 1 ≤ simTime) :
    pushSample N simTime snrDb history = (history ++ [(simTime, snrDb)]).rtake (2 * N).toNat := by
  unfold pushSample
  cases last : history.getLast? with
  | none =>
      rw [List.getLast?_eq_none_iff.mp last]
      rfl
  | some sample =>
      have second := later sample (List.mem_of_getLast? last)
      have apart : ¬ |simTime - sample.1| < 0.000000001 := by
        rw [not_lt, abs_of_nonneg (by linarith)]
        norm_num
        linarith
      dsimp only
      rw [if_neg apart]
      rfl

theorem getElem?_updateSnrHistory {ho : HandoverParams} (window : 0 < ho.trendWindowSize)
    {cellId : String} {simTime snrDb : ℚ} {snrHistory : SnrHistory}
    (later : ∀ sample ∈ snrHistory[cellId]?.getD [], sample.1 + 1 ≤ simTime) :
    (updateSnrHistory ho cellId simTime snrDb snrHistory)[cellId]? =
      some ((snrHistory[cellId]?.getD [] ++ [(simTime, snrDb)]).rtake
        (2 * ho.trendWindowSize).toNat) := by
  rw [← pushSample_of_later later]
  unfold updateSnrHistory
  dsimp only
  rw [if_neg (not_le.mpr window)]
  split
  · rename_i last
    have second := later _ (List.mem_of_getLast? last)
    dsimp only at second
    rw [if_neg (by linarith), Std.TreeMap.getElem?_insert_self]
  · rw [Std.TreeMap.getElem?_insert_self]

/-- A sample older than the last one of the history is rejected. -/
theorem updateSnrHistory_of_older {ho : HandoverParams} {cellId : String} {simTime snrDb : ℚ}
    {snrHistory : SnrHistory} {sample : ℚ × ℚ}
    (last : (snrHistory[cellId]?.getD []).getLast? = some sample) (older : simTime < sample.1) :
    updateSnrHistory ho cellId simTime snrDb snrHistory = snrHistory := by
  unfold updateSnrHistory
  dsimp only
  split
  · rfl
  · rw [last]
    dsimp only
    rw [if_pos older]

/-! ## The evaluation of a tick -/

theorem linkCompute_cached (L : Link) (geo : UeGeo) (satName : String)
    (trajectory : List TrajectoryPoint) (simTime : ℚ) (ch : ChannelState) :
    (linkCompute L geo satName trajectory simTime ch).2.channelCache[satName]? =
      some (simTime, (linkCompute L geo satName trajectory simTime ch).1) := by
  rw [linkCompute_channelCache, Std.TreeMap.getElem?_insert_self]

/-- What the physical layer holds of a cell during the tick at `n` that has drawn its sample: a history
that ends with this sample, and a cache entry that is not later. -/
structure Drawn (ho : HandoverParams) (cellId : String) (n : ℚ) (samples : List (ℚ × ℚ)) (phy : Phy) :
    Prop where
  history : phy.snrHistory[cellId]?.getD [] = samples
  last : ∃ snrDb, samples.getLast? = some (n, snrDb)
  entry : ∃ time m, phy.channel.channelCache[cellId]? = some (time, m) ∧ time ≤ n ∧
    (ho.measurementPeriod = 0 → time = n)

/-- Looking back takes no sample: what it computes is older than the sample of the tick. -/
theorem Drawn.getDistanceTrend {cellId : String} {n : ℕ} {samples : List (ℚ × ℚ)} {phy : Phy}
    (drawn : Drawn env.ho cellId n samples phy) (period : 0 ≤ env.ho.measurementPeriod) :
    Drawn env.ho cellId n samples (getDistanceTrend env geo cellId n phy).2 := by
  unfold TdCho.getDistanceTrend
  dsimp only
  split
  · exact drawn
  · split
    · exact drawn
    · rcases @updateSatelliteState_cases env phyRules geo cellId (n - env.ho.measurementPeriod) phy with
        same | ⟨-, miss, computed⟩
      · rw [same]
        exact drawn
      · obtain ⟨time, m, cached, -, current⟩ := drawn.entry
        obtain ⟨snrDb, last⟩ := drawn.last
        have positive : 0 < env.ho.measurementPeriod := by
          refine lt_of_le_of_ne period fun zero => miss ⟨m, ?_⟩
          rw [cached, ← zero, sub_zero, floor_tick, current zero.symm]
        have older : (n : ℚ) - env.ho.measurementPeriod < n := by linarith
        have written := linkCompute_cached env.link geo cellId (env.link.trajectory cellId)
          (n - env.ho.measurementPeriod) phy.channel
        rw [computed]
        refine ⟨?_, ⟨snrDb, last⟩, _, _, written, older.le, fun zero => absurd zero positive.ne'⟩
        dsimp only [phyRules]
        rw [updateSnrHistory_of_older (drawn.history ▸ last) older, drawn.history]

/-- `GetDistanceTrend` of every cell keeps what the tick has drawn. -/
theorem Drawn.trend {name cellId : String} {n : ℕ} {samples : List (ℚ × ℚ)} {phy : Phy}
    (drawn : Drawn env.ho cellId n samples phy) (period : 0 ≤ env.ho.measurementPeriod) :
    Drawn env.ho cellId n samples (TdCho.getDistanceTrend env geo name n phy).2 := by
  by_cases same : name = cellId
  case pos =>
    subst same
    exact drawn.getDistanceTrend period
  case neg =>
    obtain ⟨cached, sampled⟩ := Prod.mk.inj (@cell_getDistanceTrend_of_ne env geo _ _ same n phy)
    exact ⟨by rw [sampled, drawn.history], drawn.last, by rw [cached]; exact drawn.entry⟩

/-- A cell that is measured is cached, and its trajectory has not ended. -/
theorem cached_of_measured {snrFloor simTime : ℚ} {ue : UeInfo} {meas : MeasResultCell}
    (measured : meas ∈ uePerformMeasurements snrFloor env simTime ue) :
    ∃ entry, ue.phy.channel.channelCache[meas.cellId]? = some entry ∧
      ended (env.link.trajectory meas.cellId) simTime = false := by
  obtain ⟨⟨satName, entry⟩, member, rfl⟩ := List.mem_map.mp measured
  obtain ⟨listed, detected⟩ := List.mem_filter.mp member
  have name : (ueMeasureCell env simTime ue satName).cellId = satName := by
    unfold ueMeasureCell
    split <;> rfl
  rw [name]
  refine ⟨entry, Std.TreeMap.mem_toList_iff_getElem?_eq_some.mp listed, ?_⟩
  simp only [detectable, Bool.and_eq_true, Bool.not_eq_true'] at detected
  exact detected.1.2

/-- A cell whose trend an evaluation asks for is measured. -/
theorem measured_of_trendCalled {simTime : ℚ} {due : UeInfo} {serving : MeasResultCell} {cellId : String}
    (found : due.serving? tdCho env simTime = some serving)
    (called : TrendCalled due.measState.servingCellId
      (uePerformMeasurements (tdCho.snrFloor env.ho) env simTime due) cellId) :
    ∃ meas ∈ uePerformMeasurements (tdCho.snrFloor env.ho) env simTime due, meas.cellId = cellId := by
  obtain ⟨meas, member, -, rfl | rfl⟩ := called
  · exact ⟨meas, member, rfl⟩
  · exact ⟨serving, List.mem_of_find?_eq_some found, servingMeasurement_eq_some found⟩

end TdCho

/-! ## A tick -/

/-- At every second that its trajectory covers a satellite is at least one metre away. -/
def KeepsDistance (env : Env) (geo : UeGeo) : Prop :=
  ∀ cellId, ∀ n : ℕ, covers (env.link.trajectory cellId) n = true → InCoverage env geo cellId n

/-- The sample that step 1 of a tick draws for a cell in coverage: the time and the SNR. -/
def drawnSample (env : Env) (cellId : String) (f : Firing ℤ (Option UeInfo) Event) : Option (ℚ × ℚ) :=
  f.before.state.bind fun ue =>
    if InCoverage env ue.geo cellId (fireTime f) then
      ((stepOne tdCho env (fireTime f) ue).lookup cellId).map fun m => (fireTime f, m.snrDb)
    else none

/-- The samples that the ticks of a history draw for a cell. -/
def drawnSamples (env : Env) (cellId : String) (h : List (Firing ℤ (Option UeInfo) Event)) :
    List (ℚ × ℚ) :=
  (ticks h).filterMap (drawnSample env cellId)

/-- What the physical layer of a UE holds of a cell before second `n`: the last of the samples drawn, and
a cache entry of an earlier second. -/
structure SnrWindow (ho : HandoverParams) (cellId : String) (n : ℚ) (samples : List (ℚ × ℚ)) (phy : Phy) :
    Prop where
  history : phy.snrHistory[cellId]?.getD [] = samples.rtake (2 * ho.trendWindowSize).toNat
  increasing : (samples.map Prod.fst).Pairwise (· < ·)
  earlier : ∀ sample ∈ samples, sample.1 + 1 ≤ n
  entry : ∀ entry, phy.channel.channelCache[cellId]? = some entry → entry.1 + 1 ≤ n

namespace SnrWindow

variable {cellId : String} {n : ℕ} {samples : List (ℚ × ℚ)} {phy : Phy}

/-- Step 1 leaves what belongs to a cell out of coverage. -/
theorem updated_of_outside (outside : ¬ InCoverage env geo cellId n) (phy : Phy) :
    (updateAllSatellites TdCho.phyRules env geo n env.link.satellites.keys phy).2.cell cellId =
      phy.cell cellId := by
  by_cases listed : cellId ∈ env.link.satellites.keys
  case neg => exact TdCho.cell_updateAllSatellites_of_notMem listed n phy
  case pos =>
    obtain ⟨phy₁, kept, -, left⟩ := @TdCho.exists_updateSatelliteState env geo _ _ listed
      Std.TreeMap.nodup_keys n phy
    rw [left, ← kept]
    rcases @updateSatelliteState_cases env TdCho.phyRules geo cellId n phy₁ with same | ⟨usable, -⟩
    · rw [same]
    · exact absurd ⟨usable.covers, usable.distance⟩ outside

/-- Step 1 draws a sample for a cell in coverage. -/
theorem updated_of_inside (before : SnrWindow env.ho cellId n samples phy)
    (window : 0 < env.ho.trendWindowSize) (inside : InCoverage env geo cellId n) :
    ∃ m, (updateAllSatellites TdCho.phyRules env geo n env.link.satellites.keys phy).1.lookup cellId =
        some m ∧
      TdCho.Drawn env.ho cellId n
        ((samples ++ [((n : ℚ), m.snrDb)]).rtake (2 * env.ho.trendWindowSize).toNat)
        (updateAllSatellites TdCho.phyRules env geo n env.link.satellites.keys phy).2 := by
  have usable : Usable TdCho.phyRules env.link geo cellId n := ⟨inside.1, rfl, inside.2⟩
  obtain ⟨phy₁, kept, found, left⟩ := @TdCho.exists_updateSatelliteState env geo _ _
    (mem_keys_of_covers inside.1) Std.TreeMap.nodup_keys n phy
  obtain ⟨cached, sampled⟩ := Prod.mk.inj kept
  obtain ⟨cached', sampled'⟩ := Prod.mk.inj left
  have renewed := getElem?_updateSatelliteState_self usable phy₁
  refine ⟨_, found, ?_, ?_, n, _, cached'.trans renewed, le_rfl, fun _ => rfl⟩
  · rcases @updateSatelliteState_cases env TdCho.phyRules geo cellId n phy₁ with same | ⟨-, -, computed⟩
    · -- the entry of an earlier second is no hit
      rw [same, cached] at renewed
      have earlier := before.entry _ renewed
      dsimp only at earlier
      linarith
    · have later : ∀ sample ∈ phy₁.snrHistory[cellId]?.getD [], sample.1 + 1 ≤ (n : ℚ) := by
        rw [sampled, before.history]
        exact fun sample member => before.earlier sample ((rtake_suffix _ samples).subset member)
      rw [sampled', computed]
      dsimp only [TdCho.phyRules]
      rw [TdCho.getElem?_updateSnrHistory window later, sampled, before.history, rtake_snoc_rtake]
      rfl
  · obtain ⟨k, full⟩ : ∃ k, (2 * env.ho.trendWindowSize).toNat = k + 1 :=
      Nat.exists_eq_succ_of_ne_zero (by omega)
    rw [full, List.rtake_concat_succ, List.getLast?_concat]
    exact ⟨_, rfl⟩

/-- Out of coverage nothing looks back at a cell: a cell that is measured has begun and not ended. -/
theorem not_trendCalled (before : SnrWindow env.ho cellId n samples phy)
    (distance : KeepsDistance env geo) (good : phy.Good TdCho.phyRules env.link geo)
    (outside : ¬ InCoverage env geo cellId n) {due : UeInfo} {serving : MeasResultCell}
    (kept : due.phy.cell cellId = phy.cell cellId) (found : due.serving? tdCho env n = some serving) :
    ¬ TdCho.TrendCalled due.measState.servingCellId
      (uePerformMeasurements (tdCho.snrFloor env.ho) env n due) cellId := by
  intro called
  obtain ⟨meas, measured, rfl⟩ := TdCho.measured_of_trendCalled found called
  obtain ⟨entry, cached, running⟩ := TdCho.cached_of_measured measured
  rw [(Prod.mk.inj kept).1] at cached
  have second := before.entry entry cached
  have begins := (covers_iff.mp (good cached).usable.covers).1
  have covered : covers (env.link.trajectory meas.cellId) n = true :=
    covers_iff.mpr ⟨begun_mono (by linarith) begins, running⟩
  exact outside (distance meas.cellId n covered)

/-- What the tick has drawn is the window before the next second. -/
theorem of_drawn (before : SnrWindow env.ho cellId n samples phy) {snrDb : ℚ} {phy' : Phy}
    (drawn : TdCho.Drawn env.ho cellId n
      ((samples ++ [((n : ℚ), snrDb)]).rtake (2 * env.ho.trendWindowSize).toNat) phy') :
    SnrWindow env.ho cellId (n + 1) (samples ++ [((n : ℚ), snrDb)]) phy' where
  history := drawn.history
  increasing := by
    rw [List.map_append, List.pairwise_append]
    refine ⟨before.increasing, List.pairwise_singleton .., fun time member last member' => ?_⟩
    obtain ⟨sample, sampled, rfl⟩ := List.mem_map.mp member
    obtain rfl := List.mem_singleton.mp member'
    have := before.earlier sample sampled
    dsimp only
    linarith
  earlier sample member := by
    rcases List.mem_append.mp member with old | new
    · have := before.earlier sample old
      linarith
    · obtain rfl := List.mem_singleton.mp new
      exact le_rfl
  entry entry cached := by
    obtain ⟨time, m, cached', le, -⟩ := drawn.entry
    obtain rfl := Option.some.inj (cached.symm.trans cached')
    dsimp only
    linarith

/-- What is left alone for a second is the window before the next one. -/
theorem of_kept (before : SnrWindow env.ho cellId n samples phy) {phy' : Phy}
    (kept : phy'.cell cellId = phy.cell cellId) : SnrWindow env.ho cellId (n + 1) samples phy' := by
  obtain ⟨cached, sampled⟩ := Prod.mk.inj kept
  refine ⟨sampled ▸ before.history, before.increasing, fun sample member => ?_, fun entry found => ?_⟩
  · have := before.earlier sample member
    linarith
  · have := before.entry entry (cached ▸ found)
    linarith

/-- **The step lemma**: a tick adds to the window what its step 1 draws. -/
theorem ueTick {ue : UeInfo} (before : SnrWindow env.ho cellId n samples ue.phy)
    (window : 0 < env.ho.trendWindowSize) (period : 0 ≤ env.ho.measurementPeriod)
    (distance : KeepsDistance env ue.geo) (link : LinkInvariant tdCho env ue) (i : ℕ) :
    SnrWindow env.ho cellId (n + 1)
      (samples ++ (if InCoverage env ue.geo cellId n then
        ((stepOne tdCho env n ue).lookup cellId).map fun m => ((n : ℚ), m.snrDb) else none).toList)
      (NtnCho.ueTick tdCho env i n ue).1.phy := by
  by_cases inside : InCoverage env ue.geo cellId n
  case pos =>
    obtain ⟨m, found, drawn⟩ := before.updated_of_inside window inside
    rw [if_pos inside, show (stepOne tdCho env n ue).lookup cellId = some m from found]
    refine before.of_drawn ?_
    have updated := @UeInfo.updated_phy tdCho env n ue
    rcases ueTick_phy tdCho env i n ue with same | ⟨due, serving, measured, -, evaluated⟩
    · rw [same, updated]
      exact drawn
    · rw [evaluated]
      refine TdCho.evaluateNeighbors_phy (I := fun phy => TdCho.Drawn env.ho cellId n _ phy)
        (fun _ drawn => drawn.trend period) ?_
      change TdCho.Drawn env.ho cellId n _ due.phy
      rw [UeInfo.due_phy measured, updated]
      exact drawn
  case neg =>
    rw [if_neg inside, Option.toList_none, List.append_nil]
    refine before.of_kept ?_
    have updated : (ue.updated tdCho env n).phy.cell cellId = ue.phy.cell cellId := by
      rw [UeInfo.updated_phy]
      exact updated_of_outside inside ue.phy
    rcases ueTick_phy tdCho env i n ue with same | ⟨due, serving, measured, found, evaluated⟩
    · rw [same, updated]
    · have kept : due.phy.cell cellId = ue.phy.cell cellId := by rw [UeInfo.due_phy measured, updated]
      have idle := before.not_trendCalled distance link.good inside kept found
      rw [evaluated]
      refine TdCho.evaluateNeighbors_phy (I := fun phy => phy.cell cellId = ue.phy.cell cellId)
        (fun {name phy} called same => ?_) kept
      have other : name ≠ cellId := by
        rintro rfl
        exact idle called
      rw [TdCho.cell_getDistanceTrend_of_ne other, same]

end SnrWindow

/-! ## A run -/

theorem drawnSamples_snoc {cellId : String} {h : List (Firing ℤ (Option UeInfo) Event)}
    {f : Firing ℤ (Option UeInfo) Event} (tick : f.event.ev = .checkHandoverConditions) :
    drawnSamples env cellId (h ++ [f]) =
      drawnSamples env cellId h ++ (drawnSample env cellId f).toList := by
  unfold drawnSamples
  rw [ticks_snoc tick, List.filterMap_append]
  cases drawn : drawnSample env cellId f <;> simp [drawn]

section Run

variable {ok : Policy ℤ Event} {i : ℕ} {rows : List UeRow} {row : UeRow}
  {h : List (Firing ℤ (Option UeInfo) Event)} {c : Conf ℤ (Option UeInfo) Event} {ue : UeInfo}

/-- **The run lemma**: after `n` ticks a UE holds the window before second `n`. -/
theorem snrWindow_of_run (atRow : rows[i]? = some row) (window : 0 < env.ho.trendWindowSize)
    (period : 0 ≤ env.ho.measurementPeriod) (distance : KeepsDistance env (initialUe env i row).geo)
    (run : Run (ueHandler tdCho env i) ok (ueInitial env rows i) h c) (present : c.state = some ue)
    (cellId : String) :
    SnrWindow env.ho cellId (ticks h).length (drawnSamples env cellId h) ue.phy := by
  refine ueRun_history (I := fun h _ ue =>
    SnrWindow env.ho cellId (ticks h).length (drawnSamples env cellId h) ue.phy) run ?_ ?_ present
  · intro row _
    exact ⟨by simp [initialUe, drawnSamples, ticks], .nil, fun sample member => (by cases member),
      fun entry cached => by simp [initialUe] at cached⟩
  intro h c p c' ue prior step present concerns before
  rcases p with ⟨ts, _ | ⟨handler, ueId, sourceCell, targetCell⟩ | _⟩
  · have geo := geo_of_run TdCho.lawful atRow prior present
    have link := linkInvariant_of_run TdCho.lawful prior present
    have time : getSeconds ts = (ticks h).length := by
      rw [← getSeconds_tickNumber, ← eq_tickNumber prior step.mem_queue rfl]
    have after := before.ueTick window period (geo ▸ distance) link i
    rw [drawnSamples_snoc rfl, ticks_snoc rfl, List.length_append, List.length_singleton,
      Nat.cast_succ, ueAction_tick]
    dsimp only at step present ⊢
    unfold drawnSample fireTime
    dsimp only
    rw [present, Option.bind_some, time]
    exact after
  · have samples : drawnSamples env cellId (h ++ [⟨c, ⟨ts, .cho handler ueId sourceCell targetCell⟩, c'⟩]) =
        drawnSamples env cellId h := by
      unfold drawnSamples
      rw [ticks_snoc_of_ne (by simp)]
    rw [samples, ticks_snoc_of_ne (by simp), ueAction_cho,
      (sameLink_choHandler tdCho env handler i sourceCell targetCell (getSeconds ts) ue).phy]
    exact before
  · cases concerns

end Run

/-! ## The trend -/

/-- The mean SNR of samples. -/
def meanSnr (samples : List (ℚ × ℚ)) : ℚ := (samples.map Prod.snd).sum / samples.length

/-- The mean of the last `N` samples of a full window minus the mean of the first `N`; zero for a window
that is not full. -/
def windowTrend (N : ℕ) (samples : List (ℚ × ℚ)) : ℚ :=
  if samples.length = 2 * N then meanSnr (samples.drop N) - meanSnr (samples.take N) else 0

theorem TdCho.getSnrTrend_eq {ho : HandoverParams} (window : 0 < ho.trendWindowSize)
    {snrHistory : SnrHistory} {cellId : String}
    (bounded : (snrHistory[cellId]?.getD []).length ≤ (2 * ho.trendWindowSize).toNat) :
    getSnrTrend ho snrHistory cellId =
      windowTrend ho.trendWindowSize.toNat (snrHistory[cellId]?.getD []) := by
  obtain ⟨N, size⟩ : ∃ N : ℕ, ho.trendWindowSize = N := ⟨_, (Int.toNat_of_nonneg window.le).symm⟩
  have double : (2 * (N : ℤ)).toNat = 2 * N := by omega
  unfold getSnrTrend windowTrend
  rw [size, double] at bounded
  rw [size]
  cases found : snrHistory[cellId]? with
  | none =>
      have positive : 0 < N := by omega
      rw [Option.getD_none, List.length_nil, if_neg (by omega)]
  | some history =>
      rw [found, Option.getD_some] at bounded
      rw [Option.getD_some]
      dsimp only
      rw [double, Int.toNat_natCast]
      by_cases full : history.length = 2 * N
      case neg => rw [if_neg full, if_pos (.inr (by omega))]
      case pos =>
        have recent : 2 * N - N = N := by omega
        rw [if_pos full, if_neg (by omega), full, recent, Nat.sub_self, List.drop_zero]
        unfold meanSnr
        rw [List.map_take, List.map_drop, List.length_drop, List.length_take, full, recent,
          min_eq_left (by omega)]

/-- **The sliding window.** After every event, so at the end of every tick, the history of a cell is the
last `2 * N` samples that step 1 has drawn at the ticks with the cell in coverage, in the order of their
times, and the SNR trend compares its two halves. -/
theorem sliding_window {rows : List UeRow} {h : List (Firing ℤ Sim Event)} {c : Conf ℤ Sim Event}
    (run : AnyOrderRun tdCho env rows h c) (window : 0 < env.ho.trendWindowSize)
    (period : 0 ≤ env.ho.measurementPeriod) {i : ℕ} {row : UeRow} (atRow : rows[i]? = some row)
    (distance : KeepsDistance env (initialUe env i row).geo)
    {h₁ h₂ : List (Firing ℤ (Option UeInfo) Event)} {f : Firing ℤ (Option UeInfo) Event}
    (split : ueHistory tdCho env i h = h₁ ++ f :: h₂) {ue : UeInfo} (present : f.after.state = some ue) (cellId : String) :
    let history := ue.phy.snrHistory[cellId]?.getD []
    history = (drawnSamples env cellId (h₁ ++ [f])).rtake (2 * env.ho.trendWindowSize).toNat ∧
      (history.map Prod.fst).Pairwise (· < ·) ∧
      TdCho.getSnrTrend env.ho ue.phy.snrHistory cellId =
        windowTrend env.ho.trendWindowSize.toNat history := by
  intro history
  have own := run.toUe i
  rw [show (ueComponent tdCho env i).history h = _ from split] at own
  obtain ⟨prior, step⟩ := own.split
  have kept := snrWindow_of_run atRow window period distance (prior.snoc step) present cellId
  refine ⟨kept.history, ?_, ?_⟩
  · refine kept.increasing.sublist ?_
    rw [show history = _ from kept.history]
    exact (rtake_suffix _ _).sublist.map _
  · refine TdCho.getSnrTrend_eq window ?_
    rw [kept.history, rtake_eq_drop, List.length_drop]
    omega

/-! ## Sample runs -/

theorem ended_mono {trajectory : List TrajectoryPoint} {t t' : ℚ} (le : t ≤ t')
    (before : ended trajectory t = true) : ended trajectory t' = true := by
  cases trajectory with
  | nil => cases before
  | cons front rest =>
      simp only [ended, decide_eq_true_eq] at before ⊢
      linarith

/-- The seconds up to the end of the trajectories decide whether the satellites keep their distance. -/
theorem keepsDistance_of_all (bound : ℕ)
    (kept : (env.link.satellites.keys.all fun cellId =>
      ended (env.link.trajectory cellId) (bound + 1) && (List.range (bound + 1)).all fun n =>
        decide (1 ≤ slantRange env.link geo (env.link.trajectory cellId) n)) = true) :
    KeepsDistance env geo := by
  intro cellId n covered
  have listed := List.all_eq_true.mp kept cellId (mem_keys_of_covers covered)
  rw [Bool.and_eq_true] at listed
  obtain ⟨finished, near⟩ := listed
  have running := (covers_iff.mp covered).2
  refine ⟨covered, ?_⟩
  have inside : n < bound + 1 := by
    by_contra late
    have beyond : (bound : ℚ) + 1 ≤ n := by exact_mod_cast not_lt.mp late
    rw [ended_mono beyond finished] at running
    cases running
  simpa using List.all_eq_true.mp near n (List.mem_range.mpr inside)

theorem keepsDistance_crossing : KeepsDistance crossing (initialUe crossing 0 ⟨0, 0, "Rural"⟩).geo :=
  keepsDistance_of_all 60 (by decide +kernel)

/-- The times of the samples of a cell after the last event of a history. -/
def lastHistory (cellId : String) (h : List (Firing ℤ (Option UeInfo) Event)) : Option (List ℚ) :=
  h.getLast?.bind fun f => f.after.state.map fun ue =>
    (ue.phy.snrHistory[cellId]?.getD []).map Prod.fst

theorem exists_of_lastHistory {cellId : String} {h : List (Firing ℤ (Option UeInfo) Event)}
    {times : List ℚ} (seen : lastHistory cellId h = some times) :
    ∃ h₁ f ue, h = h₁ ++ f :: [] ∧ f.after.state = some ue ∧
      (ue.phy.snrHistory[cellId]?.getD []).map Prod.fst = times := by
  obtain ⟨f, last, seen⟩ := Option.bind_eq_some_iff.mp seen
  obtain ⟨ue, present, rfl⟩ := Option.map_eq_some_iff.mp seen
  obtain ⟨h₁, rfl⟩ := List.getLast?_eq_some_iff.mp last
  exact ⟨h₁, f, ue, rfl, present, rfl⟩

theorem sliding_window_crossing :
    let history := ueHistory tdCho crossing 0 (sampleRun tdCho crossing sampleRows 3).1
    ∃ h₁ f ue, history = h₁ ++ f :: [] ∧ f.after.state = some ue ∧
      (ue.phy.snrHistory["N"]?.getD []).map Prod.fst = [0, 1, 2] ∧
      ue.phy.snrHistory["N"]?.getD [] = (drawnSamples crossing "N" (h₁ ++ [f])).rtake 10 := by
  intro history
  have seen : lastHistory "N" history = some [0, 1, 2] := by decide +kernel
  obtain ⟨h₁, f, ue, split, present, times⟩ := exists_of_lastHistory seen
  exact ⟨h₁, f, ue, split, present, times,
    (sliding_window (simRun_sampleRun tdCho crossing sampleRows 3).anyOrder (by decide) (by decide +kernel)
      (show sampleRows[0]? = some ⟨0, 0, "Rural"⟩ from rfl) keepsDistance_crossing split present "N").1⟩

/-- The history of a cell after the last event, a tick, has more samples than the ticks have drawn. -/
def exceeds (env : Env) (cellId : String) (h : List (Firing ℤ (Option UeInfo) Event)) : Bool :=
  h.getLast?.any fun f => decide (f.event.ev = .checkHandoverConditions) && f.after.state.any fun ue =>
    decide ((drawnSamples env cellId h).length < (ue.phy.snrHistory[cellId]?.getD []).length)

theorem exists_of_exceeds {cellId : String} {h : List (Firing ℤ (Option UeInfo) Event)}
    (more : exceeds env cellId h = true) :
    ∃ h₁ f ue, h = h₁ ++ f :: [] ∧ f.event.ev = .checkHandoverConditions ∧ f.after.state = some ue ∧
      (drawnSamples env cellId (h₁ ++ [f])).length < (ue.phy.snrHistory[cellId]?.getD []).length := by
  obtain ⟨f, last, seen⟩ := (Option.any_eq_true ..).mp more
  rw [Bool.and_eq_true, decide_eq_true_eq] at seen
  obtain ⟨ue, present, longer⟩ := (Option.any_eq_true ..).mp seen.2
  obtain ⟨h₁, rfl⟩ := List.getLast?_eq_some_iff.mp last
  exact ⟨h₁, f, ue, rfl, seen.1, present, of_decide_eq_true longer⟩

/-- The measurement period of `crossing`, turned round. -/
def ahead : Env := { crossing with ho := { measurementPeriod := -1 } }

/-- The satellite `S` comes down to the UE. -/
def landing : Env where
  link := sampleLink
    [overhead "S" [(0, 500000), (1, 500000), (2, 0.5)], overhead "N" [(0, 500000), (60, 500000)]]
  ho := { measurementPeriod := 0.5 }

/-- In `landing` the window gets a sample between two ticks, and in `ahead` one of the next second. -/
theorem sliding_window_landing_ahead :
    (¬ ∀ {env : Env} {rows : List UeRow} {h : List (Firing ℤ Sim Event)} {c : Conf ℤ Sim Event},
      SimRun tdCho env rows h c → 0 < env.ho.trendWindowSize → 0 ≤ env.ho.measurementPeriod →
        ∀ {i : ℕ} {h₁ f ue}, ueHistory tdCho env i h = h₁ ++ f :: [] →
          f.event.ev = .checkHandoverConditions → f.after.state = some ue → ∀ cellId,
            ue.phy.snrHistory[cellId]?.getD [] =
              (drawnSamples env cellId (h₁ ++ [f])).rtake (2 * env.ho.trendWindowSize).toNat) ∧
    ¬ ∀ {env : Env} {rows : List UeRow} {h : List (Firing ℤ Sim Event)} {c : Conf ℤ Sim Event},
      SimRun tdCho env rows h c → 0 < env.ho.trendWindowSize →
        (∀ (i : ℕ) row, rows[i]? = some row → KeepsDistance env (initialUe env i row).geo) →
          ∀ {i : ℕ} {h₁ f ue}, ueHistory tdCho env i h = h₁ ++ f :: [] →
            f.event.ev = .checkHandoverConditions → f.after.state = some ue → ∀ cellId,
              ue.phy.snrHistory[cellId]?.getD [] =
                (drawnSamples env cellId (h₁ ++ [f])).rtake (2 * env.ho.trendWindowSize).toNat := by
  constructor
  · intro always
    obtain ⟨h₁, f, ue, split, tick, present, more⟩ := @exists_of_exceeds landing "S"
      (ueHistory tdCho landing 0 (sampleRun tdCho landing sampleRows 3).1) (by decide +kernel)
    have window := always (simRun_sampleRun tdCho landing sampleRows 3) (by decide) (by decide +kernel)
      split tick present "S"
    rw [window] at more
    exact absurd ((rtake_suffix ..).length_le) (not_le.mpr more)
  · intro always
    obtain ⟨h₁, f, ue, split, tick, present, more⟩ := @exists_of_exceeds ahead "S"
      (ueHistory tdCho ahead 0 (sampleRun tdCho ahead sampleRows 2).1) (by decide +kernel)
    have kept : ∀ (i : ℕ) row, sampleRows[i]? = some row → KeepsDistance ahead (initialUe ahead i row).geo := by
      intro i row atRow
      obtain ⟨rfl, rfl⟩ : i = 0 ∧ row = ⟨0, 0, "Rural"⟩ := by
        cases i with
        | zero => exact ⟨rfl, (Option.some.inj atRow).symm⟩
        | succ i => cases atRow
      exact keepsDistance_crossing
    have window := always (simRun_sampleRun tdCho ahead sampleRows 2) (by decide) kept split tick
      present "S"
    rw [window] at more
    exact absurd ((rtake_suffix ..).length_le) (not_le.mpr more)

end NtnCho
