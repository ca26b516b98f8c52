import NtnCho.UeComponent
import NtnCho.Distance
import NtnCho.ServingTime
import NtnCho.Topsis

/-!
# What the physical layer cache of a UE holds

`UpdateSatelliteState` is the only function that writes the cache, so whatever it keeps holds along
every run: `PhyReach` is any number of its calls. An entry is the geometry of a covered satellite at
the time of the entry (`Phy.Good`), and entries are never removed.

`Program.Lawful` collects what the procedure relies on in the neighbour evaluation of a program.
-/

namespace NtnCho

open EventSystem

variable {P : Program} {env : Env} {rules : PhyRules} {geo : UeGeo}

/-! ## One call of `UpdateSatelliteState` -/

/-- The satellite can be used at `simTime`: it is covered and at least one metre away. -/
structure Usable (rules : PhyRules) (L : Link) (geo : UeGeo) (satName : String) (simTime : ℚ) :
    Prop where
  covers : covers (L.trajectory satName) simTime = true
  inPass : rules.inPass (L.trajectory satName) simTime = true
  distance : 1 ≤ slantRange L geo (L.trajectory satName) simTime

/-- The satellite is in coverage of a UE at `t`: its trajectory covers `t`, and it is at least one metre
away. -/
def InCoverage (env : Env) (geo : UeGeo) (satName : String) (t : ℚ) : Prop :=
  covers (env.link.trajectory satName) t = true ∧ 1 ≤ slantRange env.link geo (env.link.trajectory satName) t

instance (env : Env) (geo : UeGeo) (satName : String) (t : ℚ) :
    Decidable (InCoverage env geo satName t) := inferInstanceAs (Decidable (_ ∧ _))

/-- The cache entry is the geometry of a usable satellite at the time of the entry. -/
structure GoodEntry (rules : PhyRules) (L : Link) (geo : UeGeo) (satName : String)
    (entry : ℚ × UeSatMetrics) : Prop where
  usable : Usable rules L geo satName entry.1
  distance : entry.2.distance = slantRange L geo (L.trajectory satName) entry.1
  elevation : entry.2.elevation = linkElevation L geo (L.trajectory satName) entry.1

theorem drawShadowFading_channelCache (L : Link) (satName : String) (ch : ChannelState) :
    (drawShadowFading L satName ch).2.channelCache = ch.channelCache := by
  unfold drawShadowFading
  split <;> rfl

theorem drawLineOfSight_channelCache (L : Link) (satName : String) (plos elevation : ℚ)
    (ch : ChannelState) :
    (drawLineOfSight L satName plos elevation ch).2.channelCache = ch.channelCache := by
  unfold drawLineOfSight
  split <;> rfl

/-- A computed link writes one entry into the cache. -/
theorem linkCompute_channelCache (L : Link) (geo : UeGeo) (satName : String)
    (trajectory : List TrajectoryPoint) (simTime : ℚ) (ch : ChannelState) :
    (linkCompute L geo satName trajectory simTime ch).2.channelCache =
      ch.channelCache.insert satName
        (simTime, (linkCompute L geo satName trajectory simTime ch).1) := by
  simp only [linkCompute, drawLineOfSight_channelCache, drawShadowFading_channelCache]

/-- What the refresh of a link does: nothing for an unusable satellite, the computation for a usable
one. -/
theorem linkRefresh_cases (L : Link) (satName : String) (simTime : ℚ) (ch : ChannelState) :
    (¬ Usable rules L geo satName simTime ∧
        ∃ distance, linkRefresh rules L geo satName simTime ch =
          .returned { outOfCoverage with distance := distance }) ∨
      (Usable rules L geo satName simTime ∧
        linkRefresh rules L geo satName simTime ch =
          .computed (linkCompute L geo satName (L.trajectory satName) simTime ch).1
            (linkCompute L geo satName (L.trajectory satName) simTime ch).2) := by
  unfold linkRefresh
  dsimp only
  split
  · rename_i covered
    rw [Bool.and_eq_true] at covered
    split
    · rename_i near
      exact .inl ⟨fun usable => absurd usable.distance (not_le.mpr near), _, rfl⟩
    · rename_i far
      exact .inr ⟨⟨covered.1, covered.2, not_lt.mp far⟩, rfl⟩
  · rename_i uncovered
    refine .inl ⟨fun usable => uncovered ?_, _, rfl⟩
    rw [usable.covers, usable.inPass]
    rfl

/-- The cached metrics are those of the current second. -/
def cacheHit (ch : ChannelState) (satName : String) (simTime : ℚ) : Prop :=
  ∃ m, ch.channelCache[satName]? = some ((⌊simTime + 0.000001⌋ : ℚ), m)

/-- What `UpdateSatelliteState` does: it returns the cached metrics of the current second, or
refreshes the link. -/
theorem linkUpdate_cases (L : Link) (satName : String) (simTime : ℚ) (ch : ChannelState) :
    (∃ m, ch.channelCache[satName]? = some ((⌊simTime + 0.000001⌋ : ℚ), m) ∧
        linkUpdate rules L geo satName simTime ch = .returned m) ∨
      (¬ cacheHit ch satName simTime ∧
        linkUpdate rules L geo satName simTime ch =
          linkRefresh rules L geo satName simTime ch) := by
  unfold linkUpdate cacheHit
  dsimp only
  split
  · rename_i time m cached
    split
    · rename_i current
      rw [current] at cached
      exact .inl ⟨m, cached, rfl⟩
    · rename_i old
      refine .inr ⟨?_, rfl⟩
      rintro ⟨m', cached'⟩
      rw [cached] at cached'
      injection cached' with entry
      injection entry with same
      exact old same
  · rename_i absent
    refine .inr ⟨?_, rfl⟩
    rintro ⟨m', cached'⟩
    rw [absent] at cached'
    cases cached'

/-- The effect of `UpdateSatelliteState` on the physical layer: none, or one computed link. -/
theorem updateSatelliteState_cases (satName : String) (simTime : ℚ) (phy : Phy) :
    (updateSatelliteState rules env geo satName simTime phy).2 = phy ∨
      (Usable rules env.link geo satName simTime ∧
        ¬ cacheHit phy.channel satName simTime ∧
        updateSatelliteState rules env geo satName simTime phy =
          ((linkCompute env.link geo satName (env.link.trajectory satName) simTime phy.channel).1,
            { channel :=
                (linkCompute env.link geo satName (env.link.trajectory satName) simTime
                  phy.channel).2
              snrHistory :=
                rules.updateHistory env.ho satName simTime
                  (linkCompute env.link geo satName (env.link.trajectory satName) simTime
                    phy.channel).1.snrDb phy.snrHistory })) := by
  unfold updateSatelliteState
  rcases @linkUpdate_cases rules geo env.link satName simTime phy.channel with
    ⟨m, -, hit⟩ | ⟨fresh, miss⟩
  · rw [hit]
    exact .inl rfl
  · rw [miss]
    rcases @linkRefresh_cases rules geo env.link satName simTime phy.channel with
      ⟨-, distance, unusable⟩ | ⟨usable, computed⟩
    · rw [unusable]
      exact .inl rfl
    · rw [computed]
      exact .inr ⟨usable, fresh, rfl⟩

/-! ## Any number of calls -/

/-- All entries of the cache are good. -/
def Phy.Good (rules : PhyRules) (L : Link) (geo : UeGeo) (phy : Phy) : Prop :=
  ∀ {satName entry}, phy.channel.channelCache[satName]? = some entry →
    GoodEntry rules L geo satName entry

theorem Phy.good_updateSatelliteState {satName : String} {simTime : ℚ} {phy : Phy}
    (good : phy.Good rules env.link geo) :
    (updateSatelliteState rules env geo satName simTime phy).2.Good rules env.link geo := by
  rcases @updateSatelliteState_cases env rules geo satName simTime phy with
    same | ⟨usable, -, computed⟩
  · rw [same]
    exact good
  · rw [computed]
    intro name entry cached
    rw [linkCompute_channelCache, Std.TreeMap.getElem?_insert] at cached
    split at cached
    · rename_i current
      obtain rfl := Std.LawfulEqCmp.eq_of_compare current
      obtain rfl := Option.some.inj cached
      exact ⟨usable, rfl, rfl⟩
    · exact good cached

/-- `phy'` comes from `phy` by calls of `UpdateSatelliteState`. -/
def PhyReach (rules : PhyRules) (env : Env) (geo : UeGeo) : Phy → Phy → Prop :=
  Relation.ReflTransGen fun phy phy' =>
    ∃ satName simTime, phy' = (updateSatelliteState rules env geo satName simTime phy).2

theorem PhyReach.updateSatelliteState (satName : String) (simTime : ℚ) (phy : Phy) :
    PhyReach rules env geo phy (NtnCho.updateSatelliteState rules env geo satName simTime phy).2 :=
  .single ⟨satName, simTime, rfl⟩

/-- What every call keeps holds after any number of calls. -/
theorem PhyReach.invariant {I : Phy → Prop} {phy phy' : Phy} (reach : PhyReach rules env geo phy phy')
    (keep : ∀ {phy satName simTime}, I phy →
      I (NtnCho.updateSatelliteState rules env geo satName simTime phy).2) (init : I phy) : I phy' := by
  induction reach with
  | refl => exact init
  | tail _ call ih =>
      obtain ⟨satName, simTime, rfl⟩ := call
      exact keep ih

theorem PhyReach.good {phy phy' : Phy} (reach : PhyReach rules env geo phy phy')
    (good : phy.Good rules env.link geo) : phy'.Good rules env.link geo :=
  reach.invariant (I := fun phy => phy.Good rules env.link geo) Phy.good_updateSatelliteState good

/-- Entries are never removed. -/
theorem PhyReach.cached {phy phy' : Phy} {satName : String} (reach : PhyReach rules env geo phy phy')
    (cached : satName ∈ phy.channel.channelCache) : satName ∈ phy'.channel.channelCache := by
  refine reach.invariant (I := fun phy => satName ∈ phy.channel.channelCache) ?_ cached
  intro phy name simTime cached
  rcases @updateSatelliteState_cases env rules geo name simTime phy with same | ⟨-, -, computed⟩
  · rw [same]
    exact cached
  · rw [computed, linkCompute_channelCache]
    exact Std.TreeMap.mem_insert.mpr (.inr cached)

/-- A call adds no other satellite to the cache than its own. -/
theorem mem_updateSatelliteState {name satName : String} {simTime : ℚ} {phy : Phy}
    (cached : satName ∈
      (updateSatelliteState rules env geo name simTime phy).2.channel.channelCache) :
    satName = name ∨ satName ∈ phy.channel.channelCache := by
  rcases @updateSatelliteState_cases env rules geo name simTime phy with same | ⟨-, -, computed⟩
  · rw [same] at cached
    exact .inr cached
  · rw [computed, linkCompute_channelCache] at cached
    refine (Std.TreeMap.mem_insert.mp cached).imp_left fun current => ?_
    exact (Std.LawfulEqCmp.eq_of_compare current).symm

theorem updateAllSatellites_cons (name : String) (names : List String) (simTime : ℚ) (phy : Phy) :
    (updateAllSatellites rules env geo simTime (name :: names) phy).2 =
      (updateAllSatellites rules env geo simTime names
        (updateSatelliteState rules env geo name simTime phy).2).2 := rfl

theorem phyReach_updateAllSatellites (simTime : ℚ) (names : List String) (phy : Phy) :
    PhyReach rules env geo phy (updateAllSatellites rules env geo simTime names phy).2 := by
  induction names generalizing phy with
  | nil => exact .refl
  | cons name names ih =>
      exact (PhyReach.updateSatelliteState name simTime phy).trans (ih _)

/-! ## Step 1 of a tick -/

theorem floor_tick (n : ℕ) : ((⌊(n : ℚ) + 0.000001⌋ : ℤ) : ℚ) = n := by
  rw [show ⌊(n : ℚ) + 0.000001⌋ = n by
    rw [Int.floor_eq_iff]
    constructor <;> norm_num]
  norm_cast

/-- The cached metrics of the satellite were computed at `time`. -/
def Phy.MeasuredAt (phy : Phy) (satName : String) (time : ℚ) : Prop :=
  ∃ m, phy.channel.channelCache[satName]? = some (time, m)

/-- The update of a usable satellite at a tick returns metrics of this tick, and leaves them in the
cache. -/
theorem getElem?_updateSatelliteState_self {n : ℕ} {satName : String}
    (usable : Usable rules env.link geo satName n) (phy : Phy) :
    (updateSatelliteState rules env geo satName n phy).2.channel.channelCache[satName]? =
      some ((n : ℚ), (updateSatelliteState rules env geo satName n phy).1) := by
  unfold updateSatelliteState
  rcases @linkUpdate_cases rules geo env.link satName n phy.channel with
    ⟨m, cached, hit⟩ | ⟨-, miss⟩
  · rw [hit]
    rwa [floor_tick] at cached
  · rw [miss]
    rcases @linkRefresh_cases rules geo env.link satName n phy.channel with
      ⟨unusable, -⟩ | ⟨-, computed⟩
    · exact absurd usable unusable
    · rw [computed]
      dsimp only
      rw [linkCompute_channelCache, Std.TreeMap.getElem?_insert_self]

/-- The update of an unusable satellite at a tick returns no signal, and changes nothing. -/
theorem updateSatelliteState_of_not_usable {n : ℕ} {satName : String} {phy : Phy}
    (good : phy.Good rules env.link geo) (unusable : ¬ Usable rules env.link geo satName n) :
    (updateSatelliteState rules env geo satName n phy).1.snrDb = -999 ∧
      (updateSatelliteState rules env geo satName n phy).2 = phy := by
  unfold updateSatelliteState
  rcases @linkUpdate_cases rules geo env.link satName n phy.channel with
    ⟨m, cached, -⟩ | ⟨-, miss⟩
  · rw [floor_tick] at cached
    exact absurd (good cached).usable unusable
  · rw [miss]
    rcases @linkRefresh_cases rules geo env.link satName n phy.channel with
      ⟨-, distance, returned⟩ | ⟨usable, -⟩
    · rw [returned]
      exact ⟨rfl, rfl⟩
    · exact absurd usable unusable

/-- Metrics of a tick are kept by every update at this tick. -/
theorem getElem?_updateSatelliteState {n : ℕ} {satName : String} {m : UeSatMetrics} {phy : Phy}
    (name : String) (cached : phy.channel.channelCache[satName]? = some ((n : ℚ), m)) :
    (updateSatelliteState rules env geo name n phy).2.channel.channelCache[satName]? =
      some ((n : ℚ), m) := by
  rcases @updateSatelliteState_cases env rules geo name n phy with same | ⟨-, miss, computed⟩
  · rw [same]
    exact cached
  · have other : name ≠ satName := by
      rintro rfl
      exact miss ⟨m, by rw [floor_tick, cached]⟩
    rw [computed, linkCompute_channelCache, Std.TreeMap.getElem?_insert, if_neg, cached]
    exact fun same => other (Std.LawfulEqCmp.eq_of_compare same)

theorem getElem?_updateAllSatellites {n : ℕ} {satName : String} {m : UeSatMetrics} {phy : Phy}
    (names : List String) (cached : phy.channel.channelCache[satName]? = some ((n : ℚ), m)) :
    (updateAllSatellites rules env geo n names phy).2.channel.channelCache[satName]? =
      some ((n : ℚ), m) := by
  induction names generalizing phy with
  | nil => exact cached
  | cons name names ih => exact ih (getElem?_updateSatelliteState name cached)

/-- A satellite that covers some time is in the dataset. -/
theorem mem_keys_of_covers {L : Link} {satName : String} {t : ℚ}
    (covered : covers (L.trajectory satName) t = true) : satName ∈ L.satellites.keys := by
  rw [Std.TreeMap.mem_keys, Std.TreeMap.mem_iff_isSome_getElem?]
  unfold Link.trajectory at covered
  split at covered
  · cases covered
  · rename_i found
    rw [found]
    rfl

/-- After step 1 of a tick the metrics of every usable satellite are those of this tick. -/
theorem measuredAt_updateAllSatellites {n : ℕ} {satName : String} {names : List String}
    (usable : Usable rules env.link geo satName n) (listed : satName ∈ names) (phy : Phy) :
    (updateAllSatellites rules env geo n names phy).2.MeasuredAt satName n := by
  induction names generalizing phy with
  | nil => cases listed
  | cons name names ih =>
      rcases List.mem_cons.mp listed with rfl | later
      · exact ⟨_, getElem?_updateAllSatellites names
          (getElem?_updateSatelliteState_self usable phy)⟩
      · exact ih later _

/-- Step 1 adds usable satellites alone to the cache. -/
theorem mem_updateAllSatellites {satName : String} {simTime : ℚ} {names : List String} {phy : Phy}
    (cached : satName ∈ (updateAllSatellites rules env geo simTime names phy).2.channel.channelCache) :
    satName ∈ phy.channel.channelCache ∨ Usable rules env.link geo satName simTime := by
  induction names generalizing phy with
  | nil => exact .inl cached
  | cons name names ih =>
      rw [updateAllSatellites_cons] at cached
      rcases ih cached with updated | usable
      · rcases @updateSatelliteState_cases env rules geo name simTime phy with
          same | ⟨usable, -, computed⟩
        · rw [same] at updated
          exact .inl updated
        · rcases mem_updateSatelliteState updated with rfl | old
          · exact .inr usable
          · exact .inl old
      · exact .inr usable

/-! ## The laws of a program -/

/-- What the procedure relies on in a program: the evaluation changes the physical layer by link
updates alone, and adds no satellite to the cache; the best neighbour is a measured cell other than
the serving one, no trigger fires without a neighbour, and a selected satellite is cached. -/
structure Program.Lawful (P : Program) : Prop where
  phy : ∀ env ueId simTime ue serving measurements,
    PhyReach P.phyRules env ue.geo ue.phy
      (P.evaluateNeighbors env ueId simTime ue serving measurements).phy
  names : ∀ env ueId simTime ue serving measurements name,
    name ∈ (P.evaluateNeighbors env ueId simTime ue serving measurements).phy.channel.channelCache →
      name ∈ ue.phy.channel.channelCache
  best : ∀ env ueId simTime ue serving measurements neighbor,
    (P.evaluateNeighbors env ueId simTime ue serving measurements).bestNeighbor = some neighbor →
      neighbor ∈ measurements ∧ neighbor.cellId ≠ ue.measState.servingCellId
  trigger : ∀ env ueId simTime ue serving measurements,
    (P.evaluateNeighbors env ueId simTime ue serving measurements).triggerConditionMet = true →
      (P.evaluateNeighbors env ueId simTime ue serving measurements).bestNeighbor.isSome = true
  selected : ∀ env simTime ue,
    P.selectBestSatellite env simTime ue "" = "" ∨
      P.selectBestSatellite env simTime ue "" ∈ ue.phy.channel.channelCache

/-- A satellite taken from an entry of the cache is cached. -/
theorem mem_channelCache_of_mem_toList {entry : String × ℚ × UeSatMetrics} {phy : Phy}
    (member : entry ∈ phy.channel.channelCache.toList) : entry.1 ∈ phy.channel.channelCache := by
  rcases entry with ⟨satName, value⟩
  have cached := Std.TreeMap.mem_toList_iff_getElem?_eq_some.mp member
  rw [Std.TreeMap.mem_iff_isSome_getElem?, cached]
  rfl

/-- A loop over the cache that keeps its choice or takes the current entry chooses a cached
satellite. -/
theorem selected_of_foldl {β : Type} (choice : β → String)
    (step : β → String × ℚ × UeSatMetrics → β) (start : β) (phy : Phy) (none : choice start = "")
    (keep : ∀ best entry,
      choice (step best entry) = choice best ∨ choice (step best entry) = entry.1) :
    choice (phy.channel.channelCache.toList.foldl step start) = "" ∨
      choice (phy.channel.channelCache.toList.foldl step start) ∈ phy.channel.channelCache := by
  refine List.foldlRecOn _ step
    (motive := fun best : β => choice best = "" ∨ choice best ∈ phy.channel.channelCache)
    (.inl none) ?_
  intro best known entry member
  rcases keep best entry with same | taken
  · rw [same]
    exact known
  · rw [taken]
    exact .inr (mem_channelCache_of_mem_toList member)

/-- A loop over the measured cells that keeps its best neighbour or takes the current cell, if it is a
candidate, finds a measured candidate. -/
theorem best_of_foldl {β : Type} (best : β → Option MeasResultCell)
    (step : β → MeasResultCell → β) (start : β) (candidate : MeasResultCell → Prop)
    (measurements : List MeasResultCell) (none : best start = none)
    (keep : ∀ scan meas, best (step scan meas) = best scan ∨
      (best (step scan meas) = some meas ∧ candidate meas))
    {neighbor : MeasResultCell} (found : best (measurements.foldl step start) = some neighbor) :
    neighbor ∈ measurements ∧ candidate neighbor := by
  revert neighbor
  refine List.foldlRecOn measurements step
    (motive := fun scan : β => ∀ {neighbor}, best scan = some neighbor →
      neighbor ∈ measurements ∧ candidate neighbor)
    (fun found => by rw [none] at found; cases found) ?_
  intro scan known meas member neighbor found
  rcases keep scan meas with same | ⟨taken, other⟩
  · rw [same] at found
    exact known found
  · rw [taken] at found
    obtain rfl := Option.some.inj found
    exact ⟨member, other⟩

namespace TdCho

theorem phyReach_getDistanceTrend (cellId : String) (currentTime : ℚ) (phy : Phy) :
    PhyReach phyRules env geo phy (getDistanceTrend env geo cellId currentTime phy).2 := by
  unfold getDistanceTrend
  split
  · exact .refl
  · split
    · exact .refl
    · exact .updateSatelliteState ..

/-- `GetDistanceTrend` adds no satellite to the cache. -/
theorem mem_of_getDistanceTrend {cellId satName : String} {currentTime : ℚ} {phy : Phy}
    (cached : satName ∈ (getDistanceTrend env geo cellId currentTime phy).2.channel.channelCache) :
    satName ∈ phy.channel.channelCache := by
  unfold getDistanceTrend at cached
  split at cached
  · exact cached
  · split at cached
    · exact cached
    · rename_i known
      rcases mem_updateSatelliteState cached with rfl | old
      · exact Std.TreeMap.mem_iff_isSome_getElem?.mpr (by rw [known]; rfl)
      · exact old

/-- A cell whose trend the loop over the measured cells computes. -/
def Candidate (servingCellId : String) (meas : MeasResultCell) : Prop :=
  meas.cellId ≠ servingCellId ∧ 3 ≤ meas.sinr

/-- `GetDistanceTrend` is called for the cell in an evaluation: for a candidate, or for the serving
cell when there is a candidate. -/
def TrendCalled (servingCellId : String) (measurements : List MeasResultCell) (cellId : String) :
    Prop :=
  ∃ meas ∈ measurements, Candidate servingCellId meas ∧
    (cellId = meas.cellId ∨ cellId = servingCellId)

theorem best_scanNeighbors {ueId : ℕ} {simTime : ℚ} {ue : UeInfo}
    {measurements : List MeasResultCell} {neighbor : MeasResultCell}
    (found : (scanNeighbors env ueId simTime ue measurements).bestNeighbor = some neighbor) :
    neighbor ∈ measurements ∧ Candidate ue.measState.servingCellId neighbor := by
  refine best_of_foldl NeighborScan.bestNeighbor _ _ _ measurements rfl ?_ found
  intro scan meas
  unfold scanNeighbor
  split
  · exact .inl rfl
  · rename_i other
    split
    · exact .inl rfl
    · rename_i strong
      exact (ite_eq_or_eq _ (some meas) scan.bestNeighbor).symm.imp_right
        (⟨·, other, not_lt.mp strong⟩)

/-- An evaluation changes the physical layer by calls of `GetDistanceTrend` alone: what these keep
holds after it. -/
theorem evaluateNeighbors_phy {ueId : ℕ} {simTime : ℚ} {ue : UeInfo} {serving : MeasResultCell}
    {measurements : List MeasResultCell} {I : Phy → Prop}
    (keep : ∀ {cellId phy}, TrendCalled ue.measState.servingCellId measurements cellId → I phy →
      I (getDistanceTrend env ue.geo cellId simTime phy).2) (init : I ue.phy) :
    I (evaluateNeighbors env ueId simTime ue serving measurements).phy := by
  have scanned : I (scanNeighbors env ueId simTime ue measurements).phy := by
    unfold scanNeighbors
    refine List.foldlRecOn measurements _ (motive := fun scan : NeighborScan => I scan.phy) init ?_
    intro scan kept meas member
    unfold scanNeighbor
    split_ifs with same weak
    · exact kept
    · exact kept
    · exact keep ⟨meas, member, ⟨same, not_lt.mp weak⟩, .inl rfl⟩ kept
  unfold evaluateNeighbors
  dsimp only
  split
  · rename_i neighbor best
    obtain ⟨member, candidate⟩ := best_scanNeighbors best
    exact keep ⟨neighbor, member, candidate, .inl rfl⟩
      (keep ⟨neighbor, member, candidate, .inr rfl⟩ scanned)
  · exact scanned

theorem selectBetter_cases {simTime : ℚ} (best : String × ℚ) (entry : String × ℚ × UeSatMetrics) :
    (selectBetter env simTime best entry).1 = best.1 ∨
      (selectBetter env simTime best entry).1 = entry.1 := by
  unfold selectBetter
  dsimp only
  split
  · exact .inl rfl
  · split
    · exact .inl rfl
    · split
      · exact .inr rfl
      · exact .inl rfl

theorem lawful : tdCho.Lawful where
  phy env ueId simTime ue serving measurements := by
    exact evaluateNeighbors_phy (I := fun phy => PhyReach phyRules env ue.geo ue.phy phy)
      (fun _ reach => reach.trans (phyReach_getDistanceTrend ..)) .refl
  names env ueId simTime ue serving measurements name cached := by
    refine evaluateNeighbors_phy (I := fun phy => name ∈ phy.channel.channelCache →
      name ∈ ue.phy.channel.channelCache) (fun {cellId phy} _ known cached => ?_) id cached
    exact known (mem_of_getDistanceTrend cached)
  best env ueId simTime ue serving measurements neighbor found := by
    simp only [tdCho, evaluateNeighbors] at found
    split at found
    · rename_i best scanned
      obtain rfl := Option.some.inj found
      exact (best_scanNeighbors scanned).imp_right And.left
    · cases found
  trigger env ueId simTime ue serving measurements met := by
    simp only [tdCho, evaluateNeighbors] at met ⊢
    split at met
    · rfl
    · cases met
  selected env simTime ue := by
    simp only [tdCho, selectBestSatellite]
    split
    · exact .inl rfl
    · exact selected_of_foldl Prod.fst _ _ ue.phy rfl fun best entry => selectBetter_cases best entry

end TdCho

namespace SnrCho

theorem best_scanNeighbors {ue : UeInfo} {measurements : List MeasResultCell}
    {neighbor : MeasResultCell}
    (found : (scanNeighbors ue measurements).bestNeighbor = some neighbor) :
    neighbor ∈ measurements ∧ neighbor.cellId ≠ ue.measState.servingCellId := by
  refine best_of_foldl NeighborScan.bestNeighbor _ _
    (fun meas => meas.cellId ≠ ue.measState.servingCellId) measurements rfl ?_ found
  intro scan meas
  unfold scanNeighbor
  split
  · exact .inl rfl
  · rename_i serving
    exact (ite_eq_or_eq _ (some meas) scan.bestNeighbor).symm.imp_right (⟨·, serving⟩)

theorem selectBetter_cases {simTime : ℚ} (best : String × ℚ) (entry : String × ℚ × UeSatMetrics) :
    (selectBetter env simTime best entry).1 = best.1 ∨
      (selectBetter env simTime best entry).1 = entry.1 := by
  unfold selectBetter
  dsimp only
  split
  · exact .inl rfl
  · split
    · exact .inl rfl
    · split
      · exact .inr rfl
      · exact .inl rfl

theorem lawful : snrCho.Lawful where
  phy env ueId simTime ue serving measurements := by
    simp only [snrCho, evaluateNeighbors]
    split <;> exact .refl
  names env ueId simTime ue serving measurements name cached := by
    simp only [snrCho, evaluateNeighbors] at cached
    split at cached <;> exact cached
  best env ueId simTime ue serving measurements neighbor found := by
    simp only [snrCho, evaluateNeighbors] at found
    split at found
    · cases found
    · rename_i best scanned
      obtain rfl := Option.some.inj found
      exact best_scanNeighbors scanned
  trigger env ueId simTime ue serving measurements met := by
    simp only [snrCho, evaluateNeighbors] at met ⊢
    split at met
    · cases met
    · rfl
  selected env simTime ue := by
    simp only [snrCho, selectBestSatellite]
    split
    · exact .inl rfl
    · exact selected_of_foldl Prod.fst _ _ ue.phy rfl fun best entry => selectBetter_cases best entry

end SnrCho

namespace Topsis

/-- The loop over the scores chooses a candidate. -/
theorem foldl_takeHigher_mem {candidates : List MeasResultCell}
    {scored : List (MeasResultCell × ℚ)} (measured : ∀ entry ∈ scored, entry.1 ∈ candidates)
    {best : MeasResultCell × ℚ} (member : best.1 ∈ candidates) :
    (scored.foldl takeHigher best).1 ∈ candidates := by
  refine List.foldlRecOn scored takeHigher
    (motive := fun best : MeasResultCell × ℚ => best.1 ∈ candidates) member ?_
  intro best known entry inside
  unfold takeHigher
  split
  · exact measured entry inside
  · exact known

theorem findBestTarget_mem {libm : Libm} {candidates : List MeasResultCell}
    {neighbor : MeasResultCell}
    (found : findBestTargetWithSD_TOPSIS libm candidates = some neighbor) :
    neighbor ∈ candidates := by
  unfold findBestTargetWithSD_TOPSIS at found
  split at found
  · cases found
  · obtain rfl := Option.some.inj found
    exact List.mem_singleton_self _
  · obtain rfl := Option.some.inj found
    refine foldl_takeHigher_mem (fun entry member => ?_) (List.mem_cons_self ..)
    exact (List.of_mem_zip member).1

theorem lawful : sdTopsisCho.Lawful where
  phy env ueId simTime ue serving measurements := .refl
  names env ueId simTime ue serving measurements name cached := cached
  best env ueId simTime ue serving measurements neighbor found := by
    have candidate := List.mem_filter.mp (findBestTarget_mem found)
    exact candidate.imp_right fun other => by simpa using other
  trigger env ueId simTime ue serving measurements met := by
    simp only [sdTopsisCho, evaluateNeighbors, SnrCho.ueEvaluateNtnTriggers, Bool.false_or] at met ⊢
    split at met
    · cases met
    · rename_i best
      rw [best]
      rfl
  selected env simTime ue := by
    simp only [sdTopsisCho, selectBestSatellite]
    split
    · exact .inl rfl
    · exact selected_of_foldl Prod.fst _ _ ue.phy rfl fun best entry =>
        SnrCho.selectBetter_cases best entry

end Topsis

namespace Distance

theorem best_scanNeighbors {ue : UeInfo} {measurements : List MeasResultCell}
    {neighbor : MeasResultCell}
    (found : (scanNeighbors ue measurements).bestNeighbor = some neighbor) :
    neighbor ∈ measurements ∧ neighbor.cellId ≠ ue.measState.servingCellId := by
  refine best_of_foldl NeighborScan.bestNeighbor _ _
    (fun meas => meas.cellId ≠ ue.measState.servingCellId) measurements rfl ?_ found
  intro scan meas
  unfold scanNeighbor
  split
  · exact .inl rfl
  · rename_i serving
    exact (ite_eq_or_eq _ (some meas) scan.bestNeighbor).symm.imp_right (⟨·, serving⟩)

theorem selectBetter_cases {simTime : ℚ} (best : String × ℚ) (entry : String × ℚ × UeSatMetrics) :
    (selectBetter env simTime best entry).1 = best.1 ∨
      (selectBetter env simTime best entry).1 = entry.1 := by
  unfold selectBetter
  dsimp only
  split
  · exact .inl rfl
  · split
    · exact .inr rfl
    · exact .inl rfl

theorem lawful : distanceCho.Lawful where
  phy env ueId simTime ue serving measurements := by
    simp only [distanceCho, evaluateNeighbors]
    split <;> exact .refl
  names env ueId simTime ue serving measurements name cached := by
    simp only [distanceCho, evaluateNeighbors] at cached
    split at cached <;> exact cached
  best env ueId simTime ue serving measurements neighbor found := by
    simp only [distanceCho, evaluateNeighbors] at found
    split at found
    · cases found
    · rename_i best scanned
      obtain rfl := Option.some.inj found
      exact best_scanNeighbors scanned
  trigger env ueId simTime ue serving measurements met := by
    simp only [distanceCho, evaluateNeighbors] at met ⊢
    split at met
    · cases met
    · rfl
  selected env simTime ue := by
    simp only [distanceCho, selectBestSatellite]
    split
    · exact .inl rfl
    · exact selected_of_foldl Prod.fst _ _ ue.phy rfl fun best entry => selectBetter_cases best entry

end Distance

namespace ServingTime

theorem best_scanNeighbors {simTime : ℚ} {ue : UeInfo} {measurements : List MeasResultCell}
    {neighbor : MeasResultCell}
    (found : (scanNeighbors env simTime ue measurements).bestNeighbor = some neighbor) :
    neighbor ∈ measurements ∧ neighbor.cellId ≠ ue.measState.servingCellId := by
  refine best_of_foldl NeighborScan.bestNeighbor _ _
    (fun meas => meas.cellId ≠ ue.measState.servingCellId) measurements rfl ?_ found
  intro scan meas
  unfold scanNeighbor
  split
  · exact .inl rfl
  · rename_i serving
    dsimp only
    split
    · exact .inr ⟨rfl, serving⟩
    · exact .inl rfl

theorem selectBetter_cases {simTime : ℚ} (best : Selection) (entry : String × ℚ × UeSatMetrics) :
    (selectBetter env simTime best entry).bestSat = best.bestSat ∨
      (selectBetter env simTime best entry).bestSat = entry.1 := by
  unfold selectBetter
  dsimp only
  split
  · exact .inl rfl
  · split
    · exact .inl rfl
    · split
      · exact .inl rfl
      · split
        · exact .inl rfl
        · split
          · exact .inr rfl
          · exact .inl rfl

theorem lawful : servingTimeCho.Lawful where
  phy env ueId simTime ue serving measurements := by
    simp only [servingTimeCho, evaluateNeighbors]
    split <;> exact .refl
  names env ueId simTime ue serving measurements name cached := by
    simp only [servingTimeCho, evaluateNeighbors] at cached
    split at cached <;> exact cached
  best env ueId simTime ue serving measurements neighbor found := by
    simp only [servingTimeCho, evaluateNeighbors] at found
    split at found
    · cases found
    · rename_i best scanned
      obtain rfl := Option.some.inj found
      exact best_scanNeighbors scanned
  trigger env ueId simTime ue serving measurements met := by
    simp only [servingTimeCho, evaluateNeighbors] at met ⊢
    split at met
    · cases met
    · rfl
  selected env simTime ue := by
    simp only [servingTimeCho, selectBestSatellite, ne_eq, not_true_eq_false, false_and, and_false,
      if_false]
    exact selected_of_foldl Selection.bestSat _ _ ue.phy rfl fun best entry =>
      selectBetter_cases best entry

end ServingTime

end NtnCho
