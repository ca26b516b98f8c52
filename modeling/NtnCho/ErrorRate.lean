import NtnCho.Isolation
import NtnCho.Pipeline

/-!
# The error rate of a UE and its link

Step 1 of a tick yields an SNR for every satellite, and `UpdateChannelState` sets the error rate from
the cache entry of the serving satellite. The two agree for a usable satellite. For an unusable one
step 1 yields no signal and leaves an old entry, from which the rate is set; and a UE without a serving
satellite keeps the rate it had. So the rate follows the link exactly if the serving satellite is
usable, or an interruption is active, or what is left over happens to be the rate of no signal:
`error_rate_iff`.
-/

namespace NtnCho

open EventSystem

variable {P : Program} {env : Env} {rules : PhyRules} {geo : UeGeo}

/-! ## What step 1 yields -/

/-- Step 1 returns for a usable satellite the metrics that it leaves in the cache. -/
theorem lookup_of_usable {n : ℕ} {satName : String} {names : List String}
    (usable : Usable rules env.link geo satName n) (listed : satName ∈ names) (phy : Phy) :
    ∃ m, (updateAllSatellites rules env geo n names phy).1.lookup satName = some m ∧
      (updateAllSatellites rules env geo n names phy).2.channel.channelCache[satName]? =
        some ((n : ℚ), m) := by
  induction names generalizing phy with
  | nil => cases listed
  | cons name names ih =>
      by_cases same : satName = name
      case pos =>
        subst same
        exact ⟨(updateSatelliteState rules env geo satName n phy).1, List.lookup_cons_self,
          getElem?_updateAllSatellites names (getElem?_updateSatelliteState_self usable phy)⟩
      case neg =>
        obtain ⟨m, found, cached⟩ := ih ((List.mem_cons.mp listed).resolve_left same)
          (updateSatelliteState rules env geo name n phy).2
        have other : (satName == name) = false := by simpa using same
        exact ⟨m, by simpa only [updateAllSatellites, List.lookup_cons, other] using found, cached⟩

/-- Step 1 returns no signal for an unusable satellite. -/
theorem lookup_of_not_usable {n : ℕ} {satName : String} {names : List String} {phy : Phy}
    {m : UeSatMetrics} (good : phy.Good rules env.link geo)
    (unusable : ¬ Usable rules env.link geo satName n)
    (found : (updateAllSatellites rules env geo n names phy).1.lookup satName = some m) :
    m.snrDb = -999 := by
  induction names generalizing phy with
  | nil => cases found
  | cons name names ih =>
      by_cases same : satName = name
      case pos =>
        subst same
        rw [updateAllSatellites, List.lookup_cons_self] at found
        rw [← Option.some.inj found]
        exact (updateSatelliteState_of_not_usable good unusable).1
      case neg =>
        have other : (satName == name) = false := by simpa using same
        simp only [updateAllSatellites, List.lookup_cons, other] at found
        exact ih (@Phy.good_updateSatelliteState env rules geo name n phy good) found

/-- The SNR that step 1 of a tick yields for the satellite that serves the UE after the initial
selection: -999 dB if there is none. -/
def UeInfo.servingSnr (P : Program) (env : Env) (simTime : ℚ) (ue : UeInfo) : ℚ :=
  let servingGnb := (ue.updated P env simTime).context.servingGnb
  if servingGnb = "" then -999
  else
    (((updateAllSatellites P.phyRules env ue.geo simTime env.link.satellites.keys ue.phy).1.lookup
      servingGnb).map UeSatMetrics.snrDb).getD (-999)

/-- The error rate of an SNR, or 1 if an interruption is active. -/
def UeInfo.rateOf (env : Env) (ue : UeInfo) (snrDb : ℚ) : ℚ :=
  if ue.hoState.interruptionActive then 1 else packetErrorRate env.link snrDb

/-- The error rate on both links of the UE is `rate`. -/
structure UeInfo.HasErrorRate (ue : UeInfo) (rate : ℚ) : Prop where
  uplink : ue.ulErrorModel.errorRate = rate
  downlink : ue.dlErrorModel.errorRate = rate

/-- After `UpdateChannelState` the error rate of the UE is that of the SNR that step 1 yielded for its
serving satellite. -/
def RateFollowsLink (P : Program) (env : Env) (simTime : ℚ) (ue : UeInfo) : Prop :=
  (ue.updated P env simTime).HasErrorRate (ue.rateOf env (ue.servingSnr P env simTime))

/-- After the initial selection the UE has a serving satellite, and this can be used, or an interruption
is active. -/
structure LinkInUse (P : Program) (env : Env) (simTime : ℚ) (ue : UeInfo) : Prop where
  serving : (ue.updated P env simTime).context.servingGnb ≠ ""
  usable : ue.hoState.interruptionActive = true ∨
    Usable P.phyRules env.link ue.geo (ue.updated P env simTime).context.servingGnb simTime

/-- The rate that is left over on a UE whose link is not in use is that of no signal: the rate it had,
if it has no serving satellite, and the rate of an old cache entry otherwise. -/
def LeftOver (P : Program) (env : Env) (simTime : ℚ) (ue : UeInfo) : Prop :=
  let servingGnb := (ue.updated P env simTime).context.servingGnb
  if servingGnb = "" then ue.HasErrorRate (ue.rateOf env (-999))
  else ue.rateOf env (getCachedSnr ue servingGnb) = ue.rateOf env (-999)

/-! ## What the channel update writes -/

/-- The channel update of a UE without a serving satellite leaves its error rates. -/
theorem updated_errorModels_of_unserved {simTime : ℚ} {ue : UeInfo}
    (unserved : (ue.updated P env simTime).context.servingGnb = "") :
    (ue.updated P env simTime).ulErrorModel = ue.ulErrorModel ∧
      (ue.updated P env simTime).dlErrorModel = ue.dlErrorModel := by
  unfold UeInfo.updated updateChannelState at unserved ⊢
  rw [UeInfo.setChannel_context] at unserved
  rw [UeInfo.setChannel, if_pos unserved]
  unfold UeInfo.selectServing
  dsimp only
  split
  · split <;> exact ⟨rfl, rfl⟩
  · exact ⟨rfl, rfl⟩

theorem setChannel_hasErrorRate {rate : ℚ} {ue : UeInfo} {m : UeSatMetrics}
    (served : ue.context.servingGnb ≠ "") (cached : ue.cached ue.context.servingGnb = some m) :
    (ue.setChannel env).HasErrorRate rate ↔ ue.rateOf env m.snrDb = rate := by
  unfold UeInfo.setChannel
  rw [if_neg served, cached]
  exact ⟨fun has => has.uplink, fun same => ⟨same, same⟩⟩

/-- The channel update of a served UE sets its error rates from the cache entry of the serving
satellite. -/
theorem updated_hasErrorRate {simTime rate : ℚ} {ue : UeInfo} {m : UeSatMetrics}
    (served : (ue.updated P env simTime).context.servingGnb ≠ "")
    (cached : (ue.updated P env simTime).cached (ue.updated P env simTime).context.servingGnb = some m) :
    (ue.updated P env simTime).HasErrorRate rate ↔ ue.rateOf env m.snrDb = rate := by
  have interruption : ((updateChannelCache P env simTime ue).selectServing P env simTime).hoState =
      ue.hoState := by
    unfold UeInfo.selectServing
    dsimp only
    split
    · split <;> rfl
    · rfl
  have context := @UeInfo.setChannel_context env
    ((updateChannelCache P env simTime ue).selectServing P env simTime)
  have phy := (@sameLink_setChannel env
    ((updateChannelCache P env simTime ue).selectServing P env simTime)).phy
  unfold UeInfo.updated updateChannelState at served cached ⊢
  rw [context] at served cached
  unfold UeInfo.cached at cached
  rw [phy] at cached
  rw [setChannel_hasErrorRate served cached]
  unfold UeInfo.rateOf
  rw [interruption]

/-- Step 1 leaves the entry of an unusable satellite as it is. -/
theorem getElem?_updateAllSatellites_of_not_usable {satName : String} {simTime : ℚ}
    {names : List String} {phy : Phy} (unusable : ¬ Usable rules env.link geo satName simTime) :
    (updateAllSatellites rules env geo simTime names phy).2.channel.channelCache[satName]? =
      phy.channel.channelCache[satName]? := by
  induction names generalizing phy with
  | nil => rfl
  | cons name names ih =>
      rw [updateAllSatellites_cons, ih]
      rcases @updateSatelliteState_cases env rules geo name simTime phy with
        same | ⟨usable, -, computed⟩
      · rw [same]
      · rw [computed, linkCompute_channelCache, Std.TreeMap.getElem?_insert, if_neg]
        intro same
        obtain rfl := Std.LawfulEqCmp.eq_of_compare same
        exact unusable usable

/-! ## The law of the error rate -/

/-- At a tick the error rate follows the link exactly if the link is in use, or what is left over is
the rate of no signal. -/
theorem rateFollowsLink_iff (lawful : P.Lawful) {n : ℕ} {ue : UeInfo} (link : LinkInvariant P env ue) :
    RateFollowsLink P env n ue ↔ LinkInUse P env n ue ∨ LeftOver P env n ue := by
  unfold RateFollowsLink LeftOver UeInfo.servingSnr
  dsimp only
  by_cases unserved : (ue.updated P env n).context.servingGnb = ""
  case pos =>
    obtain ⟨uplink, downlink⟩ := updated_errorModels_of_unserved unserved
    have idle : ¬ LinkInUse P env n ue := fun used => used.serving unserved
    rw [if_pos unserved, if_pos unserved, or_iff_right idle]
    constructor
    · intro has
      exact ⟨by rw [← uplink, has.uplink], by rw [← downlink, has.downlink]⟩
    · intro has
      exact ⟨by rw [uplink, has.uplink], by rw [downlink, has.downlink]⟩
  case neg =>
    have served := (@LinkInvariant.updated P env lawful n ue link).served.resolve_left unserved
    obtain ⟨m, cached⟩ := Option.isSome_iff_exists.mp (UeInfo.cached_isSome.mpr served)
    rw [if_neg unserved, if_neg unserved, updated_hasErrorRate unserved cached]
    by_cases interrupted : ue.hoState.interruptionActive = true
    case pos =>
      refine iff_of_true ?_ (.inl ⟨unserved, .inl interrupted⟩)
      rw [UeInfo.rateOf, UeInfo.rateOf, if_pos interrupted, if_pos interrupted]
    case neg =>
      have entry := cached
      unfold UeInfo.cached at entry
      rw [UeInfo.updated_phy] at entry
      by_cases usable : Usable P.phyRules env.link ue.geo (ue.updated P env n).context.servingGnb n
      case pos =>
        obtain ⟨m', found, renewed⟩ :=
          lookup_of_usable usable (mem_keys_of_covers usable.covers) ue.phy
        refine iff_of_true ?_ (.inl ⟨unserved, .inr usable⟩)
        rw [renewed] at entry
        rw [found, ← Option.some.inj entry]
        rfl
      case neg =>
        have idle : ¬ LinkInUse P env n ue := fun used =>
          used.usable.elim interrupted usable
        rw [getElem?_updateAllSatellites_of_not_usable usable] at entry
        rw [or_iff_right idle]
        have old : getCachedSnr ue (ue.updated P env n).context.servingGnb = m.snrDb := by
          unfold getCachedSnr UeInfo.cached
          rw [entry]
          rfl
        rw [old]
        cases found : (updateAllSatellites P.phyRules env ue.geo n env.link.satellites.keys
            ue.phy).1.lookup (ue.updated P env n).context.servingGnb with
        | none => rfl
        | some m' =>
            rw [Option.map_some, Option.getD_some, lookup_of_not_usable link.good usable found]

/-- **The error rate follows the link.** At every tick of a run of serving-time CHO the error rate of a UE
is that of its link when the link is in use; otherwise exactly if what is left over is the rate of no
signal. -/
theorem error_rate_iff {rows : List UeRow} {h : List (Firing ℤ Sim Event)} {c : Conf ℤ Sim Event}
    (run : AnyOrderRun servingTimeCho env rows h c) (i : ℕ) :
    ∀ f ∈ ticks (ueHistory servingTimeCho env i h), ∀ ue, f.before.state = some ue →
      (LinkInUse servingTimeCho env (fireTime f) ue → RateFollowsLink servingTimeCho env (fireTime f) ue) ∧
        (RateFollowsLink servingTimeCho env (fireTime f) ue ↔
          LinkInUse servingTimeCho env (fireTime f) ue ∨
            LeftOver servingTimeCho env (fireTime f) ue) := by
  intro f ticking ue present
  have own := run.toUe i
  obtain ⟨n, second⟩ := fireTime_eq_natCast own ticking
  obtain ⟨h₁, h₂, split⟩ := List.append_of_mem (mem_ticks.mp ticking).1
  rw [show (ueComponent servingTimeCho env i).history h = _ from split] at own
  rw [second]
  have follows : RateFollowsLink servingTimeCho env n ue ↔
      LinkInUse servingTimeCho env n ue ∨ LeftOver servingTimeCho env n ue :=
    rateFollowsLink_iff ServingTime.lawful (linkInvariant_of_run ServingTime.lawful own.split.1 present)
  exact ⟨fun used => follows.mpr (.inl used), follows⟩

theorem error_rate_iff_crossing :
    ∃ f ∈ ticks (ueHistory servingTimeCho crossing 0 (sampleRun servingTimeCho crossing sampleRows 1).1),
      ∃ ue, f.before.state = some ue ∧ RateFollowsLink servingTimeCho crossing (fireTime f) ue := by
  have seen : (ticks (ueHistory servingTimeCho crossing 0
      (sampleRun servingTimeCho crossing sampleRows 1).1)).getLast?.bind (fun f =>
        f.before.state.map fun ue =>
          let serving := (ue.updated servingTimeCho crossing (fireTime f)).context.servingGnb
          (serving, covers (crossing.link.trajectory serving) (fireTime f),
            ServingTime.phyRules.inPass (crossing.link.trajectory serving) (fireTime f),
            decide (1 ≤ slantRange crossing.link ue.geo (crossing.link.trajectory serving)
              (fireTime f)))) =
      some ("S", true, true, true) := by decide +kernel
  obtain ⟨f, last, seen⟩ := Option.bind_eq_some_iff.mp seen
  obtain ⟨ue, present, seen⟩ := Option.map_eq_some_iff.mp seen
  simp only [Prod.mk.injEq, decide_eq_true_eq] at seen
  obtain ⟨serving, covered, inPass, distance⟩ := seen
  have member := List.mem_of_getLast? last
  refine ⟨f, member, ue, present, ?_⟩
  refine (error_rate_iff (simRun_sampleRun servingTimeCho crossing sampleRows 1).anyOrder 0 f member
    ue present).1 ⟨by rw [serving]; decide, .inr ⟨covered, inPass, distance⟩⟩

/-- No satellite is in coverage before second 10. -/
def awaiting : Env where
  link := sampleLink [overhead "S" [(10, 500000), (60, 500000)]]
  ho := {}

/-- At the first tick of `awaiting` the UE has no satellite, and an error rate of 0. -/
theorem error_rate_awaiting :
    ¬ ∀ {env : Env} {rows : List UeRow} {h : List (Firing ℤ Sim Event)} {c : Conf ℤ Sim Event},
      SimRun servingTimeCho env rows h c →
        ∀ i, ∀ f ∈ ticks (ueHistory servingTimeCho env i h), ∀ ue, f.before.state = some ue →
          RateFollowsLink servingTimeCho env (fireTime f) ue := by
  intro always
  have seen : (ticks (ueHistory servingTimeCho awaiting 0
      (sampleRun servingTimeCho awaiting sampleRows 1).1)).getLast?.bind (fun f =>
        f.before.state.map fun ue =>
          ((ue.updated servingTimeCho awaiting (fireTime f)).ulErrorModel.errorRate,
            ue.rateOf awaiting (ue.servingSnr servingTimeCho awaiting (fireTime f)))) =
      some (0, 1) := by decide +kernel
  obtain ⟨f, last, seen⟩ := Option.bind_eq_some_iff.mp seen
  obtain ⟨ue, present, seen⟩ := Option.map_eq_some_iff.mp seen
  simp only [Prod.mk.injEq] at seen
  obtain ⟨rate, expected⟩ := seen
  have follows := (always (simRun_sampleRun servingTimeCho awaiting sampleRows 1) 0 f
    (List.mem_of_getLast? last) ue present).uplink
  rw [rate, expected] at follows
  norm_num at follows

end NtnCho
