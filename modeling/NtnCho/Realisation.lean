import NtnCho.Isolation

/-!
# The channel realisation of a UE

Step 1 of a tick reads and writes the channel state of a UE (its random engine, its cache, its shadow
fading and lines of sight) and no handover parameter. So as long as nothing else touches the channel
state, this is after `n` ticks what `channelAt` says: a function of the dataset, the UE and the seed
alone. `stepOne_of_run` is the form in which two runs are compared.
-/

namespace NtnCho

open EventSystem

variable {P : Program} {env : Env} {rules : PhyRules} {geo : UeGeo}

/-! ## Step 1 on the channel state -/

/-- What an update returns, and the channel state it leaves. -/
def LinkUpdate.outcome (ch : ChannelState) : LinkUpdate → UeSatMetrics × ChannelState
  | .returned m => (m, ch)
  | .computed m ch' => (m, ch')

/-- Step 1 of a tick on the channel state of a UE. -/
def updateLinks (rules : PhyRules) (L : Link) (geo : UeGeo) (simTime : ℚ) :
    List String → ChannelState → List (String × UeSatMetrics) × ChannelState
  | [], ch => ([], ch)
  | satName :: rest, ch =>
      let (m, ch₁) := (linkUpdate rules L geo satName simTime ch).outcome ch
      let (ms, ch₂) := updateLinks rules L geo simTime rest ch₁
      ((satName, m) :: ms, ch₂)

theorem updateSatelliteState_channel (satName : String) (simTime : ℚ) (phy : Phy) :
    (updateSatelliteState rules env geo satName simTime phy).1 =
        ((linkUpdate rules env.link geo satName simTime phy.channel).outcome phy.channel).1 ∧
      (updateSatelliteState rules env geo satName simTime phy).2.channel =
        ((linkUpdate rules env.link geo satName simTime phy.channel).outcome phy.channel).2 := by
  unfold updateSatelliteState
  cases linkUpdate rules env.link geo satName simTime phy.channel <;> exact ⟨rfl, rfl⟩

/-- Step 1 of a tick acts on the channel state alone: the SNR history has no part in it. -/
theorem updateAllSatellites_channel (simTime : ℚ) (names : List String) (phy : Phy) :
    (updateAllSatellites rules env geo simTime names phy).1 =
        (updateLinks rules env.link geo simTime names phy.channel).1 ∧
      (updateAllSatellites rules env geo simTime names phy).2.channel =
        (updateLinks rules env.link geo simTime names phy.channel).2 := by
  induction names generalizing phy with
  | nil => exact ⟨rfl, rfl⟩
  | cons name names ih =>
      obtain ⟨metrics, channel⟩ := @updateSatelliteState_channel env rules geo name simTime phy
      obtain ⟨all, left⟩ := ih (updateSatelliteState rules env geo name simTime phy).2
      rw [channel] at all left
      refine ⟨?_, left⟩
      simp only [updateAllSatellites, updateLinks]
      rw [all, metrics]

/-- The channel state before tick `n`, when nothing but step 1 of the ticks touches it. -/
def channelAt (rules : PhyRules) (L : Link) (geo : UeGeo) (start : ChannelState) : ℕ → ChannelState
  | 0 => start
  | n + 1 => (updateLinks rules L geo n L.satellites.keys (channelAt rules L geo start n)).2

/-! ## Along a run -/

/-- At the tick `g` nothing but step 1 touches the channel state of UE `i`. -/
def KeepsChannel (P : Program) (env : Env) (i : ℕ) (g : Firing ℤ (Option UeInfo) Event) : Prop :=
  ∀ ue ∈ g.before.state, (ueTick P env i (fireTime g) ue).1.phy.channel =
    (ue.updated P env (fireTime g)).phy.channel

/-- The UE is the one of `row`, with the channel state before tick `n`. -/
structure Realised (P : Program) (env : Env) (i : ℕ) (row : UeRow) (n : ℕ) (ue : UeInfo) : Prop where
  geo : ue.geo = (initialUe env i row).geo
  channel : ue.phy.channel = channelAt P.phyRules env.link (initialUe env i row).geo
    (initialUe env i row).phy.channel n

/-- Step 1 of a tick takes the realised channel one tick further. -/
theorem Realised.updated {i : ℕ} {row : UeRow} {n : ℕ} {ue : UeInfo}
    (realised : Realised P env i row n ue) :
    (ue.updated P env n).phy.channel = channelAt P.phyRules env.link (initialUe env i row).geo
      (initialUe env i row).phy.channel (n + 1) := by
  rw [UeInfo.updated_phy, (updateAllSatellites_channel _ _ _).2, realised.geo, realised.channel]
  rfl

/-- **The run lemma**: as long as the ticks keep the channel, it is the realised one. -/
theorem realised_of_run (lawful : P.Lawful) {ok : Policy ℤ Event} {i : ℕ} {rows : List UeRow}
    {h : List (Firing ℤ (Option UeInfo) Event)} {c : Conf ℤ (Option UeInfo) Event} {ue : UeInfo}
    (run : Run (ueHandler P env i) ok (ueInitial env rows i) h c) (present : c.state = some ue)
    (kept : ∀ g ∈ ticks h, KeepsChannel P env i g) :
    ∃ row, rows[i]? = some row ∧ Realised P env i row (ticks h).length ue := by
  refine ueRun_history (I := fun h _ ue => (∀ g ∈ ticks h, KeepsChannel P env i g) →
    ∃ row, rows[i]? = some row ∧ Realised P env i row (ticks h).length ue) run
    (fun atRow _ => ⟨_, atRow, rfl, rfl⟩) ?_ present kept
  intro h c p c' ue prior step present concerns ih kept
  obtain ⟨row, atRow, realised⟩ := ih fun g member => kept g (by
    rw [ticks_append]
    exact List.mem_append_left _ member)
  refine ⟨row, atRow, ?_⟩
  have geo : (ueAction P env i p.ev p.ts ue).1.geo = ue.geo :=
    (linkStep_ueAction lawful i p.ev p.ts ue).geo
  refine ⟨geo.trans realised.geo, ?_⟩
  rcases p with ⟨ts, _ | ⟨handler, ueId, sourceCell, targetCell⟩ | _⟩
  · have second := congrArg Pending.ts (eq_tickNumber prior step.mem_queue rfl)
    have keeps := kept ⟨c, ⟨ts, .checkHandoverConditions⟩, c'⟩ (mem_ticks.mpr ⟨by simp, rfl⟩) ue
      present
    have time : fireTime ⟨c, ⟨ts, .checkHandoverConditions⟩, c'⟩ = (ticks h).length := by
      rw [← getSeconds_tickNumber, ← second]
      rfl
    rw [time] at keeps
    rw [ticks_snoc rfl, List.length_append, List.length_singleton, ← realised.updated, ← keeps, ← time]
    rfl
  · rw [ticks_snoc_of_ne (by simp), ← realised.channel, ueAction_cho,
      (sameLink_choHandler P env handler i sourceCell targetCell (getSeconds ts) ue).phy]
  · cases concerns

/-! ## Comparing runs -/

/-- What step 1 of a tick computes for the UE: the metrics of every satellite. -/
def stepOne (P : Program) (env : Env) (simTime : ℚ) (ue : UeInfo) : List (String × UeSatMetrics) :=
  (updateAllSatellites P.phyRules env ue.geo simTime env.link.satellites.keys ue.phy).1

/-- What step 1 computes at tick `n`, when the ticks keep the channel. -/
def stepOneAt (rules : PhyRules) (L : Link) (geo : UeGeo) (start : ChannelState) (n : ℕ) :
    List (String × UeSatMetrics) :=
  (updateLinks rules L geo n L.satellites.keys (channelAt rules L geo start n)).1

/-- Before tick `n` of a run that keeps the channel the UE is the realised one. -/
theorem realised_of_tick (lawful : P.Lawful) {ok : Policy ℤ Event} {i : ℕ} {rows : List UeRow}
    {h : List (Firing ℤ (Option UeInfo) Event)} {c : Conf ℤ (Option UeInfo) Event} {ue : UeInfo}
    {f : Firing ℤ (Option UeInfo) Event}
    (run : Run (ueHandler P env i) ok (ueInitial env rows i) h c)
    (kept : ∀ g ∈ ticks h, KeepsChannel P env i g) (ticking : f ∈ ticks h)
    (present : f.before.state = some ue) :
    ∃ n : ℕ, fireTime f = n ∧ ∃ row, rows[i]? = some row ∧ Realised P env i row n ue := by
  obtain ⟨member, tick⟩ := mem_ticks.mp ticking
  obtain ⟨h₁, h₂, rfl⟩ := List.append_of_mem member
  obtain ⟨prior, step⟩ := run.split
  obtain ⟨row, atRow, realised⟩ := realised_of_run lawful prior present fun g earlier => kept g (by
    rw [ticks_append]
    exact List.mem_append_left _ earlier)
  have time : fireTime f = (ticks h₁).length := by
    rw [fireTime, eq_tickNumber prior step.mem_queue tick, getSeconds_tickNumber]
  exact ⟨(ticks h₁).length, time, row, atRow, realised⟩

/-- Step 1 on a realised UE computes what the dataset, the UE and the seed determine. -/
theorem Realised.stepOne {i : ℕ} {row : UeRow} {n : ℕ} {ue : UeInfo}
    (realised : Realised P env i row n ue) :
    stepOne P env n ue = stepOneAt P.phyRules env.link (initialUe env i row).geo
      (initialUe env i row).phy.channel n := by
  rw [NtnCho.stepOne, (updateAllSatellites_channel _ _ _).1, realised.geo, realised.channel]
  rfl

/-- At every tick of a run that keeps the channel step 1 computes what the dataset, the UE and the seed
determine. -/
theorem stepOne_of_run (lawful : P.Lawful) {ok : Policy ℤ Event} {i : ℕ} {rows : List UeRow}
    {h : List (Firing ℤ (Option UeInfo) Event)} {c : Conf ℤ (Option UeInfo) Event} {ue : UeInfo}
    {f : Firing ℤ (Option UeInfo) Event}
    (run : Run (ueHandler P env i) ok (ueInitial env rows i) h c)
    (kept : ∀ g ∈ ticks h, KeepsChannel P env i g) (ticking : f ∈ ticks h)
    (present : f.before.state = some ue) :
    ∃ n : ℕ, fireTime f = n ∧ ∃ row, rows[i]? = some row ∧
      stepOne P env (fireTime f) ue = stepOneAt P.phyRules env.link (initialUe env i row).geo
        (initialUe env i row).phy.channel n := by
  obtain ⟨n, time, row, atRow, realised⟩ := realised_of_tick lawful run kept ticking present
  refine ⟨n, time, row, atRow, ?_⟩
  rw [time]
  exact realised.stepOne

end NtnCho
