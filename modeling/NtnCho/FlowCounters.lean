import Mathlib.Algebra.Order.BigOperators.Group.Finset
import Mathlib.Data.Fintype.BigOperators
import NtnCho.FlowMonitor

/-!
# The counters of the monitor

The monitor counts packets in 32 bits. Each call adds at most one to the packets that all flows together
have sent, and so for those received, lost and forwarded, if the packets that are still tracked are counted
among them (`Within`). So no counter of packets exceeds the number of calls, and none overflows before
`2 ^ 32` of them (`within_of_run`).
-/

namespace NtnCho

open Frames

namespace FlowMonitor

variable {n : ℕ} {A : Attributes} {m : FlowMonitor n}

theorem FlowStats.counts_receive (A : Attributes) (delay now : ℤ) (packetSize timesForwarded : ℕ)
    (stats : FlowStats) :
    ((stats.delayed delay).arrived A now packetSize timesForwarded).txPackets = stats.txPackets ∧
      ((stats.delayed delay).arrived A now packetSize timesForwarded).rxPackets = stats.rxPackets + 1 ∧
      ((stats.delayed delay).arrived A now packetSize timesForwarded).lostPackets = stats.lostPackets ∧
      ((stats.delayed delay).arrived A now packetSize timesForwarded).toDropCounters =
        stats.toDropCounters ∧
      ((stats.delayed delay).arrived A now packetSize timesForwarded).txBytes = stats.txBytes ∧
      ((stats.delayed delay).arrived A now packetSize timesForwarded).rxBytes =
        stats.rxBytes + packetSize ∧
      ((stats.delayed delay).arrived A now packetSize timesForwarded).delaySum =
        stats.delaySum + delay := by
  have counts : ∀ s : FlowStats, (s.arrived A now packetSize timesForwarded).txPackets = s.txPackets ∧
      (s.arrived A now packetSize timesForwarded).rxPackets = s.rxPackets + 1 ∧
      (s.arrived A now packetSize timesForwarded).lostPackets = s.lostPackets ∧
      (s.arrived A now packetSize timesForwarded).toDropCounters = s.toDropCounters ∧
      (s.arrived A now packetSize timesForwarded).txBytes = s.txBytes ∧
      (s.arrived A now packetSize timesForwarded).rxBytes = s.rxBytes + packetSize ∧
      (s.arrived A now packetSize timesForwarded).delaySum = s.delaySum := by
    intro s
    unfold FlowStats.arrived
    dsimp only
    split
    · exact ⟨rfl, rfl, rfl, rfl, rfl, rfl, rfl⟩
    · split <;> exact ⟨rfl, rfl, rfl, rfl, rfl, rfl, rfl⟩
  have same : (stats.delayed delay).txPackets = stats.txPackets ∧
      (stats.delayed delay).rxPackets = stats.rxPackets ∧
      (stats.delayed delay).lostPackets = stats.lostPackets ∧
      (stats.delayed delay).toDropCounters = stats.toDropCounters ∧
      (stats.delayed delay).txBytes = stats.txBytes ∧
      (stats.delayed delay).rxBytes = stats.rxBytes ∧
      (stats.delayed delay).delaySum = stats.delaySum + delay := by
    unfold FlowStats.delayed
    dsimp only
    split
    · split <;> exact ⟨rfl, rfl, rfl, rfl, rfl, rfl, rfl⟩
    · exact ⟨rfl, rfl, rfl, rfl, rfl, rfl, rfl⟩
  obtain ⟨tx, rx, lost, drops, txBytes, rxBytes, delays⟩ := counts (stats.delayed delay)
  obtain ⟨tx', rx', lost', drops', txBytes', rxBytes', delays'⟩ := same
  rw [tx, rx, lost, drops, txBytes, rxBytes, delays, tx', rx', lost', drops', txBytes', rxBytes', delays']
  exact ⟨rfl, rfl, rfl, rfl, rfl, rfl, rfl⟩

theorem FlowStats.timesForwarded_receive (A : Attributes) (delay now : ℤ) (packetSize timesForwarded : ℕ)
    (stats : FlowStats) :
    ((stats.delayed delay).arrived A now packetSize timesForwarded).timesForwarded =
      stats.timesForwarded + timesForwarded := by
  have same : (stats.delayed delay).timesForwarded = stats.timesForwarded := by
    unfold FlowStats.delayed
    dsimp only
    split
    · split <;> rfl
    · rfl
  rw [← same]
  unfold FlowStats.arrived
  dsimp only
  split
  · rfl
  · split <;> rfl

/-! ## Sums over the flows -/

/-- A counter, summed over all flows. -/
def total (counter : FlowStats → ℕ) (flowStats : List (ℕ × FlowStats)) : ℕ :=
  (flowStats.map fun kv => counter kv.2).sum

/-- How often the packets that are tracked have been forwarded. -/
def hops (m : FlowMonitor n) : ℕ := (m.trackedPackets.map fun tracked => tracked.2.timesForwarded).sum

theorem counter_getStatsForFlow {counter : FlowStats → ℕ} (fresh : counter A.newStats = 0) (flowId : ℕ) :
    counter (m.getStatsForFlow A flowId) = ((m.flowStats.lookup flowId).map counter).getD 0 := by
  unfold getStatsForFlow
  cases m.flowStats.lookup flowId with
  | none => exact fresh
  | some stats => rfl

theorem counter_le_total {counter : FlowStats → ℕ} (fresh : counter A.newStats = 0) (flowId : ℕ) :
    counter (m.getStatsForFlow A flowId) ≤ total counter m.flowStats := by
  have sum := sum_setKey counter flowId A.newStats m.flowStats
  rw [fresh, ← counter_getStatsForFlow fresh] at sum
  exact (Nat.le_add_left _ _).trans sum.le

theorem total_updateStats {counter : FlowStats → ℕ} (fresh : counter A.newStats = 0) (flowId : ℕ)
    {update : FlowStats → FlowStats} {k : ℕ} (adds : ∀ stats, counter (update stats) = counter stats + k) :
    total counter (m.updateStats A flowId update).flowStats = total counter m.flowStats + k := by
  have sum := sum_setKey counter flowId (update (m.getStatsForFlow A flowId)) m.flowStats
  rw [← counter_getStatsForFlow fresh, adds] at sum
  unfold total updateStats
  dsimp only
  omega

/-- What a change of the statistics adds to the counters of packets. -/
structure Adds (update : FlowStats → FlowStats) (tx rx lost forwarded : ℕ) : Prop where
  txPackets : ∀ stats, (update stats).txPackets = stats.txPackets + tx
  rxPackets : ∀ stats, (update stats).rxPackets = stats.rxPackets + rx
  lostPackets : ∀ stats, (update stats).lostPackets = stats.lostPackets + lost
  timesForwarded : ∀ stats, (update stats).timesForwarded = stats.timesForwarded + forwarded

namespace Adds

theorem firstTx (now : ℤ) (packetSize : ℕ) : Adds (FlowStats.firstTx now packetSize) 1 0 0 0 :=
  ⟨fun _ => rfl, fun _ => rfl, fun _ => rfl, fun _ => rfl⟩

theorem receive (A : Attributes) (delay now : ℤ) (packetSize timesForwarded : ℕ) :
    Adds (fun stats => (stats.delayed delay).arrived A now packetSize timesForwarded) 0 1 0
      timesForwarded where
  txPackets stats := (stats.counts_receive A delay now packetSize timesForwarded).1
  rxPackets stats := (stats.counts_receive A delay now packetSize timesForwarded).2.1
  lostPackets stats := (stats.counts_receive A delay now packetSize timesForwarded).2.2.1
  timesForwarded stats := stats.timesForwarded_receive A delay now packetSize timesForwarded

theorem drop (packetSize reasonCode : ℕ) : Adds (FlowStats.drop packetSize reasonCode) 0 0 1 0 :=
  ⟨fun _ => rfl, fun _ => rfl, fun _ => rfl, fun _ => rfl⟩

variable {update : FlowStats → FlowStats} {tx rx lost forwarded : ℕ}

theorem totals (adds : Adds update tx rx lost forwarded) (A : Attributes) (m : FlowMonitor n) (flowId : ℕ) :
    let flowStats := (m.updateStats A flowId update).flowStats
    total FlowStats.txPackets flowStats = total FlowStats.txPackets m.flowStats + tx ∧
      total FlowStats.rxPackets flowStats =
        total FlowStats.rxPackets m.flowStats + rx ∧
      total FlowStats.lostPackets flowStats =
        total FlowStats.lostPackets m.flowStats + lost ∧
      total FlowStats.timesForwarded flowStats =
        total FlowStats.timesForwarded m.flowStats + forwarded :=
  ⟨total_updateStats rfl flowId adds.txPackets, total_updateStats rfl flowId adds.rxPackets,
    total_updateStats rfl flowId adds.lostPackets, total_updateStats rfl flowId adds.timesForwarded⟩

end Adds

/-- A packet that is counted as lost adds to the lost packets alone. -/
theorem total_countLost {counter : FlowStats → ℕ} {k : ℕ}
    (adds : ∀ stats : FlowStats, counter { stats with lostPackets := stats.lostPackets + 1 } = counter stats + k)
    (tracked : (ℕ × ℕ) × TrackedPacket) (flowStats : List (ℕ × FlowStats)) :
    total counter (countLost tracked flowStats) ≤ total counter flowStats + k := by
  unfold countLost
  cases found : flowStats.lookup tracked.1.1 with
  | none => exact Nat.le_add_right _ _
  | some stats =>
      have sum := sum_setKey counter tracked.1.1 { stats with lostPackets := stats.lostPackets + 1 } flowStats
      rw [found, adds] at sum
      unfold total
      dsimp only [Option.map_some, Option.getD_some] at sum ⊢
      omega

theorem total_foldl_countLost {counter : FlowStats → ℕ} {k : ℕ}
    (adds : ∀ stats : FlowStats, counter { stats with lostPackets := stats.lostPackets + 1 } = counter stats + k)
    (tracked : List ((ℕ × ℕ) × TrackedPacket)) (flowStats : List (ℕ × FlowStats)) :
    total counter (tracked.foldl (fun stats packet => countLost packet stats) flowStats) ≤
      total counter flowStats + k * tracked.length := by
  induction tracked generalizing flowStats with
  | nil => exact Nat.le_refl _
  | cons packet tracked ih =>
      have first := total_countLost adds packet flowStats
      have rest := ih (countLost packet flowStats)
      rw [List.foldl_cons, List.length_cons, Nat.mul_succ]
      omega

/-! ## The bound -/

/-- No counter of packets exceeds `N`, if tracked packets are counted among the lost and the forwarded
ones. -/
structure Within (N : ℕ) (m : FlowMonitor n) : Prop where
  txPackets : total FlowStats.txPackets m.flowStats ≤ N
  rxPackets : total FlowStats.rxPackets m.flowStats ≤ N
  lostPackets : total FlowStats.lostPackets m.flowStats + m.trackedPackets.length ≤ N
  timesForwarded : total FlowStats.timesForwarded m.flowStats + m.hops ≤ N
  probes : ∀ flowId, ∑ p, (m.probes p flowId).packets ≤ N

/-- The counters of one flow. -/
theorem Within.stats {N : ℕ} (within : Within N m) (A : Attributes) (flowId : ℕ) :
    (m.getStatsForFlow A flowId).txPackets ≤ N ∧ (m.getStatsForFlow A flowId).rxPackets ≤ N ∧
      (m.getStatsForFlow A flowId).lostPackets ≤ N ∧ (m.getStatsForFlow A flowId).timesForwarded ≤ N := by
  refine ⟨?_, ?_, ?_, ?_⟩
  · exact (counter_le_total rfl flowId).trans within.txPackets
  · exact (counter_le_total rfl flowId).trans within.rxPackets
  · exact (counter_le_total rfl flowId).trans ((Nat.le_add_right _ _).trans within.lostPackets)
  · exact (counter_le_total rfl flowId).trans ((Nat.le_add_right _ _).trans within.timesForwarded)

theorem length_setKey_le (key : ℕ × ℕ) (value : TrackedPacket) :
    (setKey key value m.trackedPackets).length ≤ m.trackedPackets.length + 1 := by
  have keys := congrArg List.length (keys_setKey key value m.trackedPackets)
  rw [List.length_map] at keys
  rw [keys]
  split
  · rw [List.length_map]
    exact Nat.le_succ _
  · simp

/-- A probe that counts a packet of flow `f`. -/
theorem sum_addPacketStats_le (probe : Fin n) (f packetSize : ℕ) (delay : ℤ) (flowId : ℕ) :
    ∑ p, ((m.addPacketStats probe f packetSize delay).probes p flowId).packets ≤
      (∑ p, (m.probes p flowId).packets) + 1 := by
  have each : ∀ p, ((m.addPacketStats probe f packetSize delay).probes p flowId).packets ≤
      (m.probes p flowId).packets + if p = probe then 1 else 0 := by
    intro p
    unfold addPacketStats updateProbe
    dsimp only
    by_cases here : p = probe ∧ flowId = f
    · rw [if_pos here, if_pos here.1]
      exact Nat.le_refl _
    · rw [if_neg here]
      exact Nat.le_add_right _ _
  refine (Finset.sum_le_sum fun p _ => each p).trans ?_
  rw [Finset.sum_add_distrib, Finset.sum_ite_eq' Finset.univ probe, if_pos (Finset.mem_univ probe)]

theorem sum_addPacketDropStats (probe : Fin n) (f packetSize reasonCode flowId : ℕ) :
    ∑ p, ((m.addPacketDropStats probe f packetSize reasonCode).probes p flowId).packets =
      ∑ p, (m.probes p flowId).packets := by
  refine Finset.sum_congr rfl fun p _ => ?_
  unfold addPacketDropStats updateProbe
  dsimp only
  split <;> rfl

/-- A packet that is received is no longer tracked. -/
theorem hops_erase_le {key : ℕ × ℕ} {tracked : TrackedPacket}
    (found : m.trackedPackets.lookup key = some tracked) :
    (m.erase key).hops + tracked.timesForwarded ≤ m.hops := by
  have sum := sum_filter_key_le TrackedPacket.timesForwarded key m.trackedPackets
  rwa [found] at sum

theorem length_erase_le (key : ℕ × ℕ) : (m.erase key).trackedPackets.length ≤ m.trackedPackets.length :=
  List.length_filter_le _ _

theorem hops_erase_le_hops (key : ℕ × ℕ) : (m.erase key).hops ≤ m.hops :=
  (List.filter_sublist.map _).sum_le_sum fun _ _ => Nat.zero_le _

/-- A check moves packets from the tracked to the lost ones. -/
theorem Within.checkForLostPackets {N : ℕ} (within : Within N m) (now maxDelay : ℤ) :
    Within N (m.checkForLostPackets now maxDelay) := by
  have fewer : (m.checkForLostPackets now maxDelay).trackedPackets.Sublist m.trackedPackets :=
    List.filter_sublist
  have moved : (m.overdue now maxDelay).length +
      (m.checkForLostPackets now maxDelay).trackedPackets.length = m.trackedPackets.length := by
    rw [m.trackedPackets.length_eq_length_filter_add fun tracked => maxDelay ≤ now - tracked.2.lastSeenTime]
    unfold overdue FlowMonitor.checkForLostPackets
    simp only [decide_not]
  have same : ∀ counter : FlowStats → ℕ,
      (∀ stats : FlowStats, counter { stats with lostPackets := stats.lostPackets + 1 } = counter stats) →
        total counter (m.checkForLostPackets now maxDelay).flowStats ≤ total counter m.flowStats := by
    intro counter unchanged
    refine (total_foldl_countLost (k := 0) unchanged (m.overdue now maxDelay) m.flowStats).trans ?_
    rw [Nat.zero_mul, Nat.add_zero]
  refine ⟨(same FlowStats.txPackets fun _ => rfl).trans within.txPackets,
    (same FlowStats.rxPackets fun _ => rfl).trans within.rxPackets, ?_, ?_, within.probes⟩
  · have before := within.lostPackets
    have counted : total FlowStats.lostPackets (m.checkForLostPackets now maxDelay).flowStats ≤
        total FlowStats.lostPackets m.flowStats + 1 * (m.overdue now maxDelay).length :=
      total_foldl_countLost (fun _ => rfl) (m.overdue now maxDelay) m.flowStats
    omega
  · refine (Nat.add_le_add (same FlowStats.timesForwarded fun _ => rfl) ?_).trans within.timesForwarded
    exact (fewer.map _).sum_le_sum fun _ _ => Nat.zero_le _

/-- **The step lemma.** -/
theorem Within.apply {N : ℕ} (within : Within N m) {call : Call n} {effect : Effect n}
    (origin : effect.Of m call) (now : ℤ) : Within (N + 1) (m.apply A now effect) := by
  obtain ⟨tx, rx, lost, hopped, probes⟩ := within
  have counted : ∀ (probe : Fin n) (g packetSize : ℕ) (delay : ℤ) (f : ℕ),
      ∑ p, ((m.addPacketStats probe g packetSize delay).probes p f).packets ≤ N + 1 :=
    fun probe g packetSize delay f =>
      (sum_addPacketStats_le probe g packetSize delay f).trans (Nat.succ_le_succ (probes f))
  cases effect with
  | sent probe f packetId packetSize =>
      obtain ⟨txSum, rxSum, lostSum, hopsSum⟩ := (Adds.firstTx now packetSize).totals A m f
      have tracked := length_setKey_le (m := m) (f, packetId) ⟨now, now, 0⟩
      have kept := sum_setKey TrackedPacket.timesForwarded (f, packetId) ⟨now, now, 0⟩ m.trackedPackets
      refine ⟨txSum.trans_le (Nat.succ_le_succ tx), rxSum.trans_le (Nat.le_succ_of_le rx), ?_, ?_,
        counted probe f packetSize 0⟩
      · exact (Nat.add_le_add lostSum.le tracked).trans (Nat.succ_le_succ lost)
      · refine (Nat.add_le_add hopsSum.le ?_).trans (Nat.le_succ_of_le hopped)
        exact (Nat.le_add_right _ _).trans kept.le
  | forwarded probe f packetId packetSize old =>
      have tracked := length_setKey_le (m := m) (f, packetId)
        { old with timesForwarded := old.timesForwarded + 1, lastSeenTime := now }
      have kept := sum_setKey TrackedPacket.timesForwarded (f, packetId)
        { old with timesForwarded := old.timesForwarded + 1, lastSeenTime := now } m.trackedPackets
      rw [origin.2] at kept
      have hop : (m.apply A now (.forwarded probe f packetId packetSize old)).hops = m.hops + 1 :=
        Nat.add_right_cancel (kept.trans (Nat.add_right_comm _ old.timesForwarded 1))
      refine ⟨Nat.le_succ_of_le tx, Nat.le_succ_of_le rx, ?_, ?_, counted probe f packetSize _⟩
      · exact (Nat.add_le_add_left tracked _).trans (Nat.succ_le_succ lost)
      · exact (Nat.add_le_add_left hop.le _).trans (Nat.succ_le_succ hopped)
  | received probe f packetId packetSize old =>
      obtain ⟨txSum, rxSum, lostSum, hopsSum⟩ :=
        (Adds.receive A (now - old.firstSeenTime) now packetSize old.timesForwarded).totals A m f
      have erased := hops_erase_le origin.2
      refine ⟨txSum.trans_le (Nat.le_succ_of_le tx), rxSum.trans_le (Nat.succ_le_succ rx), ?_, ?_,
        counted probe f packetSize _⟩
      · exact (Nat.add_le_add lostSum.le (length_erase_le _)).trans (Nat.le_succ_of_le lost)
      · refine (Nat.add_le_add_right hopsSum.le _).trans ?_
        change _ + old.timesForwarded + (m.erase (f, packetId)).hops ≤ N + 1
        omega
  | dropped probe f packetId packetSize reasonCode =>
      obtain ⟨txSum, rxSum, lostSum, hopsSum⟩ := (Adds.drop packetSize reasonCode).totals A m f
      refine ⟨txSum.trans_le (Nat.le_succ_of_le tx), rxSum.trans_le (Nat.le_succ_of_le rx), ?_, ?_,
        fun g => ?_⟩
      · refine (Nat.add_le_add lostSum.le (length_erase_le _)).trans ?_
        rw [Nat.add_right_comm]
        exact Nat.succ_le_succ lost
      · exact (Nat.add_le_add hopsSum.le (hops_erase_le_hops _)).trans (Nat.le_succ_of_le hopped)
      · exact (sum_addPacketDropStats probe f packetSize reasonCode g).trans_le (Nat.le_succ_of_le (probes g))
  | checked enabled maxDelay =>
      have more : Within (N + 1) { m with enabled := enabled } :=
        ⟨Nat.le_succ_of_le tx, Nat.le_succ_of_le rx, Nat.le_succ_of_le lost, Nat.le_succ_of_le hopped,
          fun g => Nat.le_succ_of_le (probes g)⟩
      exact more.checkForLostPackets now maxDelay
  | ignored enabled =>
      exact ⟨Nat.le_succ_of_le tx, Nat.le_succ_of_le rx, Nat.le_succ_of_le lost, Nat.le_succ_of_le hopped,
        fun g => Nat.le_succ_of_le (probes g)⟩

/-- No counter of packets exceeds the number of calls. -/
theorem within_of_run (A : Attributes) (calls : List (ℤ × Call n)) :
    Within calls.length (after A calls) := by
  induction calls using List.reverseRecOn with
  | nil =>
      refine ⟨Nat.le_refl 0, Nat.le_refl 0, Nat.le_refl 0, Nat.le_refl 0, fun _ => ?_⟩
      exact (Finset.sum_eq_zero fun _ _ => rfl).le
  | append_singleton calls call ih =>
      rw [after_snoc, handle_eq, List.length_append, List.length_singleton]
      exact ih.apply (of_effect A _ call.2) call.1

end FlowMonitor

end NtnCho
