import NtnCho.FlowCounters

/-!
# The balance of a flow

What a flow has sent it has received or lost, or it is still tracked (`flow_balance`): exactly so when no
packet is sent under an id that is tracked, and none is dropped that is not tracked. What the probes of
all nodes count is what the flows count (`probed_of_run`).
-/

namespace NtnCho

open Frames

namespace FlowMonitor

variable {n : ℕ}

/-! ## Tracked packets -/

section Tracked

variable {A : Attributes} {m : FlowMonitor n} {flowId : ℕ} {key : ℕ × ℕ}

def keys (m : FlowMonitor n) : List (ℕ × ℕ) := m.trackedPackets.map Prod.fst

theorem mem_keys_of_lookup {tracked : TrackedPacket} (found : m.trackedPackets.lookup key = some tracked) :
    (key, tracked) ∈ m.trackedPackets := by
  obtain ⟨before, rest, split, -⟩ := List.lookup_eq_some_iff.mp found
  rw [split]
  exact List.mem_append_right before List.mem_cons_self

theorem ofFlow_eq (flowId : ℕ) (tracked : List ((ℕ × ℕ) × TrackedPacket)) :
    ofFlow flowId tracked = (tracked.map Prod.fst).countP fun key => key.1 = flowId := by
  rw [List.countP_map]
  rfl

theorem ofFlow_setKey (value : TrackedPacket) :
    ofFlow flowId (setKey key value m.trackedPackets) =
      ofFlow flowId m.trackedPackets + if key ∉ m.keys ∧ key.1 = flowId then 1 else 0 := by
  rw [ofFlow_eq, ofFlow_eq, keys_setKey, keys]
  by_cases tracked : key ∈ m.trackedPackets.map Prod.fst
  · simp [tracked]
  · simp only [tracked, if_false, not_false_eq_true, true_and, List.countP_append, List.countP_singleton,
      decide_eq_true_eq]

theorem keys_erase : (m.erase key).keys = m.keys.filter fun k => k ≠ key := by
  unfold keys erase
  rw [List.filter_map]
  rfl

theorem ofFlow_erase (nodup : m.keys.Nodup) :
    ofFlow flowId (m.erase key).trackedPackets + (if key ∈ m.keys ∧ key.1 = flowId then 1 else 0) =
      ofFlow flowId m.trackedPackets := by
  have erased : (m.erase key).keys = m.keys.erase key := by
    rw [keys_erase, nodup.erase_eq_filter]
    exact List.filter_congr fun k _ => by rw [Bool.eq_iff_iff]; simp
  rw [ofFlow_eq, ofFlow_eq]
  change (m.erase key).keys.countP _ + _ = m.keys.countP _
  rw [erased, List.countP_erase]
  simp only [decide_eq_true_eq]
  split
  · next both =>
      have pos : 0 < m.keys.countP fun k => k.1 = flowId :=
        List.countP_pos_iff.mpr ⟨key, both.1, by simpa using both.2⟩
      omega
  · omega

/-- The packets that are tracked: each once, and all of them sent, so that their flow is known. -/
structure Tracks (m : FlowMonitor n) (calls : List (ℤ × Call n)) : Prop where
  nodup : m.keys.Nodup
  known : ∀ tracked ∈ m.trackedPackets, m.flowStats.lookup tracked.1.1 ≠ none
  sent : ∀ tracked ∈ m.trackedPackets, ∃ probe packetSize,
    (tracked.2.firstSeenTime, Call.firstTx probe tracked.1.1 tracked.1.2 packetSize) ∈ calls

theorem lookup_updateStats_ne_none {f g : ℕ} {update : FlowStats → FlowStats}
    (known : m.flowStats.lookup g ≠ none) : (m.updateStats A f update).flowStats.lookup g ≠ none := by
  unfold updateStats
  rw [lookup_setKey]
  split
  · exact Option.some_ne_none _
  · exact known

variable {calls : List (ℤ × Call n)} {now : ℤ} {call : Call n}

/-- Fewer packets are tracked, and no flow is forgotten. -/
theorem Tracks.of_sublist {m' : FlowMonitor n} (tracks : m.Tracks calls)
    (sub : m'.trackedPackets.Sublist m.trackedPackets)
    (known : ∀ f, m.flowStats.lookup f ≠ none → m'.flowStats.lookup f ≠ none) :
    m'.Tracks (calls ++ [(now, call)]) where
  nodup := tracks.nodup.sublist (sub.map Prod.fst)
  known tracked member := known _ (tracks.known tracked (sub.subset member))
  sent tracked member := by
    obtain ⟨probe, packetSize, sent⟩ := tracks.sent tracked (sub.subset member)
    exact ⟨probe, packetSize, List.mem_append_left _ sent⟩

theorem Tracks.checkForLostPackets (tracks : m.Tracks calls) (maxDelay : ℤ) :
    (m.checkForLostPackets now maxDelay).Tracks (calls ++ [(now, call)]) := by
  refine tracks.of_sublist List.filter_sublist fun f known => ?_
  rw [lookup_checkForLostPackets]
  simpa using known

/-- **The step lemma.** -/
theorem Tracks.handle (tracks : m.Tracks calls) :
    (m.handle A now call).Tracks (calls ++ [(now, call)]) := by
  have same : m.Tracks (calls ++ [(now, call)]) := tracks.of_sublist (List.Sublist.refl _) fun _ => id
  have origin := of_effect A m call
  rw [handle_eq]
  generalize m.effect A call = effect at origin ⊢
  cases effect with
  | sent probe f packetId packetSize =>
      have called : call = .firstTx probe f packetId packetSize := origin
      refine ⟨nodup_setKey tracks.nodup _ _, fun tracked member => ?_, fun tracked member => ?_⟩
      · rcases mem_setKey member with rfl | old
        · unfold apply FlowMonitor.sent updateStats
          dsimp only
          rw [lookup_setKey, if_pos rfl]
          exact Option.some_ne_none _
        · exact lookup_updateStats_ne_none (tracks.known tracked old)
      · rcases mem_setKey member with rfl | old
        · rw [called]
          exact ⟨probe, packetSize, List.mem_append_right _ List.mem_cons_self⟩
        · exact same.sent tracked old
  | forwarded probe f packetId packetSize old =>
      have there := mem_keys_of_lookup origin.2
      refine ⟨nodup_setKey tracks.nodup _ _, fun tracked member => ?_, fun tracked member => ?_⟩
      · rcases mem_setKey member with rfl | other
        · exact tracks.known ((f, packetId), old) there
        · exact tracks.known tracked other
      · rcases mem_setKey member with rfl | other
        · exact same.sent ((f, packetId), old) there
        · exact same.sent tracked other
  | received probe f packetId packetSize tracked =>
      refine tracks.of_sublist List.filter_sublist fun g known => ?_
      unfold apply FlowMonitor.received
      dsimp only
      rw [flowStats_erase]
      exact lookup_updateStats_ne_none (by exact known)
  | dropped probe f packetId packetSize reasonCode =>
      refine tracks.of_sublist List.filter_sublist fun g known => ?_
      unfold apply FlowMonitor.dropped
      dsimp only
      rw [flowStats_erase]
      exact lookup_updateStats_ne_none (by exact known)
  | checked enabled maxDelay =>
      have switched : { m with enabled := enabled }.Tracks calls :=
        ⟨tracks.nodup, tracks.known, tracks.sent⟩
      exact switched.checkForLostPackets maxDelay
  | ignored enabled => exact ⟨same.nodup, same.known, same.sent⟩

theorem tracks_of_run (A : Attributes) (calls : List (ℤ × Call n)) : (after A calls).Tracks calls := by
  induction calls using List.reverseRecOn with
  | nil => exact ⟨List.nodup_nil, fun _ member => (by cases member), fun _ member => (by cases member)⟩
  | append_singleton calls call ih =>
      rw [after_snoc]
      exact ih.handle

/-! ## The receptions -/

/-- The packet was sent by the flow, and received, when the reception says so. -/
structure Genuine (flowId : ℕ) (calls : List (ℤ × Call n)) (r : Reception) : Prop where
  reported : ∃ packetId, (∃ probe packetSize, (r.sent, Call.firstTx probe flowId packetId packetSize) ∈ calls) ∧
    ∃ probe, (r.received, Call.lastRx probe flowId packetId r.packetSize) ∈ calls
  delayed : calls.Pairwise (fun a b => a.1 ≤ b.1) → 0 ≤ r.delay

theorem genuine_of_run (A : Attributes) (flowId : ℕ) (calls : List (ℤ × Call n)) :
    ∀ r ∈ receptions A flowId calls, Genuine flowId calls r := by
  induction calls using List.reverseRecOn with
  | nil => exact fun r member => by cases member
  | append_singleton calls call ih =>
      obtain ⟨now, call⟩ := call
      unfold receptions
      rw [noted_snoc]
      intro r member
      rcases List.mem_append.mp member with old | new
      · obtain ⟨⟨packetId, ⟨probe, size, sent⟩, probe', received⟩, delayed⟩ := ih r old
        exact ⟨⟨packetId, ⟨probe, size, List.mem_append_left _ sent⟩, probe',
          List.mem_append_left _ received⟩, fun ordered => delayed (List.pairwise_append.mp ordered).1⟩
      · have origin := of_effect A (after A calls) call
        generalize (after A calls).effect A call = effect at origin new
        cases effect with
        | received probe f packetId packetSize tracked =>
            unfold receptionOf at new
            dsimp only at new
            split at new
            · next here =>
                subst here
                obtain rfl := List.mem_singleton.mp new
                obtain ⟨rfl, found⟩ := origin
                obtain ⟨probe', size, sent⟩ := (tracks_of_run A calls).sent _ (mem_keys_of_lookup found)
                refine ⟨⟨packetId, ⟨probe', size, List.mem_append_left _ sent⟩, probe,
                  List.mem_append_right _ List.mem_cons_self⟩, fun ordered => ?_⟩
                have earlier := (List.pairwise_append.mp ordered).2.2 _ sent _ List.mem_cons_self
                exact sub_nonneg.mpr earlier
            · cases new
        | _ => cases new

end Tracked

/-- **The statistics of a flow are those of its receptions**, and the histogram of the delays gives their
sum up to the width of a bin for each of them. The counters of packets do not exceed the number of calls. -/
theorem flowStats_of_calls (A : Attributes) (flowId : ℕ) {calls : List (ℤ × Call n)}
    (ordered : calls.Pairwise fun a b => a.1 ≤ b.1) (pos : 0 < A.delayBinWidth) :
    let stats := (after A calls).getStatsForFlow A flowId
    Describes A stats (receptions A flowId calls) ∧
      (∀ r ∈ receptions A flowId calls, Genuine flowId calls r) ∧
      weighed (fun i => stats.delayHistogram.getBinStart i) stats.delayHistogram.histogram ≤
        getSeconds stats.delaySum ∧
      getSeconds stats.delaySum ≤
        weighed (fun i => stats.delayHistogram.getBinEnd i) stats.delayHistogram.histogram ∧
      stats.rxPackets ≤ calls.length ∧ stats.timesForwarded ≤ calls.length := by
  have describes := describes_of_run A flowId calls
  have genuine := genuine_of_run A flowId calls
  obtain ⟨width, tallies⟩ := describes.delays
  have nonneg : ∀ delay ∈ (receptions A flowId calls).map (fun r => getSeconds r.delay), 0 ≤ delay := by
    intro delay member
    obtain ⟨r, received, rfl⟩ := List.mem_map.mp member
    have late := (genuine r received).delayed ordered
    unfold getSeconds
    exact div_nonneg (by exact_mod_cast late) (by norm_num)
  have total : getSeconds ((after A calls).getStatsForFlow A flowId).delaySum =
      ((receptions A flowId calls).map fun r => getSeconds r.delay).sum := by
    rw [describes.delaySum]
    generalize receptions A flowId calls = rs
    induction rs with
    | nil => simp [getSeconds]
    | cons r rs ih =>
        rw [List.map_cons, List.sum_cons, List.map_cons, List.sum_cons, ← ih]
        unfold getSeconds
        push_cast
        ring
  obtain ⟨lower, upper⟩ := tallies.sum_mem pos nonneg
  unfold Histogram.getBinStart Histogram.getBinEnd
  dsimp only
  rw [width, total]
  obtain ⟨-, received, -, forwarded⟩ := (within_of_run A calls).stats A flowId
  exact ⟨describes, genuine, lower, upper, received, forwarded⟩

theorem flowStats_of_calls_two :
    let calls : List (ℤ × Call 2) := [(0, .startRightNow), (1000000000, .firstTx 0 1 0 120),
      (1020500000, .lastRx 1 1 0 120), (2000000000, .firstTx 0 1 1 120), (2023000000, .lastRx 1 1 1 120)]
    let stats := (after {} calls).getStatsForFlow {} 1
    stats.rxPackets = 2 ∧ stats.jitterSum = 2500000 ∧ Describes {} stats (receptions {} 1 calls) ∧
      (∀ r ∈ receptions {} 1 calls, Genuine 1 calls r) ∧
      weighed (fun i => stats.delayHistogram.getBinStart i) stats.delayHistogram.histogram ≤
        getSeconds stats.delaySum ∧
      getSeconds stats.delaySum ≤
        weighed (fun i => stats.delayHistogram.getBinEnd i) stats.delayHistogram.histogram ∧
      stats.rxPackets ≤ calls.length ∧ stats.timesForwarded ≤ calls.length :=
  ⟨by decide +kernel, by decide +kernel, flowStats_of_calls {} 1 (by decide) (by norm_num)⟩

/-! ## The balance of a flow -/

section Balance

variable {A : Attributes} {m : FlowMonitor n} {flowId : ℕ}

/-- A drop of a packet that is not tracked. -/
def strayDropOf (flowId : ℕ) (m : FlowMonitor n) (_ : ℤ) : Effect n → List ℕ
  | .dropped _ f packetId _ _ => if f = flowId ∧ (f, packetId) ∉ m.keys then [packetId] else []
  | _ => []

/-- A packet that is sent while it is tracked. -/
def resentOf (flowId : ℕ) (m : FlowMonitor n) (_ : ℤ) : Effect n → List ℕ
  | .sent _ f packetId _ => if f = flowId ∧ (f, packetId) ∈ m.keys then [packetId] else []
  | _ => []

def strayDrops (A : Attributes) (flowId : ℕ) (calls : List (ℤ × Call n)) : List ℕ :=
  noted A (strayDropOf flowId) calls

def resent (A : Attributes) (flowId : ℕ) (calls : List (ℤ × Call n)) : List ℕ :=
  noted A (resentOf flowId) calls

/-- The packets of the flow that are on their way. -/
def underWay (flowId : ℕ) (m : FlowMonitor n) : ℕ := ofFlow flowId m.trackedPackets

def Balanced (A : Attributes) (flowId : ℕ) (m : FlowMonitor n) (stray twice : List ℕ) : Prop :=
  (m.getStatsForFlow A flowId).txPackets + stray.length =
    (m.getStatsForFlow A flowId).rxPackets + (m.getStatsForFlow A flowId).lostPackets +
      m.underWay flowId + twice.length

/-- No packet of an unknown flow is tracked. -/
theorem Tracks.ofFlow_overdue {calls : List (ℤ × Call n)} (tracks : m.Tracks calls)
    (unknown : m.flowStats.lookup flowId = none) {now maxDelay : ℤ} :
    ofFlow flowId (m.overdue now maxDelay) = 0 := by
  refine List.countP_eq_zero.mpr fun tracked member here => ?_
  have known := tracks.known tracked (List.mem_filter.mp member).1
  rw [show tracked.1.1 = flowId by simpa using here] at known
  exact known unknown

/-- A check moves packets from the tracked to the lost ones. -/
theorem Balanced.checkForLostPackets {stray twice : List ℕ} {calls : List (ℤ × Call n)}
    (balanced : Balanced A flowId m stray twice) (tracks : m.Tracks calls) (now maxDelay : ℤ) :
    Balanced A flowId (m.checkForLostPackets now maxDelay) stray twice := by
  have moved : ofFlow flowId (m.overdue now maxDelay) +
      (m.checkForLostPackets now maxDelay).underWay flowId = m.underWay flowId := by
    unfold underWay ofFlow overdue FlowMonitor.checkForLostPackets
    dsimp only
    rw [List.countP_eq_countP_filter_add m.trackedPackets _
      fun tracked => decide (maxDelay ≤ now - tracked.2.lastSeenTime)]
    congr 2
    exact List.filter_congr fun tracked _ => by rw [decide_not]
  unfold Balanced getStatsForFlow at balanced ⊢
  rw [lookup_checkForLostPackets]
  cases found : m.flowStats.lookup flowId with
  | none =>
      have unknown := @Tracks.ofFlow_overdue n m flowId calls tracks found now maxDelay
      rw [found] at balanced
      simp only [Option.map_none, Option.getD_none] at balanced ⊢
      omega
  | some stats =>
      rw [found] at balanced
      simp only [Option.map_some, Option.getD_some] at balanced ⊢
      omega

/-- **The step lemma.** -/
theorem Balanced.handle {stray twice : List ℕ} {calls : List (ℤ × Call n)}
    (balanced : Balanced A flowId m stray twice) (tracks : m.Tracks calls) (now : ℤ) (call : Call n) :
    Balanced A flowId (m.handle A now call) (stray ++ strayDropOf flowId m now (m.effect A call))
      (twice ++ resentOf flowId m now (m.effect A call)) := by
  have origin := of_effect A m call
  rw [handle_eq]
  generalize m.effect A call = effect at origin ⊢
  cases effect with
  | sent probe f packetId packetSize =>
      have tracked := @ofFlow_setKey n m flowId (f, packetId) ⟨now, now, 0⟩
      unfold Balanced underWay at balanced ⊢
      unfold apply FlowMonitor.sent strayDropOf resentOf
      dsimp only
      rw [getStatsForFlow_updateStats, List.append_nil]
      change _ = _ + _ + ofFlow flowId (setKey (f, packetId) _ m.trackedPackets) + _
      rw [tracked]
      by_cases here : flowId = f
      · subst here
        rw [if_pos rfl]
        change (m.getStatsForFlow A flowId).txPackets + 1 + _ =
          (m.getStatsForFlow A flowId).rxPackets + (m.getStatsForFlow A flowId).lostPackets + (_ + _) + _
        by_cases known : (flowId, packetId) ∈ m.keys
        · rw [if_neg fun both => both.1 known, if_pos ⟨rfl, known⟩, List.length_append,
            List.length_singleton]
          omega
        · rw [if_pos ⟨known, rfl⟩, if_neg fun both => known both.2, List.append_nil]
          omega
      · rw [if_neg here, if_neg fun both => here both.2.symm, if_neg fun both => here both.1.symm,
          List.append_nil]
        exact balanced
  | forwarded probe f packetId packetSize tracked =>
      have still : (f, packetId) ∈ m.keys := List.mem_map_of_mem (mem_keys_of_lookup origin.2)
      have same := @ofFlow_setKey n m flowId (f, packetId)
        { tracked with timesForwarded := tracked.timesForwarded + 1, lastSeenTime := now }
      rw [if_neg fun both => both.1 still, Nat.add_zero] at same
      unfold Balanced underWay at balanced ⊢
      unfold strayDropOf resentOf
      rw [List.append_nil, List.append_nil]
      change _ = _ + _ + ofFlow flowId (setKey (f, packetId) _ m.trackedPackets) + _
      rw [same]
      exact balanced
  | received probe f packetId packetSize tracked =>
      have known : (f, packetId) ∈ m.keys := List.mem_map_of_mem (mem_keys_of_lookup origin.2)
      have erased := @ofFlow_erase n m flowId (f, packetId) tracks.nodup
      unfold Balanced underWay at balanced ⊢
      unfold apply FlowMonitor.received strayDropOf resentOf
      dsimp only
      rw [getStatsForFlow_erase, getStatsForFlow_updateStats, List.append_nil, List.append_nil]
      change _ = _ + _ + ofFlow flowId (m.erase (f, packetId)).trackedPackets + _
      by_cases here : flowId = f
      · subst here
        obtain ⟨tx, rx, lost, -⟩ := FlowStats.counts_receive A (now - tracked.firstSeenTime) now
          packetSize tracked.timesForwarded (m.getStatsForFlow A flowId)
        rw [if_pos ⟨known, rfl⟩] at erased
        rw [if_pos rfl]
        change (((m.getStatsForFlow A flowId).delayed _).arrived A _ _ _).txPackets + _ =
          (((m.getStatsForFlow A flowId).delayed _).arrived A _ _ _).rxPackets +
            (((m.getStatsForFlow A flowId).delayed _).arrived A _ _ _).lostPackets + _ + _
        rw [tx, rx, lost]
        omega
      · rw [if_neg here]
        rw [if_neg fun both => here both.2.symm, Nat.add_zero] at erased
        rw [erased]
        exact balanced
  | dropped probe f packetId packetSize reasonCode =>
      have erased := @ofFlow_erase n m flowId (f, packetId) tracks.nodup
      unfold Balanced underWay at balanced ⊢
      unfold apply FlowMonitor.dropped strayDropOf resentOf
      dsimp only
      rw [getStatsForFlow_erase, getStatsForFlow_updateStats, List.append_nil]
      change _ = _ + _ + ofFlow flowId (m.erase (f, packetId)).trackedPackets + _
      by_cases here : flowId = f
      · subst here
        rw [if_pos rfl]
        change (m.getStatsForFlow A flowId).txPackets + _ =
          (m.getStatsForFlow A flowId).rxPackets + ((m.getStatsForFlow A flowId).lostPackets + 1) + _ + _
        by_cases known : (flowId, packetId) ∈ m.keys
        · rw [if_pos ⟨known, rfl⟩] at erased
          rw [if_neg fun both => both.2 known, List.append_nil]
          omega
        · rw [if_neg fun both => known both.1] at erased
          rw [if_pos ⟨rfl, known⟩, List.length_append, List.length_singleton]
          omega
      · rw [if_neg here, if_neg fun both => here both.1.symm, List.append_nil]
        rw [if_neg fun both => here both.2.symm, Nat.add_zero] at erased
        rw [erased]
        exact balanced
  | checked enabled maxDelay =>
      have switched : { m with enabled := enabled }.Tracks calls :=
        ⟨tracks.nodup, tracks.known, tracks.sent⟩
      have balanced' : Balanced A flowId { m with enabled := enabled } stray twice := balanced
      unfold strayDropOf resentOf
      rw [List.append_nil, List.append_nil]
      exact balanced'.checkForLostPackets switched now maxDelay
  | ignored enabled =>
      unfold strayDropOf resentOf
      rw [List.append_nil, List.append_nil]
      exact balanced

theorem balanced_of_run (A : Attributes) (flowId : ℕ) (calls : List (ℤ × Call n)) :
    Balanced A flowId (after A calls) (strayDrops A flowId calls) (resent A flowId calls) := by
  induction calls using List.reverseRecOn with
  | nil => rfl
  | append_singleton calls call ih =>
      unfold strayDrops resent at ih ⊢
      rw [after_snoc, noted_snoc, noted_snoc]
      exact ih.handle (tracks_of_run A calls) call.1 call.2

/-! ## Lost packets of a flow -/

/-- A dropped packet: the reason, and its size. -/
def dropOf (flowId : ℕ) (_ : FlowMonitor n) (_ : ℤ) : Effect n → List (ℕ × ℕ)
  | .dropped _ f _ packetSize reasonCode => if f = flowId then [(reasonCode, packetSize)] else []
  | _ => []

/-- The packets of the flow that a check counts as lost. -/
def timeoutOf (flowId : ℕ) (m : FlowMonitor n) (now : ℤ) : Effect n → List ℕ
  | .checked _ maxDelay =>
      ((m.overdue now maxDelay).filter fun tracked => tracked.1.1 = flowId).map fun tracked => tracked.1.2
  | _ => []

def drops (A : Attributes) (flowId : ℕ) (calls : List (ℤ × Call n)) : List (ℕ × ℕ) :=
  noted A (dropOf flowId) calls

def timeouts (A : Attributes) (flowId : ℕ) (calls : List (ℤ × Call n)) : List ℕ :=
  noted A (timeoutOf flowId) calls

/-- The lost packets of a flow are those that were dropped, by their reasons, and those that were not
seen for too long. -/
structure Lost (stats : FlowStats) (drops : List (ℕ × ℕ)) (timeouts : List ℕ) : Prop where
  lostPackets : stats.lostPackets = drops.length + timeouts.length
  packetsDropped : ∀ reasonCode, stats.packetsDropped.getD reasonCode 0 =
    drops.countP fun drop => drop.1 = reasonCode
  bytesDropped : ∀ reasonCode, stats.bytesDropped.getD reasonCode 0 =
    ((drops.filter fun drop => drop.1 = reasonCode).map Prod.snd).sum

theorem Lost.congr {stats stats' : FlowStats} {drops : List (ℕ × ℕ)} {timeouts : List ℕ}
    (lost : Lost stats drops timeouts) (lostPackets : stats'.lostPackets = stats.lostPackets)
    (counters : stats'.toDropCounters = stats.toDropCounters) : Lost stats' drops timeouts := by
  refine ⟨lostPackets.trans lost.lostPackets, fun reasonCode => ?_, fun reasonCode => ?_⟩
  · rw [counters]
    exact lost.packetsDropped reasonCode
  · rw [counters]
    exact lost.bytesDropped reasonCode

theorem Lost.drop {stats : FlowStats} {drops : List (ℕ × ℕ)} {timeouts : List ℕ}
    (lost : Lost stats drops timeouts) (packetSize reasonCode : ℕ) :
    Lost (stats.drop packetSize reasonCode) (drops ++ [(reasonCode, packetSize)]) timeouts := by
  refine ⟨?_, fun r => ?_, fun r => ?_⟩
  · rw [FlowStats.drop, List.length_append, List.length_singleton]
    dsimp only
    rw [lost.lostPackets]
    omega
  · rw [FlowStats.drop, DropCounters.packetsDropped_add, getD_addAt, lost.packetsDropped r,
      List.countP_append, List.countP_singleton]
    by_cases here : r = reasonCode
    · simp [here]
    · have other : ¬ reasonCode = r := fun same => here same.symm
      simp [here, other]
  · rw [FlowStats.drop, DropCounters.bytesDropped_add, getD_addAt, lost.bytesDropped r, List.filter_append,
      List.map_append, List.sum_append]
    by_cases here : r = reasonCode
    · simp [here]
    · have other : ¬ reasonCode = r := fun same => here same.symm
      simp [here, other]

/-- **The step lemma.** -/
theorem Lost.apply {losses : List (ℕ × ℕ)} {late : List ℕ} {calls : List (ℤ × Call n)}
    (lost : Lost (m.getStatsForFlow A flowId) losses late) (tracks : m.Tracks calls) (now : ℤ)
    (effect : Effect n) :
    Lost ((m.apply A now effect).getStatsForFlow A flowId) (losses ++ dropOf flowId m now effect)
      (late ++ timeoutOf flowId m now effect) := by
  cases effect with
  | sent probe f packetId packetSize =>
      unfold dropOf timeoutOf FlowMonitor.apply FlowMonitor.sent
      rw [List.append_nil, List.append_nil]
      dsimp only
      rw [getStatsForFlow_updateStats]
      split
      · next here =>
          subst here
          exact lost.congr rfl rfl
      · exact lost
  | forwarded probe f packetId packetSize tracked =>
      unfold dropOf timeoutOf
      rw [List.append_nil, List.append_nil]
      exact lost
  | received probe f packetId packetSize tracked =>
      unfold dropOf timeoutOf FlowMonitor.apply FlowMonitor.received
      rw [List.append_nil, List.append_nil]
      dsimp only
      rw [getStatsForFlow_erase, getStatsForFlow_updateStats]
      split
      · next here =>
          subst here
          obtain ⟨-, -, same, counters, -⟩ := FlowStats.counts_receive A (now - tracked.firstSeenTime) now
            packetSize tracked.timesForwarded (m.getStatsForFlow A flowId)
          exact lost.congr same counters
      · exact lost
  | dropped probe f packetId packetSize reasonCode =>
      unfold dropOf timeoutOf FlowMonitor.apply FlowMonitor.dropped
      rw [List.append_nil]
      dsimp only
      rw [getStatsForFlow_erase, getStatsForFlow_updateStats]
      by_cases here : f = flowId
      · subst here
        rw [if_pos rfl, if_pos rfl]
        exact lost.drop packetSize reasonCode
      · rw [if_neg here, if_neg fun same => here same.symm, List.append_nil]
        exact lost
  | checked enabled maxDelay =>
      have counted : (timeoutOf flowId m now (.checked enabled maxDelay)).length =
          ofFlow flowId (m.overdue now maxDelay) := by
        unfold timeoutOf ofFlow
        rw [List.length_map, List.countP_eq_length_filter]
      unfold dropOf FlowMonitor.apply getStatsForFlow at *
      rw [List.append_nil]
      dsimp only at lost ⊢
      rw [lookup_checkForLostPackets]
      cases found : m.flowStats.lookup flowId with
      | none =>
          rw [tracks.ofFlow_overdue found] at counted
          rw [found] at lost
          rw [List.eq_nil_of_length_eq_zero counted, List.append_nil]
          exact lost
      | some stats =>
          rw [found] at lost
          refine ⟨?_, lost.packetsDropped, lost.bytesDropped⟩
          rw [List.length_append, counted, ← Nat.add_assoc, ← lost.lostPackets]
          rfl
  | ignored enabled =>
      unfold dropOf timeoutOf
      rw [List.append_nil, List.append_nil]
      exact lost

theorem lost_of_run (A : Attributes) (flowId : ℕ) (calls : List (ℤ × Call n)) :
    Lost ((after A calls).getStatsForFlow A flowId) (drops A flowId calls) (timeouts A flowId calls) := by
  induction calls using List.reverseRecOn with
  | nil => exact ⟨rfl, fun _ => rfl, fun _ => rfl⟩
  | append_singleton calls call ih =>
      unfold drops timeouts
      rw [after_snoc, noted_snoc, noted_snoc, handle_eq]
      exact ih.apply (tracks_of_run A calls) call.1 _

/-- **The balance of a flow.** What it has sent it has received, it was dropped or timed out, or it is
still on its way. A drop of a packet that is not tracked any more is counted once too often, and a packet
that is sent under the id of a tracked one is not seen again. The flow of every tracked packet has
statistics, as `CheckForLostPackets` asserts. The counters do not exceed the number of calls. -/
theorem flow_balance (A : Attributes) (flowId : ℕ) (calls : List (ℤ × Call n)) :
    ((after A calls).getStatsForFlow A flowId).txPackets + (strayDrops A flowId calls).length =
        ((after A calls).getStatsForFlow A flowId).rxPackets +
          ((drops A flowId calls).length + (timeouts A flowId calls).length) +
            (after A calls).underWay flowId + (resent A flowId calls).length ∧
      Lost ((after A calls).getStatsForFlow A flowId) (drops A flowId calls) (timeouts A flowId calls) ∧
      (∀ tracked ∈ (after A calls).trackedPackets,
        (after A calls).flowStats.lookup tracked.1.1 ≠ none) ∧
      ((after A calls).getStatsForFlow A flowId).txPackets ≤ calls.length ∧
      ((after A calls).getStatsForFlow A flowId).rxPackets ≤ calls.length ∧
      ((after A calls).getStatsForFlow A flowId).lostPackets ≤ calls.length := by
  have balanced := balanced_of_run A flowId calls
  have lost := lost_of_run A flowId calls
  obtain ⟨tx, rx, losses, -⟩ := (within_of_run A calls).stats A flowId
  refine ⟨?_, lost, (tracks_of_run A calls).known, tx, rx, losses⟩
  rw [← lost.lostPackets]
  exact balanced

end Balance

/-! ## What the probes see -/

section Probes

variable {A : Attributes} {m : FlowMonitor n} {flowId : ℕ}

/-- A packet of the flow that is forwarded: its size, and its delay so far. -/
def forwardingOf (flowId : ℕ) (_ : FlowMonitor n) (now : ℤ) : Effect n → List (ℕ × ℤ)
  | .forwarded _ f _ packetSize tracked =>
      if f = flowId then [(packetSize, now - tracked.firstSeenTime)] else []
  | _ => []

def forwardings (A : Attributes) (flowId : ℕ) (calls : List (ℤ × Call n)) : List (ℕ × ℤ) :=
  noted A (forwardingOf flowId) calls

/-- What the probes of all nodes count is what the flow counts. -/
structure Probed (A : Attributes) (flowId : ℕ) (m : FlowMonitor n) (forwardings : List (ℕ × ℤ)) :
    Prop where
  packets : ∑ p, (m.probes p flowId).packets =
    (m.getStatsForFlow A flowId).txPackets + (m.getStatsForFlow A flowId).rxPackets + forwardings.length
  bytes : ∑ p, (m.probes p flowId).bytes =
    (m.getStatsForFlow A flowId).txBytes + (m.getStatsForFlow A flowId).rxBytes +
      (forwardings.map Prod.fst).sum
  delays : ∑ p, (m.probes p flowId).delayFromFirstProbeSum =
    (m.getStatsForFlow A flowId).delaySum + (forwardings.map Prod.snd).sum
  packetsDropped : ∀ reasonCode, ∑ p, (m.probes p flowId).packetsDropped.getD reasonCode 0 =
    (m.getStatsForFlow A flowId).packetsDropped.getD reasonCode 0
  bytesDropped : ∀ reasonCode, ∑ p, (m.probes p flowId).bytesDropped.getD reasonCode 0 =
    (m.getStatsForFlow A flowId).bytesDropped.getD reasonCode 0

/-- The sum over the probes, when one of them adds `k` for a flow. -/
theorem sum_updateProbe {M : Type} [AddCommMonoid M] (value : ProbeStats → M) {probe : Fin n} {f : ℕ}
    {update : ProbeStats → ProbeStats} {k : M} (adds : ∀ stats, value (update stats) = value stats + k) :
    ∑ p, value ((m.updateProbe probe f update).probes p flowId) =
      (∑ p, value (m.probes p flowId)) + if flowId = f then k else 0 := by
  have each : ∀ p, value ((m.updateProbe probe f update).probes p flowId) =
      value (m.probes p flowId) + if p = probe then (if flowId = f then k else 0) else 0 := by
    intro p
    unfold updateProbe
    dsimp only
    by_cases here : p = probe
    · by_cases same : flowId = f
      · rw [if_pos ⟨here, same⟩, if_pos here, if_pos same, adds]
      · rw [if_neg fun both => same both.2, if_pos here, if_neg same, add_zero]
    · rw [if_neg fun both => here both.1, if_neg here, add_zero]
  rw [Finset.sum_congr rfl fun p _ => each p, Finset.sum_add_distrib,
    Finset.sum_ite_eq' Finset.univ probe]
  rw [if_pos (Finset.mem_univ probe)]

theorem sum_updateProbe_same {M : Type} [AddCommMonoid M] (value : ProbeStats → M) {probe : Fin n} {f : ℕ}
    {update : ProbeStats → ProbeStats} (same : ∀ stats, value (update stats) = value stats) :
    ∑ p, value ((m.updateProbe probe f update).probes p flowId) = ∑ p, value (m.probes p flowId) := by
  have sum := @sum_updateProbe n m flowId M _ value probe f update 0 fun stats => by rw [same, add_zero]
  rw [sum, ite_self, add_zero]

/-- A packet of flow `f` that a probe counts. -/
theorem Probed.count {m' : FlowMonitor n} {forwardings more : List (ℕ × ℤ)} {probe : Fin n}
    {f packetSize : ℕ} {delay : ℤ} (probed : Probed A flowId m forwardings)
    (probes : m'.probes = (m.addPacketStats probe f packetSize delay).probes)
    (drops : (m'.getStatsForFlow A flowId).toDropCounters = (m.getStatsForFlow A flowId).toDropCounters)
    (packets : (m'.getStatsForFlow A flowId).txPackets + (m'.getStatsForFlow A flowId).rxPackets +
      more.length = (m.getStatsForFlow A flowId).txPackets + (m.getStatsForFlow A flowId).rxPackets +
        if flowId = f then 1 else 0)
    (bytes : (m'.getStatsForFlow A flowId).txBytes + (m'.getStatsForFlow A flowId).rxBytes +
      (more.map Prod.fst).sum = (m.getStatsForFlow A flowId).txBytes +
        (m.getStatsForFlow A flowId).rxBytes + if flowId = f then packetSize else 0)
    (delays : (m'.getStatsForFlow A flowId).delaySum + (more.map Prod.snd).sum =
      (m.getStatsForFlow A flowId).delaySum + if flowId = f then delay else 0) :
    Probed A flowId m' (forwardings ++ more) := by
  have sums := probed.packets
  have sumBytes := probed.bytes
  have sumDelays := probed.delays
  refine ⟨?_, ?_, ?_, fun reasonCode => ?_, fun reasonCode => ?_⟩
  · rw [probes, List.length_append]
    refine (sum_updateProbe ProbeStats.packets fun _ => rfl).trans ?_
    omega
  · rw [probes, List.map_append, List.sum_append]
    refine (sum_updateProbe ProbeStats.bytes fun _ => rfl).trans ?_
    omega
  · rw [probes, List.map_append, List.sum_append]
    refine (sum_updateProbe ProbeStats.delayFromFirstProbeSum fun _ => rfl).trans ?_
    linarith
  · rw [probes, drops, ← probed.packetsDropped reasonCode]
    exact sum_updateProbe_same (fun s => s.packetsDropped.getD reasonCode 0) fun _ => rfl
  · rw [probes, drops, ← probed.bytesDropped reasonCode]
    exact sum_updateProbe_same (fun s => s.bytesDropped.getD reasonCode 0) fun _ => rfl

/-- A packet that one of the probes drops. -/
theorem Probed.drop {forwardings : List (ℕ × ℤ)} (probed : Probed A flowId m forwardings)
    (probe : Fin n) (f packetId packetSize reasonCode : ℕ) :
    Probed A flowId (m.dropped A probe f packetId packetSize reasonCode) forwardings := by
  have stats : (m.dropped A probe f packetId packetSize reasonCode).getStatsForFlow A flowId =
      if flowId = f then (m.getStatsForFlow A flowId).drop packetSize reasonCode
      else m.getStatsForFlow A flowId := by
    unfold dropped
    rw [getStatsForFlow_erase, getStatsForFlow_updateStats]
    split
    · next here =>
        rw [here]
        rfl
    · rfl
  have probes : (m.dropped A probe f packetId packetSize reasonCode).probes =
      (m.addPacketDropStats probe f packetSize reasonCode).probes := rfl
  have same : ∀ {M : Type} [AddCommMonoid M] (value : ProbeStats → M),
      (∀ s : ProbeStats, value (s.drop packetSize reasonCode) = value s) →
        ∑ p, value ((m.addPacketDropStats probe f packetSize reasonCode).probes p flowId) =
          ∑ p, value (m.probes p flowId) := fun value keeps => sum_updateProbe_same value keeps
  refine ⟨?_, ?_, ?_, fun r => ?_, fun r => ?_⟩
  · rw [probes, stats]
    refine ((same ProbeStats.packets fun _ => rfl).trans probed.packets).trans ?_
    split <;> rfl
  · rw [probes, stats]
    refine ((same ProbeStats.bytes fun _ => rfl).trans probed.bytes).trans ?_
    split <;> rfl
  · rw [probes, stats]
    refine ((same ProbeStats.delayFromFirstProbeSum fun _ => rfl).trans probed.delays).trans ?_
    split <;> rfl
  · have adds : ∀ s : ProbeStats, (s.drop packetSize reasonCode).packetsDropped.getD r 0 =
        s.packetsDropped.getD r 0 + if r = reasonCode then 1 else 0 := fun s => by
      rw [ProbeStats.drop, DropCounters.packetsDropped_add, getD_addAt]
    rw [probes, stats]
    refine (sum_updateProbe (fun s => s.packetsDropped.getD r 0) adds).trans ?_
    rw [probed.packetsDropped r]
    by_cases here : flowId = f
    · rw [if_pos here, if_pos here, FlowStats.drop, DropCounters.packetsDropped_add, getD_addAt]
    · rw [if_neg here, if_neg here, add_zero]
  · have adds : ∀ s : ProbeStats, (s.drop packetSize reasonCode).bytesDropped.getD r 0 =
        s.bytesDropped.getD r 0 + if r = reasonCode then packetSize else 0 := fun s => by
      rw [ProbeStats.drop, DropCounters.bytesDropped_add, getD_addAt]
    rw [probes, stats]
    refine (sum_updateProbe (fun s => s.bytesDropped.getD r 0) adds).trans ?_
    rw [probed.bytesDropped r]
    by_cases here : flowId = f
    · rw [if_pos here, if_pos here, FlowStats.drop, DropCounters.bytesDropped_add, getD_addAt]
    · rw [if_neg here, if_neg here, add_zero]

/-- **The step lemma.** -/
theorem Probed.apply {forwardings : List (ℕ × ℤ)} (probed : Probed A flowId m forwardings) (now : ℤ)
    (effect : Effect n) :
    Probed A flowId (m.apply A now effect) (forwardings ++ forwardingOf flowId m now effect) := by
  cases effect with
  | sent probe f packetId packetSize =>
      have stats : (m.sent A now probe f packetId packetSize).getStatsForFlow A flowId =
          if flowId = f then (m.getStatsForFlow A flowId).firstTx now packetSize
          else m.getStatsForFlow A flowId := by
        unfold FlowMonitor.sent
        rw [getStatsForFlow_updateStats]
        split
        · next here =>
            rw [here]
            rfl
        · rfl
      unfold forwardingOf FlowMonitor.apply
      refine probed.count (by exact rfl) ?_ ?_ ?_ ?_
      all_goals
        rw [stats]
        by_cases here : flowId = f
      · rw [if_pos here, FlowStats.firstTx]
      · rw [if_neg here]
      · rw [if_pos here, if_pos here]
        dsimp only [FlowStats.firstTx, List.length_nil]
        omega
      · rw [if_neg here, if_neg here, List.length_nil]
      · rw [if_pos here, if_pos here]
        simp only [FlowStats.firstTx, List.map_nil, List.sum_nil]
        omega
      · rw [if_neg here, if_neg here, List.map_nil, List.sum_nil]
      · rw [if_pos here, if_pos here, FlowStats.firstTx, List.map_nil, List.sum_nil]
      · rw [if_neg here, if_neg here, List.map_nil, List.sum_nil]
  | forwarded probe f packetId packetSize tracked =>
      have same : (m.forwarded now probe f packetId packetSize tracked).getStatsForFlow A flowId =
          m.getStatsForFlow A flowId := rfl
      unfold forwardingOf FlowMonitor.apply
      refine probed.count (by exact rfl) ?_ ?_ ?_ ?_
      all_goals
        rw [same]
      all_goals
        dsimp only
        by_cases here : f = flowId
      · rw [if_pos here, if_pos here.symm]
        rfl
      · rw [if_neg here, if_neg fun there => here there.symm]
        rfl
      · rw [if_pos here, if_pos here.symm]
        simp
      · rw [if_neg here, if_neg fun there => here there.symm]
        rfl
      · rw [if_pos here, if_pos here.symm]
        simp
      · rw [if_neg here, if_neg fun there => here there.symm]
        rfl
  | received probe f packetId packetSize tracked =>
      have stats : (m.received A now probe f packetId packetSize tracked).getStatsForFlow A flowId =
          if flowId = f then
            ((m.getStatsForFlow A flowId).delayed (now - tracked.firstSeenTime)).arrived A now packetSize
              tracked.timesForwarded
          else m.getStatsForFlow A flowId := by
        unfold FlowMonitor.received
        dsimp only
        rw [getStatsForFlow_erase, getStatsForFlow_updateStats]
        split
        · next here =>
            rw [here]
            rfl
        · rfl
      obtain ⟨tx, rx, -, drops, txBytes, rxBytes, delays⟩ := FlowStats.counts_receive A
        (now - tracked.firstSeenTime) now packetSize tracked.timesForwarded (m.getStatsForFlow A flowId)
      unfold forwardingOf FlowMonitor.apply
      refine probed.count (by exact rfl) ?_ ?_ ?_ ?_
      all_goals
        rw [stats]
        by_cases here : flowId = f
      · rw [if_pos here, drops]
      · rw [if_neg here]
      · rw [if_pos here, if_pos here, tx, rx, List.length_nil]
        omega
      · rw [if_neg here, if_neg here, List.length_nil]
      · rw [if_pos here, if_pos here, txBytes, rxBytes, List.map_nil, List.sum_nil]
        omega
      · rw [if_neg here, if_neg here, List.map_nil, List.sum_nil]
      · rw [if_pos here, if_pos here, delays, List.map_nil, List.sum_nil, add_zero]
      · rw [if_neg here, if_neg here, List.map_nil, List.sum_nil]
  | dropped probe f packetId packetSize reasonCode =>
      unfold forwardingOf
      rw [List.append_nil]
      exact probed.drop probe f packetId packetSize reasonCode
  | checked enabled maxDelay =>
      have stats : ∃ lostPackets, (m.apply A now (.checked enabled maxDelay)).getStatsForFlow A flowId =
          { m.getStatsForFlow A flowId with lostPackets := lostPackets } := by
        unfold FlowMonitor.apply getStatsForFlow
        dsimp only
        rw [lookup_checkForLostPackets]
        dsimp only
        cases m.flowStats.lookup flowId with
        | none => exact ⟨_, rfl⟩
        | some stats => exact ⟨_, rfl⟩
      obtain ⟨lostPackets, stats⟩ := stats
      unfold forwardingOf
      rw [List.append_nil]
      refine ⟨?_, ?_, ?_, fun r => ?_, fun r => ?_⟩
      · rw [stats]
        exact probed.packets
      · rw [stats]
        exact probed.bytes
      · rw [stats]
        exact probed.delays
      · rw [stats]
        exact probed.packetsDropped r
      · rw [stats]
        exact probed.bytesDropped r
  | ignored enabled =>
      unfold forwardingOf
      rw [List.append_nil]
      exact ⟨probed.packets, probed.bytes, probed.delays, probed.packetsDropped, probed.bytesDropped⟩

/-- **What the probes see**, in every run, and no probe counts more packets than there are calls. -/
theorem probed_of_run (A : Attributes) (flowId : ℕ) (calls : List (ℤ × Call n)) :
    Probed A flowId (after A calls) (forwardings A flowId calls) ∧
      ∑ p, ((after A calls).probes p flowId).packets ≤ calls.length := by
  refine ⟨?_, (within_of_run A calls).probes flowId⟩
  induction calls using List.reverseRecOn with
  | nil =>
      exact ⟨Finset.sum_const_zero, Finset.sum_const_zero, Finset.sum_const_zero,
        fun _ => Finset.sum_const_zero, fun _ => Finset.sum_const_zero⟩
  | append_singleton calls call ih =>
      unfold forwardings
      rw [after_snoc, noted_snoc, handle_eq]
      exact ih.apply call.1 _

end Probes

end FlowMonitor

end NtnCho
