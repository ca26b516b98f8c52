import Mathlib.Algebra.Order.BigOperators.Group.List
import NtnCho.FlowProbe

/-!
# Traffic of the UEs

After the run, `main` sums the statistics of the flows up for each UE, by the subnets of the addresses,
and prints the delivery ratio, the throughput and the latency of each UE (`ueFlowStats_of_reached`).

A flow is the first UE's whose subnet has one of its addresses. UE `i` has the subnet `10.1.(i + 1).0/24`;
up to 255 UEs these are different (`ueOf_subnet`).

The packets are summed in 32 bits. All flows together do not count more packets than the monitor has got
calls, so that no sum overflows before `2 ^ 32` of them.
-/

namespace NtnCho

open Frames FlowMonitor

/-! ## Flows of a UE -/

/-- `mask` -/
def subnetMask : BitVec 32 := 0xFFFFFF00#32

/-- `base` -/
def subnetBase (i : ℕ) : BitVec 32 :=
  (10#32 <<< 24) ||| (1#32 <<< 16) ||| (BitVec.ofNat 32 (i + 1) <<< 8)

/-- One of the addresses is in the subnet of UE `i`. -/
def FiveTuple.Touches (i : ℕ) (t : FiveTuple) : Prop :=
  t.sourceAddress &&& subnetMask = subnetBase i ∨ t.destinationAddress &&& subnetMask = subnetBase i

instance (i : ℕ) (t : FiveTuple) : Decidable (t.Touches i) := inferInstanceAs (Decidable (_ ∨ _))

/-- The UE of `n` that a flow is counted for. -/
def ueOf (n : ℕ) (t : FiveTuple) : Option ℕ := (List.range n).find? fun i => t.Touches i

theorem subnetBase_toNat : ∀ i < 255, (subnetBase i).toNat = 167837696 + (i + 1) * 256 := by
  decide +kernel

/-- Traffic within the subnet of a UE is counted for it. -/
theorem ueOf_subnet {n i : ℕ} {t : FiveTuple} (few : n ≤ 255) (here : i < n)
    (source : t.sourceAddress &&& subnetMask = subnetBase i)
    (destination : t.destinationAddress &&& subnetMask = subnetBase i) : ueOf n t = some i := by
  have only : ∀ j < n, t.Touches j → j = i := by
    intro j less touches
    have same : subnetBase i = subnetBase j := by
      rcases touches with inside | inside
      · exact source.symm.trans inside
      · exact destination.symm.trans inside
    have values := congrArg BitVec.toNat same
    rw [subnetBase_toNat i (by omega), subnetBase_toNat j (by omega)] at values
    omega
  unfold ueOf
  rw [List.find?_eq_some_iff_getElem]
  refine ⟨decide_eq_true (Or.inl source), i, by simpa using here, by simp, fun j less => ?_⟩
  rw [List.getElem_range]
  simp only [Bool.not_eq_true', decide_eq_false_iff_not]
  intro touches
  have same := only j (by omega) touches
  omega

/-- `UeFlowStats`: the packets are of type `uint32_t`. -/
structure UeFlowStats where
  txPackets : ℕ := 0
  rxPackets : ℕ := 0
  lostPackets : ℕ := 0
  rxBytes : ℕ := 0
  delayMsTotal : ℚ := 0
  firstTxTime : ℚ := 1000000000000000000
  lastRxTime : ℚ := 0

/-- `GetMilliSeconds` truncates. -/
def getMilliSeconds (time : ℤ) : ℤ := time.tdiv 1000000

namespace UeFlowStats

/-- A flow is added to the traffic of a UE. -/
def add (fs : FlowStats) (u : UeFlowStats) : UeFlowStats where
  txPackets := (u.txPackets + fs.txPackets) % 2 ^ 32
  rxPackets := (u.rxPackets + fs.rxPackets) % 2 ^ 32
  lostPackets := (u.lostPackets + fs.lostPackets) % 2 ^ 32
  rxBytes := u.rxBytes + fs.rxBytes
  delayMsTotal := u.delayMsTotal + getMilliSeconds fs.delaySum
  firstTxTime :=
    if getSeconds fs.timeFirstTxPacket < u.firstTxTime then getSeconds fs.timeFirstTxPacket
    else u.firstTxTime
  lastRxTime :=
    if getSeconds fs.timeLastRxPacket > u.lastRxTime then getSeconds fs.timeLastRxPacket else u.lastRxTime

/-- `uePdr` -/
def uePdr (ufs : UeFlowStats) : ℚ :=
  if 0 < ufs.txPackets then (ufs.rxPackets : ℚ) / ufs.txPackets * 100 else 0

/-- `ueLatency` -/
def ueLatency (ufs : UeFlowStats) : ℚ :=
  if 0 < ufs.rxPackets then ufs.delayMsTotal / ufs.rxPackets else 0

def duration (simTime : ℚ) (ufs : UeFlowStats) : ℚ :=
  if ufs.firstTxTime < ufs.lastRxTime ∧ ufs.firstTxTime < 100000000000000000 then
    ufs.lastRxTime - ufs.firstTxTime
  else simTime

/-- `tputKbps` -/
def tputKbps (simTime : ℚ) (ufs : UeFlowStats) : ℚ :=
  if 0 < ufs.duration simTime then (ufs.rxBytes * 8 : ℚ) / ufs.duration simTime / 1000 else 0

end UeFlowStats

/-- `totalPdr` -/
def totalPdr (ueFlowStats : List UeFlowStats) : ℚ :=
  let totalUeTx : ℕ := ueFlowStats.foldl (fun total ufs => (total + ufs.txPackets) % 2 ^ 32) 0
  let totalUeRx : ℕ := ueFlowStats.foldl (fun total ufs => (total + ufs.rxPackets) % 2 ^ 32) 0
  if 0 < totalUeTx then (totalUeRx : ℚ) / totalUeTx * 100 else 0

/-- A flow with its tuple is added to the UE that it is counted for. -/
def countFlow (n : ℕ) (t : FiveTuple) (fs : FlowStats) (ueFlowStats : List UeFlowStats) :
    List UeFlowStats :=
  match ueOf n t with
  | none => ueFlowStats
  | some i => ueFlowStats.modify i (UeFlowStats.add fs)

/-- The loop over the flows; `none` when `FindFlow` stops the program. The sums do not depend on the order
of the flows. -/
def aggregate (n : ℕ) (classifier : Ipv4FlowClassifier) (stats : List (ℕ × FlowStats)) :
    Option (List UeFlowStats) :=
  stats.foldlM (fun ueFlowStats kv =>
    (classifier.findFlow kv.1).map fun t => countFlow n t kv.2 ueFlowStats) (List.replicate n {})

/-! ## The sums -/

section Sums

variable {n : ℕ} {classifier : Ipv4FlowClassifier} {stats : List (ℕ × FlowStats)}

/-- The flow is counted for UE `i`. -/
def FlowOf (n : ℕ) (classifier : Ipv4FlowClassifier) (i : ℕ) (kv : ℕ × FlowStats) : Bool :=
  (classifier.findFlow kv.1).bind (ueOf n) = some i

/-- The flows of UE `i`. -/
def flowsOf (n : ℕ) (classifier : Ipv4FlowClassifier) (i : ℕ) (stats : List (ℕ × FlowStats)) :
    List FlowStats :=
  (stats.filter (FlowOf n classifier i)).map Prod.snd

theorem foldlM_countFlow (known : ∀ kv ∈ stats, classifier.findFlow kv.1 ≠ none)
    (ueFlowStats : List UeFlowStats) :
    ∃ rows, stats.foldlM (fun ueFlowStats kv =>
        (classifier.findFlow kv.1).map fun t => countFlow n t kv.2 ueFlowStats) ueFlowStats = some rows ∧
      rows.length = ueFlowStats.length ∧
      ∀ i, rows[i]? = ueFlowStats[i]?.map fun u =>
        (flowsOf n classifier i stats).foldl (fun u fs => u.add fs) u := by
  induction stats generalizing ueFlowStats with
  | nil => exact ⟨ueFlowStats, rfl, rfl, fun i => (by simp [flowsOf])⟩
  | cons kv stats ih =>
      obtain ⟨t, found⟩ := Option.ne_none_iff_exists'.mp (known kv List.mem_cons_self)
      obtain ⟨rows, folded, length, each⟩ := ih (fun kv member => known kv (List.mem_cons_of_mem _ member))
        (countFlow n t kv.2 ueFlowStats)
      refine ⟨rows, ?_, ?_, fun i => ?_⟩
      · rw [List.foldlM_cons, found]
        exact folded
      · rw [length]
        unfold countFlow
        split
        · rfl
        · rw [List.length_modify]
      · rw [each i]
        unfold flowsOf countFlow
        cases target : ueOf n t with
        | none =>
            have other : FlowOf n classifier i kv = false := by simp [FlowOf, found, target]
            rw [List.filter_cons_of_neg (by simp [other])]
        | some j =>
            by_cases here : j = i
            · subst here
              have mine : FlowOf n classifier j kv = true := by simp [FlowOf, found, target]
              rw [List.filter_cons_of_pos mine]
              simp only [List.getElem?_modify_eq, List.map_cons, List.foldl_cons]
              cases ueFlowStats[j]? <;> rfl
            · have other : FlowOf n classifier i kv = false := by simp [FlowOf, found, target, here]
              rw [List.filter_cons_of_neg (by simp [other])]
              dsimp only
              rw [List.getElem?_modify_ne _ _ here]

/-- A sum that wraps around at `N`. -/
theorem foldl_add_mod {α : Type} (value : α → ℕ) (N : ℕ) (l : List α) :
    l.foldl (fun total a => (total + value a) % N) 0 = (l.map value).sum % N := by
  induction l using List.reverseRecOn with
  | nil => exact (Nat.zero_mod N).symm
  | append_singleton l a ih =>
      rw [List.foldl_append, List.foldl_cons, List.foldl_nil, ih, Nat.mod_add_mod, List.map_append,
        List.sum_append, List.map_singleton, List.sum_singleton]

/-- The traffic of a UE is that of its flows. -/
structure Sums (flows : List FlowStats) (u : UeFlowStats) : Prop where
  txPackets : u.txPackets = (flows.map FlowStats.txPackets).sum
  rxPackets : u.rxPackets = (flows.map FlowStats.rxPackets).sum
  lostPackets : u.lostPackets = (flows.map FlowStats.lostPackets).sum
  rxBytes : u.rxBytes = (flows.map FlowStats.rxBytes).sum
  delayMsTotal : u.delayMsTotal = (flows.map fun fs => (getMilliSeconds fs.delaySum : ℚ)).sum

/-- A field of the row that is made by adding flows one by one. -/
theorem foldl_add {β : Type} (field : UeFlowStats → β) (plus : β → FlowStats → β)
    (adds : ∀ u fs, field (UeFlowStats.add fs u) = plus (field u) fs) (flows : List FlowStats)
    (u : UeFlowStats) :
    field (flows.foldl (fun u fs => u.add fs) u) = flows.foldl plus (field u) := by
  induction flows generalizing u with
  | nil => rfl
  | cons fs flows ih => rw [List.foldl_cons, List.foldl_cons, ih, adds]

/-- Packets are summed as if there were no overflow, when their sum fits. -/
theorem foldl_add_packets (field : UeFlowStats → ℕ) (counter : FlowStats → ℕ)
    (adds : ∀ u fs, field (UeFlowStats.add fs u) = (field u + counter fs) % 2 ^ 32) (start : field {} = 0)
    {flows : List FlowStats} (fits : (flows.map counter).sum < 2 ^ 32) :
    field (flows.foldl (fun u fs => u.add fs) {}) = (flows.map counter).sum := by
  rw [foldl_add field (fun total fs => (total + counter fs) % 2 ^ 32) adds, start,
    foldl_add_mod counter (2 ^ 32), Nat.mod_eq_of_lt fits]

theorem sums_foldl {flows : List FlowStats} (tx : (flows.map FlowStats.txPackets).sum < 2 ^ 32)
    (rx : (flows.map FlowStats.rxPackets).sum < 2 ^ 32)
    (lost : (flows.map FlowStats.lostPackets).sum < 2 ^ 32) :
    Sums flows (flows.foldl (fun u fs => u.add fs) {}) where
  txPackets := foldl_add_packets UeFlowStats.txPackets FlowStats.txPackets (fun _ _ => rfl) rfl tx
  rxPackets := foldl_add_packets UeFlowStats.rxPackets FlowStats.rxPackets (fun _ _ => rfl) rfl rx
  lostPackets := foldl_add_packets UeFlowStats.lostPackets FlowStats.lostPackets (fun _ _ => rfl) rfl lost
  rxBytes := by
    rw [foldl_add UeFlowStats.rxBytes (fun bytes fs => bytes + fs.rxBytes) fun _ _ => rfl,
      List.sum_eq_foldl, List.foldl_map]
  delayMsTotal := by
    rw [foldl_add UeFlowStats.delayMsTotal (fun delay fs => delay + getMilliSeconds fs.delaySum)
      fun _ _ => rfl, List.sum_eq_foldl, List.foldl_map]

/-- The flows of a UE are among all flows. -/
theorem sum_flowsOf_le (counter : FlowStats → ℕ) (i : ℕ) :
    ((flowsOf n classifier i stats).map counter).sum ≤ total counter stats := by
  unfold flowsOf total
  rw [List.map_map]
  exact (List.filter_sublist.map _).sum_le_sum fun _ _ => Nat.zero_le _

theorem sum_modify_le {α : Type} {value : α → ℕ} {k : ℕ} {f : α → α} (adds : ∀ a, value (f a) ≤ value a + k)
    (i : ℕ) (rows : List α) : ((rows.modify i f).map value).sum ≤ (rows.map value).sum + k := by
  induction rows generalizing i with
  | nil => simp
  | cons row rows ih =>
      cases i with
      | zero =>
          have first := adds row
          rw [List.modify_zero_cons, List.map_cons, List.map_cons, List.sum_cons, List.sum_cons]
          omega
      | succ i =>
          have rest := ih i
          rw [List.modify_succ_cons, List.map_cons, List.map_cons, List.sum_cons, List.sum_cons]
          omega

/-- All rows together have no more than all flows, whatever wraps around. -/
theorem sum_foldlM_countFlow_le (field : UeFlowStats → ℕ) (counter : FlowStats → ℕ)
    (adds : ∀ u fs, field (UeFlowStats.add fs u) ≤ field u + counter fs) {ueFlowStats rows : List UeFlowStats}
    (folded : stats.foldlM (fun ueFlowStats kv =>
      (classifier.findFlow kv.1).map fun t => countFlow n t kv.2 ueFlowStats) ueFlowStats = some rows) :
    (rows.map field).sum ≤ (ueFlowStats.map field).sum + total counter stats := by
  induction stats generalizing ueFlowStats with
  | nil =>
      obtain rfl := Option.some.inj folded
      exact Nat.le_add_right _ _
  | cons kv stats ih =>
      rw [List.foldlM_cons] at folded
      obtain ⟨ueFlowStats', first, rest⟩ := Option.bind_eq_some_iff.mp folded
      obtain ⟨t, -, rfl⟩ := Option.map_eq_some_iff.mp first
      have step : ((countFlow n t kv.2 ueFlowStats).map field).sum ≤
          (ueFlowStats.map field).sum + counter kv.2 := by
        unfold countFlow
        split
        · exact Nat.le_add_right _ _
        · exact sum_modify_le (fun u => adds u kv.2) _ _
      have later := ih rest
      unfold total at later ⊢
      rw [List.map_cons, List.sum_cons]
      omega

end Sums

/-! ## The statistics of each flow -/

namespace FlowMonitor

variable {n : ℕ}

theorem nodup_countLost {flowStats : List (ℕ × FlowStats)} (nodup : (flowStats.map Prod.fst).Nodup)
    (tracked : List ((ℕ × ℕ) × TrackedPacket)) :
    ((tracked.foldl (fun stats packet => countLost packet stats) flowStats).map Prod.fst).Nodup := by
  induction tracked generalizing flowStats with
  | nil => exact nodup
  | cons packet tracked ih =>
      refine ih ?_
      change ((countLost packet flowStats).map Prod.fst).Nodup
      unfold countLost
      split
      · exact nodup
      · exact nodup_setKey nodup _ _

/-- Each flow has its statistics once. -/
theorem nodup_flowStats_of_run (A : Attributes) (calls : List (ℤ × Call n)) :
    ((after A calls).flowStats.map Prod.fst).Nodup := by
  induction calls using List.reverseRecOn with
  | nil => exact List.nodup_nil
  | append_singleton calls call ih =>
      rw [after_snoc, handle_eq]
      cases (after A calls).effect A call.2 with
      | sent => exact nodup_setKey ih _ _
      | forwarded => exact ih
      | received => exact nodup_setKey ih _ _
      | dropped => exact nodup_setKey ih _ _
      | checked => exact nodup_countLost ih _
      | ignored => exact ih

theorem length_noted_le {β γ : Type} {A : Attributes} {note : FlowMonitor n → ℤ → Effect n → List β}
    {note' : FlowMonitor n → ℤ → Effect n → List γ}
    (le : ∀ m now effect, (note m now effect).length ≤ (note' m now effect).length)
    (calls : List (ℤ × Call n)) : (noted A note calls).length ≤ (noted A note' calls).length := by
  induction calls using List.reverseRecOn with
  | nil => exact le_rfl
  | append_singleton calls call ih =>
      rw [noted_snoc, noted_snoc, List.length_append, List.length_append]
      exact Nat.add_le_add ih (le _ _ _)

/-- A stray drop is a drop. -/
theorem length_strayDrops_le (A : Attributes) (flowId : ℕ) (calls : List (ℤ × Call n)) :
    (strayDrops A flowId calls).length ≤ (drops A flowId calls).length := by
  refine length_noted_le (fun m now effect => ?_) calls
  cases effect with
  | dropped probe f packetId packetSize reasonCode =>
      unfold strayDropOf dropOf
      dsimp only
      by_cases both : f = flowId ∧ (f, packetId) ∉ m.keys
      · rw [if_pos both, if_pos both.1]
        exact le_rfl
      · rw [if_neg both]
        exact Nat.zero_le _
  | _ => exact le_rfl

end FlowMonitor

/-- No flow receives more packets than it has sent. -/
theorem rxPackets_le_txPackets {n : ℕ} {s : FlowProbes n} (reached : s.Reached)
    (room : s.calls.length < 2 ^ 32) (A : Attributes) (flowId : ℕ) :
    ((after A s.calls).getStatsForFlow A flowId).rxPackets ≤
      ((after A s.calls).getStatsForFlow A flowId).txPackets := by
  have conserved := FlowProbes.conserved_of_reached reached room A flowId
  have lost := (lost_of_run A flowId s.calls).lostPackets
  have stray := length_strayDrops_le A flowId s.calls
  omega

/-! ## What is printed -/

/-- A percentage. -/
theorem percentage_mem {tx rx : ℕ} (le : rx ≤ tx) :
    0 ≤ (if 0 < tx then (rx : ℚ) / tx * 100 else 0) ∧
      (if 0 < tx then (rx : ℚ) / tx * 100 else 0) ≤ 100 := by
  split
  · next pos =>
      have pos' : (0 : ℚ) < tx := by exact_mod_cast pos
      have le' : (rx : ℚ) / tx ≤ 1 := (div_le_one pos').mpr (by exact_mod_cast le)
      have nonneg : (0 : ℚ) ≤ (rx : ℚ) / tx := by positivity
      constructor <;> linarith
  · norm_num

theorem UeFlowStats.tputKbps_nonneg (simTime : ℚ) (ufs : UeFlowStats) : 0 ≤ ufs.tputKbps simTime := by
  unfold tputKbps
  split
  · next pos => positivity
  · exact le_rfl

/-- The total is taken without overflow when the sums fit. -/
theorem totalPdr_mem {rows : List UeFlowStats} (tx : (rows.map UeFlowStats.txPackets).sum < 2 ^ 32)
    (rx : (rows.map UeFlowStats.rxPackets).sum < 2 ^ 32) (received : ∀ u ∈ rows, u.rxPackets ≤ u.txPackets) :
    0 ≤ totalPdr rows ∧ totalPdr rows ≤ 100 := by
  unfold totalPdr
  rw [foldl_add_mod UeFlowStats.txPackets (2 ^ 32), foldl_add_mod UeFlowStats.rxPackets (2 ^ 32),
    Nat.mod_eq_of_lt tx, Nat.mod_eq_of_lt rx]
  exact percentage_mem (List.sum_le_sum received)

/-- A sum of delays in whole milliseconds. -/
theorem getMilliSeconds_mem {time : ℤ} (nonneg : 0 ≤ time) :
    1000 * getSeconds time - 1 < getMilliSeconds time ∧
      (getMilliSeconds time : ℚ) ≤ 1000 * getSeconds time := by
  have quotient : getMilliSeconds time = time / 1000000 := Int.tdiv_eq_ediv_of_nonneg nonneg
  have lower : time < (time / 1000000 + 1) * 1000000 := Int.lt_ediv_add_one_mul_self time (by norm_num)
  have upper : time / 1000000 * 1000000 ≤ time := Int.ediv_mul_le time (by norm_num)
  have lower' : (time : ℚ) < ((time / 1000000 : ℤ) + 1) * 1000000 := by exact_mod_cast lower
  have upper' : ((time / 1000000 : ℤ) : ℚ) * 1000000 ≤ time := by exact_mod_cast upper
  rw [quotient]
  unfold getSeconds
  constructor <;> linarith

/-- Delays that are summed flow by flow in whole milliseconds. -/
theorem sum_getMilliSeconds_mem {flows : List FlowStats} (nonneg : ∀ fs ∈ flows, 0 ≤ fs.delaySum) :
    (flows.map fun fs => 1000 * getSeconds fs.delaySum).sum - flows.length ≤
        (flows.map fun fs => (getMilliSeconds fs.delaySum : ℚ)).sum ∧
      (flows.map fun fs => (getMilliSeconds fs.delaySum : ℚ)).sum ≤
        (flows.map fun fs => 1000 * getSeconds fs.delaySum).sum := by
  induction flows with
  | nil => simp
  | cons fs flows ih =>
      obtain ⟨lower, upper⟩ := ih fun fs member => nonneg fs (List.mem_cons_of_mem _ member)
      obtain ⟨lower', upper'⟩ := getMilliSeconds_mem (nonneg fs List.mem_cons_self)
      simp only [List.map_cons, List.sum_cons, List.length_cons]
      push_cast
      constructor <;> linarith

/-- What `main` prints of the traffic of a UE with the given flows. -/
structure Breakdown (simTime : ℚ) (flows : List FlowStats) (u : UeFlowStats) : Prop where
  sums : Sums flows u
  received : u.rxPackets ≤ u.txPackets
  uePdr : 0 ≤ u.uePdr ∧ u.uePdr ≤ 100
  tputKbps : 0 ≤ u.tputKbps simTime
  ueLatency : 0 < u.rxPackets →
    ((flows.map fun fs => 1000 * getSeconds fs.delaySum).sum - flows.length) / u.rxPackets ≤ u.ueLatency ∧
      u.ueLatency ≤ (flows.map fun fs => 1000 * getSeconds fs.delaySum).sum / u.rxPackets

theorem breakdown_of_sums {flows : List FlowStats} {u : UeFlowStats} (simTime : ℚ) (sums : Sums flows u)
    (received : ∀ fs ∈ flows, fs.rxPackets ≤ fs.txPackets) (nonneg : ∀ fs ∈ flows, 0 ≤ fs.delaySum) :
    Breakdown simTime flows u := by
  have le : u.rxPackets ≤ u.txPackets := by
    rw [sums.rxPackets, sums.txPackets]
    exact List.sum_le_sum received
  refine ⟨sums, le, percentage_mem le, u.tputKbps_nonneg simTime, fun pos => ?_⟩
  have pos' : (0 : ℚ) < u.rxPackets := by exact_mod_cast pos
  obtain ⟨lower, upper⟩ := sum_getMilliSeconds_mem nonneg
  unfold UeFlowStats.ueLatency
  rw [if_pos pos, sums.delayMsTotal]
  exact ⟨div_le_div_of_nonneg_right lower pos'.le, div_le_div_of_nonneg_right upper pos'.le⟩

/-- **The table of the UEs.** Every flow has a tuple, so the sums are taken to the end, and none overflows;
the delivery ratios are percentages, in each row and in total, and the latencies are mean delays, up to a
millisecond for each flow of the UE. -/
theorem ueFlowStats_of_reached {m n : ℕ} {s : FlowProbes m} (reached : s.Reached)
    (room : s.calls.length < 2 ^ 32) (A : Attributes) (ordered : s.calls.Pairwise fun a b => a.1 ≤ b.1) (simTime : ℚ) :
    ∃ rows, aggregate n s.classifier (after A s.calls).flowStats = some rows ∧ rows.length = n ∧
      (∀ i u, rows[i]? = some u →
        Breakdown simTime (flowsOf n s.classifier i (after A s.calls).flowStats) u) ∧
      0 ≤ totalPdr rows ∧ totalPdr rows ≤ 100 := by
  have within := within_of_run A s.calls
  have tx := within.txPackets.trans_lt room
  have rx := within.rxPackets.trans_lt room
  have lost := ((Nat.le_add_right _ _).trans within.lostPackets).trans_lt room
  have nodup := nodup_flowStats_of_run A s.calls
  have stats : ∀ kv ∈ (after A s.calls).flowStats,
      (after A s.calls).getStatsForFlow A kv.1 = kv.2 := by
    intro kv member
    unfold getStatsForFlow
    rw [lookup_of_mem nodup member]
    rfl
  have known : ∀ kv ∈ (after A s.calls).flowStats, s.classifier.findFlow kv.1 ≠ none := by
    intro kv member
    obtain ⟨tuple, found, -⟩ := FlowProbes.findFlow_of_known reached room A (by
      rw [lookup_of_mem nodup member]
      exact Option.some_ne_none _)
    rw [found]
    exact Option.some_ne_none _
  obtain ⟨rows, folded, length, each⟩ := foldlM_countFlow (n := n) known (List.replicate n {})
  rw [List.length_replicate] at length
  have flows : ∀ i, ∀ fs ∈ flowsOf n s.classifier i (after A s.calls).flowStats,
      fs.rxPackets ≤ fs.txPackets ∧ 0 ≤ fs.delaySum := by
    intro i fs member
    obtain ⟨kv, inside, rfl⟩ := List.mem_map.mp member
    rw [← stats kv (List.mem_filter.mp inside).1]
    refine ⟨rxPackets_le_txPackets reached room A kv.1, ?_⟩
    rw [(describes_of_run A kv.1 s.calls).delaySum]
    refine List.sum_nonneg fun delay member => ?_
    obtain ⟨r, received, rfl⟩ := List.mem_map.mp member
    exact (genuine_of_run A kv.1 s.calls r received).delayed ordered
  have breakdown : ∀ i u, rows[i]? = some u →
      Breakdown simTime (flowsOf n s.classifier i (after A s.calls).flowStats) u := by
    intro i u here
    rw [each i] at here
    obtain ⟨new, start, rfl⟩ := Option.map_eq_some_iff.mp here
    obtain rfl := List.eq_of_mem_replicate (List.mem_of_getElem? start)
    have sums : Sums (flowsOf n s.classifier i (after A s.calls).flowStats) _ :=
      sums_foldl ((sum_flowsOf_le _ i).trans_lt tx) ((sum_flowsOf_le _ i).trans_lt rx)
        ((sum_flowsOf_le _ i).trans_lt lost)
    exact breakdown_of_sums simTime sums (fun fs member => (flows i fs member).1)
      fun fs member => (flows i fs member).2
  have empty : ∀ field : UeFlowStats → ℕ, field {} = 0 →
      ((List.replicate n ({} : UeFlowStats)).map field).sum = 0 := by
    intro field start
    rw [List.map_replicate, start, List.sum_replicate_nat, Nat.mul_zero]
  have txRows := sum_foldlM_countFlow_le UeFlowStats.txPackets FlowStats.txPackets
    (fun _ _ => Nat.mod_le _ _) folded
  have rxRows := sum_foldlM_countFlow_le UeFlowStats.rxPackets FlowStats.rxPackets
    (fun _ _ => Nat.mod_le _ _) folded
  rw [empty UeFlowStats.txPackets rfl, Nat.zero_add] at txRows
  rw [empty UeFlowStats.rxPackets rfl, Nat.zero_add] at rxRows
  refine ⟨rows, folded, length, breakdown, totalPdr_mem (txRows.trans_lt tx) (rxRows.trans_lt rx) ?_⟩
  intro u member
  obtain ⟨i, here⟩ := List.mem_iff_getElem?.mp member
  exact (breakdown i u here).received

theorem ueFlowStats_of_reached_sample :
    ∃ s, FlowProbes.run FlowProbes.sampleTraces = some s ∧
      ∃ rows, aggregate 2 s.classifier (after {} s.calls).flowStats = some rows ∧ rows.length = 2 ∧
        (∀ i u, rows[i]? = some u →
          Breakdown 20 (flowsOf 2 s.classifier i (after {} s.calls).flowStats) u) ∧
        0 ≤ totalPdr rows ∧ totalPdr rows ≤ 100 := by
  have ran : (FlowProbes.run FlowProbes.sampleTraces).map (fun s => s.calls.map Prod.fst) =
      some [0, 1000000000, 1020000000, 2000000000, 13000000000, 14000000000] := by decide +kernel
  obtain ⟨s, runs, times⟩ := Option.map_eq_some_iff.mp ran
  have ordered : (s.calls.map Prod.fst).Pairwise (fun a b => a ≤ b) := by
    rw [times]
    decide
  have length : s.calls.length = 6 := by
    have counted := congrArg List.length times
    rwa [List.length_map] at counted
  exact ⟨s, runs, ueFlowStats_of_reached (FlowProbes.reached_of_run runs) (by rw [length]; norm_num) {}
    (List.pairwise_map.mp ordered) 20⟩

end NtnCho
