import NtnCho.Frames.Bins
import NtnCho.Frames.Groups
import NtnCho.Simulator

/-!
# FlowMonitor

The monitor that counts what the flows of a simulation send, receive and lose. The probes of the nodes
report each packet when it is sent, forwarded, received and dropped; packets that are on their way are
tracked. The doubles of the monitor are rationals here, so that a value is in the bin of its exact quotient by
the width. `FlowCounters` says why no counter of packets overflows.

`effect` says what a call does, and `handle_eq` that it does nothing else. The statistics of a flow
describe its receptions, and the histograms tally them (`describes_of_run`).
-/

namespace NtnCho

open Frames

/-! ## The data -/

/-- `packetsDropped` and `bytesDropped`, by the reason of the drop. -/
structure DropCounters where
  packetsDropped : List ℕ := []
  bytesDropped : List ℕ := []
  sameLength : packetsDropped.length = bytesDropped.length := by rfl

/-- Both vectors are made long enough for the reason, and count the packet. -/
def DropCounters.add (reasonCode packetSize : ℕ) (d : DropCounters) : DropCounters where
  packetsDropped :=
    (if d.packetsDropped.length < reasonCode + 1 then resize (reasonCode + 1) d.packetsDropped
      else d.packetsDropped).modify reasonCode (· + 1)
  bytesDropped :=
    (if d.packetsDropped.length < reasonCode + 1 then resize (reasonCode + 1) d.bytesDropped
      else d.bytesDropped).modify reasonCode (· + packetSize)
  sameLength := by
    rw [List.length_modify, List.length_modify]
    split
    · rw [length_resize, length_resize]
    · exact d.sameLength

theorem DropCounters.packetsDropped_add (reasonCode packetSize : ℕ) (d : DropCounters) :
    (d.add reasonCode packetSize).packetsDropped = addAt reasonCode 1 d.packetsDropped := rfl

theorem DropCounters.bytesDropped_add (reasonCode packetSize : ℕ) (d : DropCounters) :
    (d.add reasonCode packetSize).bytesDropped = addAt reasonCode packetSize d.bytesDropped := by
  unfold add addAt
  dsimp only
  rw [d.sameLength]

/-- `Histogram` -/
structure Histogram where
  histogram : List ℕ := []
  binWidth : ℚ

namespace Histogram

def getBinStart (index : ℕ) (hist : Histogram) : ℚ := index * hist.binWidth

def getBinEnd (index : ℕ) (hist : Histogram) : ℚ := (index + 1) * hist.binWidth

/-- `AddValue`, with the exact quotient. -/
def addValue (value : ℚ) (hist : Histogram) : Histogram :=
  { hist with histogram := addAt (binOf hist.binWidth value) 1 hist.histogram }

/-- The values that were added to a histogram. -/
def Holds (hist : Histogram) (binWidth : ℚ) (values : List ℚ) : Prop :=
  hist.binWidth = binWidth ∧ Tallies binWidth hist.histogram values

variable {hist : Histogram} {binWidth : ℚ} {values : List ℚ}

theorem holds_empty (binWidth : ℚ) : (Histogram.mk [] binWidth).Holds binWidth [] :=
  ⟨rfl, tallies_nil binWidth⟩

theorem Holds.addValue (holds : hist.Holds binWidth values) (value : ℚ) :
    (hist.addValue value).Holds binWidth (values ++ [value]) := by
  obtain ⟨rfl, tallies⟩ := holds
  exact ⟨rfl, tallies.snoc value⟩

end Histogram

namespace FlowMonitor

/-- The attributes of the monitor. -/
structure Attributes where
  maxPerHopDelay : ℤ := seconds 10
  delayBinWidth : ℚ := 0.001
  jitterBinWidth : ℚ := 0.001
  packetSizeBinWidth : ℚ := 20
  flowInterruptionsBinWidth : ℚ := 0.25
  flowInterruptionsMinTime : ℤ := seconds 0.5

/-- `FlowMonitor::FlowStats` -/
structure FlowStats extends DropCounters where
  timeFirstTxPacket : ℤ := 0
  timeFirstRxPacket : ℤ := 0
  timeLastTxPacket : ℤ := 0
  timeLastRxPacket : ℤ := 0
  delaySum : ℤ := 0
  jitterSum : ℤ := 0
  lastDelay : ℤ := 0
  txBytes : ℕ := 0
  rxBytes : ℕ := 0
  txPackets : ℕ := 0
  rxPackets : ℕ := 0
  lostPackets : ℕ := 0
  timesForwarded : ℕ := 0
  delayHistogram : Histogram
  jitterHistogram : Histogram
  packetSizeHistogram : Histogram
  flowInterruptionsHistogram : Histogram

/-- What `GetStatsForFlow` makes for a new flow. -/
def Attributes.newStats (A : Attributes) : FlowStats where
  delayHistogram := { binWidth := A.delayBinWidth }
  jitterHistogram := { binWidth := A.jitterBinWidth }
  packetSizeHistogram := { binWidth := A.packetSizeBinWidth }
  flowInterruptionsHistogram := { binWidth := A.flowInterruptionsBinWidth }

/-- `FlowProbe::FlowStats` -/
structure ProbeStats extends DropCounters where
  delayFromFirstProbeSum : ℤ := 0
  bytes : ℕ := 0
  packets : ℕ := 0

structure TrackedPacket where
  firstSeenTime : ℤ
  lastSeenTime : ℤ
  timesForwarded : ℕ

end FlowMonitor

open FlowMonitor

/-- The monitor of `n` nodes with a probe each. -/
structure FlowMonitor (n : ℕ) where
  enabled : Bool := false
  flowStats : List (ℕ × FlowStats) := []
  trackedPackets : List ((ℕ × ℕ) × TrackedPacket) := []
  probes : Fin n → ℕ → ProbeStats := fun _ _ => {}

namespace FlowMonitor

/-! ## The operations -/

variable {n : ℕ}

/-- `GetStatsForFlow` -/
def getStatsForFlow (A : Attributes) (flowId : ℕ) (m : FlowMonitor n) : FlowStats :=
  (m.flowStats.lookup flowId).getD A.newStats

/-- What `GetStatsForFlow` returns is changed. -/
def updateStats (A : Attributes) (flowId : ℕ) (update : FlowStats → FlowStats) (m : FlowMonitor n) :
    FlowMonitor n :=
  { m with flowStats := setKey flowId (update (m.getStatsForFlow A flowId)) m.flowStats }

/-- `m_stats[flowId]` of a probe is changed. -/
def updateProbe (probe : Fin n) (flowId : ℕ) (update : ProbeStats → ProbeStats) (m : FlowMonitor n) :
    FlowMonitor n :=
  { m with probes := fun p f => if p = probe ∧ f = flowId then update (m.probes p f) else m.probes p f }

def ProbeStats.count (packetSize : ℕ) (delayFromFirstProbe : ℤ) (flow : ProbeStats) : ProbeStats :=
  { flow with
    delayFromFirstProbeSum := flow.delayFromFirstProbeSum + delayFromFirstProbe
    bytes := flow.bytes + packetSize
    packets := flow.packets + 1 }

/-- `FlowProbe::AddPacketStats` -/
def addPacketStats (probe : Fin n) (flowId packetSize : ℕ) (delayFromFirstProbe : ℤ) :
    FlowMonitor n → FlowMonitor n :=
  updateProbe probe flowId (ProbeStats.count packetSize delayFromFirstProbe)

def ProbeStats.drop (packetSize reasonCode : ℕ) (flow : ProbeStats) : ProbeStats :=
  { flow with toDropCounters := flow.toDropCounters.add reasonCode packetSize }

/-- `FlowProbe::AddPacketDropStats` -/
def addPacketDropStats (probe : Fin n) (flowId packetSize reasonCode : ℕ) :
    FlowMonitor n → FlowMonitor n :=
  updateProbe probe flowId (ProbeStats.drop packetSize reasonCode)

def erase (key : ℕ × ℕ) (m : FlowMonitor n) : FlowMonitor n :=
  { m with trackedPackets := m.trackedPackets.filter fun tracked => tracked.1 ≠ key }

/-- A packet is sent. -/
def FlowStats.firstTx (now : ℤ) (packetSize : ℕ) (stats : FlowStats) : FlowStats :=
  { stats with
    txBytes := stats.txBytes + packetSize
    txPackets := stats.txPackets + 1
    timeFirstTxPacket := if stats.txPackets + 1 = 1 then now else stats.timeFirstTxPacket
    timeLastTxPacket := now }

def sent (A : Attributes) (now : ℤ) (probe : Fin n) (flowId packetId packetSize : ℕ)
    (m : FlowMonitor n) : FlowMonitor n :=
  { m with trackedPackets := setKey (flowId, packetId) ⟨now, now, 0⟩ m.trackedPackets }
    |>.addPacketStats probe flowId packetSize 0
    |>.updateStats A flowId (FlowStats.firstTx now packetSize)

def reportFirstTx (A : Attributes) (now : ℤ) (probe : Fin n) (flowId packetId packetSize : ℕ)
    (m : FlowMonitor n) : FlowMonitor n :=
  if m.enabled then m.sent A now probe flowId packetId packetSize else m

/-- A tracked packet is forwarded. -/
def forwarded (now : ℤ) (probe : Fin n) (flowId packetId packetSize : ℕ) (tracked : TrackedPacket)
    (m : FlowMonitor n) : FlowMonitor n :=
  { m with
    trackedPackets := setKey (flowId, packetId)
      { tracked with timesForwarded := tracked.timesForwarded + 1, lastSeenTime := now }
      m.trackedPackets }
    |>.addPacketStats probe flowId packetSize (now - tracked.firstSeenTime)

def reportForwarding (now : ℤ) (probe : Fin n) (flowId packetId packetSize : ℕ) (m : FlowMonitor n) :
    FlowMonitor n :=
  if m.enabled then
    match m.trackedPackets.lookup (flowId, packetId) with
    | none => m
    | some tracked => m.forwarded now probe flowId packetId packetSize tracked
  else m

/-- The delay of a received packet, and what it differs from the last one. -/
def FlowStats.delayed (delay : ℤ) (stats : FlowStats) : FlowStats :=
  let jitter := stats.lastDelay - delay
  let stats :=
    { stats with
      delaySum := stats.delaySum + delay
      delayHistogram := stats.delayHistogram.addValue (getSeconds delay) }
  let stats :=
    if 0 < stats.rxPackets then
      if 0 < jitter then
        { stats with
          jitterSum := stats.jitterSum + jitter
          jitterHistogram := stats.jitterHistogram.addValue (getSeconds jitter) }
      else
        { stats with
          jitterSum := stats.jitterSum - jitter
          jitterHistogram := stats.jitterHistogram.addValue (-getSeconds jitter) }
    else stats
  { stats with lastDelay := delay }

/-- The arrival of a received packet, and the time since the last one. -/
def FlowStats.arrived (A : Attributes) (now : ℤ) (packetSize timesForwarded : ℕ) (stats : FlowStats) :
    FlowStats :=
  let stats :=
    { stats with
      rxBytes := stats.rxBytes + packetSize
      packetSizeHistogram := stats.packetSizeHistogram.addValue packetSize
      rxPackets := stats.rxPackets + 1 }
  let stats :=
    if stats.rxPackets = 1 then { stats with timeFirstRxPacket := now }
    else
      let interArrivalTime := now - stats.timeLastRxPacket
      if A.flowInterruptionsMinTime < interArrivalTime then
        { stats with
          flowInterruptionsHistogram :=
            stats.flowInterruptionsHistogram.addValue (getSeconds interArrivalTime) }
      else stats
  { stats with
    timeLastRxPacket := now
    timesForwarded := stats.timesForwarded + timesForwarded }

/-- A tracked packet is received. -/
def received (A : Attributes) (now : ℤ) (probe : Fin n) (flowId packetId packetSize : ℕ)
    (tracked : TrackedPacket) (m : FlowMonitor n) : FlowMonitor n :=
  let delay := now - tracked.firstSeenTime
  m.addPacketStats probe flowId packetSize delay
    |>.updateStats A flowId (fun stats =>
      (stats.delayed delay).arrived A now packetSize tracked.timesForwarded)
    |>.erase (flowId, packetId)

def reportLastRx (A : Attributes) (now : ℤ) (probe : Fin n) (flowId packetId packetSize : ℕ)
    (m : FlowMonitor n) : FlowMonitor n :=
  if m.enabled then
    match m.trackedPackets.lookup (flowId, packetId) with
    | none => m
    | some tracked => m.received A now probe flowId packetId packetSize tracked
  else m

/-- A packet is dropped. -/
def FlowStats.drop (packetSize reasonCode : ℕ) (stats : FlowStats) : FlowStats :=
  { stats with
    lostPackets := stats.lostPackets + 1
    toDropCounters := stats.toDropCounters.add reasonCode packetSize }

def dropped (A : Attributes) (probe : Fin n) (flowId packetId packetSize reasonCode : ℕ)
    (m : FlowMonitor n) : FlowMonitor n :=
  m.addPacketDropStats probe flowId packetSize reasonCode
    |>.updateStats A flowId (FlowStats.drop packetSize reasonCode)
    |>.erase (flowId, packetId)

def reportDrop (A : Attributes) (probe : Fin n) (flowId packetId packetSize reasonCode : ℕ)
    (m : FlowMonitor n) : FlowMonitor n :=
  if m.enabled then m.dropped A probe flowId packetId packetSize reasonCode else m

/-- A tracked packet is counted as lost. The flow is asserted to be there. -/
def countLost (tracked : (ℕ × ℕ) × TrackedPacket) (flowStats : List (ℕ × FlowStats)) :
    List (ℕ × FlowStats) :=
  match flowStats.lookup tracked.1.1 with
  | none => flowStats
  | some stats => setKey tracked.1.1 { stats with lostPackets := stats.lostPackets + 1 } flowStats

/-- `CheckForLostPackets (maxDelay)` -/
def checkForLostPackets (now maxDelay : ℤ) (m : FlowMonitor n) : FlowMonitor n :=
  { m with
    flowStats := (m.trackedPackets.filter fun tracked =>
      maxDelay ≤ now - tracked.2.lastSeenTime).foldl (fun stats tracked => countLost tracked stats)
        m.flowStats
    trackedPackets := m.trackedPackets.filter fun tracked => ¬ maxDelay ≤ now - tracked.2.lastSeenTime }

def startRightNow (m : FlowMonitor n) : FlowMonitor n := { m with enabled := true }

def stopRightNow (A : Attributes) (now : ℤ) (m : FlowMonitor n) : FlowMonitor n :=
  if m.enabled then { m with enabled := false }.checkForLostPackets now A.maxPerHopDelay else m

/-- The calls that a monitor gets. `ResetAllStats`, which no program of the repository calls, is not among
them. -/
inductive Call (n : ℕ)
  | firstTx (probe : Fin n) (flowId packetId packetSize : ℕ)
  | forwarding (probe : Fin n) (flowId packetId packetSize : ℕ)
  | lastRx (probe : Fin n) (flowId packetId packetSize : ℕ)
  | drop (probe : Fin n) (flowId packetId packetSize reasonCode : ℕ)
  | checkForLostPackets (maxDelay : ℤ)
  | startRightNow
  | stopRightNow

/-- A call at `now`. -/
def handle (A : Attributes) (now : ℤ) (call : Call n) (m : FlowMonitor n) : FlowMonitor n :=
  match call with
  | .firstTx probe flowId packetId packetSize => m.reportFirstTx A now probe flowId packetId packetSize
  | .forwarding probe flowId packetId packetSize => m.reportForwarding now probe flowId packetId packetSize
  | .lastRx probe flowId packetId packetSize => m.reportLastRx A now probe flowId packetId packetSize
  | .drop probe flowId packetId packetSize reasonCode =>
      m.reportDrop A probe flowId packetId packetSize reasonCode
  | .checkForLostPackets maxDelay => m.checkForLostPackets now maxDelay
  | .startRightNow => m.startRightNow
  | .stopRightNow => m.stopRightNow A now

/-- The monitor after some calls. -/
def after (A : Attributes) (calls : List (ℤ × Call n)) : FlowMonitor n :=
  calls.foldl (fun m call => m.handle A call.1 call.2) {}

theorem after_snoc (A : Attributes) (calls : List (ℤ × Call n)) (now : ℤ) (call : Call n) :
    after A (calls ++ [(now, call)]) = (after A calls).handle A now call := by
  unfold after
  rw [List.foldl_append]
  rfl

/-! ## What a call does

A call is ignored while the monitor is not enabled, and when it is about a packet that is received or
forwarded but not tracked. -/

inductive Effect (n : ℕ)
  | sent (probe : Fin n) (flowId packetId packetSize : ℕ)
  | forwarded (probe : Fin n) (flowId packetId packetSize : ℕ) (tracked : TrackedPacket)
  | received (probe : Fin n) (flowId packetId packetSize : ℕ) (tracked : TrackedPacket)
  | dropped (probe : Fin n) (flowId packetId packetSize reasonCode : ℕ)
  | checked (enabled : Bool) (maxDelay : ℤ)
  | ignored (enabled : Bool)

def effect (A : Attributes) (m : FlowMonitor n) : Call n → Effect n
  | .firstTx probe flowId packetId packetSize =>
      if m.enabled then .sent probe flowId packetId packetSize else .ignored m.enabled
  | .forwarding probe flowId packetId packetSize =>
      if m.enabled then
        match m.trackedPackets.lookup (flowId, packetId) with
        | none => .ignored m.enabled
        | some tracked => .forwarded probe flowId packetId packetSize tracked
      else .ignored m.enabled
  | .lastRx probe flowId packetId packetSize =>
      if m.enabled then
        match m.trackedPackets.lookup (flowId, packetId) with
        | none => .ignored m.enabled
        | some tracked => .received probe flowId packetId packetSize tracked
      else .ignored m.enabled
  | .drop probe flowId packetId packetSize reasonCode =>
      if m.enabled then .dropped probe flowId packetId packetSize reasonCode else .ignored m.enabled
  | .checkForLostPackets maxDelay => .checked m.enabled maxDelay
  | .startRightNow => .ignored true
  | .stopRightNow => if m.enabled then .checked false A.maxPerHopDelay else .ignored m.enabled

def apply (A : Attributes) (now : ℤ) (m : FlowMonitor n) : Effect n → FlowMonitor n
  | .sent probe flowId packetId packetSize => m.sent A now probe flowId packetId packetSize
  | .forwarded probe flowId packetId packetSize tracked =>
      m.forwarded now probe flowId packetId packetSize tracked
  | .received probe flowId packetId packetSize tracked =>
      m.received A now probe flowId packetId packetSize tracked
  | .dropped probe flowId packetId packetSize reasonCode =>
      m.dropped A probe flowId packetId packetSize reasonCode
  | .checked enabled maxDelay => { m with enabled := enabled }.checkForLostPackets now maxDelay
  | .ignored enabled => { m with enabled := enabled }

theorem handle_eq (A : Attributes) (now : ℤ) (call : Call n) (m : FlowMonitor n) :
    m.handle A now call = m.apply A now (m.effect A call) := by
  cases call with
  | firstTx =>
      unfold handle reportFirstTx effect
      dsimp only
      split <;> rfl
  | forwarding =>
      unfold handle reportForwarding effect
      dsimp only
      split
      · split <;> rfl
      · rfl
  | lastRx =>
      unfold handle reportLastRx effect
      dsimp only
      split
      · split <;> rfl
      · rfl
  | drop =>
      unfold handle reportDrop effect
      dsimp only
      split <;> rfl
  | checkForLostPackets => rfl
  | startRightNow => rfl
  | stopRightNow =>
      unfold handle stopRightNow effect
      dsimp only
      split <;> rfl

/-- Where an effect comes from: the call, and the tracked packet that it is about. -/
def Effect.Of (m : FlowMonitor n) (call : Call n) : Effect n → Prop
  | .sent probe flowId packetId packetSize => call = .firstTx probe flowId packetId packetSize
  | .forwarded probe flowId packetId packetSize tracked =>
      call = .forwarding probe flowId packetId packetSize ∧
        m.trackedPackets.lookup (flowId, packetId) = some tracked
  | .received probe flowId packetId packetSize tracked =>
      call = .lastRx probe flowId packetId packetSize ∧
        m.trackedPackets.lookup (flowId, packetId) = some tracked
  | .dropped probe flowId packetId packetSize reasonCode =>
      call = .drop probe flowId packetId packetSize reasonCode
  | .checked _ _ => True
  | .ignored _ => True

theorem of_effect (A : Attributes) (m : FlowMonitor n) (call : Call n) :
    (m.effect A call).Of m call := by
  cases call with
  | firstTx =>
      unfold effect
      dsimp only
      split
      · rfl
      · trivial
  | forwarding =>
      unfold effect
      dsimp only
      split
      · split
        · trivial
        · next found => exact ⟨rfl, found⟩
      · trivial
  | lastRx =>
      unfold effect
      dsimp only
      split
      · split
        · trivial
        · next found => exact ⟨rfl, found⟩
      · trivial
  | drop =>
      unfold effect
      dsimp only
      split
      · rfl
      · trivial
  | checkForLostPackets => trivial
  | startRightNow => trivial
  | stopRightNow =>
      unfold effect
      dsimp only
      split <;> trivial

/-- What is noted of the effects of the calls, each in the state that the call finds. -/
def noted {β : Type} (A : Attributes) (note : FlowMonitor n → ℤ → Effect n → List β)
    (calls : List (ℤ × Call n)) : List β :=
  (calls.foldl (fun (m, notes) call =>
    (m.handle A call.1 call.2, notes ++ note m call.1 (m.effect A call.2)))
      (({} : FlowMonitor n), ([] : List β))).2

theorem noted_snoc {β : Type} (A : Attributes) (note : FlowMonitor n → ℤ → Effect n → List β)
    (calls : List (ℤ × Call n)) (now : ℤ) (call : Call n) :
    noted A note (calls ++ [(now, call)]) =
      noted A note calls ++ note (after A calls) now ((after A calls).effect A call) := by
  have state : ∀ calls : List (ℤ × Call n), (calls.foldl (fun (m, notes) call =>
      (m.handle A call.1 call.2, notes ++ note m call.1 (m.effect A call.2)))
        (({} : FlowMonitor n), ([] : List β))).1 = after A calls := by
    intro calls
    induction calls using List.reverseRecOn with
    | nil => rfl
    | append_singleton calls call ih =>
        rw [List.foldl_append, after_snoc, ← ih]
        rfl
  unfold noted
  rw [List.foldl_append, ← state calls]
  rfl

/-! ## The statistics of a flow -/

section Stats

variable {A : Attributes} {m : FlowMonitor n} {flowId : ℕ}

@[simp] theorem getStatsForFlow_updateStats (f : ℕ) (update : FlowStats → FlowStats) :
    (m.updateStats A flowId update).getStatsForFlow A f =
      if f = flowId then update (m.getStatsForFlow A flowId) else m.getStatsForFlow A f := by
  unfold getStatsForFlow updateStats
  dsimp only
  rw [lookup_setKey]
  split <;> rfl

@[simp] theorem getStatsForFlow_updateProbe (probe : Fin n) (f : ℕ) (update : ProbeStats → ProbeStats) :
    (m.updateProbe probe f update).getStatsForFlow A flowId = m.getStatsForFlow A flowId := rfl

@[simp] theorem flowStats_erase (key : ℕ × ℕ) : (m.erase key).flowStats = m.flowStats := rfl

@[simp] theorem getStatsForFlow_erase (key : ℕ × ℕ) :
    (m.erase key).getStatsForFlow A flowId = m.getStatsForFlow A flowId := rfl

end Stats

/-! ## What the statistics describe -/

/-- A packet that was received. -/
structure Reception where
  sent : ℤ
  received : ℤ
  packetSize : ℕ
  timesForwarded : ℕ

namespace Reception

def delay (r : Reception) : ℤ := r.received - r.sent

/-- How much the delay changes from one reception to the next. -/
def jitter (r : Reception × Reception) : ℤ := |r.1.delay - r.2.delay|

/-- The time between two receptions. -/
def interArrivalTime (r : Reception × Reception) : ℤ := r.2.received - r.1.received

end Reception

/-- The statistics of a flow with the given receptions. -/
structure Describes (A : Attributes) (stats : FlowStats) (receptions : List Reception) : Prop where
  rxPackets : stats.rxPackets = receptions.length
  rxBytes : stats.rxBytes = (receptions.map Reception.packetSize).sum
  timesForwarded : stats.timesForwarded = (receptions.map Reception.timesForwarded).sum
  timeFirstRxPacket : ∀ r ∈ receptions.head?, stats.timeFirstRxPacket = r.received
  timeLastRxPacket : ∀ r ∈ receptions.getLast?, stats.timeLastRxPacket = r.received
  lastDelay : ∀ r ∈ receptions.getLast?, stats.lastDelay = r.delay
  delaySum : stats.delaySum = (receptions.map Reception.delay).sum
  jitterSum : stats.jitterSum = ((pairs receptions).map Reception.jitter).sum
  delays : stats.delayHistogram.Holds A.delayBinWidth
    (receptions.map fun r => getSeconds r.delay)
  jitters : stats.jitterHistogram.Holds A.jitterBinWidth
    ((pairs receptions).map fun r => getSeconds (Reception.jitter r))
  packetSizes : stats.packetSizeHistogram.Holds A.packetSizeBinWidth
    (receptions.map fun r => (r.packetSize : ℚ))
  flowInterruptions : stats.flowInterruptionsHistogram.Holds A.flowInterruptionsBinWidth
    (((pairs receptions).filter fun r =>
      A.flowInterruptionsMinTime < Reception.interArrivalTime r).map fun r =>
        getSeconds (Reception.interArrivalTime r))

/-- Both branches add the absolute value of the jitter. -/
theorem FlowStats.delayed_next {stats : FlowStats} (some_packet : 0 < stats.rxPackets) (delay : ℤ) :
    stats.delayed delay =
      { stats with
        delaySum := stats.delaySum + delay
        delayHistogram := stats.delayHistogram.addValue (getSeconds delay)
        jitterSum := stats.jitterSum + |stats.lastDelay - delay|
        jitterHistogram := stats.jitterHistogram.addValue (getSeconds |stats.lastDelay - delay|)
        lastDelay := delay } := by
  unfold delayed
  simp only [some_packet, if_true]
  by_cases pos : 0 < stats.lastDelay - delay
  · rw [if_pos pos, abs_of_pos pos]
  · have neg : getSeconds (-(stats.lastDelay - delay)) = -getSeconds (stats.lastDelay - delay) := by
      unfold getSeconds
      push_cast
      ring
    rw [if_neg pos, abs_of_nonpos (not_lt.mp pos), neg, sub_eq_add_neg stats.jitterSum]

theorem FlowStats.arrived_next (A : Attributes) {stats : FlowStats} (some_packet : 0 < stats.rxPackets)
    (now : ℤ) (packetSize timesForwarded : ℕ) :
    stats.arrived A now packetSize timesForwarded =
      { stats with
        rxBytes := stats.rxBytes + packetSize
        packetSizeHistogram := stats.packetSizeHistogram.addValue packetSize
        rxPackets := stats.rxPackets + 1
        flowInterruptionsHistogram :=
          if A.flowInterruptionsMinTime < now - stats.timeLastRxPacket then
            stats.flowInterruptionsHistogram.addValue (getSeconds (now - stats.timeLastRxPacket))
          else stats.flowInterruptionsHistogram
        timeLastRxPacket := now
        timesForwarded := stats.timesForwarded + timesForwarded } := by
  have other : ¬ stats.rxPackets + 1 = 1 := by omega
  unfold arrived
  simp only [other, if_false]
  split <;> rfl

theorem describes_newStats (A : Attributes) : Describes A A.newStats [] where
  rxPackets := rfl
  rxBytes := rfl
  timesForwarded := rfl
  timeFirstRxPacket _ first := by cases first
  timeLastRxPacket _ last := by cases last
  lastDelay _ last := by cases last
  delaySum := rfl
  jitterSum := rfl
  delays := Histogram.holds_empty _
  jitters := Histogram.holds_empty _
  packetSizes := Histogram.holds_empty _
  flowInterruptions := Histogram.holds_empty _

namespace Describes

variable {A : Attributes} {stats stats' : FlowStats} {receptions : List Reception}

/-- Statistics of which only what concerns sending and losing changes. -/
theorem congr (describes : Describes A stats receptions)
    (same : stats' = { stats with
      toDropCounters := stats'.toDropCounters
      txBytes := stats'.txBytes
      txPackets := stats'.txPackets
      timeFirstTxPacket := stats'.timeFirstTxPacket
      timeLastTxPacket := stats'.timeLastTxPacket
      lostPackets := stats'.lostPackets }) : Describes A stats' receptions := by
  rw [same]
  exact ⟨describes.rxPackets, describes.rxBytes, describes.timesForwarded, describes.timeFirstRxPacket,
    describes.timeLastRxPacket, describes.lastDelay, describes.delaySum, describes.jitterSum,
    describes.delays, describes.jitters, describes.packetSizes, describes.flowInterruptions⟩

/-- The first reception of a flow. -/
theorem receive_first (describes : Describes A stats []) (r : Reception) :
    Describes A ((stats.delayed r.delay).arrived A r.received r.packetSize r.timesForwarded) [r] := by
  have none : stats.rxPackets = 0 := describes.rxPackets
  have delays := describes.delays.addValue (getSeconds r.delay)
  have sizes := describes.packetSizes.addValue r.packetSize
  have delaySum := describes.delaySum
  have rxBytes := describes.rxBytes
  have forwarded := describes.timesForwarded
  unfold FlowStats.arrived FlowStats.delayed
  simp only [none, lt_irrefl, if_false, zero_add, if_true]
  refine ⟨rfl, ?_, ?_, ?_, ?_, ?_, ?_, describes.jitterSum, delays, describes.jitters, sizes,
    describes.flowInterruptions⟩
  · simpa using rxBytes
  · simpa using forwarded
  · intro r' first
    obtain rfl := Option.some.inj first
    rfl
  · intro r' last
    obtain rfl := Option.some.inj last
    rfl
  · intro r' last
    obtain rfl := Option.some.inj last
    rfl
  · simpa using delaySum

/-- A reception after another one. -/
theorem receive_next {last : Reception} (describes : Describes A stats (receptions ++ [last]))
    (r : Reception) :
    Describes A ((stats.delayed r.delay).arrived A r.received r.packetSize r.timesForwarded)
      (receptions ++ [last] ++ [r]) := by
  have some_packet : 0 < stats.rxPackets := by
    rw [describes.rxPackets, List.length_append]
    exact Nat.succ_pos _
  have isLast : last ∈ (receptions ++ [last]).getLast? := List.getLast?_concat
  have lastDelay := describes.lastDelay last isLast
  have lastTime := describes.timeLastRxPacket last isLast
  have delays := describes.delays.addValue (getSeconds r.delay)
  have jitters := describes.jitters.addValue (getSeconds (Reception.jitter (last, r)))
  have sizes := describes.packetSizes.addValue r.packetSize
  rw [FlowStats.delayed_next some_packet, FlowStats.arrived_next A (by exact some_packet), lastDelay]
  refine ⟨?_, ?_, ?_, ?_, ?_, ?_, ?_, ?_, ?_, ?_, ?_, ?_⟩
  · rw [List.length_append, ← describes.rxPackets]
    rfl
  · rw [List.map_append, List.sum_append, ← describes.rxBytes]
    rfl
  · rw [List.map_append, List.sum_append, ← describes.timesForwarded]
    rfl
  · intro r' first
    refine describes.timeFirstRxPacket r' ?_
    rw [List.append_assoc, List.head?_append] at first
    rw [List.head?_append]
    cases here : receptions.head? with
    | none =>
        rw [here] at first
        exact first
    | some _ =>
        rw [here] at first
        exact first
  · intro r' isLast'
    rw [List.getLast?_concat] at isLast'
    obtain rfl := Option.some.inj isLast'
    rfl
  · intro r' isLast'
    rw [List.getLast?_concat] at isLast'
    obtain rfl := Option.some.inj isLast'
    rfl
  · rw [List.map_append, List.sum_append, ← describes.delaySum, List.map_singleton, List.sum_singleton]
  · rw [pairs_snoc, List.map_append, List.sum_append, ← describes.jitterSum, List.map_singleton,
      List.sum_singleton]
    rfl
  · rw [List.map_append]
    exact delays
  · rw [pairs_snoc, List.map_append]
    exact jitters
  · rw [List.map_append]
    exact sizes
  · rw [pairs_snoc, List.filter_append, List.map_append]
    dsimp only
    rw [lastTime]
    have gap : Reception.interArrivalTime (last, r) = r.received - last.received := rfl
    rw [← gap]
    by_cases interrupted : A.flowInterruptionsMinTime < Reception.interArrivalTime (last, r)
    · rw [if_pos interrupted, List.filter_cons_of_pos (by simpa using interrupted)]
      exact describes.flowInterruptions.addValue _
    · rw [if_neg interrupted, List.filter_cons_of_neg (by simpa using interrupted)]
      simpa using describes.flowInterruptions

theorem receive (describes : Describes A stats receptions) (r : Reception) :
    Describes A ((stats.delayed r.delay).arrived A r.received r.packetSize r.timesForwarded)
      (receptions ++ [r]) := by
  rcases List.eq_nil_or_concat receptions with rfl | ⟨before, last, rfl⟩
  · exact describes.receive_first r
  · rw [List.concat_eq_append] at describes ⊢
    exact describes.receive_next r

end Describes

/-! ## Lost packets -/

/-- Packets of the flow among some tracked packets. -/
def ofFlow (flowId : ℕ) (tracked : List ((ℕ × ℕ) × TrackedPacket)) : ℕ :=
  tracked.countP fun packet => packet.1.1 = flowId

theorem lookup_countLost (tracked : (ℕ × ℕ) × TrackedPacket) (flowStats : List (ℕ × FlowStats))
    (flowId : ℕ) :
    (countLost tracked flowStats).lookup flowId = (flowStats.lookup flowId).map fun stats =>
      { stats with lostPackets := stats.lostPackets + ofFlow flowId [tracked] } := by
  unfold countLost ofFlow
  by_cases here : tracked.1.1 = flowId
  · subst here
    cases found : flowStats.lookup tracked.1.1 with
    | none =>
        rw [found]
        rfl
    | some stats =>
        rw [lookup_setKey, if_pos rfl]
        simp
  · have other : ¬ flowId = tracked.1.1 := fun same => here same.symm
    have unchanged : (match flowStats.lookup tracked.1.1 with
        | none => flowStats
        | some stats =>
            setKey tracked.1.1 { stats with lostPackets := stats.lostPackets + 1 } flowStats).lookup flowId =
          flowStats.lookup flowId := by
      split
      · rfl
      · rw [lookup_setKey, if_neg other]
    rw [unchanged]
    cases flowStats.lookup flowId with
    | none => rfl
    | some stats => simp [here]

theorem lookup_foldl_countLost (tracked : List ((ℕ × ℕ) × TrackedPacket))
    (flowStats : List (ℕ × FlowStats)) (flowId : ℕ) :
    (tracked.foldl (fun stats packet => countLost packet stats) flowStats).lookup flowId =
      (flowStats.lookup flowId).map fun stats =>
        { stats with lostPackets := stats.lostPackets + ofFlow flowId tracked } := by
  induction tracked generalizing flowStats with
  | nil => simp [ofFlow]
  | cons packet tracked ih =>
      rw [List.foldl_cons, ih, lookup_countLost, Option.map_map]
      cases flowStats.lookup flowId with
      | none => rfl
      | some stats =>
          simp only [Option.map_some, Function.comp_apply, ofFlow, List.countP_cons, List.countP_nil]
          congr 2
          omega

section Run

variable {A : Attributes} {m : FlowMonitor n} {flowId : ℕ}

/-- The packets that a check counts as lost. -/
def overdue (now maxDelay : ℤ) (m : FlowMonitor n) : List ((ℕ × ℕ) × TrackedPacket) :=
  m.trackedPackets.filter fun tracked => maxDelay ≤ now - tracked.2.lastSeenTime

theorem lookup_checkForLostPackets (now maxDelay : ℤ) :
    (m.checkForLostPackets now maxDelay).flowStats.lookup flowId =
      (m.flowStats.lookup flowId).map fun stats =>
        { stats with lostPackets := stats.lostPackets + ofFlow flowId (m.overdue now maxDelay) } :=
  lookup_foldl_countLost ..

/-- What a check for lost packets changes of the statistics. -/
theorem describes_checkForLostPackets {receptions : List Reception}
    (describes : Describes A (m.getStatsForFlow A flowId) receptions) (now maxDelay : ℤ) :
    Describes A ((m.checkForLostPackets now maxDelay).getStatsForFlow A flowId) receptions := by
  unfold getStatsForFlow at describes ⊢
  rw [lookup_checkForLostPackets]
  cases found : m.flowStats.lookup flowId with
  | none =>
      rw [found] at describes
      exact describes
  | some stats =>
      rw [found] at describes
      exact describes.congr rfl

/-- The reception of the flow. -/
def receptionOf (flowId : ℕ) (_ : FlowMonitor n) (now : ℤ) : Effect n → List Reception
  | .received _ f _ packetSize tracked =>
      if f = flowId then [⟨tracked.firstSeenTime, now, packetSize, tracked.timesForwarded⟩] else []
  | _ => []

/-- The receptions of a flow. -/
def receptions (A : Attributes) (flowId : ℕ) (calls : List (ℤ × Call n)) : List Reception :=
  noted A (receptionOf flowId) calls

theorem Describes.update {receptions : List Reception} {f : ℕ} {update : FlowStats → FlowStats}
    (describes : Describes A (m.getStatsForFlow A flowId) receptions)
    (keeps : ∀ {stats}, Describes A stats receptions → Describes A (update stats) receptions) :
    Describes A ((m.updateStats A f update).getStatsForFlow A flowId) receptions := by
  rw [getStatsForFlow_updateStats]
  split
  · next here =>
      rw [← here]
      exact keeps describes
  · exact describes

/-- **The step lemma.** -/
theorem describes_apply {receptions : List Reception}
    (describes : Describes A (m.getStatsForFlow A flowId) receptions) (now : ℤ) (effect : Effect n) :
    Describes A ((m.apply A now effect).getStatsForFlow A flowId)
      (receptions ++ receptionOf flowId m now effect) := by
  cases effect with
  | received probe f packetId packetSize tracked =>
      unfold apply received receptionOf
      dsimp only
      rw [getStatsForFlow_erase, getStatsForFlow_updateStats]
      by_cases here : f = flowId
      · subst here
        rw [if_pos rfl, if_pos rfl]
        exact describes.receive ⟨tracked.firstSeenTime, now, packetSize, tracked.timesForwarded⟩
      · rw [if_neg here, if_neg fun same => here same.symm, List.append_nil]
        exact describes
  | sent probe f packetId packetSize =>
      unfold receptionOf
      rw [List.append_nil]
      exact Describes.update describes fun kept => kept.congr rfl
  | dropped probe f packetId packetSize reasonCode =>
      unfold receptionOf
      rw [List.append_nil]
      exact Describes.update describes fun kept => kept.congr rfl
  | forwarded probe f packetId packetSize tracked =>
      unfold receptionOf
      rw [List.append_nil]
      exact describes
  | checked enabled maxDelay =>
      unfold receptionOf
      rw [List.append_nil]
      exact describes_checkForLostPackets describes now maxDelay
  | ignored enabled =>
      unfold receptionOf
      rw [List.append_nil]
      exact describes

/-- What the statistics of a flow say of its receptions. -/
theorem describes_of_run (A : Attributes) (flowId : ℕ) (calls : List (ℤ × Call n)) :
    Describes A ((after A calls).getStatsForFlow A flowId) (receptions A flowId calls) := by
  induction calls using List.reverseRecOn with
  | nil => exact describes_newStats A
  | append_singleton calls call ih =>
      unfold receptions
      rw [after_snoc, noted_snoc, handle_eq]
      exact describes_apply ih call.1 _

end Run

end FlowMonitor

end NtnCho
