import NtnCho.EventSystem.Boundary
import NtnCho.Network
import NtnCho.StateFile

/-!
# The example with one satellite

`sgp4-ntn-udp-example.cc` runs a UDP echo client on the satellite and an echo server on the ground over a
point-to-point channel. FlowMonitor counts the packets of both directions when they are sent and when they
are received. `UpdateChannelConditions` sets the Delay of the channel every second and logs what the
counters have gained since the last second. The traffic-control layer above the devices is left out.

* `Monitored` says what the counters count; it is kept by every event (`monitored_of_run`).
* `events_between` places the events between two rows of the log in one second.

The trajectory, the outcomes of the receive error models and the times between the packets of the client
are arbitrary.
-/

namespace NtnCho

open EventSystem Frames

namespace UdpExample

/-! ## FlowMonitor -/

/-- A packet with the identifiers that FlowMonitor gives it: its flow, one for each direction, and its
number in the flow. -/
structure Packet where
  flow : Direction
  packetId : ℕ
  deriving DecidableEq

structure FlowStats where
  txPackets : ℕ := 0
  rxPackets : ℕ := 0
  lostPackets : ℕ := 0

/-- `m_trackedPackets` with their `lastSeenTime`, and `m_flowStats`. -/
structure FlowMonitor where
  trackedPackets : List (Packet × ℤ) := []
  flowStats : Direction → FlowStats := fun _ => {}

namespace FlowMonitor

/-- `MaxPerHopDelay` -/
def maxPerHopDelay : ℤ := seconds 10

def updateStats (flow : Direction) (update : FlowStats → FlowStats) (m : FlowMonitor) : FlowMonitor :=
  { m with flowStats := fun f => if f = flow then update (m.flowStats f) else m.flowStats f }

/-- The packet is no longer tracked. -/
def erase (p : Packet) (m : FlowMonitor) : FlowMonitor :=
  { m with trackedPackets := m.trackedPackets.filter fun tracked => tracked.1 ≠ p }

def reportFirstTx (now : ℤ) (p : Packet) (m : FlowMonitor) : FlowMonitor :=
  updateStats p.flow (fun stats => { stats with txPackets := stats.txPackets + 1 })
    { m with trackedPackets := setKey p now m.trackedPackets }

def Tracked (m : FlowMonitor) (p : Packet) : Prop := p ∈ m.trackedPackets.map Prod.fst

instance (m : FlowMonitor) (p : Packet) : Decidable (m.Tracked p) := inferInstanceAs (Decidable (_ ∈ _))

def reportLastRx (p : Packet) (m : FlowMonitor) : FlowMonitor :=
  if m.Tracked p then
    erase p (updateStats p.flow (fun stats => { stats with rxPackets := stats.rxPackets + 1 }) m)
  else m

def reportDrop (p : Packet) (m : FlowMonitor) : FlowMonitor :=
  erase p (updateStats p.flow (fun stats => { stats with lostPackets := stats.lostPackets + 1 }) m)

def checkForLostPackets (now : ℤ) (m : FlowMonitor) : FlowMonitor where
  trackedPackets := m.trackedPackets.filter fun tracked => now - tracked.2 < maxPerHopDelay
  flowStats flow :=
    let lost := m.trackedPackets.countP fun tracked =>
      maxPerHopDelay ≤ now - tracked.2 && tracked.1.flow = flow
    { m.flowStats flow with lostPackets := (m.flowStats flow).lostPackets + lost }

/-- `totalTx` -/
def totalTx (m : FlowMonitor) : ℕ := (m.flowStats .uplink).txPackets + (m.flowStats .downlink).txPackets

/-- `totalRx` -/
def totalRx (m : FlowMonitor) : ℕ := (m.flowStats .uplink).rxPackets + (m.flowStats .downlink).rxPackets

end FlowMonitor

/-! ## Devices -/

inductive UdpEvent
  | send
  | transmitComplete (flow : Direction)
  | receive (p : Packet)
  | updateChannelConditions
  | checkForLostPackets
  deriving DecidableEq

/-- The device that sends the packets of a flow. -/
structure Device where
  txMachineState : TxMachineState := .ready
  queue : List Packet := []

/-- `txTime` of a packet of `g_packetSize` bytes with its UDP, IP and PPP headers. -/
def txTime : ℤ := calculateBytesTxTime (625 + 8 + 20 + 2)

namespace Device

/-- `TransmitStart` of the device and of the channel. -/
def transmitStart (delay now : ℤ) (p : Packet) (d : Device) : Device × List (Pending ℤ UdpEvent) :=
  ({ d with txMachineState := .busy },
    [⟨now + txTime, .transmitComplete p.flow⟩, ⟨now + (txTime + delay), .receive p⟩])

/-- The next packet of the queue, if there is one, is transmitted. -/
def dequeue (delay now : ℤ) (d : Device) : Device × List (Pending ℤ UdpEvent) :=
  match d.queue with
  | [] => (d, [])
  | p :: queue => transmitStart delay now p { d with queue := queue }

/-- `Send`, `none` when the queue is full and drops the packet. -/
def send (delay now : ℤ) (p : Packet) (d : Device) : Option (Device × List (Pending ℤ UdpEvent)) :=
  if d.queue.length < maxSize then
    let d' := { d with queue := d.queue ++ [p] }
    match d.txMachineState with
    | .ready => some (d'.dequeue delay now)
    | .busy => some (d', [])
  else none

end Device

/-! ## The program -/

/-- What the run depends on: the distance of the satellite, whether the receive error model corrupts a
packet, the time from a packet of the client to the next, and their number. -/
structure Setting where
  distance : ℚ → ℚ
  distance_nonneg : ∀ simTime, 0 ≤ distance simTime
  isCorrupt : Packet → Bool
  interval : ℕ → ℕ
  maxPackets : ℕ

structure State where
  delay : ℤ
  devices : Direction → Device := fun _ => {}
  nextPacketId : Direction → ℕ := fun _ => 0
  monitor : FlowMonitor := {}
  sent : ℕ := 0
  prevTxPackets : ℕ := 0
  prevRxPackets : ℕ := 0
  fullLog : List StateFile.Row := []

variable {E : Setting}

/-- `propagationDelay` -/
def Setting.propagationDelay (E : Setting) (simTime : ℚ) : ℚ := E.distance simTime / speedOfLight

namespace State

/-- The network layer reports a packet of a flow and hands it to the device. -/
def transmit (flow : Direction) (now : ℤ) (s : State) : State × List (Pending ℤ UdpEvent) :=
  let p : Packet := ⟨flow, s.nextPacketId flow⟩
  let s' :=
    { s with
      nextPacketId := fun f => if f = flow then s.nextPacketId f + 1 else s.nextPacketId f
      monitor := s.monitor.reportFirstTx now p }
  match (s.devices flow).send s.delay now p with
  | some (device, scheduled) =>
      ({ s' with devices := fun f => if f = flow then device else s.devices f }, scheduled)
  | none => ({ s' with monitor := s'.monitor.reportDrop p }, [])

/-- `UdpEchoClient::Send` on the satellite. -/
def send (E : Setting) (now : ℤ) (s : State) : State × List (Pending ℤ UdpEvent) :=
  let (s', scheduled) := s.transmit .downlink now
  let sent := s.sent + 1
  ({ s' with sent := sent },
    scheduled ++
      if sent < E.maxPackets ∨ E.maxPackets = 0 then [⟨now + E.interval sent, .send⟩] else [])

/-- `TransmitComplete` of the device of a flow. -/
def transmitComplete (flow : Direction) (now : ℤ) (s : State) : State × List (Pending ℤ UdpEvent) :=
  let (device, scheduled) := Device.dequeue s.delay now { s.devices flow with txMachineState := .ready }
  ({ s with devices := fun f => if f = flow then device else s.devices f }, scheduled)

/-- `Receive` of a device, with the echo of the server on the ground. -/
def receive (E : Setting) (p : Packet) (now : ℤ) (s : State) : State × List (Pending ℤ UdpEvent) :=
  if E.isCorrupt p then (s, [])
  else
    let s' := { s with monitor := s.monitor.reportLastRx p }
    match p.flow with
    | .downlink => s'.transmit .uplink now
    | .uplink => (s', [])

/-- `pdr` -/
def pdr (s : State) : ℚ :=
  let deltaTx := s.monitor.totalTx - s.prevTxPackets
  let deltaRx := s.monitor.totalRx - s.prevRxPackets
  if 0 < deltaTx then deltaRx / deltaTx * 100 else 100

/-- The columns of a row of `g_fullLog` that the emulator uses. -/
def logRow (E : Setting) (now : ℤ) (s : State) : StateFile.Row where
  time := getSeconds now
  pdr := s.pdr
  delayUeRan := E.propagationDelay (getSeconds now) * 1000
  delayRan5g := E.propagationDelay (getSeconds now) * 1000

/-- `UpdateChannelConditions` -/
def updateChannelConditions (E : Setting) (now : ℤ) (s : State) : State × List (Pending ℤ UdpEvent) :=
  ({ s with
      delay := seconds (E.propagationDelay (getSeconds now))
      prevTxPackets := s.monitor.totalTx
      prevRxPackets := s.monitor.totalRx
      fullLog := s.fullLog ++ [s.logRow E now] },
    [⟨now + seconds 1, .updateChannelConditions⟩])

end State

/-- The handlers of the events. -/
def udpHandler (E : Setting) : Handler ℤ State UdpEvent
  | .send, now, s => s.send E now
  | .transmitComplete flow, now, s => s.transmitComplete flow now
  | .receive p, now, s => s.receive E p now
  | .updateChannelConditions, now, s => s.updateChannelConditions E now
  | .checkForLostPackets, now, s =>
      ({ s with monitor := s.monitor.checkForLostPackets now }, [⟨now + seconds 1, .checkForLostPackets⟩])

/-- The configuration at the start of `Simulator::Run`. -/
def udpInitial (E : Setting) : Conf ℤ State UdpEvent :=
  ⟨{ delay := seconds (E.propagationDelay 0) },
    [⟨seconds 1, .checkForLostPackets⟩, ⟨0, .updateChannelConditions⟩, ⟨0, .send⟩]⟩

/-- The runs of the program: by time, events of the same time in any order. -/
abbrev UdpRun (E : Setting) : List (Firing ℤ State UdpEvent) → Conf ℤ State UdpEvent → Prop :=
  Run (udpHandler E) (timeOrder fun _ _ => False) (udpInitial E)

/-! ## What the counters count -/

namespace FlowMonitor

variable {m : FlowMonitor} {p q : Packet}

theorem totals_reportFirstTx (now : ℤ) (p : Packet) (m : FlowMonitor) :
    (m.reportFirstTx now p).totalTx = m.totalTx + 1 ∧ (m.reportFirstTx now p).totalRx = m.totalRx := by
  unfold reportFirstTx updateStats totalTx totalRx
  cases p.flow <;> simp <;> omega

theorem totals_reportDrop (p : Packet) (m : FlowMonitor) :
    (m.reportDrop p).totalTx = m.totalTx ∧ (m.reportDrop p).totalRx = m.totalRx := by
  unfold reportDrop erase updateStats totalTx totalRx
  cases p.flow <;> simp

theorem totals_reportLastRx (tracked : m.Tracked p) :
    (m.reportLastRx p).totalTx = m.totalTx ∧ (m.reportLastRx p).totalRx = m.totalRx + 1 := by
  rw [reportLastRx, if_pos tracked]
  unfold erase updateStats totalTx totalRx
  cases p.flow <;> simp <;> omega

theorem tracked_erase : (m.erase p).Tracked q ↔ m.Tracked q ∧ q ≠ p := by
  simp [Tracked, erase]

theorem tracked_reportFirstTx {now : ℤ} : (m.reportFirstTx now p).Tracked q → q = p ∨ m.Tracked q := by
  intro tracked
  obtain ⟨entry, member, rfl⟩ := List.mem_map.mp tracked
  rcases mem_setKey member with rfl | old
  · exact .inl rfl
  · exact .inr (List.mem_map_of_mem old)

theorem tracked_checkForLostPackets {now : ℤ} : (m.checkForLostPackets now).Tracked q → m.Tracked q := by
  intro tracked
  obtain ⟨entry, member, rfl⟩ := List.mem_map.mp tracked
  exact List.mem_map_of_mem (List.mem_of_mem_filter member)

end FlowMonitor

/-- The packets `tx` have been sent and the packets `rx` received. -/
structure Monitored (s : State) (tx rx : List Packet) : Prop where
  known : ∀ p, p ∈ tx ↔ p.packetId < s.nextPacketId p.flow
  sentOnce : tx.Nodup
  receivedOnce : rx.Nodup
  begun : rx ⊆ tx
  tracked : ∀ p, s.monitor.Tracked p → p ∈ tx ∧ p ∉ rx
  totalTx : s.monitor.totalTx = tx.length
  totalRx : s.monitor.totalRx = rx.length

namespace Monitored

variable {s s' : State} {tx rx : List Packet}

/-- What is not about the counters may change, and packets may get lost. -/
theorem congr (monitored : Monitored s tx rx) (ids : s'.nextPacketId = s.nextPacketId)
    (tracked : ∀ p, s'.monitor.Tracked p → s.monitor.Tracked p)
    (totalTx : s'.monitor.totalTx = s.monitor.totalTx) (totalRx : s'.monitor.totalRx = s.monitor.totalRx) :
    Monitored s' tx rx where
  known p := by rw [ids, monitored.known]
  sentOnce := monitored.sentOnce
  receivedOnce := monitored.receivedOnce
  begun := monitored.begun
  tracked p member := monitored.tracked p (tracked p member)
  totalTx := totalTx.trans monitored.totalTx
  totalRx := totalRx.trans monitored.totalRx

/-- A packet gets the next number of its flow. -/
theorem transmit (monitored : Monitored s tx rx) (flow : Direction) (now : ℤ) :
    Monitored (s.transmit flow now).1 (tx ++ [⟨flow, s.nextPacketId flow⟩]) rx := by
  have fresh : (⟨flow, s.nextPacketId flow⟩ : Packet) ∉ tx := fun member =>
    lt_irrefl _ ((monitored.known _).mp member)
  have reported : Monitored
      { s with
        nextPacketId := fun f => if f = flow then s.nextPacketId f + 1 else s.nextPacketId f
        monitor := s.monitor.reportFirstTx now ⟨flow, s.nextPacketId flow⟩ }
      (tx ++ [⟨flow, s.nextPacketId flow⟩]) rx :=
    { known := by
        rintro ⟨f, n⟩
        rw [List.mem_append, monitored.known, List.mem_singleton, Packet.mk.injEq]
        dsimp only
        split
        · rename_i same
          subst same
          simp only [true_and]
          omega
        · rename_i other
          simp [other]
      sentOnce := by
        refine List.nodup_append'.mpr ⟨monitored.sentOnce, List.nodup_singleton _, ?_⟩
        rw [List.disjoint_singleton]
        exact fresh
      receivedOnce := monitored.receivedOnce
      begun := fun p member => List.mem_append_left _ (monitored.begun member)
      tracked := by
        intro p member
        rcases FlowMonitor.tracked_reportFirstTx member with rfl | old
        · exact ⟨by simp, fun received => fresh (monitored.begun received)⟩
        · exact ⟨List.mem_append_left _ (monitored.tracked p old).1, (monitored.tracked p old).2⟩
      totalTx := by
        rw [List.length_append, ← monitored.totalTx]
        exact (FlowMonitor.totals_reportFirstTx ..).1
      totalRx := (FlowMonitor.totals_reportFirstTx ..).2.trans monitored.totalRx }
  unfold State.transmit
  dsimp only
  split
  · exact reported.congr rfl (fun _ => id) rfl rfl
  · exact reported.congr rfl (fun p member => (FlowMonitor.tracked_erase.mp member).1)
      (FlowMonitor.totals_reportDrop ..).1 (FlowMonitor.totals_reportDrop ..).2

/-- A packet is counted when it is tracked. -/
theorem deliver (monitored : Monitored s tx rx) (p : Packet) :
    Monitored { s with monitor := s.monitor.reportLastRx p } tx
      (rx ++ if s.monitor.Tracked p then [p] else []) := by
  by_cases tracked : s.monitor.Tracked p
  case neg =>
    rw [if_neg tracked, List.append_nil, FlowMonitor.reportLastRx, if_neg tracked]
    exact monitored
  case pos =>
    obtain ⟨sent, pending⟩ := monitored.tracked p tracked
    rw [if_pos tracked]
    exact
      { known := monitored.known
        sentOnce := monitored.sentOnce
        receivedOnce := by
          refine List.nodup_append'.mpr ⟨monitored.receivedOnce, List.nodup_singleton _, ?_⟩
          rw [List.disjoint_singleton]
          exact pending
        begun := List.append_subset.mpr ⟨monitored.begun, by simpa using sent⟩
        tracked := by
          intro q member
          dsimp only at member
          rw [FlowMonitor.reportLastRx, if_pos tracked] at member
          obtain ⟨old, other⟩ := FlowMonitor.tracked_erase.mp member
          obtain ⟨sent', pending'⟩ := monitored.tracked q old
          refine ⟨sent', ?_⟩
          rw [List.mem_append, List.mem_singleton]
          exact not_or.mpr ⟨pending', other⟩
        totalTx := (FlowMonitor.totals_reportLastRx tracked).1.trans monitored.totalTx
        totalRx := by
          rw [List.length_append, ← monitored.totalRx]
          exact (FlowMonitor.totals_reportLastRx tracked).2 }

end Monitored

/-! ## Events -/

/-- The packet that an event sends. -/
def transmitted (E : Setting) (f : Firing ℤ State UdpEvent) : List Packet :=
  match f.event.ev with
  | .send => [⟨.downlink, f.before.state.nextPacketId .downlink⟩]
  | .receive p =>
      if E.isCorrupt p = false ∧ p.flow = .downlink then
        [⟨.uplink, f.before.state.nextPacketId .uplink⟩]
      else []
  | _ => []

/-- The packet that an event receives and FlowMonitor counts. -/
def delivered (E : Setting) (f : Firing ℤ State UdpEvent) : List Packet :=
  match f.event.ev with
  | .receive p => if E.isCorrupt p = false ∧ f.before.state.monitor.Tracked p then [p] else []
  | _ => []

/-- **One event.** -/
theorem Monitored.step {tx rx : List Packet} {f : Firing ℤ State UdpEvent}
    (monitored : Monitored f.before.state tx rx)
    (after : f.after.state = (udpHandler E f.event.ev f.event.ts f.before.state).1) :
    Monitored f.after.state (tx ++ transmitted E f) (rx ++ delivered E f) := by
  rcases f with ⟨c, ⟨now, ev⟩, c'⟩
  dsimp only at after monitored ⊢
  rw [after]
  cases ev with
  | send =>
      rw [show delivered E _ = [] from rfl, List.append_nil]
      exact (monitored.transmit .downlink now).congr rfl (fun _ => id) rfl rfl
  | transmitComplete flow =>
      rw [show transmitted E _ = [] from rfl, show delivered E _ = [] from rfl, List.append_nil,
        List.append_nil]
      exact monitored.congr rfl (fun _ => id) rfl rfl
  | receive p =>
      simp only [udpHandler, State.receive, transmitted, delivered]
      cases E.isCorrupt p with
      | true =>
          simp only [if_true, Bool.true_eq_false, false_and, if_false, List.append_nil]
          exact monitored
      | false =>
          have counted := monitored.deliver p
          simp only [Bool.false_eq_true, if_false, true_and]
          cases p.flow with
          | downlink => exact counted.transmit .uplink now
          | uplink =>
              simp only [reduceCtorEq, if_false, List.append_nil]
              exact counted
  | updateChannelConditions =>
      rw [show transmitted E _ = [] from rfl, show delivered E _ = [] from rfl, List.append_nil,
        List.append_nil]
      exact monitored.congr rfl (fun _ => id) rfl rfl
  | checkForLostPackets =>
      rw [show transmitted E _ = [] from rfl, show delivered E _ = [] from rfl, List.append_nil,
        List.append_nil]
      exact monitored.congr rfl (fun _ => FlowMonitor.tracked_checkForLostPackets) rfl rfl

/-! ## Runs -/

/-- A firing that logs a row. -/
def logs (f : Firing ℤ State UdpEvent) : Bool := f.event.ev = .updateChannelConditions

/-- The history up to the last row. -/
def logged (h : List (Firing ℤ State UdpEvent)) : List (Firing ℤ State UdpEvent) := h.rdropWhile (!logs ·)

/-- The history since the last row. -/
def sinceRow (h : List (Firing ℤ State UdpEvent)) : List (Firing ℤ State UdpEvent) := h.rtakeWhile (!logs ·)

theorem logged_append_sinceRow (h : List (Firing ℤ State UdpEvent)) : logged h ++ sinceRow h = h :=
  List.rdropWhile_append_rtakeWhile ..

theorem State.transmit_log (flow : Direction) (now : ℤ) (s : State) :
    (s.transmit flow now).1.prevTxPackets = s.prevTxPackets ∧
      (s.transmit flow now).1.prevRxPackets = s.prevRxPackets ∧
      (s.transmit flow now).1.fullLog = s.fullLog ∧ (s.transmit flow now).1.delay = s.delay := by
  unfold State.transmit
  dsimp only
  split <;> exact ⟨rfl, rfl, rfl, rfl⟩

/-- Only `UpdateChannelConditions` logs, and sets the Delay. -/
theorem udpHandler_log {ev : UdpEvent} (other : ev ≠ .updateChannelConditions) (now : ℤ) (s : State) :
    (udpHandler E ev now s).1.prevTxPackets = s.prevTxPackets ∧
      (udpHandler E ev now s).1.prevRxPackets = s.prevRxPackets ∧
      (udpHandler E ev now s).1.fullLog = s.fullLog ∧ (udpHandler E ev now s).1.delay = s.delay := by
  cases ev with
  | updateChannelConditions => exact absurd rfl other
  | send => exact State.transmit_log .downlink now s
  | receive p =>
      simp only [udpHandler, State.receive]
      split
      · exact ⟨rfl, rfl, rfl, rfl⟩
      · cases p.flow with
        | downlink => exact State.transmit_log .uplink now _
        | uplink => exact ⟨rfl, rfl, rfl, rfl⟩
  | transmitComplete flow => exact ⟨rfl, rfl, rfl, rfl⟩
  | checkForLostPackets => exact ⟨rfl, rfl, rfl, rfl⟩

section Run

variable {h : List (Firing ℤ State UdpEvent)} {c : Conf ℤ State UdpEvent}

/-- **The counters of a run.** -/
theorem monitored_of_run (run : UdpRun E h c) :
    Monitored c.state (h.flatMap (transmitted E)) (h.flatMap (delivered E)) := by
  induction run with
  | nil =>
      exact
        { known := fun p => by simp [udpInitial]
          sentOnce := .nil
          receivedOnce := .nil
          begun := List.Subset.refl _
          tracked := fun p member => by cases member
          totalTx := rfl
          totalRx := rfl }
  | @snoc h c c' p prior step ih =>
      rw [List.flatMap_append, List.flatMap_append, List.flatMap_singleton, List.flatMap_singleton]
      exact Monitored.step (f := ⟨c, p, c'⟩) ih step.state_eq

/-- The counters at the last row, and the rows. -/
theorem log_of_run (run : UdpRun E h c) :
    c.state.prevTxPackets = ((logged h).flatMap (transmitted E)).length ∧
      c.state.prevRxPackets = ((logged h).flatMap (delivered E)).length ∧
      c.state.fullLog = (h.filter logs).map fun f => f.before.state.logRow E f.event.ts := by
  induction run with
  | nil => exact ⟨rfl, rfl, rfl⟩
  | @snoc h c c' p prior step ih =>
      obtain ⟨prevTx, prevRx, fullLog⟩ := ih
      have after := step.state_eq
      by_cases update : p.ev = .updateChannelConditions
      case pos =>
        have row : logs ⟨c, p, c'⟩ = true := decide_eq_true update
        have monitored := monitored_of_run (prior.snoc step)
        have same : c'.state.monitor = c.state.monitor := by
          rw [after, update]
          rfl
        rw [logged, List.rdropWhile_concat_neg _ _ _ (by simp [row]), ← monitored.totalTx,
          ← monitored.totalRx, List.filter_append, List.filter_singleton, row, cond_true, same, after,
          update]
        refine ⟨rfl, rfl, ?_⟩
        simp [udpHandler, State.updateChannelConditions, fullLog]
      case neg =>
        have noRow : logs ⟨c, p, c'⟩ = false := decide_eq_false update
        obtain ⟨keepsTx, keepsRx, keepsLog, -⟩ := @udpHandler_log E p.ev update p.ts c.state
        rw [logged, List.rdropWhile_concat_pos _ _ _ (by simp [noRow]), List.filter_append,
          List.filter_singleton, noRow, cond_false, List.append_nil, after, keepsTx,
          keepsRx, keepsLog]
        exact ⟨prevTx, prevRx, fullLog⟩

/-! ## Time -/

theorem txTime_nonneg : 0 ≤ txTime := by decide +kernel

theorem Setting.seconds_propagationDelay_nonneg (E : Setting) (simTime : ℚ) :
    0 ≤ seconds (E.propagationDelay simTime) :=
  seconds_nonneg (div_nonneg (E.distance_nonneg simTime) (by unfold speedOfLight; norm_num))

/-- Events that a handler schedules are not earlier, and none of them logs a row. -/
def Later (now : ℤ) (scheduled : List (Pending ℤ UdpEvent)) : Prop :=
  ∀ q ∈ scheduled, now ≤ q.ts ∧ q.ev ≠ .updateChannelConditions

theorem later_nil (now : ℤ) : Later now [] := fun q member => by cases member

theorem later_dequeue {delay : ℤ} (nonneg : 0 ≤ delay) (now : ℤ) (d : Device) :
    Later now (d.dequeue delay now).2 := by
  unfold Device.dequeue Device.transmitStart
  split
  · exact later_nil now
  · intro q member
    simp only [List.mem_cons, List.not_mem_nil, or_false] at member
    have positive := txTime_nonneg
    rcases member with rfl | rfl
    · exact ⟨le_add_of_nonneg_right positive, by simp⟩
    · exact ⟨le_add_of_nonneg_right (add_nonneg positive nonneg), by simp⟩

theorem later_transmit {s : State} (nonneg : 0 ≤ s.delay) (flow : Direction) (now : ℤ) :
    Later now (s.transmit flow now).2 := by
  unfold State.transmit Device.send
  dsimp only
  split
  · rename_i device scheduled sent
    split at sent
    · split at sent
      · rw [← congrArg Prod.snd (Option.some.inj sent)]
        exact later_dequeue nonneg now _
      · rw [← congrArg Prod.snd (Option.some.inj sent)]
        exact later_nil now
    · cases sent
  · exact later_nil now

/-- Only `UpdateChannelConditions` schedules the next row. -/
theorem later_udpHandler {s : State} (nonneg : 0 ≤ s.delay) {ev : UdpEvent}
    (other : ev ≠ .updateChannelConditions) (now : ℤ) : Later now (udpHandler E ev now s).2 := by
  cases ev with
  | updateChannelConditions => exact absurd rfl other
  | send =>
      intro q member
      rcases List.mem_append.mp member with sent | next
      · exact later_transmit nonneg .downlink now q sent
      · split at next
        · rw [List.mem_singleton.mp next]
          exact ⟨le_add_of_nonneg_right (Int.natCast_nonneg _), by simp⟩
        · cases next
  | receive p =>
      simp only [udpHandler, State.receive]
      split
      · exact later_nil now
      · cases p.flow with
        | downlink => exact @later_transmit { s with monitor := s.monitor.reportLastRx p } nonneg .uplink now
        | uplink => exact later_nil now
  | transmitComplete flow => exact later_dequeue nonneg now _
  | checkForLostPackets =>
      intro q member
      rw [List.mem_singleton.mp member]
      exact ⟨le_add_of_nonneg_right (by decide +kernel), by simp⟩

/-- The channel never takes a packet back in time. -/
def Causal (s : State) : Prop := 0 ≤ s.delay

theorem causal_udpInitial (E : Setting) : Causal (udpInitial E).state := E.seconds_propagationDelay_nonneg 0

theorem forward_udpHandler (E : Setting) : Forward (udpHandler E) Causal := by
  intro ev now s nonneg
  by_cases update : ev = .updateChannelConditions
  · subst update
    refine ⟨E.seconds_propagationDelay_nonneg _, fun q member => ?_⟩
    rw [List.mem_singleton.mp member]
    exact le_add_of_nonneg_right (by decide +kernel)
  · refine ⟨?_, fun q member => (later_udpHandler nonneg update now q member).1⟩
    have keeps := (@udpHandler_log E ev update now s).2.2.2
    exact le_of_le_of_eq nonneg keeps.symm

theorem causal_of_run (run : UdpRun E h c) : Causal c.state :=
  run.state_of_forward (forward_udpHandler E) (causal_udpInitial E)

/-- The row that a run logs next is one second after the last. -/
theorem next_row (run : UdpRun E h c) :
    c.queue.filter (·.ev = .updateChannelConditions) =
      [⟨h.countP logs * seconds 1, .updateChannelConditions⟩] := by
  induction run with
  | nil => simp [udpInitial]
  | @snoc h c c' p prior step ih =>
      have causal := causal_of_run prior
      have counted : (h ++ [Firing.mk c p c']).countP logs =
          h.countP logs + if p.ev = .updateChannelConditions then 1 else 0 := by
        simp [logs]
      rw [counted]
      cases step with
      | @fire s pre p post _ =>
          dsimp only at causal ih
          rw [List.filter_append] at ih
          rw [Conf.fire, List.filter_append, List.filter_append]
          by_cases update : p.ev = .updateChannelConditions
          case pos =>
            -- the row that was due is the event that fires
            rw [List.filter_cons_of_pos (by simpa using update)] at ih
            obtain ⟨noneBefore, due⟩ :=
              (List.append_eq_singleton_iff.mp ih).resolve_right fun split => List.cons_ne_nil _ _ split.2
            obtain ⟨due, noneAfter⟩ := List.cons.inj due
            rw [noneBefore, noneAfter, if_pos update, update, due, Nat.cast_add, Nat.cast_one, add_one_mul]
            simp [udpHandler, State.updateChannelConditions]
          case neg =>
            have noneNew : ((udpHandler E p.ev p.ts s).2.filter (·.ev = .updateChannelConditions)) = [] :=
              List.filter_eq_nil_iff.mpr fun q member => by
                simpa using (later_udpHandler causal update p.ts q member).2
            rw [List.filter_cons_of_neg (by simpa using update)] at ih
            rw [noneNew, List.append_nil, ih, if_neg update, add_zero]

/-- Nothing happens before the start. -/
theorem ts_nonneg (run : UdpRun E h c) {g : Firing ℤ State UdpEvent} (member : g ∈ h) :
    0 ≤ g.event.ts := by
  obtain ⟨h₁, h₂, rfl⟩ := List.append_of_mem member
  obtain ⟨prior, step⟩ := run.split
  have start : (udpInitial E).NotBefore 0 := by
    intro q member
    simp only [udpInitial, List.mem_cons, List.not_mem_nil, or_false] at member
    rcases member with rfl | rfl | rfl
    · exact seconds_nonneg zero_le_one
    · exact le_rfl
    · exact le_rfl
  exact step.le_of_notBefore (prior.notBefore_start (forward_udpHandler E) (causal_udpInitial E) start)

theorem logs_of_logged {h₀ : List (Firing ℤ State UdpEvent)} {e : Firing ℤ State UdpEvent}
    (last : logged h = h₀ ++ [e]) : logs e = true := by
  have nonempty : logged h ≠ [] := by simp [last]
  have stop := List.rdropWhile_last_not (!logs ·) h nonempty
  have same : (logged h).getLast nonempty = e := by simp [last]
  have stop' : ¬(!logs ((logged h).getLast nonempty)) := stop
  rw [same] at stop'
  simpa using stop'

theorem countP_logged (h : List (Firing ℤ State UdpEvent)) : (logged h).countP logs = h.countP logs := by
  have none : (sinceRow h).countP logs = 0 := List.countP_eq_zero.mpr fun g member => by
    simpa using List.mem_rtakeWhile_imp member
  nth_rewrite 2 [← logged_append_sinceRow h]
  rw [List.countP_append, none, add_zero]

variable {h₁ h₂ : List (Firing ℤ State UdpEvent)} {f g : Firing ℤ State UdpEvent}

/-- The rows are one second apart. -/
theorem row_time (run : UdpRun E (h₁ ++ f :: h₂) c) (row : logs f = true) :
    f.event.ts = h₁.countP logs * seconds 1 := by
  obtain ⟨prior, step⟩ := run.split
  have due : f.event ∈ f.before.queue.filter (·.ev = .updateChannelConditions) :=
    List.mem_filter.mpr ⟨step.mem_queue, row⟩
  rw [next_row prior, List.mem_singleton] at due
  rw [due]

/-- Time never goes back. -/
theorem ts_le (run : UdpRun E (h₁ ++ f :: h₂) c) (member : g ∈ h₁) : g.event.ts ≤ f.event.ts :=
  run.times_le (forward_udpHandler E) (causal_udpInitial E) member

/-- **The interval of a row.** What happens between two rows happens in the second between them. -/
theorem events_between (run : UdpRun E (h₁ ++ f :: h₂) c) (row : logs f = true)
    (member : g ∈ sinceRow h₁) : f.event.ts - seconds 1 ≤ g.event.ts ∧ g.event.ts ≤ f.event.ts := by
  have whole := logged_append_sinceRow h₁
  have inside : g ∈ h₁ := whole ▸ List.mem_append_right _ member
  refine ⟨?_, ts_le run inside⟩
  rw [row_time run row, ← countP_logged]
  rcases List.eq_nil_or_concat (logged h₁) with first | ⟨h₀, e, last⟩
  · have start := ts_nonneg run.split.1 inside
    have second : 0 ≤ seconds 1 := seconds_nonneg zero_le_one
    rw [first, List.countP_nil]
    omega
  · -- `e` is the last row before `f`
    rw [List.concat_eq_append] at last
    have row' : logs e = true := logs_of_logged last
    obtain ⟨between, between', since⟩ := List.append_of_mem member
    have earlier : h₁ = (h₀ ++ e :: between) ++ g :: between' := by
      rw [← whole, last, since]
      simp
    have prior := run.split.1
    rw [earlier] at prior
    have later := ts_le prior (g := e) (by simp)
    rw [last, List.countP_append, List.countP_singleton, row', if_pos rfl, Nat.cast_add, Nat.cast_one,
      add_one_mul, add_sub_cancel_right]
    rw [List.append_assoc, List.cons_append] at prior
    rw [← row_time prior row']
    exact later

end Run

end UdpExample

end NtnCho
