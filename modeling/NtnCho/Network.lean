import NtnCho.EventSystem.Delivery
import NtnCho.EventSystem.Part
import NtnCho.Timeline

/-!
# The link of a UE

Each UE has a point-to-point channel to its satellite, one `Wire` for each direction. The device sends
one packet after the other; the channel delivers a packet after its transmission time and the Delay
that is configured when the transmission starts. `UpdateChannelState` sets this Delay at every tick,
`UeInfo.p2pDelay`.

* `NetRun` are the runs of a simulator with its links, for any packets that the applications send;
  the simulator itself goes through a run of its own (`simRun_of_netRun`).
* `WireInvariant` holds along every run: every packet is in flight or received, once, and at its time.
* `fifo_link` says when the packets of a direction come out in the order of their transmissions.
-/

namespace NtnCho

open EventSystem

variable {P : Program} {env : Env}

/-! ## The devices and the channel -/

/-- `DataRate` of the devices in bits per second. -/
def dataRate : ℚ := 10000000

/-- `MaxSize` of the `DropTailQueue` of a device, in packets. -/
def maxSize : ℕ := 100

/-- `DataRate::CalculateBytesTxTime`. -/
def calculateBytesTxTime (bytes : ℕ) : ℤ := seconds (bytes * 8 / dataRate)

/-- A packet on the channel: the time at which its transmission started, its size in bytes, and the
Delay that was configured at that time. -/
structure Transmission where
  start : ℤ
  size : ℕ
  delay : ℤ
  deriving DecidableEq

/-- The time of `TransmitComplete`. -/
def Transmission.txComplete (t : Transmission) : ℤ := t.start + calculateBytesTxTime t.size

/-- The time of `Receive`. -/
def Transmission.arrival (t : Transmission) : ℤ := t.start + (calculateBytesTxTime t.size + t.delay)

inductive TxMachineState
  | ready
  | busy
  deriving DecidableEq

/-- One direction of a link: the sending device with its queue, the packets that it put on the channel,
in the order of their transmissions, and those that the peer received, with the time. The receive error
model of the peer decides only then whether a packet is passed on. -/
structure Wire where
  txMachineState : TxMachineState := .ready
  queue : List ℕ := []
  started : List Transmission := []
  received : List (ℤ × ℕ) := []

inductive WireEvent
  | send (size : ℕ)
  | transmitComplete
  | receive (packet : ℕ)
  deriving DecidableEq

/-- `TransmitStart` of the device and of the channel. -/
def Wire.transmitStart (delay now : ℤ) (size : ℕ) (w : Wire) :
    Wire × List (Pending ℤ WireEvent) :=
  let packet : Transmission := ⟨now, size, delay⟩
  ({ w with
      txMachineState := .busy
      started := w.started ++ [packet] },
    [⟨packet.txComplete, .transmitComplete⟩, ⟨packet.arrival, .receive w.started.length⟩])

/-- The next packet of the queue, if there is one, is transmitted. -/
def Wire.dequeue (delay now : ℤ) (w : Wire) : Wire × List (Pending ℤ WireEvent) :=
  match w.queue with
  | [] => (w, [])
  | size :: queue => Wire.transmitStart delay now size { w with queue := queue }

/-- `Send`, `TransmitComplete` and `Receive`. -/
def Wire.handler (delay : ℤ) : Handler ℤ Wire WireEvent
  | .send size, now, w =>
      if w.queue.length < maxSize then
        let w' := { w with queue := w.queue ++ [size] }
        match w.txMachineState with
        | .ready => w'.dequeue delay now
        | .busy => (w', [])
      else (w, [])
  | .transmitComplete, now, w => Wire.dequeue delay now { w with txMachineState := .ready }
  | .receive packet, now, w => ({ w with received := w.received ++ [(now, packet)] }, [])

/-! ## The simulator with its links -/

inductive Direction
  | uplink
  | downlink
  deriving DecidableEq

/-- The global variables and the links of the UEs. -/
structure Net where
  sim : Sim
  wires : ℕ → Direction → Wire

inductive NetEvent
  | sim (event : Event)
  | link (ueId : ℕ) (dir : Direction) (event : WireEvent)

/-- The Delay of the channel of a UE. -/
def Net.delay (s : Net) (ueId : ℕ) : ℤ := seconds ((s.sim.ues[ueId]?.map UeInfo.p2pDelay).getD 0)

/-- The handlers of the simulator and of the links. -/
def netHandler (P : Program) (env : Env) : Handler ℤ Net NetEvent
  | .sim event, now, s =>
      let (sim, scheduled) := simHandler P env event now s.sim
      ({ s with sim := sim }, scheduled.map fun q => ⟨q.ts, .sim q.ev⟩)
  | .link ueId dir event, now, s =>
      let (wire, scheduled) := Wire.handler (s.delay ueId) event now (s.wires ueId dir)
      ({ s with wires := fun i d => if i = ueId ∧ d = dir then wire else s.wires i d },
        scheduled.map fun q => ⟨q.ts, .link ueId dir q.ev⟩)

/-- A packet that an application or the protocol stack above the device sends. -/
structure Traffic where
  time : ℤ
  ueId : ℕ
  dir : Direction
  size : ℕ

/-- The configuration at the start of `Simulator::Run`, with all the packets that will be sent. -/
def netInitial (env : Env) (rows : List UeRow) (traffic : List Traffic) : Conf ℤ Net NetEvent :=
  ⟨⟨(initial env rows).state, fun _ _ => {}⟩,
    ((initial env rows).queue.map fun q => ⟨q.ts, .sim q.ev⟩) ++
      traffic.map fun t => ⟨t.time, .link t.ueId t.dir (.send t.size)⟩⟩

/-- Events of the simulator as before, and packets that reach the same end of a link. -/
def NetEvent.conflict : NetEvent → NetEvent → Prop
  | .sim e, .sim e' => e.conflict e'
  | .link i dir (.receive _), .link j dir' (.receive _) => i = j ∧ dir = dir'
  | _, _ => False

/-- The runs of a simulator with its links: by time, conflicting events of the same time as
scheduled. -/
abbrev NetRun (P : Program) (env : Env) (rows : List UeRow) (traffic : List Traffic) :
    List (Firing ℤ Net NetEvent) → Conf ℤ Net NetEvent → Prop :=
  Run (netHandler P env) (timeOrder NetEvent.conflict) (netInitial env rows traffic)

/-! ## Its parts -/

def NetEvent.sim? : NetEvent → Option Event
  | .sim event => some event
  | .link .. => none

def NetEvent.link? (ueId : ℕ) (dir : Direction) : NetEvent → Option WireEvent
  | .sim _ => none
  | .link i d event => if ueId = i ∧ dir = d then some event else none

/-- The simulator without the links. -/
def simulatorPart (P : Program) (env : Env) : Part (netHandler P env) Sim Event where
  view := Net.sim
  event := NetEvent.sim?
  handler _ := simHandler P env
  view_own := by
    intro e f t s own
    cases e with
    | sim event =>
        obtain rfl : event = f := Option.some.inj own
        rfl
    | link => cases own
  sched_own := by
    intro e f t s own
    cases e with
    | sim event =>
        obtain rfl : event = f := Option.some.inj own
        exact translate_map NetEvent.sim (fun _ => rfl) _
    | link => cases own
  view_other := by
    intro e t s other
    cases e with
    | sim => cases other
    | link => rfl
  sched_other := by
    intro e t s other
    cases e with
    | sim => cases other
    | link =>
        apply translate_eq_nil
        intro q member
        obtain ⟨_, _, rfl⟩ := List.mem_map.mp member
        rfl

/-- One direction of the link of a UE. -/
def wirePart (P : Program) (env : Env) (ueId : ℕ) (dir : Direction) :
    Part (netHandler P env) Wire WireEvent where
  view s := s.wires ueId dir
  event := NetEvent.link? ueId dir
  handler s := Wire.handler (s.delay ueId)
  view_own := by
    intro e f t s own
    cases e with
    | sim => cases own
    | link i d event =>
        obtain ⟨⟨rfl, rfl⟩, same⟩ := Option.ite_none_right_eq_some.mp own
        obtain rfl : event = f := Option.some.inj same
        simp [netHandler]
  sched_own := by
    intro e f t s own
    cases e with
    | sim => cases own
    | link i d event =>
        obtain ⟨⟨rfl, rfl⟩, same⟩ := Option.ite_none_right_eq_some.mp own
        obtain rfl : event = f := Option.some.inj same
        exact translate_map (NetEvent.link ueId dir) (fun _ => if_pos ⟨rfl, rfl⟩) _
  view_other := by
    intro e t s other
    cases e with
    | sim => rfl
    | link i d event =>
        have elsewhere : ¬ (ueId = i ∧ dir = d) := by simpa [NetEvent.link?] using other
        simp [netHandler, elsewhere]
  sched_other := by
    intro e t s other
    apply translate_eq_nil
    intro q member
    cases e with
    | sim =>
        obtain ⟨_, _, rfl⟩ := List.mem_map.mp member
        rfl
    | link i d event =>
        have elsewhere : ¬ (ueId = i ∧ dir = d) := by simpa [NetEvent.link?] using other
        obtain ⟨_, _, rfl⟩ := List.mem_map.mp member
        exact if_neg elsewhere

section Runs

variable {rows : List UeRow} {traffic : List Traffic} {h : List (Firing ℤ Net NetEvent)}
  {c : Conf ℤ Net NetEvent}

theorem simulatorPart_initial (P : Program) (env : Env) (rows : List UeRow)
    (traffic : List Traffic) :
    (simulatorPart P env).conf (netInitial env rows traffic) = initial env rows := by
  have none_sent : translate NetEvent.sim?
      (traffic.map fun t => ⟨t.time, NetEvent.link t.ueId t.dir (.send t.size)⟩) = [] := by
    apply translate_eq_nil
    intro q member
    obtain ⟨_, _, rfl⟩ := List.mem_map.mp member
    rfl
  simp only [Part.conf, simulatorPart, netInitial, translate_append, none_sent, List.append_nil]
  rw [translate_map NetEvent.sim fun _ => rfl]

/-- The simulator does not notice the links. -/
theorem simRun_of_netRun (run : NetRun P env rows traffic h c) :
    SimRun P env rows ((simulatorPart P env).history h) ((simulatorPart P env).conf c) := by
  have projects : (simulatorPart P env).Projects (timeOrder NetEvent.conflict)
      (timeOrder Event.conflict) := by
    apply Part.projects_timeOrder
    intro e e' f f' own own' clash
    cases e <;> cases e' <;> simp_all [simulatorPart, NetEvent.sim?, NetEvent.conflict]
  have projected := Part.run_project projects (fun _ => rfl) run
  rwa [simulatorPart_initial] at projected

end Runs

/-! ## The configured Delay -/

theorem UeInfo.count_p2pDelay (op : StatOp) (ue : UeInfo) :
    (ue.count P op).p2pDelay = ue.p2pDelay := by
  unfold UeInfo.count
  split <;> rfl

theorem applyUeErrorModelImmediately_p2pDelay (ue : UeInfo) :
    (applyUeErrorModelImmediately env ue).p2pDelay = ue.p2pDelay := by
  unfold applyUeErrorModelImmediately
  split
  · rfl
  · split <;> rfl

theorem OnlyProcedure.p2pDelay {ue ue' : UeInfo} (only : OnlyProcedure ue ue') :
    ue'.p2pDelay = ue.p2pDelay := by
  unfold OnlyProcedure at only
  rw [only]

theorem OnlyMeasured.p2pDelay {ue ue' : UeInfo} (only : OnlyMeasured ue ue') :
    ue'.p2pDelay = ue.p2pDelay := by
  unfold OnlyMeasured at only
  rw [only]

/-- No action on the procedure sets the Delay. -/
theorem TickAction.p2pDelay {ueId : ℕ} {simTime : ℚ} {ue : UeInfo} {result : UeInfo × List Effect}
    (action : TickAction P env ueId simTime ue result) : result.1.p2pDelay = ue.p2pDelay := by
  cases action with
  | quiet => rfl
  | timer => rfl
  | expires => exact UeInfo.count_p2pDelay ..
  | executes start evaluating =>
      unfold choPhase6UeExecutes
      split
      · rfl
      · rw [applyUeErrorModelImmediately_p2pDelay, UeInfo.count_p2pDelay]
        rfl
  | reports => exact (onlyProcedure_choTriggerProcedure ..).p2pDelay
  | reselects => rfl

/-- No phase sets the Delay, not even the completion: it waits for the next tick. -/
theorem choHandler_p2pDelay (handler : ChoHandler) (ueId : ℕ) (sourceCell targetCell : String)
    (simTime : ℚ) (ue : UeInfo) :
    (choHandler P env handler ueId sourceCell targetCell simTime ue).1.p2pDelay = ue.p2pDelay := by
  by_cases completes : handler = .phase7ExecutionComplete
  case neg => exact (onlyProcedure_choHandler completes).p2pDelay
  case pos =>
    subst completes
    simp only [choHandler, choPhase7ExecutionComplete]
    split
    · rfl
    · split
      · refine (applyUeErrorModelImmediately_p2pDelay _).trans ?_
        exact UeInfo.count_p2pDelay ..
      · exact UeInfo.count_p2pDelay ..

/-- `UpdateChannelState` leaves the Delay, or sets it from the cached distance of the serving
satellite. -/
theorem updated_p2pDelay (simTime : ℚ) (ue : UeInfo) :
    (ue.updated P env simTime).p2pDelay = ue.p2pDelay ∨
      ∃ metrics,
        (ue.updated P env simTime).cached (ue.updated P env simTime).context.servingGnb =
          some metrics ∧
        (ue.updated P env simTime).p2pDelay = metrics.distance / speedOfLight := by
  have selected : ((updateChannelCache P env simTime ue).selectServing P env simTime).p2pDelay =
      ue.p2pDelay := by
    unfold UeInfo.selectServing
    dsimp only
    split
    · split <;> rfl
    · rfl
  unfold UeInfo.updated updateChannelState
  generalize (updateChannelCache P env simTime ue).selectServing P env simTime = ue₁ at selected
  unfold UeInfo.setChannel
  split
  · exact .inl selected
  · split
    · exact .inl selected
    · rename_i metrics cached
      exact .inr ⟨metrics, cached, rfl⟩

theorem ueAction_p2pDelay_nonneg (lawful : P.Lawful) {i : ℕ} {event : Event} {now : ℤ} {ue : UeInfo}
    (link : LinkInvariant P env ue) (nonneg : 0 ≤ ue.p2pDelay) :
    0 ≤ (ueAction P env i event now ue).1.p2pDelay := by
  cases event with
  | checkHandoverConditions =>
      obtain ⟨ue₁, measured, action⟩ := ueTick_action lawful env i (getSeconds now) ue
      rw [ueAction_tick, action.p2pDelay, measured.only.p2pDelay]
      rcases updated_p2pDelay (getSeconds now) ue with stays | ⟨metrics, cached, set⟩
      · rw [stays]
        exact nonneg
      · have distance := (link.updated lawful).one_le_distance cached
        rw [set]
        unfold speedOfLight
        positivity
  | cho handler ueId sourceCell targetCell =>
      rw [ueAction_cho, choHandler_p2pDelay]
      exact nonneg
  | evaluatePendingPrediction => exact nonneg

/-- The Delay of a channel is never negative. -/
theorem delay_nonneg (lawful : P.Lawful) {rows : List UeRow} {traffic : List Traffic}
    {h : List (Firing ℤ Net NetEvent)} {c : Conf ℤ Net NetEvent}
    (run : NetRun P env rows traffic h c) (ueId : ℕ) : 0 ≤ c.state.delay ueId := by
  apply seconds_nonneg
  cases present : c.state.sim.ues[ueId]? with
  | none => exact le_rfl
  | some ue =>
      have kept := ueRun_stateInvariant (I := fun ue => LinkInvariant P env ue ∧ 0 ≤ ue.p2pDelay)
        (AnyOrderRun.toUe (simRun_of_netRun run).anyOrder ueId)
        (fun row => ⟨linkInvariant_initialUe ueId row, le_rfl⟩)
        (fun good => ⟨good.1.ueAction lawful, ueAction_p2pDelay_nonneg lawful good.1 good.2⟩)
        present
      exact kept.2

/-! ## One direction of a link -/

/-- The time at which a packet reaches the peer. -/
def Wire.arrivalOf (w : Wire) (packet : ℕ) : ℤ := ((w.started[packet]?).map Transmission.arrival).getD 0

/-- The packets that the peer received, in this order. -/
def Wire.delivered (w : Wire) : List ℕ := w.received.map Prod.snd

def WireEvent.packet? : WireEvent → Option ℕ
  | .receive packet => some packet
  | _ => none

/-- The packets in flight, in the order of their transmissions. -/
def inFlight (pending : List (Pending ℤ WireEvent)) : List ℕ := pending.filterMap fun q => q.ev.packet?

theorem Wire.arrivalOf_append {w : Wire} {later : List Transmission} {packet : ℕ}
    (sent : packet < w.started.length) :
    Wire.arrivalOf { w with started := w.started ++ later } packet = w.arrivalOf packet := by
  simp only [Wire.arrivalOf, List.getElem?_append_left sent]

theorem mem_inFlight {pending : List (Pending ℤ WireEvent)} {packet : ℕ} :
    packet ∈ inFlight pending ↔ ∃ q ∈ pending, q.ev = .receive packet := by
  simp only [inFlight, List.mem_filterMap]
  constructor
  · rintro ⟨q, member, found⟩
    refine ⟨q, member, ?_⟩
    cases ev : q.ev <;> simp_all [WireEvent.packet?]
  · rintro ⟨q, member, ev⟩
    exact ⟨q, member, by rw [ev]; rfl⟩

/-- What holds of a wire and its pending events once nothing is pending before `now`. -/
structure WireInvariant (now : ℤ) (w : Wire) (pending : List (Pending ℤ WireEvent)) : Prop where
  deliveries : Deliveries w.arrivalOf w.delivered (inFlight pending) w.started.length
  arrivals : ∀ q ∈ pending, ∀ packet, q.ev = .receive packet → q.ts = w.arrivalOf packet
  times : ∀ d ∈ w.received, d.1 = w.arrivalOf d.2 ∧ d.1 ≤ now
  apart : w.started.Pairwise fun t u => t.txComplete ≤ u.start
  sending : ∀ q ∈ pending, q.ev = .transmitComplete →
    w.txMachineState = .busy ∧ ∀ t ∈ w.started, t.txComplete ≤ q.ts
  single : pending.Pairwise fun q q' => q.ev = .transmitComplete → q'.ev ≠ .transmitComplete
  idle : w.txMachineState = .ready → ∀ t ∈ w.started, t.txComplete ≤ now
  notBefore : ∀ q ∈ pending, now ≤ q.ts

namespace WireInvariant

variable {now now' delay : ℤ} {w : Wire} {pending pre post : List (Pending ℤ WireEvent)}
  {p : Pending ℤ WireEvent}

theorem advance (inv : WireInvariant now w pending) (later : now ≤ now')
    (notBefore : ∀ q ∈ pending, now' ≤ q.ts) : WireInvariant now' w pending where
  deliveries := inv.deliveries
  arrivals := inv.arrivals
  times d member := ⟨(inv.times d member).1, (inv.times d member).2.trans later⟩
  apart := inv.apart
  sending := inv.sending
  single := inv.single
  idle ready t member := (inv.idle ready t member).trans later
  notBefore := notBefore

/-- What is in the queue of the device does not matter. -/
theorem queued (inv : WireInvariant now w pending) (queue : List ℕ) :
    WireInvariant now { w with queue := queue } pending :=
  ⟨inv.deliveries, inv.arrivals, inv.times, inv.apart, inv.sending, inv.single, inv.idle,
    inv.notBefore⟩

theorem mem_of_mem_remove {q : Pending ℤ WireEvent} (member : q ∈ pre ++ post) :
    q ∈ pre ++ p :: post := by
  rcases List.mem_append.mp member with before | after
  · exact List.mem_append_left _ before
  · exact List.mem_append_right _ (List.mem_cons_of_mem p after)

theorem inFlight_remove (other : p.ev.packet? = none) :
    inFlight (pre ++ p :: post) = inFlight (pre ++ post) := by
  simp [inFlight, other]

/-- An event fires that is no reception. -/
theorem remove (inv : WireInvariant now w (pre ++ p :: post)) (other : p.ev.packet? = none) :
    WireInvariant now w (pre ++ post) where
  deliveries := by
    rw [← inFlight_remove other]
    exact inv.deliveries
  arrivals q member := inv.arrivals q (mem_of_mem_remove member)
  times := inv.times
  apart := inv.apart
  sending q member := inv.sending q (mem_of_mem_remove member)
  single := inv.single.sublist ((List.Sublist.refl pre).append (List.sublist_cons_self p post))
  idle := inv.idle
  notBefore q member := inv.notBefore q (mem_of_mem_remove member)

/-- A transmission is over: no other one is. -/
theorem complete (inv : WireInvariant now w (pre ++ ⟨now, .transmitComplete⟩ :: post)) :
    WireInvariant now { w with txMachineState := .ready } (pre ++ post) := by
  have past : ∀ t ∈ w.started, t.txComplete ≤ now :=
    (inv.sending ⟨now, .transmitComplete⟩ (by simp) rfl).2
  have alone : ∀ q ∈ pre ++ post, q.ev ≠ .transmitComplete := by
    obtain ⟨_, after, before⟩ := List.pairwise_append.mp inv.single
    intro q member same
    rcases List.mem_append.mp member with inPre | inPost
    · exact before q inPre ⟨now, .transmitComplete⟩ List.mem_cons_self same rfl
    · exact List.rel_of_pairwise_cons after inPost rfl same
  have rest := inv.remove rfl
  exact ⟨rest.deliveries, rest.arrivals, rest.times, rest.apart,
    fun q member same => absurd same (alone q member), rest.single, fun _ => past, rest.notBefore⟩

/-- A packet reaches the peer. -/
theorem receive {packet : ℕ} (inv : WireInvariant now w (pre ++ ⟨now, .receive packet⟩ :: post))
    (first : ∀ q ∈ pre, q.ts = now → ∀ other, q.ev ≠ .receive other) :
    WireInvariant now { w with received := w.received ++ [(now, packet)] } (pre ++ post) := by
  have arrives : w.arrivalOf packet = now := (inv.arrivals ⟨now, .receive packet⟩ (by simp) packet rfl).symm
  have flying : inFlight (pre ++ ⟨now, .receive packet⟩ :: post) =
      inFlight pre ++ packet :: inFlight post := by simp [inFlight, WireEvent.packet?]
  have remaining : inFlight (pre ++ post) = inFlight pre ++ inFlight post := by simp [inFlight]
  -- what is still in flight arrives no earlier, and what was sent before it arrives later
  have least : ∀ l ∈ inFlight pre ++ inFlight post, w.arrivalOf packet ≤ w.arrivalOf l := by
    intro l member
    rw [← remaining] at member
    obtain ⟨q, inQueue, ev⟩ := mem_inFlight.mp member
    rw [arrives, ← inv.arrivals q (mem_of_mem_remove inQueue) l ev]
    exact inv.notBefore q (mem_of_mem_remove inQueue)
  have strict : ∀ l ∈ inFlight pre, w.arrivalOf l ≠ w.arrivalOf packet := by
    intro l member same
    obtain ⟨q, inPre, ev⟩ := mem_inFlight.mp member
    refine first q inPre ?_ l ev
    rw [inv.arrivals q (List.mem_append_left _ inPre) l ev, same, arrives]
  have deliveries := inv.deliveries
  rw [flying] at deliveries
  refine ⟨?_, fun q member => inv.arrivals q (mem_of_mem_remove member), ?_, inv.apart,
    fun q member => inv.sending q (mem_of_mem_remove member), ?_, inv.idle,
    fun q member => inv.notBefore q (mem_of_mem_remove member)⟩
  · rw [remaining, Wire.delivered, List.map_append]
    exact deliveries.deliver least strict
  · intro d member
    rcases List.mem_append.mp member with old | new
    · exact inv.times d old
    · rw [List.mem_singleton.mp new]
      exact ⟨arrives.symm, le_rfl⟩
  · exact inv.single.sublist ((List.Sublist.refl pre).append (List.sublist_cons_self _ post))

/-- A transmission starts. -/
theorem transmitStart (inv : WireInvariant now w pending) (ready : w.txMachineState = .ready)
    (nonneg : 0 ≤ delay) (size : ℕ) :
    WireInvariant now (w.transmitStart delay now size).1
      (pending ++ (w.transmitStart delay now size).2) := by
  have txTime : 0 ≤ calculateBytesTxTime size := by
    apply seconds_nonneg
    unfold dataRate
    positivity
  let packet : Transmission := ⟨now, size, delay⟩
  let w' : Wire := { w with txMachineState := .busy, started := w.started ++ [packet] }
  let completion : Pending ℤ WireEvent := ⟨packet.txComplete, .transmitComplete⟩
  let reception : Pending ℤ WireEvent := ⟨packet.arrival, .receive w.started.length⟩
  have completes : now ≤ packet.txComplete := by
    simp only [packet, Transmission.txComplete]
    omega
  have reaches : now ≤ packet.arrival := by
    simp only [packet, Transmission.arrival]
    omega
  have kept : ∀ k < w.started.length, w'.arrivalOf k = w.arrivalOf k := fun k sent =>
    Wire.arrivalOf_append sent
  have last : w'.arrivalOf w.started.length = packet.arrival := by simp [w', Wire.arrivalOf]
  have silent : ∀ q ∈ pending, q.ev ≠ .transmitComplete := by
    intro q member same
    rw [(inv.sending q member same).1] at ready
    cases ready
  have flying : inFlight (pending ++ [completion, reception]) =
      inFlight pending ++ [w.started.length] := by
    simp [inFlight, completion, reception, WireEvent.packet?]
  change WireInvariant now w' (pending ++ [completion, reception])
  have split : ∀ {q : Pending ℤ WireEvent}, q ∈ pending ++ [completion, reception] →
      q ∈ pending ∨ q = completion ∨ q = reception := fun member => by simpa using member
  refine ⟨?_, ?_, ?_, ?_, ?_, ?_, (fun isReady => by cases isReady), ?_⟩
  · rw [flying]
    have sent : w'.started.length = w.started.length + 1 := by simp [w']
    rw [sent]
    refine (inv.deliveries.congr kept).send fun k member => ?_
    obtain ⟨d, received, rfl⟩ := List.mem_map.mp member
    rw [kept _ (inv.deliveries.lt_of_received member), last, ← (inv.times d received).1]
    exact (inv.times d received).2.trans reaches
  · intro q member k ev
    rcases split member with old | rfl | rfl
    · have sent := inv.deliveries.lt_of_flying (mem_inFlight.mpr ⟨q, old, ev⟩)
      rw [kept k sent]
      exact inv.arrivals q old k ev
    · cases ev
    · obtain rfl : w.started.length = k := by
        injection ev
      exact last.symm
  · intro d member
    have sent := inv.deliveries.lt_of_received (List.mem_map_of_mem (f := Prod.snd) member)
    rw [kept d.2 sent]
    exact inv.times d member
  · refine List.pairwise_append.mpr ⟨inv.apart, List.pairwise_singleton _ _, fun t member u isLast => ?_⟩
    rw [List.mem_singleton.mp isLast]
    exact inv.idle ready t member
  · intro q member ev
    rcases split member with old | rfl | rfl
    · exact absurd ev (silent q old)
    · refine ⟨rfl, fun t started => ?_⟩
      rcases List.mem_append.mp started with before | isLast
      · exact (inv.idle ready t before).trans completes
      · rw [List.mem_singleton.mp isLast]
    · cases ev
  · refine List.pairwise_append.mpr ⟨inv.single, ?_, fun q member q' _ same => ?_⟩
    · simp [completion, reception]
    · exact absurd same (silent q member)
  · intro q member
    rcases split member with old | rfl | rfl
    · exact inv.notBefore q old
    · exact completes
    · exact reaches

theorem dequeue (inv : WireInvariant now w pending) (ready : w.txMachineState = .ready)
    (nonneg : 0 ≤ delay) :
    WireInvariant now (w.dequeue delay now).1 (pending ++ (w.dequeue delay now).2) := by
  unfold Wire.dequeue
  split
  · rw [List.append_nil]
    exact inv
  · rename_i size queue _
    exact (inv.queued queue).transmitStart ready nonneg size

/-- **The step of a wire.** -/
theorem handler (inv : WireInvariant now w (pre ++ p :: post)) (nonneg : 0 ≤ delay)
    (least : ∀ q ∈ pre ++ post, p.ts ≤ q.ts)
    (first : ∀ packet, p.ev = .receive packet → ∀ q ∈ pre, q.ts = p.ts → ∀ other, q.ev ≠ .receive other) :
    WireInvariant p.ts (Wire.handler delay p.ev p.ts w).1
      (pre ++ post ++ (Wire.handler delay p.ev p.ts w).2) := by
  have current : WireInvariant p.ts w (pre ++ p :: post) := by
    refine inv.advance (inv.notBefore p (by simp)) fun q member => ?_
    rcases List.mem_append.mp member with before | after
    · exact least q (List.mem_append_left _ before)
    · rcases List.mem_cons.mp after with rfl | after
      · exact le_rfl
      · exact least q (List.mem_append_right _ after)
  rcases p with ⟨ts, event⟩
  cases event with
  | send size =>
      have rest := current.remove rfl
      simp only [Wire.handler]
      split
      · split
        · rename_i ready
          exact (rest.queued _).dequeue ready nonneg
        · rw [List.append_nil]
          exact rest.queued _
      · rw [List.append_nil]
        exact rest
  | transmitComplete => exact current.complete.dequeue rfl nonneg
  | receive packet =>
      simp only [Wire.handler, List.append_nil]
      exact current.receive (first packet rfl)

end WireInvariant

/-! ## Runs of a wire -/

def WireEvent.conflict : WireEvent → WireEvent → Prop
  | .receive _, .receive _ => True
  | _, _ => False

theorem wirePart_projects (ueId : ℕ) (dir : Direction) :
    (wirePart P env ueId dir).Projects (timeOrder NetEvent.conflict)
      (timeOrder WireEvent.conflict) := by
  apply Part.projects_timeOrder
  intro e e' f f' own own' clash
  cases e with
  | sim => cases own
  | link i d event =>
      cases e' with
      | sim => cases own'
      | link i' d' event' =>
          obtain ⟨⟨rfl, rfl⟩, same⟩ := Option.ite_none_right_eq_some.mp own
          obtain ⟨⟨rfl, rfl⟩, same'⟩ := Option.ite_none_right_eq_some.mp own'
          obtain rfl : event = f := Option.some.inj same
          obtain rfl : event' = f' := Option.some.inj same'
          cases event <;> cases event' <;> simp_all [WireEvent.conflict, NetEvent.conflict]

theorem exists_notBefore (pending : List (Pending ℤ WireEvent)) :
    ∃ now, ∀ q ∈ pending, now ≤ q.ts := by
  induction pending with
  | nil => exact ⟨0, by simp⟩
  | cons p pending ih =>
      obtain ⟨now, notBefore⟩ := ih
      refine ⟨min p.ts now, fun q member => ?_⟩
      rcases List.mem_cons.mp member with rfl | member
      · exact min_le_left ..
      · exact (min_le_right ..).trans (notBefore q member)

/-- Before the simulation only sends are pending. -/
theorem wireInvariant_initial (rows : List UeRow) (traffic : List Traffic) (ueId : ℕ)
    (dir : Direction) :
    ∃ now, WireInvariant now {}
      (translate (NetEvent.link? ueId dir) (netInitial env rows traffic).queue) := by
  obtain ⟨now, notBefore⟩ := exists_notBefore
    (translate (NetEvent.link? ueId dir) (netInitial env rows traffic).queue)
  have sends : ∀ q ∈ translate (NetEvent.link? ueId dir) (netInitial env rows traffic).queue,
      ∃ size, q.ev = .send size := by
    intro q member
    obtain ⟨p, inQueue, _, own⟩ := mem_translate.mp member
    rcases List.mem_append.mp inQueue with ofSim | sent
    · obtain ⟨_, _, rfl⟩ := List.mem_map.mp ofSim
      cases own
    · obtain ⟨t, _, rfl⟩ := List.mem_map.mp sent
      obtain ⟨_, same⟩ := Option.ite_none_right_eq_some.mp own
      exact ⟨t.size, (Option.some.inj same).symm⟩
  have silent : ∀ q ∈ translate (NetEvent.link? ueId dir) (netInitial env rows traffic).queue,
      q.ev ≠ .transmitComplete ∧ ∀ packet, q.ev ≠ .receive packet := by
    intro q member
    obtain ⟨size, ev⟩ := sends q member
    rw [ev]
    simp
  refine ⟨now, ?_, ?_, by simp, .nil, ?_, ?_, fun _ => by simp, notBefore⟩
  · have none_flying : inFlight (translate (NetEvent.link? ueId dir)
        (netInitial env rows traffic).queue) = [] := by
      apply List.eq_nil_iff_forall_not_mem.mpr
      intro packet member
      obtain ⟨q, inQueue, ev⟩ := mem_inFlight.mp member
      exact (silent q inQueue).2 packet ev
    rw [none_flying]
    exact .empty
  · exact fun q member packet ev => absurd ev ((silent q member).2 packet)
  · exact fun q member ev => absurd ev (silent q member).1
  · refine List.Pairwise.imp_of_mem (fun {q q'} _ member' _ _ => (silent q' member').1)
      (List.pairwise_of_forall fun _ _ => trivial)

theorem wireInvariant_of_run (lawful : P.Lawful) {rows : List UeRow} {traffic : List Traffic}
    {h : List (Firing ℤ Net NetEvent)} {c : Conf ℤ Net NetEvent}
    (run : NetRun P env rows traffic h c) (ueId : ℕ) (dir : Direction) :
    ∃ now, WireInvariant now (c.state.wires ueId dir)
      (translate (NetEvent.link? ueId dir) c.queue) := by
  induction run with
  | nil => exact wireInvariant_initial rows traffic ueId dir
  | @snoc h c c' p prior step ih =>
      obtain ⟨now, inv⟩ := ih
      rcases Part.step_project (wirePart_projects ueId dir) step with ⟨_, stays⟩ | ⟨e, _, next⟩
      · have same : c'.state.wires ueId dir = c.state.wires ueId dir := congrArg Conf.state stays
        have queue : translate (NetEvent.link? ueId dir) c'.queue =
            translate (NetEvent.link? ueId dir) c.queue := congrArg Conf.queue stays
        rw [same, queue]
        exact ⟨now, inv⟩
      · have nonneg := delay_nonneg lawful prior ueId
        refine ⟨p.ts, ?_⟩
        change WireInvariant p.ts ((wirePart P env ueId dir).conf c').state
          ((wirePart P env ueId dir).conf c').queue
        change WireInvariant now ((wirePart P env ueId dir).conf c).state
          ((wirePart P env ueId dir).conf c).queue at inv
        generalize (wirePart P env ueId dir).conf c = d at inv next
        generalize (wirePart P env ueId dir).conf c' = d' at next ⊢
        cases next with
        | @fire w pre _ post allowed =>
            refine inv.handler nonneg allowed.1 fun packet receives q inPre same other ev => ?_
            apply allowed.2 q inPre same
            rw [ev, receives]
            trivial

/-- The packets in flight in one direction of the link of a UE. -/
def packetsInFlight (ueId : ℕ) (dir : Direction) (c : Conf ℤ Net NetEvent) : List ℕ :=
  inFlight (translate (NetEvent.link? ueId dir) c.queue)

/-- **The link of a UE.** In every run and in each direction every packet that was put on the channel is
received or in flight, once, and is received at the end of its transmission plus the Delay that was
configured at its start. One transmission starts after the other. The packets come out in the order of
their transmissions exactly when for no packet that was received the Delay had dropped, since the start
of an earlier transmission, by more than the time between the ends of the two. -/
theorem fifo_link {rows : List UeRow} {traffic : List Traffic} {h : List (Firing ℤ Net NetEvent)}
    {c : Conf ℤ Net NetEvent} (run : NetRun tdCho env rows traffic h c) (ueId : ℕ) (dir : Direction) :
    let wire := c.state.wires ueId dir
    (wire.delivered ++ packetsInFlight ueId dir c).Perm (List.range wire.started.length) ∧
      (∀ time packet, (time, packet) ∈ wire.received →
        ∃ t, wire.started[packet]? = some t ∧ time = t.txComplete + t.delay) ∧
      (∀ q ∈ c.queue, ∀ packet, q.ev = .link ueId dir (.receive packet) →
        ∃ t, wire.started[packet]? = some t ∧ q.ts = t.txComplete + t.delay) ∧
      (wire.started.Pairwise fun t u => t.txComplete ≤ u.start) ∧
      (wire.delivered = List.range wire.delivered.length ↔
        ∀ k l t u, wire.started[k]? = some t → wire.started[l]? = some u → k < l →
          l ∈ wire.delivered → t.delay - u.delay ≤ u.txComplete - t.txComplete) := by
  obtain ⟨now, inv⟩ := wireInvariant_of_run TdCho.lawful run ueId dir
  have arrives : ∀ {packet t}, (c.state.wires ueId dir).started[packet]? = some t →
      (c.state.wires ueId dir).arrivalOf packet = t.txComplete + t.delay := by
    intro packet t started
    simp only [Wire.arrivalOf, started, Option.map_some, Option.getD_some, Transmission.arrival,
      Transmission.txComplete]
    omega
  have sent : ∀ {packet}, packet < (c.state.wires ueId dir).started.length →
      ∃ t, (c.state.wires ueId dir).started[packet]? = some t := fun bound =>
    ⟨_, List.getElem?_eq_getElem bound⟩
  dsimp only
  refine ⟨inv.deliveries.once, ?_, ?_, inv.apart, ?_⟩
  · intro time packet member
    obtain ⟨t, started⟩ :=
      sent (inv.deliveries.lt_of_received (List.mem_map_of_mem (f := Prod.snd) member))
    exact ⟨t, started, (inv.times _ member).1.trans (arrives started)⟩
  · intro q member packet ev
    have pending : (⟨q.ts, .receive packet⟩ : Pending ℤ WireEvent) ∈
        translate (NetEvent.link? ueId dir) c.queue :=
      mem_translate.mpr ⟨q, member, rfl, by rw [ev]; exact if_pos ⟨rfl, rfl⟩⟩
    obtain ⟨t, started⟩ := sent (inv.deliveries.lt_of_flying (mem_inFlight.mpr ⟨_, pending, rfl⟩))
    exact ⟨t, started, (inv.arrivals _ pending packet rfl).trans (arrives started)⟩
  · rw [inv.deliveries.in_order_iff]
    constructor
    · intro inOrder k l t u started started' less member
      have le := inOrder k l less member
      rw [arrives started, arrives started'] at le
      omega
    · intro steady k l less member
      have bound := inv.deliveries.lt_of_received member
      obtain ⟨t, started⟩ := sent (less.trans bound)
      obtain ⟨u, started'⟩ := sent bound
      have drop := steady k l t u started started' less member
      rw [arrives started, arrives started']
      omega

/-- The first `n` events of a simulation with its links. -/
def sampleNetRun (env : Env) (traffic : List Traffic) (n : ℕ) :
    List (Firing ℤ Net NetEvent) × Conf ℤ Net NetEvent :=
  runFifo (netHandler tdCho env) n (netInitial env sampleRows traffic)

theorem netRun_sampleNetRun (env : Env) (traffic : List Traffic) (n : ℕ) :
    NetRun tdCho env sampleRows traffic (sampleNetRun env traffic n).1 (sampleNetRun env traffic n).2 :=
  (runFifo_run n (netInitial env sampleRows traffic)).mono timeOrder_of_fifo

/-- Two packets of 1250 bytes, with their headers, that the UE sends at the given times. -/
def twoPackets (time time' : ℤ) : List Traffic := [⟨time, 0, .uplink, 1280⟩, ⟨time', 0, .uplink, 1280⟩]

/-- Between two ticks the packets come out in order. -/
theorem fifo_link_steady :
    ((sampleNetRun crossing (twoPackets 4100000000 4101500000) 17).2.state.wires 0 .uplink).delivered =
        [0, 1] ∧
      ∀ k l t u,
        ((sampleNetRun crossing (twoPackets 4100000000 4101500000) 17).2.state.wires 0
          .uplink).started[k]? = some t →
        ((sampleNetRun crossing (twoPackets 4100000000 4101500000) 17).2.state.wires 0
          .uplink).started[l]? = some u → k < l →
        l ∈ ((sampleNetRun crossing (twoPackets 4100000000 4101500000) 17).2.state.wires 0
          .uplink).delivered →
        t.delay - u.delay ≤ u.txComplete - t.txComplete := by
  have order : ((sampleNetRun crossing (twoPackets 4100000000 4101500000) 17).2.state.wires 0
      .uplink).delivered = [0, 1] := by decide +kernel
  obtain ⟨-, -, -, -, steady⟩ :=
    fifo_link (netRun_sampleNetRun crossing (twoPackets 4100000000 4101500000) 17) 0 .uplink
  refine ⟨order, steady.mp ?_⟩
  rw [order]
  rfl

/-- A handover to a closer satellite completes; of two packets that the UE sends around the next tick the
second overtakes the first. -/
theorem fifo_link_overtaking :
    ¬ ∀ {env : Env} {rows : List UeRow} {traffic : List Traffic} {h : List (Firing ℤ Net NetEvent)}
      {c : Conf ℤ Net NetEvent}, NetRun tdCho env rows traffic h c → ∀ ueId dir,
        ((c.state.wires ueId dir).delivered ++ packetsInFlight ueId dir c).Perm
            (List.range (c.state.wires ueId dir).started.length) ∧
          (c.state.wires ueId dir).delivered = List.range (c.state.wires ueId dir).delivered.length := by
  intro always
  have order : ((sampleNetRun crossing (twoPackets 4999000000 5000500000) 18).2.state.wires 0
      .uplink).delivered = [1, 0] := by decide +kernel
  have inOrder :=
    (always (netRun_sampleNetRun crossing (twoPackets 4999000000 5000500000) 18) 0 .uplink).2
  rw [order] at inOrder
  exact absurd inOrder (by decide)

end NtnCho
