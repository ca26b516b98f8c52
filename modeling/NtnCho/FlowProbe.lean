import NtnCho.FlowBalance

/-!
# Flow probes and their classifier

The probes of the nodes see the packets that pass the IPv4 layer. The first one that sees a packet has it
classified and tags it with its flow and its number in the flow; the others report what the tag says.

* `Classified` says what the classifier knows; every tag, and every packet that is reported as sent, has
  ids that it gave, and no ids are given twice in fewer than `2 ^ 32` calls, after which they overflow
  (`classified_of_reached`).
* `flow_conservation`: so the balance of a flow holds without packets that are sent twice.
* `stray_timed_out`: a packet that is dropped is not tracked exactly if it has timed out before, when every
  packet is received or dropped at most once.

Of the probes that a node can have, `Ipv6FlowProbe` is left out.
-/

namespace NtnCho

open Frames

/-! ## The classifier -/

/-- `Ipv4Header`, as far as it is read. -/
structure Ipv4Header where
  source : BitVec 32
  destination : BitVec 32
  protocol : ℕ
  fragmentOffset : ℕ := 0
  lastFragment : Bool := true
  serializedSize : ℕ := 20

/-- `Ipv4FlowClassifier::FiveTuple` -/
structure FiveTuple where
  sourceAddress : BitVec 32
  destinationAddress : BitVec 32
  protocol : ℕ
  sourcePort : BitVec 16
  destinationPort : BitVec 16
  deriving DecidableEq

/-- `TCP_PROT_NUMBER` -/
def tcpProtNumber : ℕ := 6

/-- `UDP_PROT_NUMBER` -/
def udpProtNumber : ℕ := 17

structure Ipv4FlowClassifier where
  lastNewFlowId : ℕ := 0
  flowMap : List (FiveTuple × ℕ) := []
  flowPktIdMap : List (ℕ × ℕ) := []

namespace Ipv4FlowClassifier

/-- Two bytes of the payload. -/
def port (high low : BitVec 8) : BitVec 16 := (high.setWidth 16 <<< 8) ||| low.setWidth 16

/-- The tuple of a packet, when it has one. -/
def fiveTuple (ipHeader : Ipv4Header) (ipPayload : List (BitVec 8)) : Option FiveTuple :=
  if 0 < ipHeader.fragmentOffset then none
  else if ipHeader.protocol ≠ udpProtNumber ∧ ipHeader.protocol ≠ tcpProtNumber then none
  else
    match ipPayload with
    | a :: b :: c :: d :: _ =>
        some ⟨ipHeader.source, ipHeader.destination, ipHeader.protocol, port a b, port c d⟩
    | _ => none

/-- `Classify`, after the tuple is read: the flow of the packet and its number in the flow, in 32 bits
each. -/
def insert (tuple : FiveTuple) (c : Ipv4FlowClassifier) : (ℕ × ℕ) × Ipv4FlowClassifier :=
  match c.flowMap.lookup tuple with
  | none =>
      let newFlowId := (c.lastNewFlowId + 1) % 2 ^ 32
      ((newFlowId, 0),
        { lastNewFlowId := newFlowId
          flowMap := c.flowMap ++ [(tuple, newFlowId)]
          flowPktIdMap := setKey newFlowId 0 c.flowPktIdMap })
  | some flowId =>
      let packetId := ((c.flowPktIdMap.lookup flowId).getD 0 + 1) % 2 ^ 32
      ((flowId, packetId), { c with flowPktIdMap := setKey flowId packetId c.flowPktIdMap })

def classify (ipHeader : Ipv4Header) (ipPayload : List (BitVec 8)) (c : Ipv4FlowClassifier) :
    Option ((ℕ × ℕ) × Ipv4FlowClassifier) :=
  (fiveTuple ipHeader ipPayload).map fun tuple => c.insert tuple

/-- `FindFlow`; without such a flow the program stops with an error. -/
def findFlow (flowId : ℕ) (c : Ipv4FlowClassifier) : Option FiveTuple :=
  (c.flowMap.find? fun entry => entry.2 = flowId).map Prod.fst

end Ipv4FlowClassifier

/-! ## The probes -/

/-- `Ipv4FlowProbeTag` -/
structure Ipv4FlowProbeTag where
  flowId : ℕ
  packetId : ℕ
  packetSize : ℕ
  src : BitVec 32
  dst : BitVec 32

def Ipv4FlowProbeTag.isSrcDstValid (src dst : BitVec 32) (tag : Ipv4FlowProbeTag) : Bool :=
  tag.src = src ∧ tag.dst = dst

/-- `Ipv4L3Protocol::DropReason` -/
inductive Ipv4L3DropReason where
  | ttlExpired
  | noRoute
  | badChecksum
  | interfaceDown
  | routeError
  | fragmentTimeout
  | duplicate

/-- `Ipv4FlowProbe::DropReason` -/
inductive DropReason where
  | noRoute
  | ttlExpire
  | badChecksum
  | queue
  | queueDisc
  | interfaceDown
  | routeError
  | fragmentTimeout
  | invalidReason

/-- The value of the enumerator. -/
def DropReason.code : DropReason → ℕ
  | noRoute => 0
  | ttlExpire => 1
  | badChecksum => 2
  | queue => 3
  | queueDisc => 4
  | interfaceDown => 5
  | routeError => 6
  | fragmentTimeout => 7
  | invalidReason => 8

/-- The `switch` of `DropLogger`; its default stops the program. -/
def Ipv4L3DropReason.myReason : Ipv4L3DropReason → Option DropReason
  | ttlExpired => some .ttlExpire
  | noRoute => some .noRoute
  | badChecksum => some .badChecksum
  | interfaceDown => some .interfaceDown
  | routeError => some .routeError
  | fragmentTimeout => some .fragmentTimeout
  | duplicate => none

/-- What the probe of a node sees of the packet `uid`, and the calls of the monitor that no probe makes. A
packet that is sent again without its byte tags, as an echo server does, is another one. -/
inductive Trace (n : ℕ)
  | sendOutgoing (probe : Fin n) (uid : ℕ) (isUnicast : Bool) (ipHeader : Ipv4Header)
      (ipPayload : List (BitVec 8))
  | forward (probe : Fin n) (uid : ℕ) (ipHeader : Ipv4Header) (ipPayload : List (BitVec 8))
  | forwardUp (probe : Fin n) (uid : ℕ) (ipHeader : Ipv4Header) (ipPayload : List (BitVec 8))
  | drop (probe : Fin n) (uid : ℕ) (ipHeader : Ipv4Header) (ipPayload : List (BitVec 8))
      (reason : Ipv4L3DropReason)
  | queueDrop (probe : Fin n) (uid : ℕ)
  | queueDiscDrop (probe : Fin n) (uid : ℕ)
  | checkForLostPackets (maxDelay : ℤ)
  | startRightNow
  | stopRightNow

open FlowMonitor

namespace FlowMonitor

variable {n : ℕ}

/-- The packet that a call is about. -/
def Call.key : Call n → Option (ℕ × ℕ)
  | .firstTx _ flowId packetId _ => some (flowId, packetId)
  | .forwarding _ flowId packetId _ => some (flowId, packetId)
  | .lastRx _ flowId packetId _ => some (flowId, packetId)
  | .drop _ flowId packetId _ _ => some (flowId, packetId)
  | _ => none

/-- The packet that a call reports as sent. -/
def Call.sentKey : Call n → Option (ℕ × ℕ)
  | .firstTx _ flowId packetId _ => some (flowId, packetId)
  | _ => none

def sentKeys (calls : List (ℤ × Call n)) : List (ℕ × ℕ) := calls.filterMap fun call => call.2.sentKey

theorem sentKeys_snoc (calls : List (ℤ × Call n)) (now : ℤ) (call : Call n) :
    sentKeys (calls ++ [(now, call)]) = sentKeys calls ++ call.sentKey.toList := by
  unfold sentKeys
  rw [List.filterMap_append]
  cases here : call.sentKey <;> simp [here]

theorem mem_sentKeys {calls : List (ℤ × Call n)} {now : ℤ} {probe : Fin n} {flowId packetId size : ℕ}
    (sent : (now, Call.firstTx probe flowId packetId size) ∈ calls) :
    (flowId, packetId) ∈ sentKeys calls :=
  List.mem_filterMap.mpr ⟨_, sent, rfl⟩

/-- No packet is sent twice when no two are sent under the same ids. -/
theorem resent_eq_nil (A : Attributes) (flowId : ℕ) {calls : List (ℤ × Call n)}
    (nodup : (sentKeys calls).Nodup) : resent A flowId calls = [] := by
  induction calls using List.reverseRecOn with
  | nil => rfl
  | append_singleton calls call ih =>
      obtain ⟨now, call⟩ := call
      rw [sentKeys_snoc] at nodup
      have none_before := ih (List.nodup_append.mp nodup).1
      unfold resent at none_before ⊢
      rw [noted_snoc, none_before, List.nil_append]
      have origin := of_effect A (after A calls) call
      generalize (after A calls).effect A call = effect at origin ⊢
      cases effect with
      | sent probe f packetId packetSize =>
          obtain rfl : call = .firstTx probe f packetId packetSize := origin
          refine if_neg fun both => ?_
          obtain ⟨tracked, member, same⟩ := List.mem_map.mp both.2
          obtain ⟨probe', size, sent⟩ := (tracks_of_run A calls).sent tracked member
          have before := mem_sentKeys sent
          rw [same] at before
          exact (List.nodup_append.mp nodup).2.2 _ before _ List.mem_cons_self rfl
      | _ => rfl

/-- A flow has statistics only when a call was about it. -/
theorem exists_call_of_known (A : Attributes) (flowId : ℕ) (calls : List (ℤ × Call n))
    (known : (after A calls).flowStats.lookup flowId ≠ none) :
    ∃ call ∈ calls, ∃ packetId, call.2.key = some (flowId, packetId) := by
  induction calls using List.reverseRecOn with
  | nil => exact absurd rfl known
  | append_singleton calls call ih =>
      obtain ⟨now, call⟩ := call
      have earlier : (after A calls).flowStats.lookup flowId ≠ none →
          ∃ c ∈ calls ++ [(now, call)], ∃ packetId, c.2.key = some (flowId, packetId) := fun before => by
        obtain ⟨c, member, about⟩ := ih before
        exact ⟨c, List.mem_append_left _ member, about⟩
      have updated : ∀ {m : FlowMonitor n} {f packetId : ℕ} {update : FlowStats → FlowStats},
          m.flowStats = (after A calls).flowStats → call.key = some (f, packetId) →
            (m.updateStats A f update).flowStats.lookup flowId ≠ none →
              ∃ c ∈ calls ++ [(now, call)], ∃ packetId, c.2.key = some (flowId, packetId) := by
        intro m f packetId update same about after
        unfold updateStats at after
        dsimp only at after
        rw [lookup_setKey, same] at after
        by_cases here : flowId = f
        · subst here
          exact ⟨(now, call), List.mem_append_right _ List.mem_cons_self, packetId, about⟩
        · rw [if_neg here] at after
          exact earlier after
      rw [after_snoc, handle_eq] at known
      have origin := of_effect A (after A calls) call
      generalize (after A calls).effect A call = effect at origin known
      cases effect with
      | sent probe f packetId packetSize =>
          obtain rfl : call = .firstTx probe f packetId packetSize := origin
          exact updated rfl rfl known
      | forwarded => exact earlier known
      | received probe f packetId packetSize tracked =>
          obtain ⟨rfl, -⟩ := origin
          unfold apply FlowMonitor.received at known
          dsimp only at known
          rw [flowStats_erase] at known
          exact @updated ((after A calls).addPacketStats probe f packetSize (now - tracked.firstSeenTime)) f
            packetId _ rfl rfl known
      | dropped probe f packetId packetSize reasonCode =>
          obtain rfl : call = .drop probe f packetId packetSize reasonCode := origin
          exact updated rfl rfl known
      | checked enabled maxDelay =>
          refine earlier fun unknown => known ?_
          unfold apply
          dsimp only
          rw [lookup_checkForLostPackets]
          dsimp only
          rw [unknown]
          rfl
      | ignored => exact earlier known

/-! ## Where tracked packets end -/

/-- The packet that a call reports as received or dropped. -/
def Call.endKey : Call n → Option (ℕ × ℕ)
  | .lastRx _ flowId packetId _ => some (flowId, packetId)
  | .drop _ flowId packetId _ _ => some (flowId, packetId)
  | _ => none

def endKeys (calls : List (ℤ × Call n)) : List (ℕ × ℕ) := calls.filterMap fun call => call.2.endKey

theorem endKeys_append (calls calls' : List (ℤ × Call n)) :
    endKeys (calls ++ calls') = endKeys calls ++ endKeys calls' := List.filterMap_append

/-- What is noted is noted at one of the calls. -/
theorem exists_of_mem_noted {β : Type} {A : Attributes} {note : FlowMonitor n → ℤ → Effect n → List β}
    {calls : List (ℤ × Call n)} {b : β} (member : b ∈ noted A note calls) :
    ∃ before now call rest, calls = before ++ (now, call) :: rest ∧
      b ∈ note (after A before) now ((after A before).effect A call) := by
  induction calls using List.reverseRecOn with
  | nil => cases member
  | append_singleton calls call ih =>
      rw [noted_snoc] at member
      rcases List.mem_append.mp member with old | new
      · obtain ⟨before, now, c, rest, rfl, here⟩ := ih old
        exact ⟨before, now, c, rest ++ [call], by simp, here⟩
      · exact ⟨calls, call.1, call.2, [], rfl, new⟩

theorem mem_noted_append {β : Type} {A : Attributes} {note : FlowMonitor n → ℤ → Effect n → List β}
    {calls : List (ℤ × Call n)} {b : β} (member : b ∈ noted A note calls) (rest : List (ℤ × Call n)) :
    b ∈ noted A note (calls ++ rest) := by
  induction rest using List.reverseRecOn with
  | nil => rwa [List.append_nil]
  | append_singleton rest call ih =>
      rw [← List.append_assoc, noted_snoc]
      exact List.mem_append_left _ ih

/-- The monitor is started first, and never stopped. -/
structure Uninterrupted (calls : List (ℤ × Call n)) : Prop where
  started : calls.head?.map Prod.snd = some .startRightNow
  runs : ∀ call ∈ calls, call.2 ≠ .stopRightNow

theorem enabled_handle {A : Attributes} {m : FlowMonitor n} (enabled : m.enabled = true) (now : ℤ)
    {call : Call n} (runs : call ≠ .stopRightNow) : (m.handle A now call).enabled = true := by
  cases call with
  | firstTx =>
      unfold handle reportFirstTx
      dsimp only
      rw [if_pos enabled]
      exact enabled
  | forwarding =>
      unfold handle reportForwarding
      dsimp only
      rw [if_pos enabled]
      split <;> exact enabled
  | lastRx =>
      unfold handle reportLastRx
      dsimp only
      rw [if_pos enabled]
      split <;> exact enabled
  | drop =>
      unfold handle reportDrop
      dsimp only
      rw [if_pos enabled]
      exact enabled
  | checkForLostPackets => exact enabled
  | startRightNow => rfl
  | stopRightNow => exact absurd rfl runs

/-- A monitor that is not interrupted was not interrupted before. -/
theorem Uninterrupted.of_split {calls before rest : List (ℤ × Call n)} {call : ℤ × Call n}
    (uninterrupted : Uninterrupted calls) (split : calls = before ++ call :: rest) (some_call : before ≠ []) :
    Uninterrupted before := by
  have started := uninterrupted.started
  have runs := uninterrupted.runs
  rw [split] at started runs
  obtain ⟨first, others, rfl⟩ := List.exists_cons_of_ne_nil some_call
  exact ⟨started, fun c member => runs c (List.mem_append_left _ member)⟩

theorem Uninterrupted.of_snoc {calls : List (ℤ × Call n)} {call : ℤ × Call n}
    (uninterrupted : Uninterrupted (calls ++ [call])) (some_call : calls ≠ []) : Uninterrupted calls :=
  uninterrupted.of_split rfl some_call

theorem Uninterrupted.enabled {calls : List (ℤ × Call n)} (uninterrupted : Uninterrupted calls)
    (A : Attributes) : (after A calls).enabled = true := by
  induction calls using List.reverseRecOn with
  | nil => cases uninterrupted.started
  | append_singleton calls call ih =>
      have runs := uninterrupted.runs call (List.mem_append_right _ List.mem_cons_self)
      rw [after_snoc]
      by_cases first : calls = []
      · subst first
        have started : call.2 = .startRightNow := Option.some.inj uninterrupted.started
        rw [started]
        rfl
      · exact enabled_handle (ih (uninterrupted.of_snoc first)) call.1 runs

theorem mem_keys_setKey {m : FlowMonitor n} {key : ℕ × ℕ} (tracked : key ∈ m.keys) (key' : ℕ × ℕ)
    (value : TrackedPacket) : key ∈ (setKey key' value m.trackedPackets).map Prod.fst := by
  rw [keys_setKey]
  split
  · exact tracked
  · exact List.mem_append_left _ tracked

/-- A tracked packet is still tracked after a call, or it ends there, or it times out. -/
theorem tracked_apply {A : Attributes} {m : FlowMonitor n} {call : Call n} {effect : Effect n}
    (origin : effect.Of m call) (now : ℤ) {key : ℕ × ℕ} (tracked : key ∈ m.keys) :
    key ∈ (m.apply A now effect).keys ∨ call.endKey = some key ∨
      key.2 ∈ timeoutOf key.1 m now effect := by
  have erased : ∀ {key' : ℕ × ℕ}, call.endKey = some key' → ∀ {m' : FlowMonitor n},
      m'.keys = m.keys.filter (fun k => k ≠ key') → key ∈ m'.keys ∨ call.endKey = some key ∨
        key.2 ∈ timeoutOf key.1 m now effect := by
    intro key' ends m' keys
    by_cases here : key = key'
    · exact .inr (.inl (here ▸ ends))
    · refine .inl ?_
      rw [keys]
      exact List.mem_filter.mpr ⟨tracked, by simpa using here⟩
  cases effect with
  | sent probe f packetId packetSize => exact .inl (mem_keys_setKey tracked _ _)
  | forwarded probe f packetId packetSize old => exact .inl (mem_keys_setKey tracked _ _)
  | received probe f packetId packetSize old =>
      obtain ⟨rfl, -⟩ := origin
      exact erased rfl keys_erase
  | dropped probe f packetId packetSize reasonCode =>
      obtain rfl : call = .drop probe f packetId packetSize reasonCode := origin
      exact erased rfl keys_erase
  | checked enabled maxDelay =>
      obtain ⟨entry, member, rfl⟩ := List.mem_map.mp tracked
      by_cases late : maxDelay ≤ now - entry.2.lastSeenTime
      · refine .inr (.inr (List.mem_map.mpr ⟨entry, List.mem_filter.mpr ⟨?_, by simp⟩, rfl⟩))
        exact List.mem_filter.mpr ⟨member, by simpa using late⟩
      · refine .inl (List.mem_map_of_mem ?_)
        exact List.mem_filter.mpr ⟨member, by simpa using late⟩
  | ignored enabled => exact .inl tracked

/-- Every packet that was sent is tracked, or it has ended, or it has timed out. -/
theorem accounted_of_run (A : Attributes) {calls : List (ℤ × Call n)}
    (uninterrupted : Uninterrupted calls) {key : ℕ × ℕ} (sent : key ∈ sentKeys calls) :
    key ∈ (after A calls).keys ∨ key ∈ endKeys calls ∨ key.2 ∈ timeouts A key.1 calls := by
  induction calls using List.reverseRecOn with
  | nil => cases sent
  | append_singleton calls call ih =>
      obtain ⟨now, call⟩ := call
      by_cases first : calls = []
      · subst first
        obtain rfl : call = .startRightNow := Option.some.inj uninterrupted.started
        cases sent
      have before := uninterrupted.of_snoc first
      have origin := of_effect A (after A calls) call
      rw [sentKeys_snoc] at sent
      rw [after_snoc, handle_eq, endKeys_append]
      unfold timeouts
      rw [noted_snoc]
      rcases List.mem_append.mp sent with old | new
      · rcases ih before old with tracked | ended | late
        · rcases tracked_apply (A := A) origin now tracked with still | ends | late
          · exact .inl still
          · refine .inr (.inl (List.mem_append_right _ ?_))
            exact List.mem_filterMap.mpr ⟨(now, call), List.mem_cons_self, ends⟩
          · exact .inr (.inr (List.mem_append_right _ late))
        · exact .inr (.inl (List.mem_append_left _ ended))
        · exact .inr (.inr (List.mem_append_left _ late))
      · -- the monitor is enabled, so it tracks the packet
        cases call with
        | firstTx probe f packetId packetSize =>
            obtain rfl := List.mem_singleton.mp new
            refine .inl ?_
            unfold effect
            dsimp only
            rw [if_pos (before.enabled A)]
            change (f, packetId) ∈ (setKey (f, packetId) _ (after A calls).trackedPackets).map Prod.fst
            rw [keys_setKey]
            split
            · assumption
            · exact List.mem_append_right _ List.mem_cons_self
        | _ => cases new

/-- A packet that is tracked after a call was tracked before, or is sent by it. -/
theorem mem_keys_apply {A : Attributes} {m : FlowMonitor n} {call : Call n} {effect : Effect n}
    (origin : effect.Of m call) (now : ℤ) {key : ℕ × ℕ} (tracked : key ∈ (m.apply A now effect).keys) :
    key ∈ m.keys ∨ call.sentKey = some key := by
  have erased : ∀ {key' : ℕ × ℕ} {m' : FlowMonitor n}, m'.keys = m.keys → key ∈ (m'.erase key').keys →
      key ∈ m.keys ∨ call.sentKey = some key := by
    intro key' m' same member
    rw [keys_erase, same] at member
    exact .inl (List.mem_filter.mp member).1
  cases effect with
  | sent probe f packetId packetSize =>
      obtain rfl : call = .firstTx probe f packetId packetSize := origin
      obtain ⟨entry, member, rfl⟩ := List.mem_map.mp tracked
      rcases mem_setKey member with rfl | old
      · exact .inr rfl
      · exact .inl (List.mem_map_of_mem old)
  | forwarded probe f packetId packetSize old =>
      obtain ⟨entry, member, rfl⟩ := List.mem_map.mp tracked
      rcases mem_setKey member with rfl | other
      · exact .inl (List.mem_map.mpr ⟨_, mem_keys_of_lookup origin.2, rfl⟩)
      · exact .inl (List.mem_map_of_mem other)
  | received probe f packetId packetSize old => exact erased (by rfl) tracked
  | dropped probe f packetId packetSize reasonCode => exact erased (by rfl) tracked
  | checked enabled maxDelay =>
      obtain ⟨entry, member, rfl⟩ := List.mem_map.mp tracked
      exact .inl (List.mem_map_of_mem (List.mem_filter.mp member).1)
  | ignored enabled => exact .inl tracked

/-- A packet that is no longer tracked is not tracked again, when none is sent twice. -/
theorem gone_append (A : Attributes) {calls rest : List (ℤ × Call n)} {key : ℕ × ℕ}
    (once : (sentKeys (calls ++ rest)).Nodup) (sent : key ∈ sentKeys calls)
    (gone : key ∉ (after A calls).keys) : key ∉ (after A (calls ++ rest)).keys := by
  induction rest using List.reverseRecOn with
  | nil => rwa [List.append_nil]
  | append_singleton rest call ih =>
      obtain ⟨now, call⟩ := call
      rw [← List.append_assoc, sentKeys_snoc] at once
      rw [← List.append_assoc, after_snoc, handle_eq]
      intro tracked
      rcases mem_keys_apply (of_effect A _ call) now tracked with before | again
      · exact ih (List.nodup_append.mp once).1 before
      · have earlier : key ∈ sentKeys (calls ++ rest) := by
          unfold sentKeys at sent ⊢
          rw [List.filterMap_append]
          exact List.mem_append_left _ sent
        rw [again] at once
        exact (List.nodup_append.mp once).2.2 key earlier key List.mem_cons_self rfl

/-- The stray drops are noted while the monitor runs, at the drops of packets that are not tracked. -/
theorem mem_strayDrops_iff {A : Attributes} {calls : List (ℤ × Call n)} {flowId packetId : ℕ} :
    packetId ∈ strayDrops A flowId calls ↔
      ∃ before now probe size reason rest,
        calls = before ++ (now, Call.drop probe flowId packetId size reason) :: rest ∧
          (after A before).enabled = true ∧ (flowId, packetId) ∉ (after A before).keys := by
  constructor
  · intro stray
    obtain ⟨before, now, call, rest, split, here⟩ := exists_of_mem_noted stray
    have origin := of_effect A (after A before) call
    cases call with
    | drop probe f id size reason =>
        unfold effect at here
        dsimp only at here
        by_cases enabled : (after A before).enabled = true
        · rw [if_pos enabled] at here
          unfold strayDropOf at here
          dsimp only at here
          by_cases both : f = flowId ∧ (f, id) ∉ (after A before).keys
          · rw [if_pos both] at here
            obtain ⟨rfl, untracked⟩ := both
            obtain rfl := List.mem_singleton.mp here
            exact ⟨before, now, probe, size, reason, rest, split, enabled, untracked⟩
          · rw [if_neg both] at here
            cases here
        · rw [if_neg enabled] at here
          cases here
    | _ =>
        generalize (after A before).effect A _ = effect at origin here
        cases effect with
        | dropped => cases origin
        | _ => cases here
  · rintro ⟨before, now, probe, size, reason, rest, split, enabled, untracked⟩
    unfold strayDrops
    rw [split, List.append_cons]
    refine mem_noted_append ?_ rest
    rw [noted_snoc]
    refine List.mem_append_right _ ?_
    unfold effect
    dsimp only
    rw [if_pos enabled]
    unfold strayDropOf
    dsimp only
    rw [if_pos ⟨rfl, untracked⟩]
    exact List.mem_cons_self

/-- A packet that has timed out is not tracked. -/
theorem gone_of_timeout (A : Attributes) {calls : List (ℤ × Call n)} (once : (sentKeys calls).Nodup)
    {flowId packetId : ℕ} (late : packetId ∈ timeouts A flowId calls) :
    (flowId, packetId) ∉ (after A calls).keys := by
  obtain ⟨before, now, call, rest, split, here⟩ := exists_of_mem_noted late
  have tracks := tracks_of_run A before
  have checked : (flowId, packetId) ∈ (after A before).keys ∧
      (flowId, packetId) ∉ ((after A before).handle A now call).keys := by
    rw [handle_eq]
    generalize (after A before).effect A call = effect at here ⊢
    cases effect with
    | checked enabled maxDelay =>
        obtain ⟨entry, overdue, rfl⟩ := List.mem_map.mp here
        obtain ⟨overdue, same⟩ := List.mem_filter.mp overdue
        obtain ⟨member, late⟩ := List.mem_filter.mp overdue
        have key : entry.1 = (flowId, entry.1.2) := Prod.ext (by simpa using same) rfl
        rw [← key]
        refine ⟨List.mem_map_of_mem member, fun still => ?_⟩
        obtain ⟨entry', kept, same'⟩ := List.mem_map.mp still
        obtain ⟨member', early⟩ := List.mem_filter.mp kept
        obtain rfl := List.inj_on_of_nodup_map tracks.nodup member' member same'
        simp only [decide_eq_true_eq] at late early
        exact early late
    | _ => cases here
  obtain ⟨entry, member, same⟩ := List.mem_map.mp checked.1
  obtain ⟨probe, size, sent⟩ := tracks.sent entry member
  rw [same] at sent
  have earlier : (flowId, packetId) ∈ sentKeys (before ++ [(now, call)]) :=
    mem_sentKeys (List.mem_append_left _ sent)
  rw [split, List.append_cons] at once ⊢
  exact gone_append A once earlier (by rw [after_snoc]; exact checked.2)

end FlowMonitor

/-- The classifier that the probes share, the tags of the packets, and the calls of the monitor so far. -/
structure FlowProbes (n : ℕ) where
  classifier : Ipv4FlowClassifier := {}
  tags : List (ℕ × Ipv4FlowProbeTag) := []
  calls : List (ℤ × Call n) := []

namespace FlowProbes

variable {n : ℕ}

def report (now : ℤ) (call : Call n) (s : FlowProbes n) : FlowProbes n :=
  { s with calls := s.calls ++ [(now, call)] }

def sendOutgoingLogger (now : ℤ) (probe : Fin n) (uid : ℕ) (isUnicast : Bool) (ipHeader : Ipv4Header)
    (ipPayload : List (BitVec 8)) (s : FlowProbes n) : FlowProbes n :=
  if ¬ isUnicast then s
  else
    match s.tags.lookup uid with
    | some _ => s
    | none =>
        match s.classifier.classify ipHeader ipPayload with
        | none => s
        | some ((flowId, packetId), classifier) =>
            let size := ipPayload.length + ipHeader.serializedSize
            { s with
              classifier := classifier
              tags := setKey uid ⟨flowId, packetId, size, ipHeader.source, ipHeader.destination⟩ s.tags }
              |>.report now (.firstTx probe flowId packetId size)

def forwardLogger (now : ℤ) (probe : Fin n) (uid : ℕ) (ipHeader : Ipv4Header)
    (ipPayload : List (BitVec 8)) (s : FlowProbes n) : FlowProbes n :=
  match s.tags.lookup uid with
  | none => s
  | some fTag =>
      if ¬ ipHeader.lastFragment ∨ ipHeader.fragmentOffset ≠ 0 then s
      else if ¬ fTag.isSrcDstValid ipHeader.source ipHeader.destination then s
      else
        s.report now (.forwarding probe fTag.flowId fTag.packetId
          (ipPayload.length + ipHeader.serializedSize))

def forwardUpLogger (now : ℤ) (probe : Fin n) (uid : ℕ) (ipHeader : Ipv4Header)
    (ipPayload : List (BitVec 8)) (s : FlowProbes n) : FlowProbes n :=
  match s.tags.lookup uid with
  | none => s
  | some fTag =>
      if ¬ fTag.isSrcDstValid ipHeader.source ipHeader.destination then s
      else
        s.report now (.lastRx probe fTag.flowId fTag.packetId
          (ipPayload.length + ipHeader.serializedSize))

def dropLogger (now : ℤ) (probe : Fin n) (uid : ℕ) (ipHeader : Ipv4Header) (ipPayload : List (BitVec 8))
    (reason : Ipv4L3DropReason) (s : FlowProbes n) : Option (FlowProbes n) :=
  match s.tags.lookup uid with
  | none => some s
  | some fTag =>
      reason.myReason.map fun myReason =>
        s.report now (.drop probe fTag.flowId fTag.packetId
          (ipPayload.length + ipHeader.serializedSize) myReason.code)

/-- `QueueDropLogger` and `QueueDiscDropLogger`, which differ in the reason. -/
def queueDropLogger (reason : DropReason) (now : ℤ) (probe : Fin n) (uid : ℕ) (s : FlowProbes n) :
    FlowProbes n :=
  match s.tags.lookup uid with
  | none => s
  | some fTag => s.report now (.drop probe fTag.flowId fTag.packetId fTag.packetSize reason.code)

/-- A trace at `now`; `none` when the program stops with an error. -/
def step (now : ℤ) (trace : Trace n) (s : FlowProbes n) : Option (FlowProbes n) :=
  match trace with
  | .sendOutgoing probe uid isUnicast ipHeader ipPayload =>
      some (s.sendOutgoingLogger now probe uid isUnicast ipHeader ipPayload)
  | .forward probe uid ipHeader ipPayload => some (s.forwardLogger now probe uid ipHeader ipPayload)
  | .forwardUp probe uid ipHeader ipPayload => some (s.forwardUpLogger now probe uid ipHeader ipPayload)
  | .drop probe uid ipHeader ipPayload reason => s.dropLogger now probe uid ipHeader ipPayload reason
  | .queueDrop probe uid => some (s.queueDropLogger .queue now probe uid)
  | .queueDiscDrop probe uid => some (s.queueDropLogger .queueDisc now probe uid)
  | .checkForLostPackets maxDelay => some (s.report now (.checkForLostPackets maxDelay))
  | .startRightNow => some (s.report now .startRightNow)
  | .stopRightNow => some (s.report now .stopRightNow)

/-- The states that traces lead to. -/
inductive Reached : FlowProbes n → Prop
  | init : Reached {}
  | next {s s' : FlowProbes n} {now : ℤ} {trace : Trace n} (reached : Reached s)
      (steps : s.step now trace = some s') : Reached s'

/-- The state after some traces. -/
def run (traces : List (ℤ × Trace n)) : Option (FlowProbes n) :=
  traces.foldlM (fun s trace => s.step trace.1 trace.2) {}

theorem reached_of_run {traces : List (ℤ × Trace n)} {s : FlowProbes n} (runs : run traces = some s) :
    Reached s := by
  induction traces using List.reverseRecOn generalizing s with
  | nil =>
      obtain rfl := Option.some.inj runs
      exact .init
  | append_singleton traces trace ih =>
      unfold run at runs
      rw [List.foldlM_append] at runs
      obtain ⟨s', before, last⟩ := Option.bind_eq_some_iff.mp runs
      rw [List.foldlM_cons] at last
      obtain ⟨s'', steps, same⟩ := Option.bind_eq_some_iff.mp last
      obtain rfl := Option.some.inj same
      exact (ih before).next steps

/-! ## What a trace does -/

/-- A packet is classified and reported as sent, or a tagged packet is reported, or the monitor is called,
or nothing happens. -/
inductive Stepped (now : ℤ) (s : FlowProbes n) : FlowProbes n → Prop
  | nothing : Stepped now s s
  | classified {probe : Fin n} {uid size : ℕ} {tuple : FiveTuple} {src dst : BitVec 32} :
      Stepped now s (({ s with
        classifier := (s.classifier.insert tuple).2
        tags := setKey uid ⟨(s.classifier.insert tuple).1.1, (s.classifier.insert tuple).1.2, size, src,
          dst⟩ s.tags } : FlowProbes n).report now
            (.firstTx probe (s.classifier.insert tuple).1.1 (s.classifier.insert tuple).1.2 size))
  | tagged {uid : ℕ} {fTag : Ipv4FlowProbeTag} {call : Call n} (tag : s.tags.lookup uid = some fTag)
      (about : call.key = some (fTag.flowId, fTag.packetId)) (later : call.sentKey = none) :
      Stepped now s (s.report now call)
  | called {call : Call n} (about : call.key = none) (later : call.sentKey = none) :
      Stepped now s (s.report now call)

theorem stepped_of_step {now : ℤ} {trace : Trace n} {s s' : FlowProbes n}
    (steps : s.step now trace = some s') : Stepped now s s' := by
  cases trace with
  | sendOutgoing probe uid isUnicast ipHeader ipPayload =>
      obtain rfl := Option.some.inj steps
      unfold sendOutgoingLogger
      split
      · exact .nothing
      · cases s.tags.lookup uid with
        | some _ => exact .nothing
        | none =>
            unfold Ipv4FlowClassifier.classify
            cases Ipv4FlowClassifier.fiveTuple ipHeader ipPayload with
            | none => exact .nothing
            | some tuple => exact .classified
  | forward probe uid ipHeader ipPayload =>
      obtain rfl := Option.some.inj steps
      unfold forwardLogger
      cases tag : s.tags.lookup uid with
      | none => exact .nothing
      | some fTag =>
          dsimp only
          split
          · exact .nothing
          · split
            · exact .nothing
            · exact .tagged tag rfl rfl
  | forwardUp probe uid ipHeader ipPayload =>
      obtain rfl := Option.some.inj steps
      unfold forwardUpLogger
      cases tag : s.tags.lookup uid with
      | none => exact .nothing
      | some fTag =>
          dsimp only
          split
          · exact .nothing
          · exact .tagged tag rfl rfl
  | drop probe uid ipHeader ipPayload reason =>
      unfold step dropLogger at steps
      dsimp only at steps
      cases tag : s.tags.lookup uid with
      | none =>
          rw [tag] at steps
          obtain rfl := Option.some.inj steps
          exact .nothing
      | some fTag =>
          rw [tag] at steps
          obtain ⟨myReason, -, rfl⟩ := Option.map_eq_some_iff.mp steps
          exact .tagged tag rfl rfl
  | queueDrop probe uid =>
      obtain rfl := Option.some.inj steps
      unfold queueDropLogger
      cases tag : s.tags.lookup uid with
      | none => exact .nothing
      | some fTag => exact .tagged tag rfl rfl
  | queueDiscDrop probe uid =>
      obtain rfl := Option.some.inj steps
      unfold queueDropLogger
      cases tag : s.tags.lookup uid with
      | none => exact .nothing
      | some fTag => exact .tagged tag rfl rfl
  | checkForLostPackets maxDelay =>
      obtain rfl := Option.some.inj steps
      exact .called rfl rfl
  | startRightNow =>
      obtain rfl := Option.some.inj steps
      exact .called rfl rfl
  | stopRightNow =>
      obtain rfl := Option.some.inj steps
      exact .called rfl rfl

/-! ## What the classifier knows -/

variable {s : FlowProbes n}

/-- The flows of a classifier. -/
def flowIds (s : FlowProbes n) : List ℕ := s.classifier.flowMap.map Prod.snd

/-- Every flow has a tuple and a packet number, and all ids are among these. -/
structure Classified (s : FlowProbes n) : Prop where
  few : s.classifier.lastNewFlowId ≤ s.calls.length ∧
    ∀ flowId, (s.classifier.flowPktIdMap.lookup flowId).getD 0 ≤ s.calls.length
  nodup : s.flowIds.Nodup
  lastId : ∀ flowId ∈ s.flowIds, flowId ≤ s.classifier.lastNewFlowId
  tags : ∀ tag ∈ s.tags, (tag.2.flowId, tag.2.packetId) ∈ sentKeys s.calls
  sent : ∀ key ∈ sentKeys s.calls, key.1 ∈ s.flowIds ∧
    key.2 ≤ (s.classifier.flowPktIdMap.lookup key.1).getD 0
  fresh : (sentKeys s.calls).Nodup
  later : ∀ before call rest, s.calls = before ++ call :: rest → call.2.sentKey = none →
    ∀ key ∈ call.2.key, key ∈ sentKeys before

/-- A call that is about a packet, if at all, that was sent before. -/
theorem later_snoc {calls : List (ℤ × Call n)} {now : ℤ} {call : Call n}
    (later : ∀ before c rest, calls = before ++ c :: rest → c.2.sentKey = none →
      ∀ key ∈ c.2.key, key ∈ sentKeys before)
    (last : call.sentKey = none → ∀ key ∈ call.key, key ∈ sentKeys calls) :
    ∀ before c rest, calls ++ [(now, call)] = before ++ c :: rest → c.2.sentKey = none →
      ∀ key ∈ c.2.key, key ∈ sentKeys before := by
  intro before c rest split
  rcases List.eq_nil_or_concat rest with rfl | ⟨rest', c', rfl⟩
  · obtain ⟨rfl, same⟩ := List.append_inj' split rfl
    obtain rfl := List.singleton_injective same
    exact last
  · rw [List.concat_eq_append, ← List.cons_append, ← List.append_assoc] at split
    exact later before c rest' (List.append_inj_left' split rfl)

/-- A call that reports no new packet. -/
theorem Classified.report (classified : Classified s) {now : ℤ} {call : Call n}
    (later : call.sentKey = none) (about : ∀ key ∈ call.key, key ∈ sentKeys s.calls) :
    Classified (s.report now call) := by
  have same : sentKeys (s.report now call).calls = sentKeys s.calls := by
    unfold FlowProbes.report
    rw [sentKeys_snoc, later]
    exact List.append_nil _
  have longer : s.calls.length ≤ (s.report now call).calls.length := (List.prefix_append ..).length_le
  refine ⟨⟨classified.few.1.trans longer, fun flowId => (classified.few.2 flowId).trans longer⟩,
    classified.nodup, classified.lastId, fun tag member => ?_, fun key member => ?_, ?_, ?_⟩
  · rw [same]
    exact classified.tags tag member
  · rw [same] at member
    exact classified.sent key member
  · rw [same]
    exact classified.fresh
  · exact later_snoc classified.later fun _ => about

/-- What `Classify` returns is new, and the classifier knows it afterwards. -/
structure Inserted (N : ℕ) (c : Ipv4FlowClassifier) (key : ℕ × ℕ) (c' : Ipv4FlowClassifier) : Prop where
  few : c'.lastNewFlowId ≤ N + 1 ∧ ∀ flowId, (c'.flowPktIdMap.lookup flowId).getD 0 ≤ N + 1
  nodup : (c'.flowMap.map Prod.snd).Nodup
  lastId : ∀ flowId ∈ c'.flowMap.map Prod.snd, flowId ≤ c'.lastNewFlowId
  known : key.1 ∈ c'.flowMap.map Prod.snd
  number : (c'.flowPktIdMap.lookup key.1).getD 0 = key.2
  grows : ∀ flowId ∈ c.flowMap.map Prod.snd, flowId ∈ c'.flowMap.map Prod.snd ∧
    (c.flowPktIdMap.lookup flowId).getD 0 ≤ (c'.flowPktIdMap.lookup flowId).getD 0
  fresh : key.1 ∈ c.flowMap.map Prod.snd → (c.flowPktIdMap.lookup key.1).getD 0 < key.2

theorem inserted_insert {N : ℕ} {c : Ipv4FlowClassifier} (room : N + 1 < 2 ^ 32)
    (few : c.lastNewFlowId ≤ N ∧ ∀ flowId, (c.flowPktIdMap.lookup flowId).getD 0 ≤ N)
    (nodup : (c.flowMap.map Prod.snd).Nodup)
    (lastId : ∀ flowId ∈ c.flowMap.map Prod.snd, flowId ≤ c.lastNewFlowId) (tuple : FiveTuple) :
    Inserted N c (c.insert tuple).1 (c.insert tuple).2 := by
  obtain ⟨fewFlows, fewPackets⟩ := few
  unfold Ipv4FlowClassifier.insert
  cases found : c.flowMap.lookup tuple with
  | none =>
      have exact_id : (c.lastNewFlowId + 1) % 2 ^ 32 = c.lastNewFlowId + 1 := Nat.mod_eq_of_lt (by omega)
      dsimp only
      rw [exact_id]
      have new : c.lastNewFlowId + 1 ∉ c.flowMap.map Prod.snd := by
        intro member
        have le := lastId _ member
        omega
      have ids : (c.flowMap ++ [(tuple, c.lastNewFlowId + 1)]).map Prod.snd =
          c.flowMap.map Prod.snd ++ [c.lastNewFlowId + 1] := List.map_append
      refine ⟨⟨Nat.succ_le_succ fewFlows, fun flowId => ?_⟩, ?_, ?_, ?_, ?_,
        fun flowId member => ⟨?_, ?_⟩, fun member => absurd member new⟩
      · rw [lookup_setKey]
        split
        · exact Nat.zero_le _
        · exact Nat.le_succ_of_le (fewPackets flowId)
      · rw [ids]
        refine nodup.append (List.nodup_singleton _) fun flowId member here => ?_
        rw [List.mem_singleton.mp here] at member
        exact new member
      · rw [ids]
        intro flowId member
        rcases List.mem_append.mp member with old | here
        · exact Nat.le_succ_of_le (lastId flowId old)
        · exact (List.mem_singleton.mp here).le
      · rw [ids]
        exact List.mem_append_right _ List.mem_cons_self
      · rw [lookup_setKey, if_pos rfl]
        rfl
      · rw [ids]
        exact List.mem_append_left _ member
      · have other : ¬ flowId = c.lastNewFlowId + 1 := fun same => new (same ▸ member)
        rw [lookup_setKey, if_neg other]
  | some flowId =>
      have exact_id : ((c.flowPktIdMap.lookup flowId).getD 0 + 1) % 2 ^ 32 =
          (c.flowPktIdMap.lookup flowId).getD 0 + 1 :=
        Nat.mod_eq_of_lt (by have small := fewPackets flowId; omega)
      dsimp only
      rw [exact_id]
      have known : flowId ∈ c.flowMap.map Prod.snd := by
        obtain ⟨before, rest, split, -⟩ := List.lookup_eq_some_iff.mp found
        rw [split]
        exact List.mem_map_of_mem (List.mem_append_right before List.mem_cons_self)
      refine ⟨⟨Nat.le_succ_of_le fewFlows, fun f => ?_⟩, nodup, lastId, known, ?_,
        fun f member => ⟨member, ?_⟩, fun _ => Nat.lt_succ_self _⟩
      · rw [lookup_setKey]
        split
        · exact Nat.succ_le_succ (fewPackets flowId)
        · exact Nat.le_succ_of_le (fewPackets f)
      · rw [lookup_setKey, if_pos rfl]
        rfl
      · rw [lookup_setKey]
        split
        · next here =>
            subst here
            exact Nat.le_succ _
        · exact le_rfl

theorem Stepped.length_le {now : ℤ} {s' : FlowProbes n} (stepped : Stepped now s s') :
    s.calls.length ≤ s'.calls.length := by
  cases stepped with
  | nothing => exact le_rfl
  | _ => exact (List.prefix_append ..).length_le

/-- **The step lemma.** -/
theorem Classified.step {now : ℤ} {s' : FlowProbes n} (classified : Classified s)
    (stepped : Stepped now s s') (room : s'.calls.length < 2 ^ 32) : Classified s' := by
  cases stepped with
  | nothing => exact classified
  | @classified probe uid size tuple src dst =>
      have inserted := inserted_insert (by simpa [FlowProbes.report] using room) classified.few
        classified.nodup classified.lastId tuple
      generalize s.classifier.insert tuple = result at inserted ⊢
      obtain ⟨⟨flowId, packetId⟩, classifier⟩ := result
      dsimp only at inserted ⊢
      have new : (flowId, packetId) ∉ sentKeys s.calls := by
        intro before
        obtain ⟨known, le⟩ := classified.sent _ before
        have less := inserted.fresh known
        dsimp only at le less
        omega
      have keys : sentKeys (s.calls ++ [(now, Call.firstTx probe flowId packetId size)]) =
          sentKeys s.calls ++ [(flowId, packetId)] := sentKeys_snoc _ _ _
      refine ⟨?_, inserted.nodup, inserted.lastId, fun tag member => ?_, fun key member => ?_, ?_, ?_⟩
      · unfold FlowProbes.report
        dsimp only
        rw [List.length_append]
        exact inserted.few
      · unfold FlowProbes.report
        dsimp only
        rw [keys]
        rcases mem_setKey member with rfl | old
        · exact List.mem_append_right _ List.mem_cons_self
        · exact List.mem_append_left _ (classified.tags tag old)
      · unfold FlowProbes.report at member
        dsimp only at member
        rw [keys] at member
        rcases List.mem_append.mp member with old | here
        · obtain ⟨known, le⟩ := classified.sent key old
          obtain ⟨still, grown⟩ := inserted.grows key.1 known
          exact ⟨still, le_trans le grown⟩
        · obtain rfl := List.mem_singleton.mp here
          exact ⟨inserted.known, inserted.number.ge⟩
      · unfold FlowProbes.report
        dsimp only
        rw [keys]
        refine classified.fresh.append (List.nodup_singleton _) fun key member here => ?_
        rw [List.mem_singleton.mp here] at member
        exact new member
      · exact later_snoc classified.later fun none => by cases none
  | @tagged uid fTag call tag about later =>
      refine classified.report later fun key here => ?_
      obtain rfl := Option.some.inj (here.symm.trans about)
      obtain ⟨before, rest, split, -⟩ := List.lookup_eq_some_iff.mp tag
      refine classified.tags (uid, fTag) ?_
      rw [split]
      exact List.mem_append_right before List.mem_cons_self
  | called about later =>
      refine classified.report later fun key here => ?_
      rw [about] at here
      cases here

theorem classified_of_reached (reached : Reached s) (room : s.calls.length < 2 ^ 32) : Classified s := by
  induction reached with
  | init =>
      refine ⟨⟨le_rfl, fun _ => le_rfl⟩, List.nodup_nil, fun _ member => ?_, fun _ member => ?_,
        fun _ member => ?_, List.nodup_nil, fun before call rest split => ?_⟩
      · cases member
      · cases member
      · cases member
      · exact absurd split (by simp)
  | next _ steps ih =>
      have stepped := stepped_of_step steps
      exact (ih (stepped.length_le.trans_lt room)).step stepped room

/-- The tuple that `FindFlow` finds. -/
theorem Classified.findFlow (classified : Classified s) {flowId : ℕ} (known : flowId ∈ s.flowIds) :
    ∃ tuple, s.classifier.findFlow flowId = some tuple ∧
      ∀ other, (other, flowId) ∈ s.classifier.flowMap ↔ other = tuple := by
  obtain ⟨entry, member, same⟩ := List.mem_map.mp known
  have some_entry : (s.classifier.flowMap.find? fun entry => entry.2 = flowId).isSome = true :=
    List.find?_isSome.mpr ⟨entry, member, by simpa using same⟩
  obtain ⟨found, here⟩ := Option.isSome_iff_exists.mp some_entry
  have there := List.mem_of_find?_eq_some here
  have id : found.2 = flowId := by simpa using List.find?_some here
  refine ⟨found.1, ?_, fun other => ⟨fun also => ?_, ?_⟩⟩
  · unfold Ipv4FlowClassifier.findFlow
    rw [here]
    rfl
  · exact congrArg Prod.fst (List.inj_on_of_nodup_map classified.nodup also there id.symm)
  · rintro rfl
    rw [← id]
    exact there

/-- The balance of a flow, of which no packet is sent twice. -/
theorem conserved_of_reached (reached : Reached s) (room : s.calls.length < 2 ^ 32) (A : Attributes)
    (flowId : ℕ) :
    ((after A s.calls).getStatsForFlow A flowId).txPackets + (strayDrops A flowId s.calls).length =
      ((after A s.calls).getStatsForFlow A flowId).rxPackets +
        ((after A s.calls).getStatsForFlow A flowId).lostPackets + (after A s.calls).underWay flowId := by
  have balanced := balanced_of_run A flowId s.calls
  unfold FlowMonitor.Balanced at balanced
  rw [resent_eq_nil A flowId (classified_of_reached reached room).fresh] at balanced
  exact balanced

/-- A flow that the monitor knows has sent a packet, and so the classifier knows it. -/
theorem findFlow_of_known (reached : Reached s) (room : s.calls.length < 2 ^ 32) (A : Attributes)
    {flowId : ℕ} (known : (after A s.calls).flowStats.lookup flowId ≠ none) :
    ∃ tuple, s.classifier.findFlow flowId = some tuple ∧
      ∀ other, (other, flowId) ∈ s.classifier.flowMap ↔ other = tuple := by
  have classified := classified_of_reached reached room
  obtain ⟨call, member, packetId, about⟩ := exists_call_of_known A flowId s.calls known
  have sent : (flowId, packetId) ∈ sentKeys s.calls := by
    cases here : call.2.sentKey with
    | some key =>
        have same : call.2.key = some key := by
          generalize call.2 = c at here
          cases c with
          | firstTx => exact here
          | _ => cases here
        obtain rfl := Option.some.inj (same.symm.trans about)
        exact List.mem_filterMap.mpr ⟨call, member, here⟩
    | none =>
        obtain ⟨before, rest, split⟩ := List.append_of_mem member
        have earlier := classified.later before call rest split here _ about
        rw [split]
        unfold sentKeys at earlier ⊢
        rw [List.filterMap_append]
        exact List.mem_append_left _ earlier
  exact classified.findFlow (classified.sent _ sent).1

/-- **Conservation of packets**, for every flow that the probes report: no id is used twice, and the flow
has one tuple, which `FindFlow` finds. -/
theorem flow_conservation (reached : Reached s) (room : s.calls.length < 2 ^ 32) (A : Attributes)
    (flowId : ℕ) :
    (sentKeys s.calls).Nodup ∧
      ((after A s.calls).getStatsForFlow A flowId).txPackets + (strayDrops A flowId s.calls).length =
        ((after A s.calls).getStatsForFlow A flowId).rxPackets +
          ((after A s.calls).getStatsForFlow A flowId).lostPackets + (after A s.calls).underWay flowId ∧
      ((after A s.calls).flowStats.lookup flowId ≠ none →
        ∃ tuple, s.classifier.findFlow flowId = some tuple ∧
          ∀ other, (other, flowId) ∈ s.classifier.flowMap ↔ other = tuple) :=
  ⟨(classified_of_reached reached room).fresh, conserved_of_reached reached room A flowId,
    fun known => findFlow_of_known reached room A known⟩

/-- A packet is received, and another one is dropped after it has timed out. -/
def sampleTraces : List (ℤ × Trace 2) :=
  let ipHeader : Ipv4Header := { source := 0x0A010101#32, destination := 0x0A010102#32, protocol := 17 }
  let ipPayload := List.replicate 100 0#8
  [(0, .startRightNow), (1000000000, .sendOutgoing 0 7 true ipHeader ipPayload),
    (1020000000, .forwardUp 1 7 ipHeader ipPayload), (2000000000, .sendOutgoing 0 8 true ipHeader ipPayload),
    (13000000000, .checkForLostPackets 10000000000), (14000000000, .queueDrop 0 8)]

theorem flow_conservation_sample :
    ∃ s, run sampleTraces = some s ∧
      ((after {} s.calls).getStatsForFlow {} 1).txPackets = 2 ∧ (sentKeys s.calls).Nodup ∧
      ((after {} s.calls).getStatsForFlow {} 1).txPackets + (strayDrops {} 1 s.calls).length =
        ((after {} s.calls).getStatsForFlow {} 1).rxPackets +
          ((after {} s.calls).getStatsForFlow {} 1).lostPackets + (after {} s.calls).underWay 1 ∧
      ∃ tuple, s.classifier.findFlow 1 = some tuple ∧
        ∀ other, (other, 1) ∈ s.classifier.flowMap ↔ other = tuple := by
  have ran : (run sampleTraces).map (fun s => (((after {} s.calls).getStatsForFlow {} 1).txPackets,
      s.calls.length)) = some (2, 6) := by decide +kernel
  obtain ⟨s, runs, same⟩ := Option.map_eq_some_iff.mp ran
  obtain ⟨sent, length⟩ := Prod.mk.inj same
  obtain ⟨fresh, conserved, tuple⟩ :=
    flow_conservation (reached_of_run runs) (by rw [length]; norm_num) {} 1
  refine ⟨s, runs, sent, fresh, conserved, tuple fun unknown => ?_⟩
  unfold getStatsForFlow at sent
  rw [unknown] at sent
  cases sent

/-- **What is lost twice.** When every packet is received or dropped at most once, the packets that are
dropped although they are not tracked are those that have timed out before their drop. -/
theorem stray_timed_out (reached : Reached s) (room : s.calls.length < 2 ^ 32)
    (uninterrupted : Uninterrupted s.calls) (once : (endKeys s.calls).Nodup) (A : Attributes)
    (flowId packetId : ℕ) :
    packetId ∈ strayDrops A flowId s.calls ↔
      ∃ before now probe size reason rest,
        s.calls = before ++ (now, Call.drop probe flowId packetId size reason) :: rest ∧
          packetId ∈ timeouts A flowId before := by
  have classified := classified_of_reached reached room
  rw [mem_strayDrops_iff]
  constructor
  · rintro ⟨before, now, probe, size, reason, rest, split, -, untracked⟩
    have sent := classified.later before _ rest split rfl (flowId, packetId) rfl
    have first : before ≠ [] := by
      rintro rfl
      cases sent
    refine ⟨before, now, probe, size, reason, rest, split, ?_⟩
    rcases accounted_of_run A (uninterrupted.of_split split first) sent with tracked | ended | late
    · exact absurd tracked untracked
    · rw [split, endKeys_append] at once
      exact absurd rfl ((List.nodup_append.mp once).2.2 _ ended _ List.mem_cons_self)
    · exact late
  · rintro ⟨before, now, probe, size, reason, rest, split, late⟩
    have first : before ≠ [] := by
      rintro rfl
      cases late
    have fresh : (sentKeys before).Nodup := by
      have all := classified.fresh
      unfold sentKeys at all ⊢
      rw [split, List.filterMap_append] at all
      exact (List.nodup_append.mp all).1
    exact ⟨before, now, probe, size, reason, rest, split,
      (uninterrupted.of_split split first).enabled A, gone_of_timeout A fresh late⟩

theorem stray_timed_out_sample :
    ∃ s, run sampleTraces = some s ∧ strayDrops {} 1 s.calls = [1] ∧
      (1 ∈ strayDrops {} 1 s.calls ↔ ∃ before now probe size reason rest,
        s.calls = before ++ (now, Call.drop probe 1 1 size reason) :: rest ∧
          1 ∈ timeouts {} 1 before) := by
  have ran : (run sampleTraces).map (fun s => (strayDrops {} 1 s.calls, endKeys s.calls,
      s.calls.length)) = some ([1], [(1, 0), (1, 1)], 6) := by decide +kernel
  obtain ⟨s, runs, same⟩ := Option.map_eq_some_iff.mp ran
  obtain ⟨stray, rest⟩ := Prod.mk.inj same
  obtain ⟨ends, -⟩ := Prod.mk.inj rest
  have calls : s.calls = [(0, .startRightNow), (1000000000, .firstTx 0 1 0 120),
      (1020000000, .lastRx 1 1 0 120), (2000000000, .firstTx 0 1 1 120),
      (13000000000, .checkForLostPackets 10000000000), (14000000000, .drop 0 1 1 120 3)] := by
    obtain rfl := Option.some.inj runs
    rfl
  refine ⟨s, runs, stray, stray_timed_out (reached_of_run runs) ?_ ⟨?_, ?_⟩ ?_ {} 1 1⟩
  · rw [calls]
    decide
  · rw [calls]
    rfl
  · rw [calls]
    intro call member
    simp only [List.mem_cons, List.not_mem_nil, or_false] at member
    rcases member with rfl | rfl | rfl | rfl | rfl | rfl <;>
      · intro same
        cases same
  · rw [ends]
    decide

end FlowProbes

end NtnCho
