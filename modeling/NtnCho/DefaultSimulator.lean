import Mathlib.Data.Int.ConditionallyCompleteOrder
import Mathlib.Order.ConditionallyCompleteLattice.Basic
import NtnCho.Schedulers

/-!
# The simulator of ns-3

`DefaultSimulatorImpl` over any of the event lists: scheduling, cancelling and removing events, and
the loop of `Run`, in which an event acts on the world and schedules further events.

* `Reached` are the states that calls in any order lead to; in each of them the event list holds the
  events that wait, and `IsExpired` says which they are (`Reached.expired_iff`).
* `run_of_fifo`: whatever lawful event list it uses, `Run` goes through the events of the
  first-in first-out run of their handlers.
-/

namespace NtnCho

open EventSystem

/-- `EventId`; the event implementation is known by its number. -/
structure EventId where
  ts : ℕ
  context : ℕ
  uid : ℕ
  deriving DecidableEq

/-- `DefaultSimulatorImpl`. The numbers `cancelled` are those of the event implementations that
`EventImpl::Cancel` has been called on. -/
structure DefaultSimulatorImpl {ε : Type} (L : FutureEvents (Scheduler.Event ε)) where
  events : L.Queue
  stop : Bool
  uid : ℕ
  currentUid : ℕ
  currentTs : ℕ
  currentContext : ℕ
  unscheduledEvents : ℤ
  eventCount : ℕ
  cancelled : List ℕ

namespace DefaultSimulatorImpl

variable {ε σ : Type} {L : FutureEvents (Scheduler.Event ε)}

/-- The constructor, and `SetScheduler`. Numbers start at `EventId::UID::VALID`. -/
def construct (L : FutureEvents (Scheduler.Event ε)) : DefaultSimulatorImpl L where
  events := L.empty
  stop := false
  uid := 4
  currentUid := 0
  currentTs := 0
  currentContext := 0xffffffff
  unscheduledEvents := 0
  eventCount := 0
  cancelled := []

/-- The event that `Schedule` and `ScheduleWithContext` insert. -/
def nextEvent (S : DefaultSimulatorImpl L) (context : ℕ) (delay : ℤ) (event : ε) :
    Scheduler.Event ε :=
  ⟨event, ⟨((delay + S.currentTs) % 2 ^ 64).toNat, S.uid, context⟩⟩

/-- `ScheduleWithContext` from the thread of the simulator. -/
def scheduleWithContext (context : ℕ) (delay : ℤ) (event : ε) (S : DefaultSimulatorImpl L) :
    DefaultSimulatorImpl L :=
  { S with
    uid := (S.uid + 1) % 2 ^ 32
    unscheduledEvents := S.unscheduledEvents + 1
    events := L.insert (S.nextEvent context delay event) S.events }

/-- `Schedule`, which asserts that the delay is not negative. -/
def schedule (delay : ℤ) (event : ε) (S : DefaultSimulatorImpl L) :
    Option (EventId × DefaultSimulatorImpl L) :=
  if delay < 0 then none
  else
    let ev := S.nextEvent S.currentContext delay event
    some (⟨ev.key.ts, ev.key.context, ev.key.uid⟩,
      S.scheduleWithContext S.currentContext delay event)

/-- `IsExpired`, for an event that is not one of `ScheduleDestroy`. -/
def isExpired (S : DefaultSimulatorImpl L) (id : EventId) : Bool :=
  decide (id.ts < S.currentTs) ||
    (decide (id.ts = S.currentTs) && decide (id.uid ≤ S.currentUid)) ||
    S.cancelled.contains id.uid

/-- `Cancel`. -/
def cancel (id : EventId) (S : DefaultSimulatorImpl L) : DefaultSimulatorImpl L :=
  if S.isExpired id then S else { S with cancelled := S.cancelled ++ [id.uid] }

/-- `Remove`; `event` is the implementation that the id points to. -/
def remove (id : EventId) (event : ε) (S : DefaultSimulatorImpl L) : DefaultSimulatorImpl L :=
  if S.isExpired id then S
  else
    { S with
      events := L.remove ⟨event, ⟨id.ts, id.uid, id.context⟩⟩ S.events
      cancelled := S.cancelled ++ [id.uid]
      unscheduledEvents := S.unscheduledEvents - 1 }

/-- `ProcessOneEvent` up to the call of `Invoke`, with the assertion that time does not go back. -/
def takeNext (S : DefaultSimulatorImpl L) : Option (Scheduler.Event ε × DefaultSimulatorImpl L) :=
  match L.removeNext S.events with
  | none => none
  | some (next, events) =>
      if next.key.ts < S.currentTs then none
      else
        some (next,
          { S with
            events := events
            unscheduledEvents := S.unscheduledEvents - 1
            eventCount := S.eventCount + 1
            currentTs := next.key.ts
            currentContext := next.key.context
            currentUid := next.key.uid })

/-- `IsFinished`. -/
def isFinished (S : DefaultSimulatorImpl L) : Bool := L.isEmpty S.events || S.stop

/-! ## What waits -/

variable {ok : Scheduler.Event ε → Prop} {S S' : DefaultSimulatorImpl L}
  {waiting : List (Scheduler.Event ε)} {ev : Scheduler.Event ε}

/-- What the simulator orders events by, of the event processed last. -/
def reached (S : DefaultSimulatorImpl L) : ℕ ×ₗ ℕ := toLex (S.currentTs, S.currentUid)

/-- The event list holds `waiting`, oldest first, and all of it comes after what has been processed. -/
structure Waits (lawful : L.Lawful Scheduler.Event.order ok) (S : DefaultSimulatorImpl L)
    (waiting : List (Scheduler.Event ε)) : Prop where
  held : lawful.holds S.reached S.events waiting
  inOrder : waiting.Pairwise fun a b => a.uid < b.uid
  numbers : ∀ ev ∈ waiting, ev.uid < S.uid
  later : ∀ ev ∈ waiting, S.reached < ev.order
  current : S.currentUid < S.uid
  inRange : ∀ ev ∈ waiting, ev.key.ts < 2 ^ 63
  count : S.unscheduledEvents = waiting.length

variable {lawful : L.Lawful Scheduler.Event.order ok}

theorem construct_waits (lawful : L.Lawful Scheduler.Event.order ok) : Waits lawful (construct L) [] where
  held := lawful.holds_empty
  inOrder := .nil
  numbers _ member := absurd member List.not_mem_nil
  later _ member := absurd member List.not_mem_nil
  current := Nat.zero_lt_succ 3
  inRange _ member := absurd member List.not_mem_nil
  count := rfl

/-- The time stamp of a scheduled event, where the sum does not overflow. -/
theorem nextEvent_ts {context : ℕ} {delay : ℤ} {event : ε} (forward : 0 ≤ delay)
    (range : delay + S.currentTs < 2 ^ 63) :
    ((S.nextEvent context delay event).key.ts : ℤ) = delay + S.currentTs := by
  have low : 0 ≤ delay + S.currentTs := by omega
  have kept : (delay + S.currentTs) % 2 ^ 64 = delay + S.currentTs := Int.emod_eq_of_lt low (by omega)
  rw [nextEvent, kept]
  exact Int.toNat_of_nonneg low

/-- A scheduled event waits behind all others. -/
theorem Waits.scheduleWithContext {context : ℕ} {delay : ℤ} {event : ε} (waits : Waits lawful S waiting)
    (fits : ∀ ev : Scheduler.Event ε, ev.key.ts < 2 ^ 63 → ok ev) (forward : 0 ≤ delay)
    (range : delay + S.currentTs < 2 ^ 63) (numbered : S.uid + 1 < 2 ^ 32) :
    Waits lawful (S.scheduleWithContext context delay event)
      (waiting ++ [S.nextEvent context delay event]) := by
  have ts : ((S.nextEvent context delay event).key.ts : ℤ) = delay + S.currentTs :=
    nextEvent_ts forward range
  have uid : (S.nextEvent context delay event).uid = S.uid := rfl
  have next : (S.scheduleWithContext context delay event).uid = S.uid + 1 := Nat.mod_eq_of_lt numbered
  have below : (S.nextEvent context delay event).key.ts < 2 ^ 63 := by omega
  have after : S.reached < (S.nextEvent context delay event).order := by
    refine Prod.Lex.toLex_lt_toLex.mpr ?_
    have current := waits.current
    rcases Nat.lt_or_ge S.currentTs (S.nextEvent context delay event).key.ts with lt | ge
    · exact .inl lt
    · exact .inr ⟨by omega, waits.current⟩
  refine ⟨?_, pairwise_number_snoc waits.inOrder fun ev member => ?_, fun ev member => ?_,
    fun ev member => ?_, ?_, fun ev member => ?_, ?_⟩
  · have inserted := lawful.holds_insert waits.held (fits _ below) after.le fun ev member =>
      Scheduler.Event.order_ne (show ev.uid ≠ (S.nextEvent context delay event).uid from
        (waits.numbers ev (Multiset.mem_coe.mp member)).ne)
    rw [Multiset.cons_coe] at inserted
    rw [← Multiset.coe_eq_coe.mpr (List.perm_append_singleton _ waiting).symm]
    exact inserted
  · exact waits.numbers ev member
  · rw [next]
    rcases List.mem_append.mp member with old | new
    · exact (waits.numbers ev old).trans (Nat.lt_succ_self _)
    · rw [List.mem_singleton.mp new, uid]
      exact Nat.lt_succ_self _
  · rcases List.mem_append.mp member with old | new
    · exact waits.later ev old
    · rw [List.mem_singleton.mp new]
      exact after
  · rw [next]
    exact waits.current.trans (Nat.lt_succ_self _)
  · rcases List.mem_append.mp member with old | new
    · exact waits.inRange ev old
    · rw [List.mem_singleton.mp new]
      exact below
  · have count := waits.count
    change S.unscheduledEvents + 1 = _
    rw [List.length_append, List.length_singleton]
    omega

/-- Time stamps and numbers order events as keys do. -/
theorem order_le_spec {a b : Scheduler.Event ε} (le : a.order ≤ b.order) :
    (a.key.ts : ℤ) ≤ b.key.ts ∧ ((b.key.ts : ℤ) = a.key.ts → a.uid ≤ b.uid) := by
  rcases Scheduler.Event.order_le.mp le with lt | ⟨same, numbers⟩
  · exact ⟨by omega, fun same => by omega⟩
  · exact ⟨by omega, fun _ => numbers⟩

/-- An event as it waits for its time stamp. -/
def pending (ev : Scheduler.Event ε) : Pending ℤ ε := ⟨ev.key.ts, ev.impl⟩

/-- The state after `ProcessOneEvent` has taken `ev` out of the event list. -/
def process (S : DefaultSimulatorImpl L) (ev : Scheduler.Event ε) (events : L.Queue) :
    DefaultSimulatorImpl L :=
  { S with
    events := events
    unscheduledEvents := S.unscheduledEvents - 1
    eventCount := S.eventCount + 1
    currentTs := ev.key.ts
    currentContext := ev.key.context
    currentUid := ev.key.uid }

/-- `ProcessOneEvent` takes the event that fires in first-in first-out order; its assertion holds. -/
theorem Waits.takeNext (waits : Waits lawful S waiting) (some_left : waiting ≠ []) :
    ∃ pre ev post events, waiting = pre ++ ev :: post ∧
      S.takeNext = some (ev, S.process ev events) ∧
      fifo (pre.map pending) (pending ev) (post.map pending) ∧
      Waits lawful (S.process ev events) (pre ++ post) := by
  obtain ⟨pre, ev, post, events, rfl, removed, first, least, left⟩ :=
    lawful.removeNext_fifo pending Scheduler.Event.uid (fun le => order_le_spec le) waits.inOrder
      waits.held some_left
  have member : ev ∈ pre ++ ev :: post := by simp
  have others : ∀ e ∈ pre ++ post, e ∈ pre ++ ev :: post := by
    intro e inside
    rcases List.mem_append.mp inside with before | behind
    · exact List.mem_append_left _ before
    · exact List.mem_append_right _ (List.mem_cons_of_mem ev behind)
  have forward : S.currentTs ≤ ev.key.ts := by
    rcases Prod.Lex.toLex_lt_toLex.mp (waits.later ev member) with lt | ⟨same, -⟩
    · exact lt.le
    · exact same.le
  have sub : (pre ++ post).Sublist (pre ++ ev :: post) :=
    (List.sublist_cons_self ev post).append_left pre
  have apart : ∀ e ∈ pre ++ post, e.uid ≠ ev.uid := by
    obtain ⟨-, behind, across⟩ := List.pairwise_append.mp waits.inOrder
    intro e inside
    rcases List.mem_append.mp inside with before | after
    · exact (across e before ev List.mem_cons_self).ne
    · exact ((List.pairwise_cons.mp behind).1 e after).ne'
  refine ⟨pre, ev, post, events, rfl, ?_, first, left, waits.inOrder.sublist sub,
    fun e inside => waits.numbers e (others e inside), fun e inside => ?_, waits.numbers ev member,
    fun e inside => waits.inRange e (others e inside), ?_⟩
  · rw [DefaultSimulatorImpl.takeNext, removed]
    simp only
    rw [if_neg (by omega)]
    rfl
  · exact lt_of_le_of_ne (least e inside) (Scheduler.Event.order_ne (apart e inside)).symm
  · have count := waits.count
    simp only [process]
    rw [count, List.length_append, List.length_append, List.length_cons]
    omega

/-! ## Calls in any order -/

/-- The id that `Schedule` returns for an event. -/
def idOf (ev : Scheduler.Event ε) : EventId := ⟨ev.key.ts, ev.key.context, ev.key.uid⟩

/-- The states that calls in any order lead to, with the ids handed out and the events that wait. Time
stamps and numbers stay in their range; `Remove` is given the implementation that belongs to the id. -/
inductive Reached (L : FutureEvents (Scheduler.Event ε)) :
    DefaultSimulatorImpl L → List EventId → List (Scheduler.Event ε) → Prop
  | construct : Reached L (construct L) [] []
  | schedule {S S' : DefaultSimulatorImpl L} {issued : List EventId}
    {waiting : List (Scheduler.Event ε)} {delay : ℤ} {event : ε} {id : EventId} :
    Reached L S issued waiting → delay + S.currentTs < 2 ^ 63 → S.uid + 1 < 2 ^ 32 →
    S.schedule delay event = some (id, S') →
    Reached L S' (issued ++ [id]) (waiting ++ [S.nextEvent S.currentContext delay event])
  | scheduleWithContext {S : DefaultSimulatorImpl L} {issued : List EventId}
    {waiting : List (Scheduler.Event ε)} {context : ℕ} {delay : ℤ} {event : ε} :
    Reached L S issued waiting → 0 ≤ delay → delay + S.currentTs < 2 ^ 63 → S.uid + 1 < 2 ^ 32 →
    Reached L (S.scheduleWithContext context delay event) issued
      (waiting ++ [S.nextEvent context delay event])
  | cancel {S : DefaultSimulatorImpl L} {issued : List EventId}
    {waiting : List (Scheduler.Event ε)} {id : EventId} :
    Reached L S issued waiting → id ∈ issued → Reached L (S.cancel id) issued waiting
  | remove {S : DefaultSimulatorImpl L} {issued : List EventId}
    {waiting : List (Scheduler.Event ε)} {id : EventId} {event : ε} :
    Reached L S issued waiting → id ∈ issued → (∀ ev ∈ waiting, idOf ev = id → ev.impl = event) →
    Reached L (S.remove id event) issued
      (if S.isExpired id then waiting else waiting.filter fun ev => ev.uid ≠ id.uid)
  | processOneEvent {S S' : DefaultSimulatorImpl L} {issued : List EventId}
    {waiting : List (Scheduler.Event ε)} {ev : Scheduler.Event ε} :
    Reached L S issued waiting → L.isEmpty S.events = false → S.takeNext = some (ev, S') →
    Reached L S' issued (waiting.filter fun e => e.uid ≠ ev.uid)

/-- What is known of the ids handed out: an id that no longer waits has been reached or cancelled. -/
structure Accounts (lawful : L.Lawful Scheduler.Event.order ok) (S : DefaultSimulatorImpl L)
    (issued : List EventId) (waiting : List (Scheduler.Event ε)) : Prop where
  waits : Waits lawful S waiting
  numbered : ∀ id ∈ issued, id.uid < S.uid
  settled : ∀ id ∈ issued, id ∈ waiting.map idOf ∨ toLex (id.ts, id.uid) ≤ S.reached ∨
    id.uid ∈ S.cancelled
  cancelled : ∀ n ∈ S.cancelled, n < S.uid

/-- An id is expired when its event has been reached or cancelled. -/
theorem isExpired_eq (S : DefaultSimulatorImpl L) (id : EventId) :
    S.isExpired id = true ↔ toLex (id.ts, id.uid) ≤ S.reached ∨ id.uid ∈ S.cancelled := by
  rw [isExpired, reached, Prod.Lex.toLex_le_toLex]
  simp [or_assoc]

/-- Without the entry of a number, a list in the order of numbers is what stands around it. -/
theorem filter_uid {pre post : List (Scheduler.Event ε)}
    (inOrder : (pre ++ ev :: post).Pairwise fun a b => a.uid < b.uid) :
    (pre ++ ev :: post).filter (fun e => decide (e.uid ≠ ev.uid)) = pre ++ post := by
  obtain ⟨-, behind, across⟩ := List.pairwise_append.mp inOrder
  have keepPre : pre.filter (fun e => decide (e.uid ≠ ev.uid)) = pre :=
    List.filter_eq_self.mpr fun e before =>
      decide_eq_true (across e before ev List.mem_cons_self).ne
  have keepPost : post.filter (fun e => decide (e.uid ≠ ev.uid)) = post :=
    List.filter_eq_self.mpr fun e after =>
      decide_eq_true ((List.pairwise_cons.mp behind).1 e after).ne'
  rw [List.filter_append, List.filter_cons_of_neg (by simp), keepPre, keepPost]

theorem Accounts.schedule {context : ℕ} {delay : ℤ} {event : ε} {issued : List EventId}
    {ids : List EventId} (accounts : Accounts lawful S issued waiting)
    (fits : ∀ ev : Scheduler.Event ε, ev.key.ts < 2 ^ 63 → ok ev) (forward : 0 ≤ delay)
    (range : delay + S.currentTs < 2 ^ 63) (number : S.uid + 1 < 2 ^ 32)
    (new : ∀ id ∈ ids, id = idOf (S.nextEvent context delay event)) :
    Accounts lawful (S.scheduleWithContext context delay event) (issued ++ ids)
      (waiting ++ [S.nextEvent context delay event]) := by
  have next : (S.scheduleWithContext context delay event).uid = S.uid + 1 := Nat.mod_eq_of_lt number
  refine ⟨accounts.waits.scheduleWithContext fits forward range number, fun id member => ?_,
    fun id member => ?_, fun n member => ?_⟩
  · rw [next]
    rcases List.mem_append.mp member with old | now
    · exact (accounts.numbered id old).trans (Nat.lt_succ_self _)
    · rw [new id now]
      exact Nat.lt_succ_self _
  · rw [List.map_append, List.mem_append]
    rcases List.mem_append.mp member with old | now
    · rcases accounts.settled id old with still | reached | gone
      · exact .inl (.inl still)
      · exact .inr (.inl reached)
      · exact .inr (.inr gone)
    · rw [new id now]
      exact .inl (.inr List.mem_cons_self)
  · rw [next]
    exact (accounts.cancelled n member).trans (Nat.lt_succ_self _)

/-- An id that is not expired is that of an event that waits. -/
theorem Accounts.of_not_expired {issued : List EventId} {id : EventId}
    (accounts : Accounts lawful S issued waiting) (member : id ∈ issued)
    (running : S.isExpired id = false) : id ∈ waiting.map idOf ∧ id.uid ∉ S.cancelled := by
  have open_ended : ¬ (toLex (id.ts, id.uid) ≤ S.reached ∨ id.uid ∈ S.cancelled) := by
    rw [← isExpired_eq, running]
    exact Bool.false_ne_true
  refine ⟨?_, fun gone => open_ended (.inr gone)⟩
  rcases accounts.settled id member with still | settled
  · exact still
  · exact absurd settled open_ended

theorem Accounts.cancel {issued : List EventId} {id : EventId}
    (accounts : Accounts lawful S issued waiting) (member : id ∈ issued) :
    Accounts lawful (S.cancel id) issued waiting := by
  rw [DefaultSimulatorImpl.cancel]
  split
  · exact accounts
  · have w := accounts.waits
    refine ⟨⟨w.held, w.inOrder, w.numbers, w.later, w.current, w.inRange, w.count⟩,
      accounts.numbered, fun other inside => ?_, fun n inside => ?_⟩
    · rcases accounts.settled other inside with still | reached | gone
      · exact .inl still
      · exact .inr (.inl reached)
      · exact .inr (.inr (List.mem_append_left _ gone))
    · rcases List.mem_append.mp inside with old | new
      · exact accounts.cancelled n old
      · rw [List.mem_singleton.mp new]
        exact accounts.numbered id member

theorem Accounts.remove {issued : List EventId} {id : EventId} {event : ε}
    (accounts : Accounts lawful S issued waiting)
    (removes : FutureEvents.Removes lawful Scheduler.Event.uid) (member : id ∈ issued)
    (impl : ∀ ev ∈ waiting, idOf ev = id → ev.impl = event) :
    Accounts lawful (S.remove id event) issued
      (if S.isExpired id then waiting else waiting.filter fun ev => ev.uid ≠ id.uid) := by
  rw [DefaultSimulatorImpl.remove]
  split
  · exact accounts
  · rename_i running
    have w := accounts.waits
    obtain ⟨here, -⟩ := accounts.of_not_expired member (by simpa using running)
    obtain ⟨ev, inside, rfl⟩ := List.mem_map.mp here
    obtain ⟨pre, post, rfl⟩ := List.append_of_mem inside
    have filtered : (pre ++ ev :: post).filter (fun e => decide (e.uid ≠ (idOf ev).uid)) =
        pre ++ post := filter_uid w.inOrder
    have sub : (pre ++ post).Sublist (pre ++ ev :: post) :=
      (List.sublist_cons_self ev post).append_left pre
    have same : (⟨event, ⟨(idOf ev).ts, (idOf ev).uid, (idOf ev).context⟩⟩ : Scheduler.Event ε) = ev := by
      rw [← impl ev inside rfl]
      rfl
    have apart : ∀ e ∈ pre ++ post, e.uid ≠ ev.uid := by
      intro e kept
      rw [← filtered] at kept
      exact of_decide_eq_true (List.mem_filter.mp kept).2
    rw [filtered, same]
    have left := removes (s := (pre ++ post : List (Scheduler.Event ε)))
      (by rw [Multiset.cons_coe, ← Multiset.coe_eq_coe.mpr List.perm_middle]; exact w.held)
      (fun e kept => apart e (Multiset.mem_coe.mp kept))
    refine ⟨⟨left, w.inOrder.sublist sub, fun e kept => w.numbers e (sub.mem kept),
      fun e kept => w.later e (sub.mem kept), w.current, fun e kept => w.inRange e (sub.mem kept), ?_⟩,
      accounts.numbered, fun other issuedOther => ?_, fun n gone => ?_⟩
    · have count := w.count
      simp only [List.length_append, List.length_cons] at count ⊢
      omega
    · rcases accounts.settled other issuedOther with still | reached | gone
      · obtain ⟨e, inside', rfl⟩ := List.mem_map.mp still
        by_cases taken : e.uid = ev.uid
        · exact .inr (.inr (List.mem_append_right _ (List.mem_singleton.mpr taken)))
        · left
          refine List.mem_map_of_mem ?_
          rw [← filtered]
          exact List.mem_filter.mpr ⟨inside', decide_eq_true taken⟩
      · exact .inr (.inl reached)
      · exact .inr (.inr (List.mem_append_left _ gone))
    · rcases List.mem_append.mp gone with old | new
      · exact accounts.cancelled n old
      · rw [List.mem_singleton.mp new]
        exact accounts.numbered _ member

theorem Accounts.processOneEvent {issued : List EventId}
    (accounts : Accounts lawful S issued waiting) (nonempty : L.isEmpty S.events = false)
    (taken : S.takeNext = some (ev, S')) :
    Accounts lawful S' issued (waiting.filter fun e => e.uid ≠ ev.uid) := by
  have w := accounts.waits
  have some_left : waiting ≠ [] := by
    rintro rfl
    rw [(lawful.isEmpty_iff w.held).mpr rfl] at nonempty
    exact Bool.false_ne_true nonempty.symm
  obtain ⟨pre, ev', post, events, rfl, removed, -, left⟩ := w.takeNext some_left
  obtain ⟨rfl, rfl⟩ : ev' = ev ∧ S.process ev' events = S' := by
    rw [removed] at taken
    simpa using taken
  rw [filter_uid w.inOrder]
  refine ⟨left, accounts.numbered, fun id member => ?_, accounts.cancelled⟩
  rcases accounts.settled id member with still | reached | gone
  · obtain ⟨e, inside, rfl⟩ := List.mem_map.mp still
    by_cases now : e.uid = ev'.uid
    · obtain rfl : e = ev' := by
        rcases List.mem_append.mp inside with before | here
        · exact absurd now ((List.pairwise_append.mp w.inOrder).2.2 e before ev' List.mem_cons_self).ne
        · rcases List.mem_cons.mp here with same | after
          · exact same
          · have behind := (List.pairwise_append.mp w.inOrder).2.1
            exact absurd now ((List.pairwise_cons.mp behind).1 e after).ne'
      exact .inr (.inl le_rfl)
    · left
      refine List.mem_map_of_mem ?_
      rw [← filter_uid w.inOrder]
      exact List.mem_filter.mpr ⟨inside, decide_eq_true now⟩
  · exact .inr (.inl (reached.trans (w.later ev' (by simp)).le))
  · exact .inr (.inr gone)

/-- Whatever has been called, the ids handed out are accounted for. -/
theorem Reached.accounts {issued : List EventId} (reached : Reached L S issued waiting)
    (lawful : L.Lawful Scheduler.Event.order ok)
    (fits : ∀ ev : Scheduler.Event ε, ev.key.ts < 2 ^ 63 → ok ev)
    (removes : FutureEvents.Removes lawful Scheduler.Event.uid) :
    Accounts lawful S issued waiting := by
  induction reached with
  | construct =>
      exact ⟨construct_waits lawful, fun _ member => absurd member List.not_mem_nil,
        fun _ member => absurd member List.not_mem_nil, fun _ member => absurd member List.not_mem_nil⟩
  | @schedule S S' issued waiting delay event id _ range number scheduled ih =>
      rw [DefaultSimulatorImpl.schedule] at scheduled
      split at scheduled
      · cases scheduled
      · rename_i forward
        obtain ⟨rfl, rfl⟩ := Prod.mk.inj (Option.some.inj scheduled)
        exact ih.schedule fits (by omega) range number fun other new => List.mem_singleton.mp new
  | @scheduleWithContext S issued waiting context delay event _ forward range number ih =>
      have none_new : ∀ id ∈ ([] : List EventId), id = idOf (S.nextEvent context delay event) :=
        fun _ member => absurd member List.not_mem_nil
      have added := ih.schedule fits forward range number none_new
      rwa [List.append_nil] at added
  | cancel _ member ih => exact ih.cancel member
  | remove _ member impl ih => exact ih.remove removes member impl
  | processOneEvent _ nonempty taken ih => exact ih.processOneEvent nonempty taken

/-- **`IsExpired`.** In every state that calls in any order lead to, an id is not expired exactly when
its event still waits and has not been cancelled; `m_unscheduledEvents` counts the events that wait,
and the next of them can be processed. -/
theorem Reached.expired_iff {issued : List EventId} {id : EventId}
    (reached : Reached L S issued waiting) (lawful : L.Lawful Scheduler.Event.order ok)
    (fits : ∀ ev : Scheduler.Event ε, ev.key.ts < 2 ^ 63 → ok ev)
    (removes : FutureEvents.Removes lawful Scheduler.Event.uid) (member : id ∈ issued) :
    (S.isExpired id = false ↔ id ∈ waiting.map idOf ∧ id.uid ∉ S.cancelled) ∧
      S.unscheduledEvents = waiting.length ∧ (L.isEmpty S.events = true ↔ waiting = []) ∧
      (waiting ≠ [] → S.takeNext.isSome = true) := by
  have accounts := reached.accounts lawful fits removes
  have w := accounts.waits
  refine ⟨⟨accounts.of_not_expired member, ?_⟩, w.count, ?_, fun some_left => ?_⟩
  · rintro ⟨here, kept⟩
    obtain ⟨ev, inside, rfl⟩ := List.mem_map.mp here
    rw [Bool.eq_false_iff, Ne, isExpired_eq, not_or, not_le]
    exact ⟨w.later ev inside, kept⟩
  · rw [lawful.isEmpty_iff w.held, Multiset.coe_eq_zero]
  · obtain ⟨_, _, _, _, _, taken, -, -⟩ := w.takeNext some_left
    rw [taken]
    rfl

/-- Of two events scheduled the later one is cancelled, and the other processed: the first id is expired,
and one event is left. -/
theorem expired_iff_sample :
    let S₁ := (construct (listScheduler ℕ)).scheduleWithContext 0xffffffff 3 0
    let S₂ := S₁.scheduleWithContext 0xffffffff 7 1
    ∃ S, (S₂.cancel ⟨7, 0xffffffff, 5⟩).takeNext = some (⟨0, ⟨3, 4, 0xffffffff⟩⟩, S) ∧
      (S.isExpired ⟨3, 0xffffffff, 4⟩ = false ↔
        ⟨3, 0xffffffff, 4⟩ ∈ [S₁.nextEvent 0xffffffff 7 1].map idOf ∧ 4 ∉ S.cancelled) ∧
      S.unscheduledEvents = 1 := by
  have one := @Reached.schedule ℕ (listScheduler ℕ) _ _ _ _ 3 0 _ .construct (by decide) (by decide) rfl
  have two := @Reached.schedule ℕ (listScheduler ℕ) _ _ _ _ 7 1 _ one (by decide) (by decide) rfl
  have three := @Reached.cancel ℕ (listScheduler ℕ) _ _ _ ⟨7, 0xffffffff, 5⟩ two (by decide)
  have four := @Reached.processOneEvent ℕ (listScheduler ℕ) _ _ _ _ ⟨0, ⟨3, 4, 0xffffffff⟩⟩ three rfl rfl
  have spec := @Reached.expired_iff ℕ (listScheduler ℕ) _ _ _ _ ⟨3, 0xffffffff, 4⟩ four
    (listSchedulerLawful ℕ) (fun _ _ => trivial) listScheduler_removes (by decide)
  exact ⟨_, rfl, spec.1, spec.2.1⟩

/-! ## Events that act on a world -/

/-- What an event schedules, one call of `Schedule` after the other. -/
def scheduleAll (S : DefaultSimulatorImpl L) : List (Pending ℤ ε) → Option (DefaultSimulatorImpl L)
  | [] => some S
  | q :: rest =>
      match S.schedule (q.ts - S.currentTs) q.ev with
      | none => none
      | some (_, S') => S'.scheduleAll rest

/-- `ProcessOneEvent`. An event `isStop` calls `Simulator::Stop`. -/
def processOneEvent (M : Handler ℤ σ ε) (isStop : ε → Bool) :
    DefaultSimulatorImpl L × σ → Option (DefaultSimulatorImpl L × σ)
  | (S, world) =>
      match S.takeNext with
      | none => none
      | some (next, S') =>
          if S'.cancelled.contains next.key.uid then some (S', world)
          else
            let acted := M next.impl next.key.ts world
            let stopped := { S' with stop := S'.stop || isStop next.impl }
            (stopped.scheduleAll acted.2).map fun S'' => (S'', acted.1)

/-- The loop of `Run`, for at most as many turns as the first argument says. -/
def run (M : Handler ℤ σ ε) (isStop : ε → Bool) :
    ℕ → DefaultSimulatorImpl L × σ → Option (DefaultSimulatorImpl L × σ)
  | 0, s => some s
  | turns + 1, s =>
      if s.1.isFinished then some s
      else
        match processOneEvent M isStop s with
        | none => none
        | some s' => run M isStop turns s'

/-! ## The loop and the first-in first-out run -/

/-- The time stamps of all events that a run has fired or still has pending stay below the maximum
of `ns3::Time`, and their numbers in the range of `uint32_t`. -/
structure InRange (h : List (Firing ℤ σ ε)) (c : Conf ℤ σ ε) : Prop where
  fired : ∀ f ∈ h, f.event.ts < 2 ^ 63
  left : ∀ q ∈ c.queue, q.ts < 2 ^ 63
  numbers : h.length + c.queue.length + 4 < 2 ^ 32

/-- The simulator stands where the run does: `n` events have been scheduled in total. -/
structure Agrees (lawful : L.Lawful Scheduler.Event.order ok) (S : DefaultSimulatorImpl L)
    (queue : List (Pending ℤ ε)) (n : ℕ) : Prop where
  exists_waits : ∃ waiting, Waits lawful S waiting ∧ queue = waiting.map pending
  uid : S.uid = n + 4
  cancelled : S.cancelled = []

variable {M : Handler ℤ σ ε} {isStop : ε → Bool} {c₀ c c' : Conf ℤ σ ε} {p : Pending ℤ ε}
  {h : List (Firing ℤ σ ε)} {I : σ → Prop}

/-- Calls of `Schedule` add to what is pending. -/
theorem scheduleAll_spec {queue new : List (Pending ℤ ε)} {n : ℕ}
    (fits : ∀ ev : Scheduler.Event ε, ev.key.ts < 2 ^ 63 → ok ev) (agrees : Agrees lawful S queue n)
    (forward : ∀ q ∈ new, (S.currentTs : ℤ) ≤ q.ts) (range : ∀ q ∈ new, q.ts < 2 ^ 63)
    (numbers : n + new.length + 4 < 2 ^ 32) :
    ∃ S', S.scheduleAll new = some S' ∧ Agrees lawful S' (queue ++ new) (n + new.length) ∧
      S'.stop = S.stop ∧ S'.currentTs = S.currentTs ∧ S'.eventCount = S.eventCount := by
  induction new generalizing S queue n with
  | nil => exact ⟨S, rfl, by simpa using agrees, rfl, rfl, rfl⟩
  | cons q rest ih =>
      obtain ⟨⟨waiting, waits, rfl⟩, uid, cancelled⟩ := agrees
      have later := forward q List.mem_cons_self
      have below := range q List.mem_cons_self
      rw [List.length_cons] at numbers
      have delay : 0 ≤ q.ts - S.currentTs := by omega
      have number : S.uid + 1 < 2 ^ 32 := by omega
      have added : Waits lawful (S.scheduleWithContext S.currentContext (q.ts - S.currentTs) q.ev)
          (waiting ++ [S.nextEvent S.currentContext (q.ts - S.currentTs) q.ev]) :=
        waits.scheduleWithContext fits delay (by omega) number
      have same : pending (S.nextEvent S.currentContext (q.ts - S.currentTs) q.ev) = q := by
        have ts : ((S.nextEvent S.currentContext (q.ts - S.currentTs) q.ev).key.ts : ℤ) =
            q.ts - S.currentTs + S.currentTs := nextEvent_ts delay (by omega)
        rw [pending, ts, Int.sub_add_cancel]
        rfl
      have next : Agrees lawful (S.scheduleWithContext S.currentContext (q.ts - S.currentTs) q.ev)
          (waiting.map pending ++ [q]) (n + 1) := by
        refine ⟨⟨_, added, by rw [List.map_append, List.map_singleton, same]⟩, ?_, cancelled⟩
        have wrapped : (S.uid + 1) % 2 ^ 32 = S.uid + 1 := Nat.mod_eq_of_lt number
        change (S.uid + 1) % 2 ^ 32 = n + 1 + 4
        omega
      obtain ⟨S', all, agrees', stop, now, count⟩ := ih next
        (fun r member => forward r (List.mem_cons_of_mem q member))
        (fun r member => range r (List.mem_cons_of_mem q member)) (by omega)
      refine ⟨S', ?_, ?_, stop, now, count⟩
      · rw [DefaultSimulatorImpl.scheduleAll, DefaultSimulatorImpl.schedule, if_neg (by omega)]
        exact all
      · have total : n + (q :: rest).length = n + 1 + rest.length := by
          rw [List.length_cons]
          omega
        rw [total, List.append_cons]
        exact agrees'

/-- `ProcessOneEvent` fires the event that is first in first-in first-out order. -/
theorem processOneEvent_spec {n : ℕ} (fits : ∀ ev : Scheduler.Event ε, ev.key.ts < 2 ^ 63 → ok ev)
    (forward : Forward M I) (good : I c.state) (agrees : Agrees lawful S c.queue n)
    (step : Step M fifo c p c') (range : ∀ q ∈ c'.queue, q.ts < 2 ^ 63)
    (numbers : n + (M p.ev p.ts c.state).2.length + 4 < 2 ^ 32) :
    ∃ S', processOneEvent M isStop (S, c.state) = some (S', c'.state) ∧
      Agrees lawful S' c'.queue (n + (M p.ev p.ts c.state).2.length) ∧
      S'.stop = (S.stop || isStop p.ev) ∧ S'.eventCount = S.eventCount + 1 := by
  obtain ⟨⟨waiting, waits, queue⟩, uid, cancelled⟩ := agrees
  have some_left : waiting ≠ [] := by
    rintro rfl
    have member := step.mem_queue
    rw [queue] at member
    cases member
  obtain ⟨pre, ev, post, events, rfl, taken, first, left⟩ := waits.takeNext some_left
  rcases c with ⟨world, _⟩
  simp only at queue
  subst queue
  -- the event taken is the one that fires
  have fires : Step M fifo ⟨world, (pre ++ ev :: post).map pending⟩ (pending ev)
      (.fire M world (pre.map pending) (pending ev) (post.map pending)) := by
    rw [List.map_append, List.map_cons]
    exact .fire first
  obtain ⟨rfl, rfl⟩ := step.fifo_unique fires
  have after : Agrees lawful { S.process ev events with stop := S.stop || isStop ev.impl }
      ((pre ++ post).map pending) n :=
    ⟨⟨_, ⟨left.held, left.inOrder, left.numbers, left.later, left.current, left.inRange, left.count⟩,
      rfl⟩, uid, cancelled⟩
  obtain ⟨S', all, agrees', stop, -, count⟩ := scheduleAll_spec fits after
    (fun q new => (forward good).2 q new)
    (fun q new => range q (List.mem_append_right _ new)) numbers
  refine ⟨S', ?_, ?_, stop, count⟩
  · rw [processOneEvent, taken]
    have alive : (S.process ev events).cancelled.contains ev.key.uid = false := by
      have none_cancelled : (S.process ev events).cancelled = [] := cancelled
      rw [none_cancelled]
      rfl
    simp only [alive, Bool.false_eq_true, if_false]
    exact congrArg (Option.map fun S'' => (S'', (M ev.impl ev.key.ts world).1)) all
  · rw [List.map_append] at agrees'
    exact agrees'

/-- One more turn of the loop. -/
theorem run_succ (turns : ℕ) (s : DefaultSimulatorImpl L × σ) :
    run M isStop (turns + 1) s = (run M isStop turns s).bind fun s' =>
      if s'.1.isFinished then some s' else processOneEvent M isStop s' := by
  induction turns generalizing s with
  | zero =>
      rw [run, run, Option.bind_some]
      split
      · rfl
      · cases processOneEvent M isStop s <;> rfl
  | succ turns ih =>
      rw [run]
      split
      · rename_i finished
        rw [run, if_pos finished, Option.bind_some, if_pos finished]
      · rename_i going
        rw [run, if_neg going]
        cases processOneEvent M isStop s with
        | none => rfl
        | some s' => exact ih s'

/-- A finished simulator stays where it is. -/
theorem run_of_finished {s s' : DefaultSimulatorImpl L × σ} {turns n : ℕ}
    (reached : run M isStop n s = some s') (finished : s'.1.isFinished = true) (more : n ≤ turns) :
    run M isStop turns s = some s' := by
  induction turns, more using Nat.le_induction with
  | base => exact reached
  | succ turns _ ih => rw [run_succ, ih, Option.bind_some, if_pos finished]

theorem InRange.init (range : InRange (h ++ [⟨c, p, c'⟩]) c') (step : Step M fifo c p c') :
    InRange h c := by
  cases step with
  | @fire s pre p post allowed =>
      have numbers := range.numbers
      simp only [Conf.fire, List.length_append, List.length_cons] at numbers ⊢
      refine ⟨fun f member => range.fired f (List.mem_append_left _ member), fun q member => ?_, ?_⟩
      · rcases List.mem_append.mp member with before | here
        · exact range.left q (List.mem_append_left _ (List.mem_append_left _ before))
        · rcases List.mem_cons.mp here with rfl | after
          · exact range.fired _ (List.mem_append_right _ List.mem_cons_self)
          · exact range.left q (List.mem_append_left _ (List.mem_append_right _ after))
      · simp only [List.length_append, List.length_cons]
        omega

/-- As long as no event has stopped it, the simulator goes through the first-in first-out run. -/
theorem run_agrees {S₀ : DefaultSimulatorImpl L}
    (fits : ∀ ev : Scheduler.Event ε, ev.key.ts < 2 ^ 63 → ok ev) (forward : Forward M I)
    (good : I c₀.state) (run : Run M fifo c₀ h c) (range : InRange h c)
    (unstopped : ∀ f ∈ h.dropLast, isStop f.event.ev = false)
    (start : Agrees lawful S₀ c₀.queue c₀.queue.length) (running : S₀.stop = false)
    (fresh : S₀.eventCount = 0) :
    ∃ S, DefaultSimulatorImpl.run M isStop h.length (S₀, c₀.state) = some (S, c.state) ∧
      Agrees lawful S c.queue (h.length + c.queue.length) ∧
      S.stop = h.any (fun f => isStop f.event.ev) ∧ S.eventCount = h.length := by
  induction run with
  | nil => exact ⟨S₀, rfl, by simpa using start, running, fresh⟩
  | @snoc h c c' p prior step ih =>
      rw [List.dropLast_concat] at unstopped
      obtain ⟨S, reached, agrees, stop, count⟩ := ih (range.init step) fun f member =>
        unstopped f (List.dropLast_subset h member)
      have still : S.stop = false := by
        rw [stop, List.any_eq_false]
        exact fun f member => by simp [unstopped f member]
      have total : h.length + c.queue.length + (M p.ev p.ts c.state).2.length =
          (h ++ [(⟨c, p, c'⟩ : Firing ℤ σ ε)]).length + c'.queue.length := by
        cases step with
        | fire _ =>
            simp only [Conf.fire, List.length_append, List.length_cons, List.length_nil]
            omega
      have numbers := range.numbers
      rw [← total] at numbers
      obtain ⟨S', processed, agrees', stop', count'⟩ := processOneEvent_spec fits forward
        (prior.state_of_forward forward good) agrees step range.left numbers
      have unfinished : S.isFinished = false := by
        obtain ⟨⟨waiting, waits, queue⟩, -, -⟩ := agrees
        have some_left : L.isEmpty S.events = false := by
          rw [Bool.eq_false_iff, Ne, lawful.isEmpty_iff waits.held, Multiset.coe_eq_zero]
          rintro rfl
          have member := step.mem_queue
          rw [queue] at member
          cases member
        rw [isFinished, some_left, still]
        rfl
      refine ⟨S', ?_, ?_, ?_, ?_⟩
      · rw [List.length_append, List.length_singleton, run_succ, reached, Option.bind_some,
          if_neg (by simp [unfinished])]
        exact processed
      · rw [total] at agrees'
        exact agrees'
      · rw [stop', stop, List.any_append, List.any_cons, List.any_nil, Bool.or_false]
      · rw [count', count, List.length_append, List.length_singleton]

theorem construct_agrees (lawful : L.Lawful Scheduler.Event.order ok) :
    Agrees lawful (construct L) ([] : List (Pending ℤ ε)) 0 :=
  ⟨⟨[], construct_waits lawful, rfl⟩, rfl, rfl⟩

/-- The loop reaches the state of the first-in first-out run, and what it leaves in the event list is
what that run leaves pending. -/
theorem loop_of_fifo (lawful : L.Lawful Scheduler.Event.order ok)
    (fits : ∀ ev : Scheduler.Event ε, ev.key.ts < 2 ^ 63 → ok ev) (forward : Forward M I)
    (good : I c₀.state) (initial : c₀.NotBefore 0) (run : Run M fifo c₀ h c) (range : InRange h c)
    (unstopped : ∀ f ∈ h.dropLast, isStop f.event.ev = false)
    (ended : c.queue = [] ∨ ∃ f, h.getLast? = some f ∧ isStop f.event.ev = true) :
    ∃ S₀ S : DefaultSimulatorImpl L, (construct L).scheduleAll c₀.queue = some S₀ ∧
      (∀ turns, h.length ≤ turns →
        DefaultSimulatorImpl.run M isStop turns (S₀, c₀.state) = some (S, c.state)) ∧
      S.eventCount = h.length ∧ Agrees lawful S c.queue (h.length + c.queue.length) := by
  have start : InRange [] c₀ := by
    clear unstopped ended
    induction run with
    | nil => exact range
    | snoc _ step ih => exact ih (range.init step)
  obtain ⟨S₀, scheduled, agrees₀, stop₀, -, count₀⟩ := scheduleAll_spec fits
    (construct_agrees lawful) initial start.left (by have := start.numbers; simpa using this)
  rw [List.nil_append, Nat.zero_add] at agrees₀
  obtain ⟨S, reached, agrees, stop, count⟩ :=
    run_agrees fits forward good run range unstopped agrees₀ stop₀ count₀
  have finished : S.isFinished = true := by
    rw [isFinished, Bool.or_eq_true]
    rcases ended with empty | ⟨f, last, stops⟩
    · left
      obtain ⟨⟨waiting, waits, queue⟩, -, -⟩ := agrees
      rw [queue, List.map_eq_nil_iff] at empty
      rw [lawful.isEmpty_iff waits.held, empty]
      rfl
    · right
      rw [stop, List.any_eq_true]
      exact ⟨f, List.mem_of_getLast? last, stops⟩
  exact ⟨S₀, S, scheduled, fun turns more => run_of_finished reached finished more, count, agrees⟩

/-- **`Simulator::Run`.** Whatever lawful event list the simulator uses, it processes the events of the
first-in first-out run of their handlers, until nothing is pending or an event stops it, and leaves
the world as that run does. `m_unscheduledEvents` is then the number of the events left. -/
theorem run_of_fifo {L : FutureEvents (Scheduler.Event ε)} (lawful : L.Lawful Scheduler.Event.order ok)
    (fits : ∀ ev : Scheduler.Event ε, ev.key.ts < 2 ^ 63 → ok ev) (forward : Forward M I)
    (good : I c₀.state) (initial : c₀.NotBefore 0) (run : Run M fifo c₀ h c) (range : InRange h c)
    (unstopped : ∀ f ∈ h.dropLast, isStop f.event.ev = false)
    (ended : c.queue = [] ∨ ∃ f, h.getLast? = some f ∧ isStop f.event.ev = true) :
    ∃ S₀ S : DefaultSimulatorImpl L, (construct L).scheduleAll c₀.queue = some S₀ ∧
      (∀ turns, h.length ≤ turns →
        DefaultSimulatorImpl.run M isStop turns (S₀, c₀.state) = some (S, c.state)) ∧
      S.eventCount = h.length ∧ S.unscheduledEvents = c.queue.length := by
  obtain ⟨S₀, S, scheduled, loop, count, ⟨⟨waiting, waits, queue⟩, -, -⟩⟩ :=
    loop_of_fifo lawful fits forward good initial run range unstopped ended
  refine ⟨S₀, S, scheduled, loop, count, ?_⟩
  rw [waits.count, queue, List.length_map]

/-- Events that count down, one time unit apart. -/
def countdown : Handler ℤ ℕ ℕ := fun n t s => (s + n, if n = 0 then [] else [⟨t + 1, n - 1⟩])

/-- Counting down from 3 takes four events. -/
theorem run_of_fifo_countdown :
    ∃ S₀ S : DefaultSimulatorImpl (listScheduler ℕ),
      (construct (listScheduler ℕ)).scheduleAll [⟨0, 3⟩] = some S₀ ∧
      (∀ turns, 4 ≤ turns → DefaultSimulatorImpl.run countdown (fun _ => false) turns (S₀, 0) =
        some (S, 6)) ∧
      S.eventCount = 4 ∧ S.unscheduledEvents = 0 := by
  have forward : Forward countdown fun _ => True := by
    intro n t s _
    refine ⟨trivial, fun q member => ?_⟩
    unfold countdown at member
    split at member
    · cases member
    · rw [List.mem_singleton.mp member]
      exact (Int.lt_succ t).le
  have run := runFifo_run (M := countdown) 4 ⟨0, [⟨0, 3⟩]⟩
  have range : InRange (runFifo countdown 4 ⟨0, [⟨0, 3⟩]⟩).1 (runFifo countdown 4 ⟨0, [⟨0, 3⟩]⟩).2 :=
    ⟨by decide, by decide, by decide⟩
  have initial : Conf.NotBefore 0 (⟨0, [⟨0, 3⟩]⟩ : Conf ℤ ℕ ℕ) := by
    intro q member
    rw [List.mem_singleton.mp member]
  exact run_of_fifo (listSchedulerLawful ℕ) (fun _ _ => trivial) forward trivial initial run range
    (by decide) (.inl rfl)

end DefaultSimulatorImpl

end NtnCho
