import Mathlib.Data.Int.ConditionallyCompleteOrder
import NtnCho.EventSystem.Window
import NtnCho.Tick

/-!
# The timeline of a UE

Nothing is scheduled into the past: every delay is a propagation time or a constant, and distances
in the cache are at least one metre. So events fire in the order of their time stamps
(`ueHandler_forward`). The ticks are one second apart: exactly one tick is pending at any time, and
the tick with number `n` fires at second `n` (`ueTicks_of_run`).
-/

namespace NtnCho

open EventSystem

variable {P : Program} {env : Env}

/-! ## Delays -/

theorem seconds_nonneg {x : ℚ} (nonneg : 0 ≤ x) : 0 ≤ seconds x := by
  unfold seconds
  have : (0 : ℚ) ≤ x * 1000000000 + 1 / 2 := by positivity
  exact Int.floor_nonneg.mpr this

/-- A cached distance is at least one metre. -/
theorem LinkInvariant.one_le_distance {ue : UeInfo} {cellId : String} {metrics : UeSatMetrics}
    (inv : LinkInvariant P env ue) (cached : ue.cached cellId = some metrics) :
    1 ≤ metrics.distance := by
  obtain ⟨entry, found, rfl⟩ := Option.map_eq_some_iff.mp cached
  have good := inv.good found
  rw [good.distance]
  exact good.usable.distance

theorem LinkInvariant.getUuDelayForUe_nonneg {ue : UeInfo} (inv : LinkInvariant P env ue)
    (cellId : String) : 0 ≤ getUuDelayForUe ue cellId := by
  unfold getUuDelayForUe
  split
  · rename_i metrics cached
    have := inv.one_le_distance cached
    unfold speedOfLight
    positivity
  · norm_num

theorem getIslDelay_nonneg (L : Link) (sat1 sat2 : String) (simTime : ℚ) :
    0 ≤ getIslDelay L sat1 sat2 simTime := by
  unfold getIslDelay
  split
  · exact le_rfl
  · exact div_nonneg (L.libm.sqrt_nonneg _) (by unfold speedOfLight; norm_num)

/-- The delays a UE keeps and those it schedules are not negative. -/
structure Forwards (result : UeInfo × List Effect) : Prop where
  kept : 0 ≤ result.1.choProcState.reconfigDownlinkDelay
  scheduled : ∀ phase ∈ phases result.2, 0 ≤ phase.1

theorem forwards_choTriggerProcedure (ueId : ℕ) (simTime : ℚ) (report : MeasurementReport)
    {ue : UeInfo} (inv : LinkInvariant P env ue)
    (kept : 0 ≤ ue.choProcState.reconfigDownlinkDelay) :
    Forwards (choTriggerProcedure P ueId simTime report ue) := by
  have delay : 0 ≤ getUuDelayForUe ue report.servingCell.cellId + delayRrcProc :=
    add_nonneg (inv.getUuDelayForUe_nonneg _) (by unfold delayRrcProc; norm_num)
  unfold choTriggerProcedure
  split
  · exact ⟨kept, fun phase member => by cases member⟩
  · refine ⟨?_, ?_⟩
    · rw [UeInfo.count_choProcState]
      exact delay
    · simpa [phases, Effect.phase, choLog] using delay

theorem totalExecutionTime_nonneg {ue : UeInfo} (inv : LinkInvariant P env ue)
    (sourceCell targetCell : String) : 0 ≤ totalExecutionTime ue sourceCell targetCell := by
  have source := inv.getUuDelayForUe_nonneg sourceCell
  have target := inv.getUuDelayForUe_nonneg targetCell
  unfold totalExecutionTime delayRrcProc delayBeamSwitch
  dsimp only
  linarith

theorem TickAction.forwards {ueId : ℕ} {simTime : ℚ} {ue : UeInfo} {result : UeInfo × List Effect}
    (action : TickAction P env ueId simTime ue result) (inv : LinkInvariant P env ue)
    (kept : 0 ≤ ue.choProcState.reconfigDownlinkDelay) : Forwards result := by
  cases action with
  | quiet records => exact ⟨kept, by simp⟩
  | timer => exact ⟨kept, fun phase member => by cases member⟩
  | expires =>
      refine ⟨?_, by simp [choConfigExpired, phases, Effect.phase]⟩
      rw [choConfigExpired, UeInfo.count_choProcState]
      exact kept
  | executes start evaluating =>
      have delay := totalExecutionTime_nonneg inv ue.choProcState.sourceCell ue.choProcState.targetCell
      unfold choPhase6UeExecutes
      rw [if_neg (not_not.mpr (show (ue.setExecutionTtt false start).choProcState.phase = _ from
        evaluating))]
      refine ⟨?_, ?_⟩
      · rw [applyUeErrorModelImmediately_choProcState, UeInfo.count_choProcState]
        exact kept
      · intro phase member
        simp only [phases, Effect.phase, choLog, List.flatMap_cons, List.flatMap_nil, List.nil_append,
          List.append_nil, List.mem_singleton] at member
        rw [member]
        exact delay
  | reports records report idle =>
      obtain ⟨kept', scheduled⟩ := forwards_choTriggerProcedure ueId simTime report inv
        kept
      exact ⟨kept', by simpa using scheduled⟩
  | reselects records => exact ⟨kept, by simp⟩

theorem forwards_choAdvance {expected next : ChoPhase} {delay simTime : ℚ} {handler : ChoHandler}
    {ueId : ℕ} {sourceCell targetCell : String} {ue : UeInfo} (nonneg : 0 ≤ delay)
    (kept : 0 ≤ ue.choProcState.reconfigDownlinkDelay) :
    Forwards (choAdvance expected next delay handler ueId sourceCell targetCell simTime ue) := by
  unfold choAdvance
  split
  · exact ⟨kept, fun phase member => by cases member⟩
  · exact ⟨kept, by simpa [phases, Effect.phase] using nonneg⟩

theorem forwards_choHandler {handler : ChoHandler} {ueId : ℕ} {sourceCell targetCell : String}
    {simTime : ℚ} {ue : UeInfo} (kept : 0 ≤ ue.choProcState.reconfigDownlinkDelay) :
    Forwards (choHandler P env handler ueId sourceCell targetCell simTime ue) := by
  have unguarded : Forwards (ue, []) := ⟨kept, fun phase member => by cases member⟩
  cases handler with
  | phase1ReportArrived => exact forwards_choAdvance (by norm_num) kept
  | phase2SendXnRequest =>
      exact forwards_choAdvance (add_nonneg (getIslDelay_nonneg ..) (by norm_num)) kept
  | phase3XnResponse =>
      exact forwards_choAdvance (add_nonneg (getIslDelay_nonneg ..) (by norm_num)) kept
  | phase4SendRrcReconfig =>
      simp only [choHandler, choPhase4SendRrcReconfig]
      split
      · exact unguarded
      · refine ⟨?_, by simpa [phases, Effect.phase] using kept⟩
        rw [UeInfo.count_choProcState]
        exact kept
  | phase5UeStoresConfig =>
      simp only [choHandler, choPhase5UeStoresConfig]
      split
      · exact unguarded
      · refine ⟨?_, by simp [phases, Effect.phase, choLog]⟩
        rw [UeInfo.count_choProcState]
        exact kept
  | phase7ExecutionComplete =>
      simp only [choHandler, choPhase7ExecutionComplete]
      split
      · exact unguarded
      · split
        · refine ⟨?_, ?_⟩
          · simp only [UeInfo.completed, applyUeErrorModelImmediately_choProcState,
              UeInfo.handedOver, UeInfo.count_choProcState]
            exact kept
          · unfold hoResult
            split <;> simp [phases, Effect.phase, choLog]
        · refine ⟨?_, by simp [choHandleFailure, phases, Effect.phase, choLog]⟩
          simp only [choHandleFailure, UeInfo.count_choProcState]
          exact kept

theorem forwards_ueAction (lawful : P.Lawful) {i : ℕ} {event : Event} {now : ℤ} {ue : UeInfo}
    (inv : LinkInvariant P env ue) (kept : 0 ≤ ue.choProcState.reconfigDownlinkDelay) :
    Forwards (ueAction P env i event now ue) := by
  cases event with
  | checkHandoverConditions =>
      obtain ⟨ue₁, measured, action⟩ := ueTick_action lawful env i (getSeconds now) ue
      refine action.forwards (inv.measured lawful measured) ?_
      rw [measured.only.choProcState, (sameProcedure_updated P env _ ue).choProcState]
      exact kept
  | cho handler ueId sourceCell targetCell => exact forwards_choHandler kept
  | evaluatePendingPrediction => exact ⟨kept, fun phase member => by cases member⟩

/-- What makes the delays of a UE non-negative. -/
structure OnTime (P : Program) (env : Env) (ue : UeInfo) : Prop where
  link : LinkInvariant P env ue
  kept : 0 ≤ ue.choProcState.reconfigDownlinkDelay

theorem OnTime.ueAction (lawful : P.Lawful) {i : ℕ} {event : Event} {now : ℤ} {ue : UeInfo}
    (onTime : OnTime P env ue) : OnTime P env (ueAction P env i event now ue).1 where
  link := onTime.link.ueAction lawful
  kept := (forwards_ueAction lawful onTime.link onTime.kept).kept

theorem onTime_initialUe (i : ℕ) (row : UeRow) : OnTime P env (initialUe env i row) where
  link := linkInvariant_initialUe i row
  kept := le_rfl

/-- The UE, if there is one, is on time. -/
def UeOnTime (P : Program) (env : Env) (ue? : Option UeInfo) : Prop := ∀ ue ∈ ue?, OnTime P env ue

theorem onTime_ueInitial (rows : List UeRow) (i : ℕ) :
    UeOnTime P env (ueInitial env rows i).state := by
  intro ue present
  obtain ⟨row, -, rfl⟩ := Option.map_eq_some_iff.mp present
  exact onTime_initialUe i row

/-- A UE schedules no event into the past. -/
theorem ueHandler_forward (lawful : P.Lawful) (i : ℕ) :
    Forward (ueHandler P env i) (UeOnTime P env) := by
  intro event now ue? onTime
  have tick : ∀ q ∈ nextTick event now, now ≤ q.ts := by
    intro q member
    cases event with
    | checkHandoverConditions =>
        obtain rfl := List.mem_singleton.mp member
        have second : 0 ≤ seconds 1 := seconds_nonneg zero_le_one
        dsimp only
        omega
    | cho => cases member
    | evaluatePendingPrediction => cases member
  cases ue? with
  | none => exact ⟨fun ue present => (by cases present), tick⟩
  | some ue =>
      have good := onTime ue rfl
      refine ⟨fun ue' present => ?_, fun q member => ?_⟩
      · obtain rfl := Option.some.inj present
        exact good.ueAction lawful
      · rcases List.mem_append.mp member with phase | next
        · obtain ⟨entry, scheduled, rfl⟩ := List.mem_map.mp phase
          have delay := seconds_nonneg
            ((forwards_ueAction lawful good.link good.kept).scheduled entry scheduled)
          dsimp only [scheduledPhase]
          omega
        · exact tick q next

/-! ## Ticks -/

/-- The time of a firing, in seconds. -/
def fireTime (f : Firing ℤ (Option UeInfo) Event) : ℚ := getSeconds f.event.ts

/-- The firings of a history that are ticks. -/
def ticks (h : List (Firing ℤ (Option UeInfo) Event)) : List (Firing ℤ (Option UeInfo) Event) :=
  h.filter fun f => f.event.ev = .checkHandoverConditions

/-- The pending ticks of a queue. -/
def pendingTicks (queue : Schedule) : Schedule :=
  queue.filter fun q => q.ev = .checkHandoverConditions

/-- The tick with number `n`. -/
def tickNumber (n : ℕ) : Pending ℤ Event := ⟨n * 1000000000, .checkHandoverConditions⟩

theorem seconds_one : seconds 1 = 1000000000 := by decide +kernel

theorem getSeconds_tickNumber (n : ℕ) : getSeconds (tickNumber n).ts = n := by
  simp [getSeconds, tickNumber]

theorem ticks_append (h h' : List (Firing ℤ (Option UeInfo) Event)) :
    ticks (h ++ h') = ticks h ++ ticks h' := List.filter_append ..

theorem ticks_snoc {f : Firing ℤ (Option UeInfo) Event}
    (tick : f.event.ev = .checkHandoverConditions) (h : List (Firing ℤ (Option UeInfo) Event)) :
    ticks (h ++ [f]) = ticks h ++ [f] := by
  rw [ticks_append]
  simp [ticks, tick]

theorem ticks_snoc_of_ne {f : Firing ℤ (Option UeInfo) Event}
    (other : f.event.ev ≠ .checkHandoverConditions)
    (h : List (Firing ℤ (Option UeInfo) Event)) : ticks (h ++ [f]) = ticks h := by
  rw [ticks_append]
  simp [ticks, other]

theorem mem_ticks {h : List (Firing ℤ (Option UeInfo) Event)}
    {f : Firing ℤ (Option UeInfo) Event} :
    f ∈ ticks h ↔ f ∈ h ∧ f.event.ev = .checkHandoverConditions := by
  simp [ticks]

theorem pendingTicks_append (l l' : Schedule) :
    pendingTicks (l ++ l') = pendingTicks l ++ pendingTicks l' := List.filter_append ..

theorem pendingTicks_phases (i : ℕ) (now : ℤ) (l : List (ℚ × ChoHandler × String × String)) :
    pendingTicks (l.map (scheduledPhase i now)) = [] := by
  refine List.filter_eq_nil_iff.mpr fun q member => ?_
  obtain ⟨phase, -, rfl⟩ := List.mem_map.mp member
  simp [scheduledPhase]

/-- A handler of a UE schedules the next tick, and no other. -/
theorem pendingTicks_ueHandler (i : ℕ) (event : Event) (now : ℤ) (ue? : Option UeInfo) :
    pendingTicks (ueHandler P env i event now ue?).2 = nextTick event now := by
  have next : pendingTicks (nextTick event now) = nextTick event now := by cases event <;> rfl
  cases ue? with
  | none => exact next
  | some ue =>
      simp only [ueHandler]
      rw [pendingTicks_append, pendingTicks_phases, next, List.nil_append]

section Ticks

variable {ok : Policy ℤ Event} {i : ℕ} {rows : List UeRow}
  {h : List (Firing ℤ (Option UeInfo) Event)} {c : Conf ℤ (Option UeInfo) Event}

/-- The ticks fire one by one, one second apart, and one is always pending. -/
theorem ueTicks_of_run (run : Run (ueHandler P env i) ok (ueInitial env rows i) h c) :
    pendingTicks c.queue = [tickNumber (ticks h).length] ∧
      (ticks h).map Firing.event = (List.range (ticks h).length).map tickNumber := by
  induction run with
  | nil => exact ⟨rfl, rfl⟩
  | @snoc h c c' p prior step ih =>
      obtain ⟨pending, fired⟩ := ih
      cases step with
      | @fire s pre p post allowed =>
          dsimp only at pending
          rw [pendingTicks_append] at pending
          rw [Conf.fire, pendingTicks_append, pendingTicks_append, pendingTicks_ueHandler,
            ticks_append]
          by_cases tick : p.ev = .checkHandoverConditions
          · have first : pendingTicks (p :: post) = p :: pendingTicks post := by
              simp [pendingTicks, tick]
            have seen : ticks [⟨⟨s, pre ++ p :: post⟩, p, .fire (ueHandler P env i) s pre p post⟩] =
                [⟨⟨s, pre ++ p :: post⟩, p, .fire (ueHandler P env i) s pre p post⟩] := by
              simp [ticks, tick]
            rw [first] at pending
            have single := List.append_eq_singleton_iff.mp pending
            simp only [List.cons.injEq, reduceCtorEq, and_false, or_false] at single
            obtain ⟨before, rfl, after⟩ := single
            rw [Conf.fire] at seen
            rw [seen, before, after, List.length_append, List.length_singleton, List.map_append,
              List.range_succ, List.map_append, fired]
            refine ⟨?_, rfl⟩
            simp only [nextTick, tickNumber, seconds_one, List.nil_append]
            push_cast
            ring_nf
          · have first : pendingTicks (p :: post) = pendingTicks post := by
              simp [pendingTicks, tick]
            have unseen : ticks [⟨⟨s, pre ++ p :: post⟩, p, .fire (ueHandler P env i) s pre p post⟩] =
                [] := by
              simp [ticks, tick]
            rw [first] at pending
            rw [Conf.fire] at unseen
            rw [unseen, List.append_nil, pending]
            refine ⟨?_, fired⟩
            have none : nextTick p.ev p.ts = [] := by
              rcases p with ⟨_, _ | _ | _⟩
              · exact absurd rfl tick
              · rfl
              · rfl
            rw [none, List.append_nil]

/-- A pending tick has the number of the ticks before it. -/
theorem eq_tickNumber (run : Run (ueHandler P env i) ok (ueInitial env rows i) h c)
    {p : Pending ℤ Event} (pending : p ∈ c.queue) (tick : p.ev = .checkHandoverConditions) :
    p = tickNumber (ticks h).length := by
  have member : p ∈ pendingTicks c.queue := List.mem_filter.mpr ⟨pending, by simpa using tick⟩
  rw [(ueTicks_of_run run).1] at member
  exact List.mem_singleton.mp member

/-- The ticks of a history have the numbers below their count. -/
theorem exists_tickNumber (run : Run (ueHandler P env i) ok (ueInitial env rows i) h c)
    {f : Firing ℤ (Option UeInfo) Event} (member : f ∈ ticks h) :
    ∃ n < (ticks h).length, f.event = tickNumber n := by
  have fired : f.event ∈ (ticks h).map Firing.event := List.mem_map_of_mem member
  rw [(ueTicks_of_run run).2] at fired
  obtain ⟨n, bound, event⟩ := List.mem_map.mp fired
  exact ⟨n, List.mem_range.mp bound, event.symm⟩

/-- A pending tick lies at least one second after every tick that has fired. -/
theorem tick_add_one_le (run : Run (ueHandler P env i) ok (ueInitial env rows i) h c)
    {p : Pending ℤ Event} (pending : p ∈ c.queue) (tick : p.ev = .checkHandoverConditions)
    {f : Firing ℤ (Option UeInfo) Event} (member : f ∈ ticks h) :
    getSeconds f.event.ts + 1 ≤ getSeconds p.ts := by
  obtain ⟨n, bound, event⟩ := exists_tickNumber run member
  rw [eq_tickNumber run pending tick, event, getSeconds_tickNumber, getSeconds_tickNumber]
  exact_mod_cast bound

/-- A tick that fires after another is later by at least one second. -/
theorem tick_lt_of_split {h₁ h₂ : List (Firing ℤ (Option UeInfo) Event)}
    {f g : Firing ℤ (Option UeInfo) Event}
    (run : Run (ueHandler P env i) ok (ueInitial env rows i) (h₁ ++ f :: h₂) c)
    (tick : f.event.ev = .checkHandoverConditions) (member : g ∈ ticks h₂) :
    getSeconds f.event.ts + 1 ≤ getSeconds g.event.ts := by
  obtain ⟨later, ticking⟩ := mem_ticks.mp member
  obtain ⟨h₃, h₄, rfl⟩ := List.append_of_mem later
  rw [← List.cons_append, ← List.append_assoc] at run
  obtain ⟨before, step⟩ := run.split
  exact tick_add_one_le before step.mem_queue ticking (mem_ticks.mpr ⟨by simp, tick⟩)

/-- The ticks up to a tick are those before it and itself. -/
theorem mem_ticks_of_le {h₁ h₂ : List (Firing ℤ (Option UeInfo) Event)}
    {f g : Firing ℤ (Option UeInfo) Event}
    (run : Run (ueHandler P env i) ok (ueInitial env rows i) (h₁ ++ f :: h₂) c)
    (tick : f.event.ev = .checkHandoverConditions) (member : g ∈ ticks (h₁ ++ f :: h₂))
    (le : fireTime g ≤ fireTime f) : g ∈ ticks h₁ ∨ g = f := by
  rw [ticks_append] at member
  rcases List.mem_append.mp member with earlier | later
  · exact .inl earlier
  · rcases List.mem_cons.mp (mem_ticks.mp later).1 with same | beyond
    · exact .inr same
    · have late := tick_lt_of_split run tick (mem_ticks.mpr ⟨beyond, (mem_ticks.mp later).2⟩)
      unfold fireTime at le
      linarith

/-- The last tick of a history. -/
theorem lastTick_event {g : Firing ℤ (Option UeInfo) Event}
    (run : Run (ueHandler P env i) ok (ueInitial env rows i) h c)
    (last : (ticks h).getLast? = some g) :
    g.event = tickNumber ((ticks h).length - 1) ∧ 0 < (ticks h).length := by
  have fired := congrArg List.getLast? (ueTicks_of_run run).2
  rw [List.getLast?_map, List.getLast?_map, last, List.getLast?_range] at fired
  split at fired
  · cases fired
  · rename_i some_tick
    exact ⟨Option.some.inj fired, Nat.pos_of_ne_zero some_tick⟩

/-- No tick is later than the last one. -/
theorem fireTime_le_lastTick {f g : Firing ℤ (Option UeInfo) Event}
    (run : Run (ueHandler P env i) ok (ueInitial env rows i) h c)
    (last : (ticks h).getLast? = some g) (member : f ∈ ticks h) : fireTime f ≤ fireTime g := by
  obtain ⟨n, bound, event⟩ := exists_tickNumber run member
  rw [fireTime, fireTime, event, (lastTick_event run last).1, getSeconds_tickNumber,
    getSeconds_tickNumber]
  exact_mod_cast Nat.le_pred_of_lt bound

/-- A tick falls on a whole second. -/
theorem fireTime_eq_natCast {g : Firing ℤ (Option UeInfo) Event}
    (run : Run (ueHandler P env i) ok (ueInitial env rows i) h c) (member : g ∈ ticks h) :
    ∃ n : ℕ, fireTime g = n := by
  obtain ⟨n, -, event⟩ := exists_tickNumber run member
  exact ⟨n, by rw [fireTime, event, getSeconds_tickNumber]⟩

/-- An event fires at most one second after the last tick. -/
theorem le_lastTick_add_one {g : Firing ℤ (Option UeInfo) Event} {p : Pending ℤ Event}
    {c' : Conf ℤ (Option UeInfo) Event}
    (prior : Run (ueHandler P env i) fifo (ueInitial env rows i) h c)
    (step : Step (ueHandler P env i) fifo c p c') (last : (ticks h).getLast? = some g) :
    getSeconds p.ts ≤ fireTime g + 1 := by
  obtain ⟨event, some_tick⟩ := lastTick_event prior last
  have next : tickNumber (ticks h).length ∈ pendingTicks c.queue := by
    rw [(ueTicks_of_run prior).1]
    exact List.mem_singleton_self _
  have le := step.le_of_mem (List.mem_filter.mp next).1
  have bound : getSeconds p.ts ≤ getSeconds (tickNumber (ticks h).length).ts := by
    unfold getSeconds
    have cast : (p.ts : ℚ) ≤ (tickNumber (ticks h).length).ts := by exact_mod_cast le
    linarith
  rw [getSeconds_tickNumber] at bound
  rw [fireTime, event, getSeconds_tickNumber, Nat.cast_pred some_tick]
  linarith

/-- What has fired lies before every event that fires later. -/
theorem ueRun_times_le (lawful : P.Lawful)
    (prior : Run (ueHandler P env i) fifo (ueInitial env rows i) h c) {p : Pending ℤ Event}
    {c' : Conf ℤ (Option UeInfo) Event} (step : Step (ueHandler P env i) fifo c p c')
    {f : Firing ℤ (Option UeInfo) Event} (member : f ∈ h) :
    getSeconds f.event.ts ≤ getSeconds p.ts := by
  have run : Run (ueHandler P env i) fifo (ueInitial env rows i) (h ++ ⟨c, p, c'⟩ :: []) c' :=
    prior.snoc step
  have le := run.times_le (ueHandler_forward lawful i) (onTime_ueInitial rows i) member
  unfold getSeconds
  have cast : (f.event.ts : ℚ) ≤ p.ts := by exact_mod_cast le
  linarith

end Ticks

end NtnCho
