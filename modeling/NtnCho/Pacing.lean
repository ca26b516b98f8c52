import NtnCho.SimulationRun
import NtnCho.Execution

/-!
# The pace of handovers

How fast the procedures of a UE can follow each other, and how long one of them can last. `Progress`
says what an event does to a procedure and which delay it schedules; two invariants follow from it.

* A procedure starts at a tick, its timer at a later one, and its execution at a later one still. So two
  handovers of a UE are more than two seconds apart (`handover_spacing`).
* A phase of a procedure waits for its delay, and a configuration for its expiry and the next tick. So no
  procedure outlives its delays and the validity period (`procedure_age_le`).
-/

namespace NtnCho

open EventSystem

variable {P : Program} {env : Env}

/-! ## What an event does to a procedure -/

/-- A delay between two messages of the preparation. -/
inductive Hop (env : Env) (ue : UeInfo) (sourceCell targetCell : String) (now : ℚ) : ℚ → Prop
  | decision : Hop env ue sourceCell targetCell now 0.001
  | xnRequest :
      Hop env ue sourceCell targetCell now (getIslDelay env.link sourceCell targetCell now + 0.002)
  | xnResponse :
      Hop env ue sourceCell targetCell now (getIslDelay env.link targetCell sourceCell now + 0.001)
  | reconfig : Hop env ue sourceCell targetCell now ue.choProcState.reconfigDownlinkDelay

/-- The procedure of a UE before and after an event at `now`, and the delays of the phases that the event
schedules. -/
inductive Progress (env : Env) (event : Event) (now : ℚ) (ue ue' : UeInfo) : List ℚ → Prop
  | stays (tick : event = .checkHandoverConditions) (other : ue.choProcState.phase ≠ .ueEvaluating)
      (same : ue'.choProcState = ue.choProcState) : Progress env event now ue ue' []
  | starts (tick : event = .checkHandoverConditions) (idle : ue.choProcState.phase = .idle)
      (phase : ue'.choProcState.phase = .measReportUplink)
      (start : ue'.choProcState.procedureStartTime = now)
      (delay : ue'.choProcState.reconfigDownlinkDelay =
        getUuDelayForUe ue' ue'.choProcState.sourceCell + delayRrcProc) :
      Progress env event now ue ue' [ue'.choProcState.reconfigDownlinkDelay]
  | advances {handler next : ChoHandler} {delay : ℚ} {ueId : ℕ} {sourceCell targetCell : String}
      (phase : event = .cho handler ueId sourceCell targetCell)
      (guard : ue.choProcState.phase = handler.guard) (follows : handler.weight = next.weight + 1)
      (preparing : next ≠ .phase7ExecutionComplete)
      (after : ue'.choProcState =
        { ue.choProcState with phase := next.guard, phaseStartTime := now })
      (hop : Hop env ue sourceCell targetCell now delay) : Progress env event now ue ue' [delay]
  | stores {ueId : ℕ} {sourceCell targetCell : String}
      (phase : event = .cho .phase5UeStoresConfig ueId sourceCell targetCell)
      (guard : ue.choProcState.phase = .rrcReconfigDownlink)
      (after : ue'.choProcState =
        { ue.choProcState with
          phase := .ueEvaluating
          phaseStartTime := now
          configReceivedTime := now
          configExpiryTime := now + env.ho.choNtnConfig.configValidityPeriod
          executionTttActive := false
          executionTttStartTime := -1
          executionTimeToTrigger := env.ho.choNtnConfig.executionTimeToTrigger }) :
      Progress env event now ue ue' []
  | stopsTimer (tick : event = .checkHandoverConditions)
      (evaluating : ue.choProcState.phase = .ueEvaluating)
      (valid : now ≤ ue.choProcState.configExpiryTime)
      (after : ue'.choProcState = { ue.choProcState with
        executionTttActive := false, executionTttStartTime := -1 }) : Progress env event now ue ue' []
  | startsTimer (tick : event = .checkHandoverConditions)
      (evaluating : ue.choProcState.phase = .ueEvaluating)
      (valid : now ≤ ue.choProcState.configExpiryTime)
      (after : ue'.choProcState = { ue.choProcState with
        executionTttActive := true, executionTttStartTime := now }) : Progress env event now ue ue' []
  | waits (tick : event = .checkHandoverConditions)
      (evaluating : ue.choProcState.phase = .ueEvaluating)
      (valid : now ≤ ue.choProcState.configExpiryTime)
      (same : ue'.choProcState = ue.choProcState) : Progress env event now ue ue' []
  | expires (tick : event = .checkHandoverConditions)
      (evaluating : ue.choProcState.phase = .ueEvaluating)
      (late : ue.choProcState.configExpiryTime < now)
      (phase : ue'.choProcState.phase = .idle) : Progress env event now ue ue' []
  | executes (tick : event = .checkHandoverConditions)
      (evaluating : ue.choProcState.phase = .ueEvaluating)
      (valid : now ≤ ue.choProcState.configExpiryTime)
      (active : ue.choProcState.executionTttActive = true)
      (elapsed : ue.choProcState.executionTimeToTrigger ≤
        now - ue.choProcState.executionTttStartTime)
      (phase : ue'.choProcState.phase = .ueExecuting)
      (start : ue'.choProcState.procedureStartTime = ue.choProcState.procedureStartTime)
      (executionStart : ue'.choProcState.executionStartTime = now) :
      Progress env event now ue ue'
        [totalExecutionTime ue' ue'.choProcState.sourceCell ue'.choProcState.targetCell]
  | completes {ueId : ℕ} {sourceCell targetCell : String}
      (phase : event = .cho .phase7ExecutionComplete ueId sourceCell targetCell)
      (guard : ue.choProcState.phase = .ueExecuting)
      (idle : ue'.choProcState.phase = .idle) : Progress env event now ue ue' []

theorem getUuDelayForUe_congr {ue ue' : UeInfo} (same : ue'.phy = ue.phy) (cell : String) :
    getUuDelayForUe ue' cell = getUuDelayForUe ue cell := by
  unfold getUuDelayForUe UeInfo.cached
  rw [same]

theorem totalExecutionTime_congr {ue ue' : UeInfo} (same : ue'.phy = ue.phy)
    (sourceCell targetCell : String) :
    totalExecutionTime ue' sourceCell targetCell = totalExecutionTime ue sourceCell targetCell := by
  unfold totalExecutionTime
  rw [getUuDelayForUe_congr same, getUuDelayForUe_congr same]

/-- An execution starts now, and its completion is scheduled. -/
theorem progress_choPhase6UeExecutes {i : ℕ} {now : ℚ} {ue ue₀ : UeInfo}
    (evaluating : ue.choProcState.phase = .ueEvaluating)
    (start : ue.choProcState.procedureStartTime = ue₀.choProcState.procedureStartTime)
    (before : ue₀.choProcState.phase = .ueEvaluating)
    (valid : now ≤ ue₀.choProcState.configExpiryTime)
    (active : ue₀.choProcState.executionTttActive = true)
    (elapsed : ue₀.choProcState.executionTimeToTrigger ≤
      now - ue₀.choProcState.executionTttStartTime) :
    Progress env .checkHandoverConditions now ue₀
      (choPhase6UeExecutes P env i ue.choProcState.sourceCell ue.choProcState.targetCell now ue).1
      ((phases (choPhase6UeExecutes P env i ue.choProcState.sourceCell ue.choProcState.targetCell now
        ue).2).map Prod.fst) := by
  have phase := @choPhase6UeExecutes_phase P env i now ue.choProcState.sourceCell
    ue.choProcState.targetCell ue evaluating
  have link := (@sameLink_choPhase6UeExecutes P env i ue.choProcState.sourceCell
    ue.choProcState.targetCell now ue).phy
  have scheduled : (phases (choPhase6UeExecutes P env i ue.choProcState.sourceCell
      ue.choProcState.targetCell now ue).2).map Prod.fst =
      [totalExecutionTime ue ue.choProcState.sourceCell ue.choProcState.targetCell] := by
    unfold choPhase6UeExecutes
    rw [if_neg (not_not.mpr evaluating)]
    rfl
  have kept : ∀ s, (choPhase6UeExecutes P env i ue.choProcState.sourceCell ue.choProcState.targetCell now
        ue).1.choProcState = s → s.procedureStartTime = ue.choProcState.procedureStartTime ∧
      s.executionStartTime = now ∧ s.sourceCell = ue.choProcState.sourceCell ∧
      s.targetCell = ue.choProcState.targetCell := by
    rintro s rfl
    unfold choPhase6UeExecutes
    rw [if_neg (not_not.mpr evaluating)]
    dsimp only
    rw [applyUeErrorModelImmediately_choProcState, UeInfo.count_choProcState]
    exact ⟨rfl, rfl, rfl, rfl⟩
  obtain ⟨started, executionStart, source, target⟩ := kept _ rfl
  generalize choPhase6UeExecutes P env i ue.choProcState.sourceCell ue.choProcState.targetCell now ue =
    result at *
  rw [scheduled, ← totalExecutionTime_congr link, ← source, ← target]
  exact .executes rfl before valid active elapsed phase (started.trans start) executionStart

/-- What `CHO_CheckExecutionCondition` does. -/
theorem progress_of_check {i : ℕ} {now : ℚ} {ue updated : UeInfo} {result : UeInfo × List Effect}
    (same : updated.choProcState = ue.choProcState)
    (check : ConditionCheck P env i now updated result)
    (evaluating : ue.choProcState.phase = .ueEvaluating) :
    Progress env .checkHandoverConditions now ue result.1 ((phases result.2).map Prod.fst) := by
  have evaluating' : updated.choProcState.phase = .ueEvaluating := by rw [same, evaluating]
  cases check with
  | expired late =>
      rw [same] at late
      exact .expires rfl evaluating late (choConfigExpired_phase updated)
  | missing valid =>
      rw [same] at valid
      exact .waits rfl evaluating valid same
  | unmet valid =>
      rw [same] at valid
      exact .stopsTimer rfl evaluating valid (by rw [UeInfo.setExecutionTtt, same])
  | starts valid =>
      rw [same] at valid
      exact .startsTimer rfl evaluating valid (by rw [UeInfo.setExecutionTtt, same])
  | executes valid _ active elapsed =>
      rw [same] at valid active elapsed
      have start := congrArg UeChoProcedureState.procedureStartTime same
      have stopped : (updated.setExecutionTtt false
          updated.choProcState.executionTttStartTime).choProcState.phase = .ueEvaluating := evaluating'
      exact progress_choPhase6UeExecutes stopped start evaluating valid active elapsed
  | waits valid =>
      rw [same] at valid
      exact .waits rfl evaluating valid same

theorem progress_ueTick (i : ℕ) (now : ℚ) (ue : UeInfo) :
    Progress env .checkHandoverConditions now ue (ueTick P env i now ue).1
      ((phases (ueTick P env i now ue).2).map Prod.fst) := by
  by_cases evaluating : ue.choProcState.phase = .ueEvaluating
  · exact progress_of_check (sameProcedure_updated P env now ue).choProcState
      (ueTick_evaluating P env i now evaluating) evaluating
  · obtain ⟨ue₁, same, action⟩ := ueTick_spec P env i now ue
    have state := same.choProcState
    have other : ue₁.choProcState.phase ≠ .ueEvaluating := by rw [state]; exact evaluating
    have link := action.sameLink.phy
    generalize ueTick P env i now ue = result at action link ⊢
    cases action with
    | quiet records =>
        rw [phases_records]
        exact .stays rfl evaluating state
    | timer _ _ here => exact absurd here other
    | expires here => exact absurd here other
    | executes _ here => exact absurd here other
    | reports records report idle =>
        have scheduled : (phases (choTriggerProcedure P i now report ue₁).2).map Prod.fst =
            [(choTriggerProcedure P i now report ue₁).1.choProcState.reconfigDownlinkDelay] := by
          unfold choTriggerProcedure
          rw [if_neg (not_not.mpr idle)]
          dsimp only
          rw [UeInfo.count_choProcState]
          rfl
        rw [phases_append, phases_records, List.nil_append, scheduled]
        refine .starts rfl ?_ (choTriggerProcedure_phase idle) ?_ ?_
        · rw [← state]
          exact idle
        · unfold choTriggerProcedure
          rw [if_neg (not_not.mpr idle)]
          dsimp only
          rw [UeInfo.count_choProcState]
        · rw [getUuDelayForUe_congr link]
          unfold choTriggerProcedure
          rw [if_neg (not_not.mpr idle)]
          dsimp only
          rw [UeInfo.count_choProcState]
    | reselects records _ =>
        rw [phases_records]
        exact .stays rfl evaluating state

theorem progress_choAdvance (handler next : ChoHandler) {i : ℕ} {delay now : ℚ}
    {sourceCell targetCell : String} {ue : UeInfo} (guard : ue.choProcState.phase = handler.guard)
    (follows : handler.weight = next.weight + 1) (preparing : next ≠ .phase7ExecutionComplete)
    (hop : Hop env ue sourceCell targetCell now delay) :
    Progress env (.cho handler i sourceCell targetCell) now ue
      (choAdvance handler.guard next.guard delay next i sourceCell targetCell now ue).1
      ((phases (choAdvance handler.guard next.guard delay next i sourceCell targetCell now ue).2).map
        Prod.fst) := by
  unfold choAdvance
  rw [if_neg (not_not.mpr guard)]
  exact .advances rfl guard follows preparing rfl hop

theorem progress_choHandler {i : ℕ} {now : ℚ} {handler : ChoHandler} {sourceCell targetCell : String}
    {ue : UeInfo} (guard : ue.choProcState.phase = handler.guard) :
    Progress env (.cho handler i sourceCell targetCell) now ue
      (choHandler P env handler i sourceCell targetCell now ue).1
      ((phases (choHandler P env handler i sourceCell targetCell now ue).2).map Prod.fst) := by
  cases handler with
  | phase1ReportArrived =>
      exact progress_choAdvance .phase1ReportArrived .phase2SendXnRequest guard rfl (by decide) .decision
  | phase2SendXnRequest =>
      exact progress_choAdvance .phase2SendXnRequest .phase3XnResponse guard rfl (by decide)
        (.xnRequest ..)
  | phase3XnResponse =>
      exact progress_choAdvance .phase3XnResponse .phase4SendRrcReconfig guard rfl (by decide)
        (.xnResponse ..)
  | phase4SendRrcReconfig =>
      have here : ue.choProcState.phase = .xnResponse := guard
      unfold choHandler choPhase4SendRrcReconfig
      dsimp only
      rw [if_neg (not_not.mpr here)]
      exact @Progress.advances env _ now ue _ .phase4SendRrcReconfig .phase5UeStoresConfig _ _ _ _ rfl guard
        rfl (by decide) (UeInfo.count_choProcState ..) .reconfig
  | phase5UeStoresConfig =>
      have here : ue.choProcState.phase = .rrcReconfigDownlink := guard
      unfold choHandler choPhase5UeStoresConfig
      dsimp only
      rw [if_neg (not_not.mpr here)]
      exact .stores rfl here (UeInfo.count_choProcState ..)
  | phase7ExecutionComplete =>
      have none : (phases (choPhase7ExecutionComplete P env i sourceCell targetCell now ue).2).map
          Prod.fst = [] := by
        unfold choPhase7ExecutionComplete
        rw [if_neg (not_not.mpr (show ue.choProcState.phase = .ueExecuting from guard))]
        dsimp only
        split
        · unfold hoResult
          split <;> rfl
        · rfl
      have idle := choHandler_phase P env i sourceCell targetCell now guard
      unfold choHandler at idle ⊢
      dsimp only at idle ⊢
      rw [none]
      exact .completes rfl guard idle

/-! ## One event of a run -/

/-- The event is a phase of UE `i`. -/
def Event.isPhase (i : ℕ) (event : Event) : Prop := (event.phaseOf i).isSome = true

section Step

variable {i : ℕ} {rows : List UeRow} {h : List (Firing ℤ (Option UeInfo) Event)}
  {c c' : Conf ℤ (Option UeInfo) Event} {p q : Pending ℤ Event} {ue : UeInfo}

/-- The delays of the phases that an event schedules. -/
abbrev scheduledDelays (P : Program) (env : Env) (i : ℕ) (p : Pending ℤ Event) (ue : UeInfo) : List ℚ :=
  (phases (ueAction P env i p.ev p.ts ue).2).map Prod.fst

theorem progress_of_step (prior : Run (ueHandler P env i) fifo (ueInitial env rows i) h c)
    (step : Step (ueHandler P env i) fifo c p c') (present : c.state = some ue) :
    Progress env p.ev (getSeconds p.ts) ue (ueAction P env i p.ev p.ts ue).1
      (scheduledDelays P env i p ue) := by
  have concerns := (ueQueue_of_run prior p step.mem_queue).1
  rcases p with ⟨ts, _ | ⟨handler, ueId, sourceCell, targetCell⟩ | _⟩
  · exact progress_ueTick i (getSeconds ts) ue
  · obtain ⟨rfl, guard, source, target⟩ := guard_of_step prior step present
    exact progress_choHandler guard
  · cases concerns

/-- A phase event that is pending after an event has been scheduled by it, or was pending at a tick. -/
theorem pending_after (prior : Run (ueHandler P env i) fifo (ueInitial env rows i) h c)
    (step : Step (ueHandler P env i) fifo c p c') (present : c.state = some ue)
    (pending : q ∈ c'.queue) (phase : q.ev.isPhase i) :
    (q ∈ c.queue ∧ p.ev = .checkHandoverConditions ∧ ue.choProcState.phase ≠ .idle ∧
        ue.choProcState.phase ≠ .ueEvaluating) ∨
      ∃ delay ∈ scheduledDelays P env i p ue, q.ts = p.ts + seconds delay := by
  have pipeline := pipeline_of_run prior present
  have concerns := (ueQueue_of_run prior p step.mem_queue).1
  obtain ⟨pre, post, queue, -, state, queue'⟩ := ueStep step present
  have seen : ∀ {l : Schedule}, q ∈ l → pendingPhases i l ≠ [] := by
    intro l member none
    have all := List.filterMap_eq_nil_iff.mp none q member
    rw [Event.isPhase, all] at phase
    cases phase
  rw [queue'] at pending
  rcases List.mem_append.mp pending with old | new
  · refine .inl ?_
    have before : q ∈ c.queue := by
      rw [queue]
      exact ((List.Sublist.refl pre).append (List.sublist_cons_self p post)).subset old
    rcases p with ⟨ts, _ | ⟨handler, ueId, sourceCell, targetCell⟩ | _⟩
    · refine ⟨before, rfl, fun idle => seen before ?_, fun evaluating => seen before ?_⟩
      · rw [pipeline.pending]
        exact UeChoProcedureState.expects_idle idle
      · rw [pipeline.pending]
        exact UeChoProcedureState.expects_evaluating evaluating
    · obtain rfl : ueId = i := by simpa [Event.concerns] using concerns
      obtain ⟨-, -, -, none⟩ := pipeline.guard_of_fire queue
      exact absurd none (seen old)
    · cases concerns
  · rcases List.mem_append.mp new with scheduled | next
    · obtain ⟨entry, member, rfl⟩ := List.mem_map.mp scheduled
      exact .inr ⟨entry.1, List.mem_map_of_mem member, rfl⟩
    · rw [Event.isPhase, nextTick_ev next] at phase
      cases phase

/-- `Seconds` rounds to nanoseconds. -/
theorem getSeconds_add_seconds (now : ℤ) (delay : ℚ) :
    getSeconds now + delay - 0.000000001 ≤ getSeconds (now + seconds delay) ∧
      getSeconds (now + seconds delay) ≤ getSeconds now + delay + 0.000000001 := by
  have below := Int.floor_le (delay * 1000000000 + 1 / 2)
  have above := Int.lt_floor_add_one (delay * 1000000000 + 1 / 2)
  unfold getSeconds seconds
  push_cast
  constructor <;> linarith

/-- The time of a tick that fires is the number of the ticks before it. -/
theorem getSeconds_of_tick (prior : Run (ueHandler P env i) fifo (ueInitial env rows i) h c)
    (step : Step (ueHandler P env i) fifo c p c') (tick : p.ev = .checkHandoverConditions) :
    getSeconds p.ts = (ticks h).length := by
  rw [eq_tickNumber prior step.mem_queue tick, getSeconds_tickNumber]

end Step

/-! ## The least time between two handovers -/

/-- From one completion to the next: a tick that starts the procedure, a later one that starts the timer
of the execution condition, the time to trigger, and the random access. -/
def minHandoverTime (env : Env) : ℚ := 1 + max 1 env.ho.choNtnConfig.executionTimeToTrigger + 0.02

/-- How far a procedure has come. -/
structure Paced (env : Env) (i : ℕ) (h : List (Firing ℤ (Option UeInfo) Event))
    (c : Conf ℤ (Option UeInfo) Event) (ue : UeInfo) : Prop where
  started : ue.choProcState.phase ≠ .idle →
    ∃ n : ℕ, ue.choProcState.procedureStartTime = n ∧ n < (ticks h).length
  ended : ue.choProcState.phase ≠ .idle →
    ∀ f ∈ h, f.event.ev.isCompletion = true → fireTime f ≤ ue.choProcState.procedureStartTime
  timed : ue.choProcState.phase = .ueEvaluating →
    ue.choProcState.executionTimeToTrigger = env.ho.choNtnConfig.executionTimeToTrigger ∧
      (ue.choProcState.executionTttActive = true →
        ue.choProcState.procedureStartTime + 1 ≤ ue.choProcState.executionTttStartTime ∧
          ∃ m : ℕ, ue.choProcState.executionTttStartTime = m ∧ m < (ticks h).length)
  executing : ue.choProcState.phase = .ueExecuting → ∀ q ∈ c.queue, q.ev.isPhase i →
    ue.choProcState.procedureStartTime + minHandoverTime env ≤ getSeconds q.ts

section Paced

variable {i : ℕ} {rows : List UeRow} {h : List (Firing ℤ (Option UeInfo) Event)}
  {c c' : Conf ℤ (Option UeInfo) Event} {p : Pending ℤ Event} {ue : UeInfo}

/-- A procedure that goes on keeps its start. -/
theorem Paced.of_busy (paced : Paced env i h c ue) {f : Firing ℤ (Option UeInfo) Event} {ue' : UeInfo}
    (busy : ue.choProcState.phase ≠ .idle) (other : f.event.ev.isCompletion = false)
    (start : ue'.choProcState.procedureStartTime = ue.choProcState.procedureStartTime)
    (timed : ue'.choProcState.phase = .ueEvaluating →
      ue'.choProcState.executionTimeToTrigger = env.ho.choNtnConfig.executionTimeToTrigger ∧
        (ue'.choProcState.executionTttActive = true →
          ue'.choProcState.procedureStartTime + 1 ≤ ue'.choProcState.executionTttStartTime ∧
            ∃ m : ℕ, ue'.choProcState.executionTttStartTime = m ∧ m < (ticks (h ++ [f])).length))
    (executing : ue'.choProcState.phase = .ueExecuting → ∀ q ∈ c'.queue, q.ev.isPhase i →
      ue'.choProcState.procedureStartTime + minHandoverTime env ≤ getSeconds q.ts) :
    Paced env i (h ++ [f]) c' ue' := by
  obtain ⟨n, started, less⟩ := paced.started busy
  refine ⟨fun _ => ⟨n, start.trans started, ?_⟩, fun _ g member completes => ?_, timed, executing⟩
  · rw [ticks_append, List.length_append]
    omega
  · rw [start]
    rcases List.mem_append.mp member with old | new
    · exact paced.ended busy g old completes
    · obtain rfl := List.mem_singleton.mp new
      rw [other] at completes
      cases completes

theorem paced_of_idle {h : List (Firing ℤ (Option UeInfo) Event)} (idle : ue.choProcState.phase = .idle) :
    Paced env i h c ue where
  started busy := absurd idle busy
  ended busy := absurd idle busy
  timed evaluating := by
    rw [idle] at evaluating
    cases evaluating
  executing executing := by
    rw [idle] at executing
    cases executing

theorem totalExecutionTime_ge {ue : UeInfo} (inv : LinkInvariant P env ue)
    (sourceCell targetCell : String) : 0.035 ≤ totalExecutionTime ue sourceCell targetCell := by
  have source := inv.getUuDelayForUe_nonneg sourceCell
  have target := inv.getUuDelayForUe_nonneg targetCell
  unfold totalExecutionTime delayRrcProc delayBeamSwitch
  dsimp only
  linarith

/-- **The step lemma.** -/
theorem Paced.step (lawful : P.Lawful) (paced : Paced env i h c ue)
    (prior : Run (ueHandler P env i) fifo (ueInitial env rows i) h c)
    (step : Step (ueHandler P env i) fifo c p c') (present : c.state = some ue) :
    Paced env i (h ++ [⟨c, p, c'⟩]) c' (ueAction P env i p.ev p.ts ue).1 := by
  have progress := progress_of_step prior step present
  have after : ∀ q ∈ c'.queue, q.ev.isPhase i →
      (q ∈ c.queue ∧ p.ev = .checkHandoverConditions ∧ ue.choProcState.phase ≠ .idle ∧
          ue.choProcState.phase ≠ .ueEvaluating) ∨
        ∃ delay ∈ scheduledDelays P env i p ue, q.ts = p.ts + seconds delay :=
    fun q pending phase => pending_after prior step present pending phase
  have onTime : OnTime P env ue :=
    (Run.state_of_forward (ueHandler_forward lawful i) (onTime_ueInitial rows i) prior) ue present
  have link := (@OnTime.ueAction P env lawful i p.ev p.ts ue onTime).link
  have counted : p.ev = .checkHandoverConditions →
      (ticks (h ++ [⟨c, p, c'⟩])).length = (ticks h).length + 1 := by
    intro tick
    rw [@ticks_snoc ⟨c, p, c'⟩ tick h, List.length_append, List.length_singleton]
  have silent : p.ev = .checkHandoverConditions → p.ev.isCompletion = false := by
    intro tick
    rw [tick]
    rfl
  have now : p.ev = .checkHandoverConditions → getSeconds p.ts = (ticks h).length :=
    fun tick => getSeconds_of_tick prior step tick
  have times : ∀ f ∈ h, fireTime f ≤ getSeconds p.ts := fun f member =>
    ueRun_times_le lawful prior step member
  generalize (ueAction P env i p.ev p.ts ue).1 = ue' at progress link ⊢
  generalize scheduledDelays P env i p ue = delays at progress after
  have evaluates : ue.choProcState.phase = .ueEvaluating → ue.choProcState.phase ≠ .idle := by
    intro evaluating
    rw [evaluating]
    exact ChoPhase.noConfusion
  cases progress with
  | stays tick other same =>
      by_cases idle : ue.choProcState.phase = .idle
      · exact paced_of_idle (by rw [same, idle])
      refine paced.of_busy idle (silent tick) (by rw [same]) (fun evaluating => ?_)
        fun executing q pending phase => ?_
      · rw [same] at evaluating
        exact absurd evaluating other
      · rw [same] at executing ⊢
        rcases after q pending phase with ⟨before, -⟩ | ⟨delay, member, -⟩
        · exact paced.executing executing q before phase
        · cases member
  | starts tick idle phase start delay =>
      refine ⟨fun _ => ⟨(ticks h).length, start.trans (now tick), by rw [counted tick]; omega⟩,
        fun _ f member completes => ?_, fun evaluating => ?_, fun executing => ?_⟩
      · rw [start]
        rcases List.mem_append.mp member with old | new
        · exact times f old
        · rw [List.mem_singleton.mp new]
          exact le_rfl
      · rw [phase] at evaluating
        cases evaluating
      · rw [phase] at executing
        cases executing
  | @advances handler next delay ueId sourceCell targetCell phase guard follows preparing state hop =>
      have busy : ue.choProcState.phase ≠ .idle := by
        rw [guard]
        cases handler <;> exact ChoPhase.noConfusion
      have other : p.ev.isCompletion = false := by
        rw [phase]
        cases handler with
        | phase7ExecutionComplete => cases next <;> cases follows
        | _ => rfl
      refine paced.of_busy busy other (by rw [state]) (fun evaluating => ?_) fun executing => ?_
      · rw [state] at evaluating
        cases next <;> cases evaluating
      · rw [state] at executing
        cases next with
        | phase7ExecutionComplete => exact absurd rfl preparing
        | _ => cases executing
  | stores phase guard state =>
      have busy : ue.choProcState.phase ≠ .idle := by
        rw [guard]
        exact ChoPhase.noConfusion
      refine paced.of_busy busy (by dsimp only; rw [phase]; rfl) (by rw [state])
        (fun _ => ⟨by rw [state], fun active => ?_⟩) fun executing => ?_
      · rw [state] at active
        cases active
      · rw [state] at executing
        cases executing
  | stopsTimer tick evaluating valid state =>
      refine paced.of_busy (evaluates evaluating) (silent tick) (by rw [state])
        (fun _ => ⟨?_, fun active => ?_⟩) fun executing => ?_
      · rw [state]
        exact (paced.timed evaluating).1
      · rw [state] at active
        cases active
      · rw [state] at executing
        exact absurd (evaluating.symm.trans executing) ChoPhase.noConfusion
  | startsTimer tick evaluating valid state =>
      obtain ⟨n, start, less⟩ := paced.started (evaluates evaluating)
      refine paced.of_busy (evaluates evaluating) (silent tick) (by rw [state])
        (fun _ => ⟨?_, fun _ => ?_⟩) fun executing => ?_
      · rw [state]
        exact (paced.timed evaluating).1
      · rw [state]
        refine ⟨?_, (ticks h).length, now tick, by rw [counted tick]; omega⟩
        dsimp only
        rw [start, now tick]
        exact_mod_cast less
      · rw [state] at executing
        exact absurd (evaluating.symm.trans executing) ChoPhase.noConfusion
  | waits tick evaluating valid same =>
      refine paced.of_busy (evaluates evaluating) (silent tick) (by rw [same]) (fun _ => ?_)
        fun executing => ?_
      · rw [same]
        obtain ⟨ttt, timer⟩ := paced.timed evaluating
        refine ⟨ttt, fun active => ?_⟩
        obtain ⟨started, m, time, less⟩ := timer active
        refine ⟨started, m, time, ?_⟩
        rw [counted tick]
        omega
      · rw [same] at executing
        exact absurd (evaluating.symm.trans executing) ChoPhase.noConfusion
  | expires tick evaluating late phase => exact paced_of_idle phase
  | executes tick evaluating valid active elapsed phase start executionStart =>
      refine paced.of_busy (evaluates evaluating) (silent tick) start (fun other => ?_)
        fun _ q pending isPhase => ?_
      · rw [phase] at other
        cases other
      · -- the timer was started at an earlier tick, and the time to trigger is over
        obtain ⟨ttt, timer⟩ := paced.timed evaluating
        obtain ⟨started, m, time, less⟩ := timer active
        have later : (m : ℚ) + 1 ≤ getSeconds p.ts := by
          rw [now tick]
          exact_mod_cast less
        rcases after q pending isPhase with ⟨-, -, -, other⟩ | ⟨delay, member, ts⟩
        · exact absurd evaluating other
        · rw [List.mem_singleton.mp member] at ts
          have long := totalExecutionTime_ge link ue'.choProcState.sourceCell ue'.choProcState.targetCell
          have rounded := (getSeconds_add_seconds p.ts (totalExecutionTime ue'
            ue'.choProcState.sourceCell ue'.choProcState.targetCell)).1
          rw [ts, start]
          rw [ttt] at elapsed
          unfold minHandoverTime
          rcases max_cases (1 : ℚ) env.ho.choNtnConfig.executionTimeToTrigger with
            ⟨max_eq, -⟩ | ⟨max_eq, -⟩
          · rw [max_eq]
            linarith
          · rw [max_eq]
            linarith
  | completes phase guard idle => exact paced_of_idle idle

theorem paced_of_run (lawful : P.Lawful)
    (run : Run (ueHandler P env i) fifo (ueInitial env rows i) h c) (present : c.state = some ue) :
    Paced env i h c ue :=
  ueRun_history (I := fun h c ue => Paced env i h c ue) run (fun _ => paced_of_idle rfl)
    (fun prior step present _ paced => paced.step lawful prior step present) present

/-- The event that completes a handover finds its UE there, and executing. -/
theorem completion_of_step (prior : Run (ueHandler P env i) fifo (ueInitial env rows i) h c)
    (step : Step (ueHandler P env i) fifo c p c') (completes : p.ev.isCompletion = true) :
    ∃ ue, c.state = some ue ∧ ue.choProcState.phase = .ueExecuting ∧ p.ev.isPhase i := by
  have queue := ueQueue_of_run prior p step.mem_queue
  rcases p with ⟨ts, _ | ⟨handler, ueId, sourceCell, targetCell⟩ | _⟩
  · cases completes
  · cases handler with
    | phase7ExecutionComplete =>
        cases state : c.state with
        | none => exact absurd (queue.2 state) Event.noConfusion
        | some ue =>
            obtain ⟨rfl, guard, -⟩ := guard_of_step prior step state
            exact ⟨ue, rfl, guard, by simp [Event.isPhase, Event.phaseOf]⟩
    | _ => cases completes
  · cases completes

end Paced

/-- **Two handovers of a UE are far apart**, and the first one is as far from the start. -/
theorem handover_spacing (lawful : P.Lawful) {rows : List UeRow} {h : List (Firing ℤ Sim Event)}
    {c : Conf ℤ Sim Event} (run : SimRun P env rows h c) {i : ℕ}
    {h₁ h₂ : List (Firing ℤ (Option UeInfo) Event)} {f : Firing ℤ (Option UeInfo) Event}
    (split : ueHistory P env i h = h₁ ++ f :: h₂) (completes : f.event.ev.isCompletion = true) :
    minHandoverTime env ≤ fireTime f ∧
      ∀ g ∈ h₁, g.event.ev.isCompletion = true → fireTime g + minHandoverTime env ≤ fireTime f := by
  have ueRun := run.toUe i
  rw [show (ueComponent P env i).history h = h₁ ++ f :: h₂ from split] at ueRun
  obtain ⟨prior, step⟩ := ueRun.split
  obtain ⟨ue, present, executing, phase⟩ := completion_of_step prior step completes
  have paced := paced_of_run lawful prior present
  have busy : ue.choProcState.phase ≠ .idle := by
    rw [executing]
    exact ChoPhase.noConfusion
  have long := paced.executing executing f.event step.mem_queue phase
  refine ⟨?_, fun g member earlier => ?_⟩
  · obtain ⟨n, start, -⟩ := paced.started busy
    have nonneg : (0 : ℚ) ≤ n := Nat.cast_nonneg n
    unfold fireTime
    linarith
  · have ended := paced.ended busy g member earlier
    unfold fireTime at ended ⊢
    linarith

/-- Satellites that change places and back again: a UE below them is handed over twice. -/
def returning : Env where
  link := sampleLink
    [overhead "S" [(0, 500000), (1, 1000000), (5, 1000000), (6, 500000), (60, 500000)],
      overhead "N" [(0, 1000000), (1, 500000), (5, 500000), (6, 1000000), (60, 1000000)]]
  ho := {}

theorem handover_spacing_returning :
    ∃ h₁ f h₂, ueHistory tdCho returning 0 (sampleRun tdCho returning sampleRows 24).1 = h₁ ++ f :: h₂ ∧
      f.event.ev.isCompletion = true ∧ (∃ g ∈ h₁, g.event.ev.isCompletion = true) ∧
      minHandoverTime returning ≤ fireTime f ∧
      ∀ g ∈ h₁, g.event.ev.isCompletion = true →
        fireTime g + minHandoverTime returning ≤ fireTime f := by
  have last : ((ueHistory tdCho returning 0 (sampleRun tdCho returning sampleRows 24).1).getLast?.map
      fun f => f.event.ev.isCompletion) = some true := by decide +kernel
  have before : ((ueHistory tdCho returning 0 (sampleRun tdCho returning sampleRows 24).1).dropLast.any
      fun g => g.event.ev.isCompletion) = true := by decide +kernel
  obtain ⟨f, isLast, completes⟩ := Option.map_eq_some_iff.mp last
  have split : ueHistory tdCho returning 0 (sampleRun tdCho returning sampleRows 24).1 =
      (ueHistory tdCho returning 0 (sampleRun tdCho returning sampleRows 24).1).dropLast ++ [f] :=
    (List.dropLast_append_getLast? f isLast).symm
  exact ⟨_, f, [], split, completes, List.any_eq_true.mp before,
    handover_spacing TdCho.lawful (simRun_sampleRun tdCho returning sampleRows 24) split completes⟩

/-! ## The greatest age of a procedure -/

/-- The delays between a UE, the cells of its procedure and their satellites are at most `D`. -/
structure DelaysWithin (env : Env) (i : ℕ) (D : ℚ) (h : List (Firing ℤ (Option UeInfo) Event)) : Prop where
  nonneg : 0 ≤ D
  uu : ∀ f ∈ h, ∀ ue ∈ f.after.state, getUuDelayForUe ue ue.choProcState.sourceCell ≤ D ∧
    getUuDelayForUe ue ue.choProcState.targetCell ≤ D
  isl : ∀ f ∈ h, ∀ phase ∈ f.event.ev.phaseOf i,
    getIslDelay env.link phase.2.1 phase.2.2 (fireTime f) ≤ D ∧
      getIslDelay env.link phase.2.2 phase.2.1 (fireTime f) ≤ D

/-- The preparation takes five messages. -/
def preparationTime (D : ℚ) : ℚ := 5 * (D + 0.011)

/-- From the start of a procedure to the expiry of its configuration. -/
def expiryTime (env : Env) (D : ℚ) : ℚ :=
  preparationTime D + max 0 env.ho.choNtnConfig.configValidityPeriod

/-- The execution takes five ways over the air interface. -/
def executionTime (D : ℚ) : ℚ := 5 * D + 0.036

/-- How late a procedure can be. -/
structure Prompt (env : Env) (D : ℚ) (i : ℕ) (h : List (Firing ℤ (Option UeInfo) Event))
    (c : Conf ℤ (Option UeInfo) Event) (ue : UeInfo) : Prop where
  preparing : ∀ {handler : ChoHandler}, ue.choProcState.phase = handler.guard →
    handler ≠ .phase7ExecutionComplete →
      ue.choProcState.reconfigDownlinkDelay ≤ D + 0.01 ∧
        ∀ q ∈ c.queue, q.ev.isPhase i → getSeconds q.ts ≤
          ue.choProcState.procedureStartTime + (6 - (handler.weight : ℚ)) * (D + 0.011)
  evaluating : ue.choProcState.phase = .ueEvaluating →
    ue.choProcState.configExpiryTime ≤ ue.choProcState.procedureStartTime + expiryTime env D ∧
      ∀ g ∈ ticks h, fireTime g ≤ ue.choProcState.procedureStartTime + expiryTime env D
  executing : ue.choProcState.phase = .ueExecuting → ∀ q ∈ c.queue, q.ev.isPhase i →
    getSeconds q.ts ≤ ue.choProcState.procedureStartTime + (expiryTime env D + executionTime D)

section Prompt

variable {i : ℕ} {rows : List UeRow} {h : List (Firing ℤ (Option UeInfo) Event)}
  {c c' : Conf ℤ (Option UeInfo) Event} {p : Pending ℤ Event} {ue : UeInfo} {D : ℚ}

theorem prompt_of_idle (idle : ue.choProcState.phase = .idle) : Prompt env D i h c ue where
  preparing {handler} guard := by
    rw [idle] at guard
    cases handler <;> cases guard
  evaluating evaluating := by
    rw [idle] at evaluating
    cases evaluating
  executing executing := by
    rw [idle] at executing
    cases executing

/-- A procedure that evaluates its condition, after a tick. -/
theorem prompt_of_evaluating (evaluating : ue.choProcState.phase = .ueEvaluating)
    (expiry : ue.choProcState.configExpiryTime ≤ ue.choProcState.procedureStartTime + expiryTime env D)
    (ticked : ∀ g ∈ ticks h, fireTime g ≤ ue.choProcState.procedureStartTime + expiryTime env D) :
    Prompt env D i h c ue where
  preparing {handler} guard := by
    rw [evaluating] at guard
    cases handler <;> cases guard
  evaluating _ := ⟨expiry, ticked⟩
  executing executing := by
    rw [evaluating] at executing
    cases executing

theorem prompt_of_executing (executing : ue.choProcState.phase = .ueExecuting)
    (pending : ∀ q ∈ c.queue, q.ev.isPhase i → getSeconds q.ts ≤
      ue.choProcState.procedureStartTime + (expiryTime env D + executionTime D)) :
    Prompt env D i h c ue where
  preparing {handler} guard other := by
    rw [executing] at guard
    cases handler with
    | phase7ExecutionComplete => exact absurd rfl other
    | _ => cases guard
  evaluating evaluating := by
    rw [executing] at evaluating
    cases evaluating
  executing _ := pending

/-- A procedure that waits for the message of `handler`. -/
theorem prompt_of_preparing {handler : ChoHandler} (guard : ue.choProcState.phase = handler.guard)
    (other : handler ≠ .phase7ExecutionComplete)
    (delay : ue.choProcState.reconfigDownlinkDelay ≤ D + 0.01)
    (pending : ∀ q ∈ c.queue, q.ev.isPhase i → getSeconds q.ts ≤
      ue.choProcState.procedureStartTime + (6 - (handler.weight : ℚ)) * (D + 0.011)) :
    Prompt env D i h c ue where
  preparing {handler'} guard' _ := by
    have same : handler' = handler := by
      rw [guard] at guard'
      cases handler <;> cases handler' <;> first | rfl | cases guard'
    rw [same]
    exact ⟨delay, pending⟩
  evaluating evaluating := by
    rw [guard] at evaluating
    cases handler <;> cases evaluating
  executing executing := by
    rw [guard] at executing
    cases handler with
    | phase7ExecutionComplete => exact absurd rfl other
    | _ => cases executing

theorem Hop.le {now D delay : ℚ} {sourceCell targetCell : String} {ue : UeInfo} (nonneg : 0 ≤ D)
    (hop : Hop env ue sourceCell targetCell now delay)
    (reconfig : ue.choProcState.reconfigDownlinkDelay ≤ D + 0.01)
    (isl : getIslDelay env.link sourceCell targetCell now ≤ D ∧
      getIslDelay env.link targetCell sourceCell now ≤ D) : delay ≤ D + 0.01 := by
  cases hop with
  | decision => linarith
  | xnRequest =>
      have way := isl.1
      linarith
  | xnResponse =>
      have way := isl.2
      linarith
  | reconfig => exact reconfig

theorem totalExecutionTime_le {D : ℚ} {ue : UeInfo} {sourceCell targetCell : String}
    (source : getUuDelayForUe ue sourceCell ≤ D) (target : getUuDelayForUe ue targetCell ≤ D) :
    totalExecutionTime ue sourceCell targetCell + 0.000000001 ≤ executionTime D := by
  unfold totalExecutionTime executionTime delayRrcProc delayBeamSwitch
  dsimp only
  linarith

theorem phaseOf_of_concerns {event : Event} {handler : ChoHandler} {ueId : ℕ}
    {sourceCell targetCell : String} (phase : event = .cho handler ueId sourceCell targetCell)
    (concerns : event.concerns i = true) : event.phaseOf i = some (handler, sourceCell, targetCell) := by
  subst phase
  obtain rfl : ueId = i := by simpa [Event.concerns] using concerns
  exact if_pos rfl

theorem isPhase_of_phaseOf {event : Event} {phase : ChoHandler × String × String}
    (some_phase : event.phaseOf i = some phase) : event.isPhase i := by
  rw [Event.isPhase, some_phase]
  rfl

/-- A tick at which a valid configuration is evaluated. -/
theorem Prompt.evaluated {ue' : UeInfo} (prompt : Prompt env D i h c ue)
    (tick : p.ev = .checkHandoverConditions) (evaluating : ue.choProcState.phase = .ueEvaluating)
    (valid : getSeconds p.ts ≤ ue.choProcState.configExpiryTime)
    (phase : ue'.choProcState.phase = ue.choProcState.phase)
    (start : ue'.choProcState.procedureStartTime = ue.choProcState.procedureStartTime)
    (expires : ue'.choProcState.configExpiryTime = ue.choProcState.configExpiryTime) :
    Prompt env D i (h ++ [⟨c, p, c'⟩]) c' ue' := by
  obtain ⟨expiry, ticked⟩ := prompt.evaluating evaluating
  refine prompt_of_evaluating (phase.trans evaluating) ?_ ?_
  · rw [expires, start]
    exact expiry
  · rw [@ticks_snoc ⟨c, p, c'⟩ tick h, start]
    intro g member
    rcases List.mem_append.mp member with old | new
    · exact ticked g old
    · rw [List.mem_singleton.mp new]
      exact le_trans valid expiry

/-- **The step lemma.** -/
theorem Prompt.step (lawful : P.Lawful) (prompt : Prompt env D i h c ue)
    (prior : Run (ueHandler P env i) fifo (ueInitial env rows i) h c)
    (step : Step (ueHandler P env i) fifo c p c') (present : c.state = some ue)
    (delays : DelaysWithin env i D (h ++ [⟨c, p, c'⟩])) :
    Prompt env D i (h ++ [⟨c, p, c'⟩]) c' (ueAction P env i p.ev p.ts ue).1 := by
  have progress := progress_of_step prior step present
  have after : ∀ q ∈ c'.queue, q.ev.isPhase i →
      (q ∈ c.queue ∧ p.ev = .checkHandoverConditions ∧ ue.choProcState.phase ≠ .idle ∧
          ue.choProcState.phase ≠ .ueEvaluating) ∨
        ∃ delay ∈ scheduledDelays P env i p ue, q.ts = p.ts + seconds delay :=
    fun q pending phase => pending_after prior step present pending phase
  have concerns := (ueQueue_of_run prior p step.mem_queue).1
  have times : ∀ f ∈ h, fireTime f ≤ getSeconds p.ts := fun f member =>
    ueRun_times_le lawful prior step member
  have here : (⟨c, p, c'⟩ : Firing ℤ (Option UeInfo) Event) ∈ h ++ [⟨c, p, c'⟩] :=
    List.mem_append_right h (List.mem_singleton_self _)
  have uu := delays.uu _ here _ (ueState_of_step step present)
  have nonneg := delays.nonneg
  have validity := le_max_left 0 env.ho.choNtnConfig.configValidityPeriod
  have validity' := le_max_right 0 env.ho.choNtnConfig.configValidityPeriod
  generalize (ueAction P env i p.ev p.ts ue).1 = ue' at progress uu ⊢
  generalize scheduledDelays P env i p ue = scheduled at progress after
  cases progress with
  | stays tick other same =>
      have old : ∀ q ∈ c'.queue, q.ev.isPhase i → q ∈ c.queue := by
        intro q pending phase
        rcases after q pending phase with ⟨before, -⟩ | ⟨delay, member, -⟩
        · exact before
        · cases member
      refine ⟨fun guard preparing => ?_, fun evaluating => ?_, fun executing q pending phase => ?_⟩
      · rw [same] at guard ⊢
        obtain ⟨delay, bound⟩ := prompt.preparing guard preparing
        exact ⟨delay, fun q pending phase => bound q (old q pending phase) phase⟩
      · rw [same] at evaluating
        exact absurd evaluating other
      · rw [same] at executing ⊢
        exact prompt.executing executing q (old q pending phase) phase
  | starts tick idle phase start delay =>
      have bound : ue'.choProcState.reconfigDownlinkDelay ≤ D + 0.01 := by
        rw [delay, delayRrcProc]
        linarith [uu.1]
      refine @prompt_of_preparing env i _ c' ue' D .phase1ReportArrived phase ChoHandler.noConfusion bound ?_
      intro q pending isPhase
      rcases after q pending isPhase with ⟨-, -, other, -⟩ | ⟨delay', member, ts⟩
      · exact absurd idle other
      · have rounded := (getSeconds_add_seconds p.ts delay').2
        rw [ts, start]
        rw [List.mem_singleton.mp member] at rounded ⊢
        unfold ChoHandler.weight
        push_cast
        linarith
  | @advances handler next delay ueId sourceCell targetCell phase guard follows preparing state hop =>
      have other : handler ≠ .phase7ExecutionComplete := by
        rintro rfl
        cases next <;> cases follows
      obtain ⟨reconfig, bound⟩ := prompt.preparing guard other
      have some_phase := phaseOf_of_concerns phase concerns
      have fired := bound p step.mem_queue (isPhase_of_phaseOf some_phase)
      have short := hop.le nonneg reconfig (delays.isl _ here _ some_phase)
      have weight : (handler.weight : ℚ) = next.weight + 1 := by
        rw [follows]
        push_cast
        rfl
      refine @prompt_of_preparing env i _ c' ue' D next (by rw [state]) preparing
        (by rw [state]; exact reconfig) ?_
      intro q pending isPhase
      rcases after q pending isPhase with ⟨-, tick, -⟩ | ⟨delay', member, ts⟩
      · rw [phase] at tick
        cases tick
      · have rounded := (getSeconds_add_seconds p.ts delay').2
        rw [ts, state]
        rw [List.mem_singleton.mp member] at rounded ⊢
        rw [weight] at fired
        dsimp only
        linarith
  | stores phase guard state =>
      have waiting : ue.choProcState.phase = ChoHandler.phase5UeStoresConfig.guard := guard
      obtain ⟨-, bound⟩ := prompt.preparing waiting ChoHandler.noConfusion
      have fired := bound p step.mem_queue (isPhase_of_phaseOf (phaseOf_of_concerns phase concerns))
      have prepared : getSeconds p.ts ≤
          ue.choProcState.procedureStartTime + preparationTime D := by
        unfold ChoHandler.weight at fired
        unfold preparationTime
        push_cast at fired
        linarith
      have other : p.ev ≠ .checkHandoverConditions := by
        rw [phase]
        exact Event.noConfusion
      refine prompt_of_evaluating (by rw [state]) ?_ ?_
      · rw [state, expiryTime]
        dsimp only
        linarith
      · rw [@ticks_snoc_of_ne ⟨c, p, c'⟩ other h, state, expiryTime]
        intro g member
        have earlier := times g (List.mem_filter.mp member).1
        dsimp only
        linarith
  | stopsTimer tick evaluating valid state =>
      exact prompt.evaluated tick evaluating valid (by rw [state]) (by rw [state]) (by rw [state])
  | startsTimer tick evaluating valid state =>
      exact prompt.evaluated tick evaluating valid (by rw [state]) (by rw [state]) (by rw [state])
  | waits tick evaluating valid same =>
      exact prompt.evaluated tick evaluating valid (by rw [same]) (by rw [same]) (by rw [same])
  | expires tick evaluating late phase => exact prompt_of_idle phase
  | executes tick evaluating valid active elapsed phase start executionStart =>
      have expiry := (prompt.evaluating evaluating).1
      have short := totalExecutionTime_le uu.1 uu.2
      refine prompt_of_executing phase fun q pending isPhase => ?_
      rcases after q pending isPhase with ⟨-, -, -, other⟩ | ⟨delay, member, ts⟩
      · exact absurd evaluating other
      · have rounded := (getSeconds_add_seconds p.ts delay).2
        rw [ts, start]
        rw [List.mem_singleton.mp member] at rounded ⊢
        linarith
  | completes phase guard idle => exact prompt_of_idle idle

theorem DelaysWithin.of_append {h₁ h₂ : List (Firing ℤ (Option UeInfo) Event)}
    (delays : DelaysWithin env i D (h₁ ++ h₂)) : DelaysWithin env i D h₁ where
  nonneg := delays.nonneg
  uu f member := delays.uu f (List.mem_append_left h₂ member)
  isl f member := delays.isl f (List.mem_append_left h₂ member)

theorem prompt_of_run (lawful : P.Lawful)
    (run : Run (ueHandler P env i) fifo (ueInitial env rows i) h c) (delays : DelaysWithin env i D h)
    (present : c.state = some ue) : Prompt env D i h c ue :=
  ueRun_history (I := fun h c ue => DelaysWithin env i D h → Prompt env D i h c ue) run
    (fun _ _ => prompt_of_idle rfl)
    (fun prior step present _ prompt delays =>
      (prompt delays.of_append).step lawful prior step present delays) present delays

/-- A phase event is pending while a procedure neither rests nor evaluates. -/
theorem exists_isPhase {queue : Schedule} (pending : pendingPhases i queue ≠ []) :
    ∃ q ∈ queue, q.ev.isPhase i := by
  obtain ⟨phase, member⟩ := List.exists_mem_of_ne_nil _ pending
  obtain ⟨q, queued, some⟩ := List.mem_filterMap.mp member
  exact ⟨q, queued, isPhase_of_phaseOf some⟩

end Prompt

/-- **No procedure outlives its delays and the validity period**, whatever fires while it goes on. -/
theorem procedure_age_le (lawful : P.Lawful) {rows : List UeRow} {h : List (Firing ℤ Sim Event)}
    {c : Conf ℤ Sim Event} (run : SimRun P env rows h c) {i : ℕ} {D : ℚ}
    {h₁ h₂ : List (Firing ℤ (Option UeInfo) Event)} {f : Firing ℤ (Option UeInfo) Event}
    (split : ueHistory P env i h = h₁ ++ f :: h₂) (delays : DelaysWithin env i D h₁) {ue : UeInfo}
    (present : f.before.state = some ue) (busy : ue.choProcState.phase ≠ .idle) :
    fireTime f ≤ ue.choProcState.procedureStartTime +
      (expiryTime env D + max 1 (executionTime D)) := by
  have ueRun := run.toUe i
  rw [show (ueComponent P env i).history h = h₁ ++ f :: h₂ from split] at ueRun
  obtain ⟨prior, step⟩ := ueRun.split
  have prompt := prompt_of_run lawful prior delays present
  have tick := le_max_left 1 (executionTime D)
  have execution := le_max_right 1 (executionTime D)
  have sooner : ∀ q ∈ f.before.queue, fireTime f ≤ getSeconds q.ts := by
    intro q member
    have le : (f.event.ts : ℚ) ≤ q.ts := by exact_mod_cast step.le_of_mem member
    unfold fireTime getSeconds
    linarith
  rcases (pipeline_of_run prior present).cases with ⟨rests, -⟩ | ⟨handler, guard, pending⟩
  · have evaluating := rests.resolve_left busy
    obtain ⟨expiry, ticked⟩ := prompt.evaluating evaluating
    -- a procedure starts at a tick, so there is a last one
    obtain ⟨n, -, less⟩ := (paced_of_run lawful prior present).started busy
    have some_tick : ticks h₁ ≠ [] := List.ne_nil_of_length_pos (by omega)
    have last := List.getLast?_eq_some_getLast some_tick
    have next := le_lastTick_add_one prior step last
    have before := ticked _ (List.getLast_mem some_tick)
    unfold fireTime at next before ⊢
    linarith
  · obtain ⟨q, member, phase⟩ := @exists_isPhase i f.before.queue (by rw [pending]; exact List.cons_ne_nil _ _)
    have first := sooner q member
    by_cases last : handler = .phase7ExecutionComplete
    · subst last
      have bound := prompt.executing guard q member phase
      linarith
    · have bound := (prompt.preparing guard last).2 q member phase
      have weight : (1 : ℚ) ≤ handler.weight := by exact_mod_cast handler.one_le_weight
      have nonneg := delays.nonneg
      have shorter : (6 - (handler.weight : ℚ)) * (D + 0.011) ≤ preparationTime D := by
        unfold preparationTime
        exact mul_le_mul_of_nonneg_right (by linarith) (by linarith)
      have validity := le_max_left 0 env.ho.choNtnConfig.configValidityPeriod
      unfold expiryTime
      linarith

theorem procedure_age_le_crossing :
    ∃ h₁ f ue, ueHistory tdCho crossing 0 (sampleRun tdCho crossing sampleRows 11).1 = h₁ ++ [f] ∧
      f.before.state = some ue ∧ ue.choProcState.phase = .ueExecuting ∧
      fireTime f ≤ ue.choProcState.procedureStartTime +
        (expiryTime crossing 0.01 + max 1 (executionTime 0.01)) := by
  have seen : ((ueHistory tdCho crossing 0 (sampleRun tdCho crossing sampleRows 11).1).getLast?.bind
      fun f => f.before.state.map fun ue => ue.choProcState.phase) = some .ueExecuting := by
    decide +kernel
  have delays : DelaysWithin crossing 0 0.01
      (ueHistory tdCho crossing 0 (sampleRun tdCho crossing sampleRows 11).1).dropLast :=
    ⟨by norm_num, by decide +kernel, by decide +kernel⟩
  obtain ⟨f, isLast, seen⟩ := Option.bind_eq_some_iff.mp seen
  obtain ⟨ue, present, executing⟩ := Option.map_eq_some_iff.mp seen
  have split : ueHistory tdCho crossing 0 (sampleRun tdCho crossing sampleRows 11).1 =
      (ueHistory tdCho crossing 0 (sampleRun tdCho crossing sampleRows 11).1).dropLast ++ [f] :=
    (List.dropLast_append_getLast? f isLast).symm
  refine ⟨_, f, ue, split, present, executing,
    procedure_age_le TdCho.lawful (simRun_sampleRun tdCho crossing sampleRows 11) split delays present ?_⟩
  rw [executing]
  exact ChoPhase.noConfusion

end NtnCho
