import NtnCho.Isolation
import NtnCho.Pipeline

/-!
# Executing a stored configuration

A configuration is stored by `CHO_Phase5_UeStoresConfig` and executed by the tick at which its
condition has held for the time-to-trigger. `Evaluating` links the timer of the UE to its history:
while the timer runs, the condition has held at every tick since the timer was started, and the
timer was started after the configuration was stored. A tick at which the condition is not met stops
the timer; the branch of a missing cache entry, which leaves the timer alone, is not taken while it
runs, since entries are never removed.
-/

namespace NtnCho

open EventSystem

variable {P : Program} {env : Env}

/-! ## The condition of a tick -/

/-- The condition of a procedure from `sourceCell` to `targetCell` holds for the cached metrics. -/
def UeInfo.ConditionHolds (P : Program) (env : Env) (simTime : ℚ) (sourceCell targetCell : String)
    (ue : UeInfo) : Prop :=
  ∃ serving target, ue.cached sourceCell = some serving ∧ ue.cached targetCell = some target ∧
    P.executionCondition env simTime sourceCell targetCell serving target = true

/-- The condition holds at a tick, after its channel update. -/
def ConditionAt (P : Program) (env : Env) (sourceCell targetCell : String)
    (f : Firing ℤ (Option UeInfo) Event) : Prop :=
  ∃ ue, f.before.state = some ue ∧
    (ue.updated P env (fireTime f)).ConditionHolds P env (fireTime f) sourceCell targetCell

theorem conditionMet?_eq_some {simTime : ℚ} {ue : UeInfo} :
    conditionMet? P env simTime ue = some true ↔
      ue.ConditionHolds P env simTime ue.choProcState.sourceCell ue.choProcState.targetCell := by
  unfold conditionMet? UeInfo.ConditionHolds
  dsimp only
  constructor
  · intro met
    split at met
    · rename_i serving target source_cached target_cached
      exact ⟨serving, target, source_cached, target_cached, Option.some.inj met⟩
    · cases met
  · rintro ⟨serving, target, source_cached, target_cached, met⟩
    rw [source_cached, target_cached]
    exact congrArg some met

theorem conditionMet?_ne_none {simTime : ℚ} {ue : UeInfo}
    (source : ue.choProcState.sourceCell ∈ ue.phy.channel.channelCache)
    (target : ue.choProcState.targetCell ∈ ue.phy.channel.channelCache) :
    conditionMet? P env simTime ue ≠ none := by
  obtain ⟨serving, source_cached⟩ := Option.isSome_iff_exists.mp (UeInfo.cached_isSome.mpr source)
  obtain ⟨target, target_cached⟩ := Option.isSome_iff_exists.mp (UeInfo.cached_isSome.mpr target)
  unfold conditionMet?
  dsimp only
  rw [source_cached, target_cached]
  exact Option.some_ne_none _

theorem UeInfo.ConditionHolds.cached {simTime : ℚ} {ue : UeInfo} {sourceCell targetCell : String}
    (holds : ue.ConditionHolds P env simTime sourceCell targetCell) :
    sourceCell ∈ ue.phy.channel.channelCache ∧ targetCell ∈ ue.phy.channel.channelCache := by
  obtain ⟨serving, target, source_cached, target_cached, -⟩ := holds
  rw [← UeInfo.cached_isSome, ← UeInfo.cached_isSome, source_cached, target_cached]
  exact ⟨rfl, rfl⟩

/-- The branches of `CHO_CheckExecutionCondition` for a UE that evaluates a configuration. -/
inductive ConditionCheck (P : Program) (env : Env) (ueId : ℕ) (simTime : ℚ) (ue : UeInfo) :
    UeInfo × List Effect → Prop
  | expired (late : ue.choProcState.configExpiryTime < simTime) :
      ConditionCheck P env ueId simTime ue (choConfigExpired P ue)
  | missing (valid : simTime ≤ ue.choProcState.configExpiryTime)
      (uncached : conditionMet? P env simTime ue = none) :
      ConditionCheck P env ueId simTime ue (ue, [])
  | unmet (valid : simTime ≤ ue.choProcState.configExpiryTime)
      (unmet : conditionMet? P env simTime ue = some false) :
      ConditionCheck P env ueId simTime ue (ue.setExecutionTtt false (-1), [])
  | starts (valid : simTime ≤ ue.choProcState.configExpiryTime)
      (met : conditionMet? P env simTime ue = some true) :
      ConditionCheck P env ueId simTime ue (ue.setExecutionTtt true simTime, [])
  | executes (valid : simTime ≤ ue.choProcState.configExpiryTime)
      (met : conditionMet? P env simTime ue = some true)
      (active : ue.choProcState.executionTttActive = true)
      (elapsed : ue.choProcState.executionTimeToTrigger ≤
        simTime - ue.choProcState.executionTttStartTime) :
      ConditionCheck P env ueId simTime ue
        (choPhase6UeExecutes P env ueId ue.choProcState.sourceCell ue.choProcState.targetCell simTime
          (ue.setExecutionTtt false ue.choProcState.executionTttStartTime))
  | waits (valid : simTime ≤ ue.choProcState.configExpiryTime)
      (met : conditionMet? P env simTime ue = some true)
      (active : ue.choProcState.executionTttActive = true) :
      ConditionCheck P env ueId simTime ue (ue, [])

theorem choCheckExecutionCondition_check (P : Program) (env : Env) (ueId : ℕ) (simTime : ℚ)
    {ue : UeInfo}
    (evaluating : ue.choProcState.phase = .ueEvaluating) :
    ConditionCheck P env ueId simTime ue (choCheckExecutionCondition P env ueId simTime ue) := by
  unfold choCheckExecutionCondition
  dsimp only
  rw [if_neg (not_not.mpr evaluating)]
  split
  · rename_i late
    exact .expired late
  · rename_i valid
    replace valid := not_lt.mp valid
    split
    · rename_i uncached
      exact .missing valid uncached
    · rename_i unmet
      exact .unmet valid unmet
    · rename_i met
      cases active : ue.choProcState.executionTttActive with
      | false => exact .starts valid met
      | true =>
          rw [if_neg (by simp)]
          split
          · rename_i elapsed
            exact .executes valid met active elapsed
          · exact .waits valid met active

/-- A tick of a UE that evaluates a configuration checks its condition. -/
theorem ueTick_evaluating (P : Program) (env : Env) (ueId : ℕ) (simTime : ℚ) {ue : UeInfo}
    (evaluating : ue.choProcState.phase = .ueEvaluating) :
    ConditionCheck P env ueId simTime (ue.updated P env simTime) (ueTick P env ueId simTime ue) := by
  have same := (sameProcedure_updated P env simTime ue).choProcState
  have updated : (ue.updated P env simTime).choProcState.phase = .ueEvaluating := by
    rw [same]
    exact evaluating
  have check := choCheckExecutionCondition_check P env ueId simTime updated
  have result : ueTick P env ueId simTime ue =
      choCheckExecutionCondition P env ueId simTime (ue.updated P env simTime) := by
    change checkHandover P env ueId simTime (ue.updated P env simTime) = _
    unfold checkHandover
    rw [if_pos (by rw [updated]; decide), if_pos updated]
  rw [result]
  exact check

/-! ## The configuration and its timer -/

/-- The configuration of a procedure, as `CHO_Phase5_UeStoresConfig` stores it at `storeTime`. -/
def storedConfig (env : Env) (targetCell : String) (storeTime : ℚ) : ChoConfiguration where
  targetCellId := targetCell
  configurationTime := storeTime
  isValid := true
  expiryTime := storeTime + env.ho.choNtnConfig.configValidityPeriod

/-- A firing of `CHO_Phase5_UeStoresConfig` that stores a configuration of UE `i` for `targetCell`. -/
structure StoresConfig (env : Env) (i : ℕ) (sourceCell targetCell : String)
    (g : Firing ℤ (Option UeInfo) Event) : Prop where
  event : g.event.ev = .cho .phase5UeStoresConfig i sourceCell targetCell
  config : ∃ ue, g.after.state = some ue ∧
    ue.choConfigState.choConfigs[targetCell]? = some (storedConfig env targetCell (fireTime g))

/-- The configuration that a procedure evaluates was stored by a firing of the history. -/
structure Stored (env : Env) (i : ℕ) (h : List (Firing ℤ (Option UeInfo) Event))
    (s : UeChoProcedureState) : Prop where
  stored : ∃ g ∈ h, StoresConfig env i s.sourceCell s.targetCell g ∧
    fireTime g = s.configReceivedTime
  expiry : s.configExpiryTime = s.configReceivedTime + env.ho.choNtnConfig.configValidityPeriod
  timeToTrigger : s.executionTimeToTrigger = env.ho.choNtnConfig.executionTimeToTrigger

/-- A running timer was started after the configuration was stored, and the condition has held at
every tick since. -/
structure TimerRuns (P : Program) (env : Env) (h : List (Firing ℤ (Option UeInfo) Event))
    (ue : UeInfo) : Prop where
  afterStore : ue.choProcState.configReceivedTime ≤ ue.choProcState.executionTttStartTime
  source : ue.choProcState.sourceCell ∈ ue.phy.channel.channelCache
  target : ue.choProcState.targetCell ∈ ue.phy.channel.channelCache
  window : HeldSince fireTime
    (ConditionAt P env ue.choProcState.sourceCell ue.choProcState.targetCell) (ticks h)
    ue.choProcState.executionTttStartTime

/-- What holds of a UE that evaluates a configuration. -/
structure Evaluating (P : Program) (env : Env) (i : ℕ)
    (h : List (Firing ℤ (Option UeInfo) Event)) (ue : UeInfo) : Prop where
  stored : Stored env i h ue.choProcState
  timer : ue.choProcState.executionTttActive = true → TimerRuns P env h ue

theorem Stored.append {i : ℕ} {h : List (Firing ℤ (Option UeInfo) Event)}
    {s : UeChoProcedureState} (stored : Stored env i h s)
    (h' : List (Firing ℤ (Option UeInfo) Event)) : Stored env i (h ++ h') s := by
  obtain ⟨g, member, stores⟩ := stored.stored
  exact ⟨⟨g, List.mem_append_left _ member, stores⟩, stored.expiry, stored.timeToTrigger⟩

section Step

variable {i : ℕ} {rows : List UeRow} {h : List (Firing ℤ (Option UeInfo) Event)}
  {c c' : Conf ℤ (Option UeInfo) Event} {p : Pending ℤ Event} {ue : UeInfo}

/-- The condition that a tick finds met is the condition at this tick. -/
theorem conditionAt_of_met (present : c.state = some ue)
    (met : conditionMet? P env (getSeconds p.ts) (ue.updated P env (getSeconds p.ts)) = some true) :
    ConditionAt P env ue.choProcState.sourceCell ue.choProcState.targetCell ⟨c, p, c'⟩ := by
  have holds := conditionMet?_eq_some.mp met
  rw [(sameProcedure_updated P env (getSeconds p.ts) ue).choProcState] at holds
  exact ⟨ue, present, holds⟩

/-- A tick keeps what holds of a UE that evaluates a configuration. -/
theorem Evaluating.tick (lawful : P.Lawful)
    (prior : Run (ueHandler P env i) fifo (ueInitial env rows i) h c)
    (step : Step (ueHandler P env i) fifo c p c') (tick : p.ev = .checkHandoverConditions)
    (present : c.state = some ue) (before : ue.choProcState.phase = .ueEvaluating)
    (evaluating : Evaluating P env i h ue)
    (after : (ueTick P env i (getSeconds p.ts) ue).1.choProcState.phase = .ueEvaluating) :
    Evaluating P env i (h ++ [⟨c, p, c'⟩]) (ueTick P env i (getSeconds p.ts) ue).1 := by
  have check := ueTick_evaluating P env i (getSeconds p.ts) before
  have same := (sameProcedure_updated P env (getSeconds p.ts) ue).choProcState
  have reach := (linkStep_updated P env (getSeconds p.ts) ue).phy
  have stored := evaluating.stored.append [⟨c, p, c'⟩]
  have log := @ticks_snoc ⟨c, p, c'⟩ tick h
  generalize ueTick P env i (getSeconds p.ts) ue = result at check after ⊢
  cases check with
  | expired =>
      rw [choConfigExpired_phase] at after
      cases after
  | missing _ uncached =>
      rw [same.symm] at stored
      refine ⟨stored, fun active => ?_⟩
      rw [same] at active
      have timer := evaluating.timer active
      have cached : conditionMet? P env (getSeconds p.ts) (ue.updated P env (getSeconds p.ts)) ≠
          none := by
        apply conditionMet?_ne_none
        · rw [same]
          exact reach.cached timer.source
        · rw [same]
          exact reach.cached timer.target
      exact absurd uncached cached
  | unmet =>
      rw [same.symm] at stored
      exact ⟨⟨stored.stored, stored.expiry, stored.timeToTrigger⟩, fun active => by cases active⟩
  | starts _ met =>
      rw [same.symm] at stored
      have now : ConditionAt P env _ _ ⟨c, p, c'⟩ := conditionAt_of_met present met
      have cached := (conditionMet?_eq_some.mp met).cached
      refine ⟨⟨stored.stored, stored.expiry, stored.timeToTrigger⟩, fun _ => ⟨?_, cached.1, cached.2, ?_⟩⟩
      · obtain ⟨g, member, -, received⟩ := evaluating.stored.stored
        have le := ueRun_times_le lawful prior step member
        rw [show getSeconds g.event.ts = _ from received, ← same] at le
        exact le
      · rw [log]
        rw [← same] at now
        change HeldSince fireTime _ _ (fireTime ⟨c, p, c'⟩)
        refine HeldSince.begin (fun g member => ?_) now
        have later := tick_add_one_le prior step.mem_queue tick member
        unfold fireTime
        linarith
  | executes =>
      have evaluating' : ((ue.updated P env (getSeconds p.ts)).setExecutionTtt false
          (ue.updated P env (getSeconds p.ts)).choProcState.executionTttStartTime).choProcState.phase =
          .ueEvaluating := (congrArg UeChoProcedureState.phase same).trans before
      rw [choPhase6UeExecutes_phase evaluating'] at after
      cases after
  | waits _ met =>
      have now : ConditionAt P env _ _ ⟨c, p, c'⟩ := conditionAt_of_met present met
      rw [same.symm] at stored
      refine ⟨stored, fun active => ?_⟩
      rw [same] at active
      have timer := evaluating.timer active
      refine ⟨?_, ?_, ?_, ?_⟩
      · rw [same]
        exact timer.afterStore
      · rw [same]
        exact reach.cached timer.source
      · rw [same]
        exact reach.cached timer.target
      · rw [log, same]
        exact timer.window.extend now

/-- A stored configuration is the one the UE evaluates, with its timer stopped. -/
theorem evaluating_of_store {sourceCell targetCell : String}
    (event : p.ev = .cho .phase5UeStoresConfig i sourceCell targetCell)
    (guard : ue.choProcState.phase = .rrcReconfigDownlink)
    (source : ue.choProcState.sourceCell = sourceCell)
    (target : ue.choProcState.targetCell = targetCell)
    (after : c'.state = some (choPhase5UeStoresConfig P env i sourceCell targetCell
      (getSeconds p.ts) ue).1) :
    Evaluating P env i (h ++ [⟨c, p, c'⟩])
      (choPhase5UeStoresConfig P env i sourceCell targetCell (getSeconds p.ts) ue).1 := by
  have stores : StoresConfig env i sourceCell targetCell ⟨c, p, c'⟩ := by
    refine ⟨event, _, after, ?_⟩
    unfold choPhase5UeStoresConfig
    rw [if_neg (not_not.mpr guard)]
    unfold UeInfo.count
    split <;> exact Std.TreeMap.getElem?_insert_self
  unfold choPhase5UeStoresConfig
  rw [if_neg (not_not.mpr guard)]
  dsimp only
  refine ⟨?_, fun active => ?_⟩
  · rw [UeInfo.count_choProcState]
    refine ⟨⟨⟨c, p, c'⟩, by simp, ?_, rfl⟩, rfl, rfl⟩
    dsimp only
    rwa [source, target]
  · rw [UeInfo.count_choProcState] at active
    cases active

end Step

theorem evaluating_of_run (lawful : P.Lawful) {i : ℕ} {rows : List UeRow}
    {h : List (Firing ℤ (Option UeInfo) Event)} {c : Conf ℤ (Option UeInfo) Event} {ue : UeInfo}
    (run : Run (ueHandler P env i) fifo (ueInitial env rows i) h c) (present : c.state = some ue)
    (evaluating : ue.choProcState.phase = .ueEvaluating) : Evaluating P env i h ue := by
  refine ueRun_history
    (I := fun h _ ue => ue.choProcState.phase = .ueEvaluating → Evaluating P env i h ue) run
    (fun _ idle => by cases idle) ?_ present evaluating
  intro h c p c' ue prior step present concerns ih after
  have state := ueState_of_step step present
  rcases p with ⟨ts, _ | ⟨handler, ueId, sourceCell, targetCell⟩ | _⟩
  · by_cases before : ue.choProcState.phase = .ueEvaluating
    · exact (ih before).tick lawful prior step rfl present before after
    · rcases ueTick_phase P env i (getSeconds ts) before with
        same | ⟨-, reported⟩
      · exact absurd (same.symm.trans after) before
      · rw [ueAction_tick, reported] at after
        cases after
  · obtain ⟨rfl, guard, source, target⟩ := guard_of_step prior step present
    have entered := choHandler_phase P env ueId sourceCell targetCell (getSeconds ts) guard
    rw [ueAction_cho, entered] at after
    cases handler with
    | phase5UeStoresConfig => exact evaluating_of_store rfl guard source target state
    | phase1ReportArrived => cases after
    | phase2SendXnRequest => cases after
    | phase3XnResponse => cases after
    | phase4SendRrcReconfig => cases after
    | phase7ExecutionComplete => cases after
  · cases concerns

/-! ## Executions -/

/-- A firing that takes a UE into execution. -/
structure EntersExecution (f : Firing ℤ (Option UeInfo) Event) (ue ue' : UeInfo) : Prop where
  before : f.before.state = some ue
  after : f.after.state = some ue'
  other : ue.choProcState.phase ≠ .ueExecuting
  executing : ue'.choProcState.phase = .ueExecuting

/-- What an execution at `f` rests on: the configuration was stored at most its validity period
earlier, and the condition `met` has held for the time-to-trigger. -/
structure SoundExecution (env : Env) (i : ℕ) (h : List (Firing ℤ (Option UeInfo) Event))
    (f : Firing ℤ (Option UeInfo) Event) (sourceCell targetCell : String)
    (met : Firing ℤ (Option UeInfo) Event → Prop) : Prop where
  tick : f.event.ev = .checkHandoverConditions
  sound : ∃ stored ∈ h, ∃ start ∈ ticks h, StoresConfig env i sourceCell targetCell stored ∧
    fireTime stored ≤ fireTime f ∧
    fireTime f ≤ fireTime stored + env.ho.choNtnConfig.configValidityPeriod ∧
    fireTime stored ≤ fireTime start ∧
    fireTime start ≤ fireTime f - env.ho.choNtnConfig.executionTimeToTrigger ∧
    ∀ g ∈ ticks h, fireTime start ≤ fireTime g → fireTime g ≤ fireTime f → met g

theorem choPhase6UeExecutes_cells (P : Program) (env : Env) (ueId : ℕ)
    (sourceCell targetCell : String) (simTime : ℚ) (ue : UeInfo) :
    (choPhase6UeExecutes P env ueId sourceCell targetCell simTime ue).1.choProcState.sourceCell =
        ue.choProcState.sourceCell ∧
      (choPhase6UeExecutes P env ueId sourceCell targetCell simTime ue).1.choProcState.targetCell =
        ue.choProcState.targetCell := by
  have same := sameDecision_choPhase6UeExecutes P env ueId sourceCell targetCell simTime ue
  exact ⟨same.sourceCell, same.targetCell⟩

/-- A UE enters execution at a tick at which the condition is met and its timer has run long
enough. -/
theorem EntersExecution.spec {i : ℕ} {rows : List UeRow}
    {h : List (Firing ℤ (Option UeInfo) Event)} {f : Firing ℤ (Option UeInfo) Event}
    {ue ue' : UeInfo} (enters : EntersExecution f ue ue')
    (prior : Run (ueHandler P env i) fifo (ueInitial env rows i) h f.before)
    (step : Step (ueHandler P env i) fifo f.before f.event f.after) :
    f.event.ev = .checkHandoverConditions ∧ ue.choProcState.phase = .ueEvaluating ∧
      ue'.choProcState.sourceCell = ue.choProcState.sourceCell ∧
      ue'.choProcState.targetCell = ue.choProcState.targetCell ∧
      fireTime f ≤ ue.choProcState.configExpiryTime ∧
      ConditionAt P env ue.choProcState.sourceCell ue.choProcState.targetCell f ∧
      ue.choProcState.executionTttActive = true ∧
      ue.choProcState.executionTimeToTrigger ≤
        fireTime f - ue.choProcState.executionTttStartTime := by
  obtain ⟨present, after, other, executing⟩ := enters
  rcases f with ⟨c, ⟨ts, event⟩, c'⟩
  have state := ueState_of_step step present
  obtain rfl := Option.some.inj (after.symm.trans state)
  rcases event with _ | ⟨handler, ueId, sourceCell, targetCell⟩ | _
  · by_cases before : ue.choProcState.phase = .ueEvaluating
    case neg =>
      rcases ueTick_phase P env i (getSeconds ts) before with
        same | ⟨-, reported⟩
      · exact absurd (same.symm.trans executing) other
      · rw [ueAction_tick, reported] at executing
        cases executing
    case pos =>
      have check := ueTick_evaluating P env i (getSeconds ts)
        before
      have same := (sameProcedure_updated P env (getSeconds ts) ue).choProcState
      have stays : (ue.updated P env (getSeconds ts)).choProcState.phase ≠ .ueExecuting := by
        rw [same]
        exact other
      rw [ueAction_tick] at executing ⊢
      generalize ueTick P env i (getSeconds ts) ue = result at check executing ⊢
      cases check with
      | expired =>
          rw [choConfigExpired_phase] at executing
          cases executing
      | missing => exact absurd executing stays
      | unmet => exact absurd executing stays
      | starts => exact absurd executing stays
      | waits => exact absurd executing stays
      | executes valid met active elapsed =>
          let checked := ue.updated P env (getSeconds ts)
          obtain ⟨source, target⟩ := choPhase6UeExecutes_cells P env i
            checked.choProcState.sourceCell checked.choProcState.targetCell (getSeconds ts)
            (checked.setExecutionTtt false checked.choProcState.executionTttStartTime)
          rw [same] at valid active elapsed
          refine ⟨rfl, before, source.trans ?_, target.trans ?_, valid,
            conditionAt_of_met present met, active, elapsed⟩
          · rw [UeInfo.setExecutionTtt_sourceCell, same]
          · rw [UeInfo.setExecutionTtt_targetCell, same]
  · obtain ⟨rfl, guard, -⟩ := guard_of_step prior step present
    have entered := choHandler_phase P env ueId sourceCell targetCell (getSeconds ts) guard
    rw [ueAction_cho, entered] at executing
    cases handler <;> cases executing
  · cases (ueQueue_of_run prior _ step.mem_queue).1

theorem soundExecution_of_run (lawful : P.Lawful) {i : ℕ} {rows : List UeRow}
    {h : List (Firing ℤ (Option UeInfo) Event)} {c : Conf ℤ (Option UeInfo) Event}
    (run : Run (ueHandler P env i) fifo (ueInitial env rows i) h c)
    {f : Firing ℤ (Option UeInfo) Event} (member : f ∈ h) {ue ue' : UeInfo}
    (enters : EntersExecution f ue ue') :
    SoundExecution env i h f ue'.choProcState.sourceCell ue'.choProcState.targetCell
      (ConditionAt P env ue'.choProcState.sourceCell ue'.choProcState.targetCell) := by
  obtain ⟨h₁, h₂, rfl⟩ := List.append_of_mem member
  obtain ⟨prior, step⟩ := run.split
  obtain ⟨tick, phase, source, target, valid, now, active, elapsed⟩ := enters.spec prior step
  have evaluating := evaluating_of_run lawful prior enters.before phase
  have timer := evaluating.timer active
  obtain ⟨stored, stored_member, stores, received⟩ := evaluating.stored.stored
  obtain ⟨start, start_member, started⟩ := timer.window.started
  rw [source, target]
  refine ⟨tick, stored, List.mem_append_left _ stored_member, start, ?_, stores, ?_, ?_, ?_, ?_, ?_⟩
  · rw [ticks_append]
    exact List.mem_append_left _ start_member
  · exact ueRun_times_le lawful prior step stored_member
  · rw [received, ← evaluating.stored.expiry]
    exact valid
  · rw [received, started]
    exact timer.afterStore
  · rw [started, ← evaluating.stored.timeToTrigger]
    linarith
  · intro g ticking after before
    rw [ticks_append] at ticking
    rcases List.mem_append.mp ticking with earlier | later
    · exact timer.window.held g earlier (started.symm.trans_le after)
    · rcases List.mem_cons.mp (mem_ticks.mp later).1 with rfl | beyond
      · exact now
      · have late := tick_lt_of_split run tick (mem_ticks.mpr ⟨beyond, (mem_ticks.mp later).2⟩)
        unfold fireTime at before
        linarith

/-- A tick that finds the condition unmet stops the timer. -/
theorem unmet_restarts (lawful : P.Lawful) {i : ℕ} {rows : List UeRow}
    {h : List (Firing ℤ (Option UeInfo) Event)} {f : Firing ℤ (Option UeInfo) Event}
    (prior : Run (ueHandler P env i) fifo (ueInitial env rows i) h f.before)
    (step : Step (ueHandler P env i) fifo f.before f.event f.after)
    (tick : f.event.ev = .checkHandoverConditions) {ue ue' : UeInfo}
    (present : f.before.state = some ue) (after : f.after.state = some ue')
    (phase : ue.choProcState.phase = .ueEvaluating)
    (unmet : ¬ ConditionAt P env ue.choProcState.sourceCell ue.choProcState.targetCell f) :
    ue'.choProcState.phase ≠ .ueExecuting ∧
      (ue'.choProcState.phase = .ueEvaluating → ue'.choProcState.executionTttActive = false) := by
  rcases f with ⟨c, ⟨ts, event⟩, c'⟩
  obtain rfl : event = .checkHandoverConditions := tick
  have state := ueState_of_step step present
  obtain rfl := Option.some.inj (after.symm.trans state)
  have check := ueTick_evaluating P env i (getSeconds ts) phase
  have same := (sameProcedure_updated P env (getSeconds ts) ue).choProcState
  have updated := (congrArg UeChoProcedureState.phase same).trans phase
  have never := fun met => unmet (@conditionAt_of_met P env _ _ ⟨ts, .checkHandoverConditions⟩
    ue present met)
  rw [ueAction_tick]
  generalize ueTick P env i (getSeconds ts) ue = result at check ⊢
  cases check with
  | expired =>
      rw [choConfigExpired_phase]
      exact ⟨by decide, fun evaluating => by cases evaluating⟩
  | missing _ uncached =>
      refine ⟨by rw [updated]; decide, fun _ => ?_⟩
      rw [same]
      by_contra active
      have timer := (evaluating_of_run lawful prior present phase).timer (by simpa using active)
      have reach := (linkStep_updated P env (getSeconds ts) ue).phy
      refine conditionMet?_ne_none ?_ ?_ uncached
      · rw [same]
        exact reach.cached timer.source
      · rw [same]
        exact reach.cached timer.target
  | unmet =>
      refine ⟨?_, fun _ => rfl⟩
      rw [UeInfo.setExecutionTtt_phase, updated]
      decide
  | starts _ met => exact absurd met never
  | executes _ met => exact absurd met never
  | waits _ met => exact absurd met never

/-- The condition of TD-CHO at a tick: the cached SNR of the target exceeds that of the source by the
execution offset, and that of the source is above the minimum. -/
def TdCho.SnrConditionAt (env : Env) (sourceCell targetCell : String)
    (f : Firing ℤ (Option UeInfo) Event) : Prop :=
  ∃ ue serving target, f.before.state = some ue ∧
    (ue.updated tdCho env (fireTime f)).cached sourceCell = some serving ∧
    (ue.updated tdCho env (fireTime f)).cached targetCell = some target ∧
    env.ho.choExecutionOffset ≤ target.snrDb - serving.snrDb ∧ env.ho.minSNR < serving.snrDb

theorem TdCho.snrConditionAt_eq (sourceCell targetCell : String) :
    TdCho.SnrConditionAt env sourceCell targetCell = ConditionAt tdCho env sourceCell targetCell := by
  funext f
  simp only [TdCho.SnrConditionAt, ConditionAt, UeInfo.ConditionHolds, tdCho,
    TdCho.executionCondition, Bool.and_eq_true, decide_eq_true_eq, exists_and_left]

/-- **Executions are sound.** Whenever a UE enters execution, it does so at a tick at which its stored
configuration is valid and the SNR condition has held for the time-to-trigger, at every tick since
one after the configuration was stored; and a tick that finds the condition unmet restarts the
window. -/
theorem execution_sound {rows : List UeRow} {h : List (Firing ℤ Sim Event)} {c : Conf ℤ Sim Event}
    (run : SimRun tdCho env rows h c) (i : ℕ) :
    (∀ f ∈ ueHistory tdCho env i h, ∀ ue ue', EntersExecution f ue ue' →
      SoundExecution env i (ueHistory tdCho env i h) f ue'.choProcState.sourceCell
        ue'.choProcState.targetCell
        (TdCho.SnrConditionAt env ue'.choProcState.sourceCell ue'.choProcState.targetCell)) ∧
      ∀ f ∈ ticks (ueHistory tdCho env i h), ∀ ue ue', f.before.state = some ue →
        f.after.state = some ue' → ue.choProcState.phase = .ueEvaluating →
        ¬ TdCho.SnrConditionAt env ue.choProcState.sourceCell ue.choProcState.targetCell f →
        ue'.choProcState.phase ≠ .ueExecuting ∧
          (ue'.choProcState.phase = .ueEvaluating →
            ue'.choProcState.executionTttActive = false) := by
  have own := run.toUe i
  refine ⟨fun f member ue ue' enters => ?_, fun f member ue ue' present after phase unmet => ?_⟩
  · rw [TdCho.snrConditionAt_eq]
    exact soundExecution_of_run TdCho.lawful own member enters
  · rw [TdCho.snrConditionAt_eq] at unmet
    obtain ⟨member, tick⟩ := mem_ticks.mp member
    obtain ⟨h₁, h₂, split⟩ := List.append_of_mem member
    rw [show (ueComponent tdCho env i).history h = _ from split] at own
    obtain ⟨prior, step⟩ := own.split
    exact unmet_restarts TdCho.lawful prior step tick present after phase unmet

theorem execution_sound_crossing :
    ∃ f ∈ ueHistory tdCho crossing 0 (sampleRun tdCho crossing sampleRows 10).1,
      SoundExecution crossing 0 (ueHistory tdCho crossing 0 (sampleRun tdCho crossing sampleRows 10).1)
        f "S" "N" (TdCho.SnrConditionAt crossing "S" "N") := by
  have enters : (ueHistory tdCho crossing 0
      (sampleRun tdCho crossing sampleRows 10).1).getLast?.bind (fun f =>
        f.before.state.bind fun ue => f.after.state.map fun ue' =>
          (ue.choProcState.phase, ue'.choProcState.phase, ue'.choProcState.sourceCell,
            ue'.choProcState.targetCell)) =
      some (.ueEvaluating, .ueExecuting, "S", "N") := by decide +kernel
  obtain ⟨f, last, enters⟩ := Option.bind_eq_some_iff.mp enters
  obtain ⟨ue, present, enters⟩ := Option.bind_eq_some_iff.mp enters
  obtain ⟨ue', after, enters⟩ := Option.map_eq_some_iff.mp enters
  simp only [Prod.mk.injEq] at enters
  obtain ⟨evaluating, executing, source, target⟩ := enters
  have member := List.mem_of_getLast? last
  have sound := (execution_sound (simRun_sampleRun tdCho crossing sampleRows 10) 0).1 f member ue ue'
    ⟨present, after, by rw [evaluating]; decide, executing⟩
  rw [source, target] at sound
  exact ⟨f, member, sound⟩

end NtnCho
