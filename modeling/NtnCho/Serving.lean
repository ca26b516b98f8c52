import NtnCho.EventSystem.Changes
import NtnCho.Execution
import NtnCho.Liveness
import NtnCho.Target
import NtnCho.Trigger

/-!
# The serving satellite

The serving satellite of a UE stands in `context`, in `measState` and, while a procedure is in flight,
in `choProcState.sourceCell`; it is written by the initial selection of a tick and by a completed
handover. `ServedBySource` says that the three places agree, `StoredConfigs` that the configuration of
the procedure is the only one. From the first follows that the changes of the serving satellite along
a run are one selection and then the handovers of the UE, a connected path, `serving_integrity`. The
code writes "no satellite" as an empty name, so the path needs that no satellite is called that.
-/

namespace NtnCho

open EventSystem

variable {P : Program} {env : Env}

/-! ## The three places of the serving satellite -/

/-- The places of the serving satellite agree, and a procedure leads a served UE elsewhere. -/
structure ServedBySource (ue : UeInfo) : Prop where
  measured : ue.measState.servingCellId = ue.context.servingGnb
  source : ue.choProcState.phase ≠ .idle → ue.choProcState.sourceCell = ue.context.servingGnb
  served : ue.choProcState.phase ≠ .idle → ue.context.servingGnb ≠ ""
  other : ue.choProcState.phase ≠ .idle → ue.choProcState.targetCell ≠ ue.choProcState.sourceCell

/-- An idle UE has only two places to keep in agreement. -/
theorem servedBySource_of_idle {ue : UeInfo}
    (measured : ue.measState.servingCellId = ue.context.servingGnb)
    (idle : ue.choProcState.phase = .idle) : ServedBySource ue :=
  ⟨measured, fun busy => absurd idle busy, fun busy => absurd idle busy,
    fun busy => absurd idle busy⟩

/-- What leaves the three places alone keeps them in agreement. -/
theorem ServedBySource.of_eq {ue ue' : UeInfo} (serves : ServedBySource ue)
    (measured : ue'.measState.servingCellId = ue.measState.servingCellId)
    (context : ue'.context = ue.context)
    (cells : ue'.choProcState.sourceCell = ue.choProcState.sourceCell ∧
      ue'.choProcState.targetCell = ue.choProcState.targetCell)
    (busy : ue'.choProcState.phase ≠ .idle → ue.choProcState.phase ≠ .idle) : ServedBySource ue' where
  measured := by
    rw [measured, context]
    exact serves.measured
  source := by
    intro procedure
    rw [cells.1, context]
    exact serves.source (busy procedure)
  served := by
    intro procedure
    rw [context]
    exact serves.served (busy procedure)
  other := by
    intro procedure
    rw [cells.1, cells.2]
    exact serves.other (busy procedure)

/-- The channel update serves a UE without a satellite by the selected one. -/
theorem updated_servingGnb (P : Program) (env : Env) (simTime : ℚ) (ue : UeInfo) :
    (ue.updated P env simTime).context.servingGnb =
      if ue.context.servingGnb = "" then
        P.selectBestSatellite env simTime (updateChannelCache P env simTime ue) ""
      else ue.context.servingGnb := by
  unfold UeInfo.updated updateChannelState
  rw [UeInfo.setChannel_context]
  unfold UeInfo.selectServing
  dsimp only
  by_cases unserved : ue.context.servingGnb = ""
  case neg =>
    have served : ¬ (updateChannelCache P env simTime ue).context.servingGnb = "" := unserved
    rw [if_neg unserved, if_neg served]
    rfl
  case pos =>
    have start : (updateChannelCache P env simTime ue).context.servingGnb = "" := unserved
    rw [if_pos unserved, if_pos start]
    split
    · rename_i none
      rw [none, start]
    · rfl

theorem updated_servingCellId {simTime : ℚ} {ue : UeInfo}
    (measured : ue.measState.servingCellId = ue.context.servingGnb) :
    (ue.updated P env simTime).measState.servingCellId =
      (ue.updated P env simTime).context.servingGnb := by
  unfold UeInfo.updated updateChannelState
  rw [UeInfo.setChannel_measState, UeInfo.setChannel_context]
  unfold UeInfo.selectServing
  dsimp only
  split
  · split
    · exact measured
    · rfl
  · exact measured

theorem ServedBySource.updated {simTime : ℚ} {ue : UeInfo} (serves : ServedBySource ue) :
    ServedBySource (ue.updated P env simTime) := by
  have procedure := (sameProcedure_updated P env simTime ue).choProcState
  refine ⟨updated_servingCellId serves.measured, fun busy => ?_, fun busy => ?_, fun busy => ?_⟩
  · rw [procedure] at busy ⊢
    rw [updated_context (serves.served busy)]
    exact serves.source busy
  · rw [procedure] at busy
    rw [updated_context (serves.served busy)]
    exact serves.served busy
  · rw [procedure] at busy ⊢
    exact serves.other busy

/-- No exit of `UE_EvaluateAndReport` changes the serving cell. -/
theorem ueEvaluateAndReport_servingCellId (P : Program) (env : Env) (ueId : ℕ) (simTime : ℚ)
    (due : UeInfo) :
    (ueEvaluateAndReport P env ueId simTime due).1.measState.servingCellId =
      due.measState.servingCellId := by
  rcases ueEvaluateAndReport_cases P env ueId simTime due with
    ⟨-, unserved⟩ | ⟨-, failed⟩ | ⟨servingMeas, -, evaluated⟩
  · rw [unserved]
  · rw [failed]
  · rw [evaluated]
    rcases timeToTrigger_cases P simTime servingMeas (due.evaluation P env ueId simTime servingMeas)
        (due.evaluated (due.evaluation P env ueId simTime servingMeas)) with
      ⟨-, starts⟩ | ⟨-, -, -, ⟨-, reports⟩ | waits⟩ | ⟨-, resets⟩
    · rw [starts]
      rfl
    · rw [reports]
      rfl
    · rw [waits]
      rfl
    · rw [resets]
      rfl

/-- A report is about the serving cell of the UE. -/
theorem report_servingCell {ueId : ℕ} {simTime : ℚ} {due : UeInfo} {report : MeasurementReport}
    (reported : (ueEvaluateAndReport P env ueId simTime due).2.1 = some report) :
    report.servingCell.cellId = due.measState.servingCellId := by
  rcases ueEvaluateAndReport_cases P env ueId simTime due with
    ⟨-, unserved⟩ | ⟨-, failed⟩ | ⟨servingMeas, found, evaluated⟩
  · rw [unserved] at reported
    cases reported
  · rw [failed] at reported
    obtain rfl := Option.some.inj reported
    rfl
  · rw [evaluated] at reported
    have serving := servingMeasurement_eq_some found
    rcases timeToTrigger_cases P simTime servingMeas (due.evaluation P env ueId simTime servingMeas)
        (due.evaluated (due.evaluation P env ueId simTime servingMeas)) with
      ⟨-, starts⟩ | ⟨-, -, -, ⟨-, reports⟩ | waits⟩ | ⟨-, resets⟩
    · rw [starts] at reported
      cases reported
    · rw [reports] at reported
      obtain rfl := Option.some.inj reported
      exact serving
    · rw [waits] at reported
      cases reported
    · rw [resets] at reported
      cases reported

/-- A report names no neighbour, or first one that is not the serving cell. -/
theorem report_neighbor (lawful : P.Lawful) {ueId : ℕ} {simTime : ℚ} {due : UeInfo}
    {report : MeasurementReport}
    (reported : (ueEvaluateAndReport P env ueId simTime due).2.1 = some report) :
    report.neighborCells = [] ∨ ∃ neighbor, report.neighborCells.head? = some neighbor ∧
      neighbor.cellId ≠ due.measState.servingCellId := by
  rcases ueEvaluateAndReport_cases P env ueId simTime due with
    ⟨-, unserved⟩ | ⟨-, failed⟩ | ⟨servingMeas, -, evaluated⟩
  · rw [unserved] at reported
    cases reported
  · rw [failed] at reported
    obtain rfl := Option.some.inj reported
    exact .inl rfl
  · rw [evaluated] at reported
    obtain ⟨-, neighbor, head, -, -, other⟩ := report_target lawful reported
    exact .inr ⟨neighbor, head, other⟩

/-- An action of a tick on a procedure in flight leaves the serving satellite alone. -/
theorem TickAction.context {ueId : ℕ} {simTime : ℚ} {ue : UeInfo} {result : UeInfo × List Effect}
    (action : TickAction P env ueId simTime ue result) (busy : ue.choProcState.phase ≠ .idle) :
    result.1.context = ue.context := by
  cases action with
  | quiet => rfl
  | timer => rfl
  | expires => exact UeInfo.count_context ..
  | executes start evaluating =>
      unfold choPhase6UeExecutes
      split
      · rfl
      · dsimp only
        rw [applyUeErrorModelImmediately_context, UeInfo.count_context]
        rfl
  | reports _ _ idle => exact absurd idle busy
  | reselects _ idle => exact absurd idle busy

/-- A measurement keeps the three places in agreement: the procedure of a report has the serving cell
as its source, and a re-selection clears them all. -/
theorem servedBySource_measureAndReport (lawful : P.Lawful) {ueId : ℕ} {simTime : ℚ} {ue due : UeInfo}
    (measured : ue.due? simTime = some due) :
    ServedBySource (measureAndReport P env ueId simTime due).1 := by
  obtain ⟨-, idle, served⟩ := UeInfo.due?_eq_some measured
  have only := (onlyMeasured_of_due measured).trans
    (onlyMeasured_ueEvaluateAndReport P env ueId simTime due)
  have context := only.context
  have idle₁ := only.phase.trans idle
  have serving : (ueEvaluateAndReport P env ueId simTime due).1.measState.servingCellId =
      (ueEvaluateAndReport P env ueId simTime due).1.context.servingGnb := by
    rw [ueEvaluateAndReport_servingCellId, UeInfo.due_servingCellId measured, context]
  rcases measureAndReport_cases P env ueId simTime due with
    quiet | ⟨report, -, -, -, reselects⟩ | ⟨report, reported, -, triggers⟩
  · rw [quiet]
    exact servedBySource_of_idle serving idle₁
  · rw [reselects]
    exact servedBySource_of_idle rfl idle₁
  · rw [triggers]
    have procedure := onlyProcedure_choTriggerProcedure (P := P) ueId simTime report
      (ueEvaluateAndReport P env ueId simTime due).1
    obtain ⟨source, target⟩ := choTriggerProcedure_cells P ueId simTime report idle₁
    rw [report_servingCell reported, UeInfo.due_servingCellId measured] at source
    refine ⟨?_, fun _ => ?_, fun _ => ?_, fun _ => ?_⟩
    · rw [procedure.measState, procedure.context]
      exact serving
    · rw [source, procedure.context, context]
    · rw [procedure.context, context]
      exact served
    · rw [source, target]
      rcases report_neighbor lawful reported with none | ⟨neighbor, head, other⟩
      · rw [none]
        exact served.symm
      · rw [head, ← UeInfo.due_servingCellId measured]
        exact other

theorem servedBySource_ueTick (lawful : P.Lawful) {ueId : ℕ} {simTime : ℚ} {ue : UeInfo}
    (serves : ServedBySource ue) : ServedBySource (ueTick P env ueId simTime ue).1 := by
  have updated : ServedBySource (ue.updated P env simTime) := serves.updated
  change ServedBySource (checkHandover P env ueId simTime (ue.updated P env simTime)).1
  rcases checkHandover_spec P env ueId simTime (ue.updated P env simTime) with
    ⟨busy, -, action⟩ | ⟨idle, -, stays | adopts⟩ | ⟨due, -, measured, measures⟩
  · exact updated.of_eq (by rw [action.measState busy]) (action.context busy) (action.cells busy)
      fun _ => busy
  · rw [stays]
    exact updated
  · rw [adopts]
    have only := onlyMeasured_adoptServingCell simTime (ue.updated P env simTime)
    refine servedBySource_of_idle ?_ (only.phase.trans idle)
    unfold UeInfo.adoptServingCell
    dsimp only
    split
    · rfl
    · exact updated.measured
  · rw [measures]
    exact servedBySource_measureAndReport lawful measured

/-- A completed handover moves all places to the target; no other phase touches them. -/
theorem servedBySource_choHandler {handler : ChoHandler} {ueId : ℕ} {sourceCell targetCell : String}
    {simTime : ℚ} {ue : UeInfo} (serves : ServedBySource ue) :
    ServedBySource (choHandler P env handler ueId sourceCell targetCell simTime ue).1 := by
  by_cases guard : ue.choProcState.phase = handler.guard
  case neg =>
    rw [choHandler_of_guard_ne guard]
    exact serves
  case pos =>
    have cells := @choHandler_cells P env handler ueId sourceCell targetCell simTime ue
    by_cases completes : handler = .phase7ExecutionComplete
    case neg =>
      have only := @onlyProcedure_choHandler P env handler ueId sourceCell targetCell simTime ue
        completes
      refine serves.of_eq (by rw [only.measState]) only.context cells fun _ => ?_
      rw [guard]
      cases handler <;> decide
    case pos =>
      subst completes
      have idle := choHandler_phase P env ueId sourceCell targetCell simTime guard
      refine servedBySource_of_idle ?_ idle
      simp only [choHandler, choPhase7ExecutionComplete]
      split
      · exact serves.measured
      · split
        · simp only [UeInfo.completed, applyUeErrorModelImmediately_measState,
            applyUeErrorModelImmediately_context, UeInfo.handedOver]
        · simp only [choHandleFailure, UeInfo.count_measState, UeInfo.count_context]
          exact serves.measured

theorem servedBySource_of_run (lawful : P.Lawful) {ok : Policy ℤ Event} {i : ℕ} {rows : List UeRow}
    {h : List (Firing ℤ (Option UeInfo) Event)} {c : Conf ℤ (Option UeInfo) Event} {ue : UeInfo}
    (run : Run (ueHandler P env i) ok (ueInitial env rows i) h c) (present : c.state = some ue) :
    ServedBySource ue := by
  refine ueRun_stateInvariant run (fun _ => servedBySource_of_idle rfl rfl) ?_ present
  intro event now ue serves
  cases event with
  | checkHandoverConditions => exact servedBySource_ueTick lawful serves
  | cho handler ueId sourceCell targetCell => exact servedBySource_choHandler serves
  | evaluatePendingPrediction => exact serves

/-! ## The stored configuration -/

/-- A UE with a configuration has exactly one, for the target of its procedure. -/
structure StoredConfigs (ue : UeInfo) : Prop where
  stored : ue.choProcState.phase = .ueEvaluating ∨ ue.choProcState.phase = .ueExecuting →
    ∃ config, ue.choConfigState.choConfigs =
        (∅ : StdMap ChoConfiguration).insert ue.choProcState.targetCell config ∧
      config.expiryTime = ue.choProcState.configExpiryTime
  cleared : ue.choProcState.phase ≠ .ueEvaluating → ue.choProcState.phase ≠ .ueExecuting →
    ue.choConfigState.choConfigs = ∅

theorem storedConfigs_of_cleared {ue : UeInfo} (cleared : ue.choConfigState.choConfigs = ∅)
    (evaluating : ue.choProcState.phase ≠ .ueEvaluating)
    (executing : ue.choProcState.phase ≠ .ueExecuting) : StoredConfigs ue :=
  ⟨fun phase => absurd phase (not_or.mpr ⟨evaluating, executing⟩), fun _ _ => cleared⟩

theorem choTriggerProcedure_choConfigs (ueId : ℕ) (simTime : ℚ) (report : MeasurementReport)
    (ue : UeInfo) :
    (choTriggerProcedure P ueId simTime report ue).1.choConfigState.choConfigs =
      ue.choConfigState.choConfigs := by
  unfold choTriggerProcedure
  split
  · rfl
  · exact congrArg UeChoConfigState.choConfigs (UeInfo.count_choConfigState ..)

/-- `CHO_Phase6_UeExecutes` goes on with the configuration it found. -/
theorem storedConfigs_choPhase6UeExecutes {ueId : ℕ} {simTime : ℚ}
    {sourceCell targetCell : String} {ue : UeInfo} (configs : StoredConfigs ue)
    (evaluating : ue.choProcState.phase = .ueEvaluating) :
    StoredConfigs (choPhase6UeExecutes P env ueId sourceCell targetCell simTime ue).1 := by
  unfold choPhase6UeExecutes
  rw [if_neg (not_not.mpr evaluating)]
  dsimp only
  refine ⟨fun _ => ?_, fun _ executing => ?_⟩
  · rw [(sameProcedure_applyUeErrorModelImmediately _).choConfigState,
      applyUeErrorModelImmediately_choProcState, UeInfo.count_choConfigState,
      UeInfo.count_choProcState]
    exact configs.stored (.inl evaluating)
  · rw [applyUeErrorModelImmediately_choProcState, UeInfo.count_choProcState] at executing
    exact absurd rfl executing

theorem TickAction.storedConfigs {ueId : ℕ} {simTime : ℚ} {ue : UeInfo}
    {result : UeInfo × List Effect} (action : TickAction P env ueId simTime ue result)
    (configs : StoredConfigs ue) : StoredConfigs result.1 := by
  cases action with
  | quiet => exact configs
  | timer => exact ⟨configs.stored, configs.cleared⟩
  | expires =>
      unfold choConfigExpired
      refine storedConfigs_of_cleared ?_ ?_ ?_
      · rw [UeInfo.count_choConfigState]
      · rw [UeInfo.count_choProcState]
        simp
      · rw [UeInfo.count_choProcState]
        simp
  | executes start evaluating =>
      exact storedConfigs_choPhase6UeExecutes ⟨configs.stored, configs.cleared⟩ evaluating
  | reports records report idle =>
      have phase := @choTriggerProcedure_phase P ueId simTime report ue idle
      refine storedConfigs_of_cleared ?_ (by rw [phase]; decide) (by rw [phase]; decide)
      rw [choTriggerProcedure_choConfigs]
      exact configs.cleared (by rw [idle]; decide) (by rw [idle]; decide)
  | reselects => exact ⟨configs.stored, configs.cleared⟩

/-- The phases other than `CHO_Phase5_UeStoresConfig` and the completion touch no configuration. -/
theorem choHandler_choConfigState {handler : ChoHandler} {ueId : ℕ} {sourceCell targetCell : String}
    {simTime : ℚ} {ue : UeInfo} (other : handler ≠ .phase5UeStoresConfig)
    (early : handler ≠ .phase7ExecutionComplete) :
    (choHandler P env handler ueId sourceCell targetCell simTime ue).1.choConfigState =
      ue.choConfigState := by
  have advance : ∀ {expected next delay handler'},
      (choAdvance expected next delay handler' ueId sourceCell targetCell simTime
        ue).1.choConfigState = ue.choConfigState := by
    intro expected next delay handler'
    unfold choAdvance
    split <;> rfl
  cases handler with
  | phase1ReportArrived => exact advance
  | phase2SendXnRequest => exact advance
  | phase3XnResponse => exact advance
  | phase4SendRrcReconfig =>
      simp only [choHandler, choPhase4SendRrcReconfig]
      split
      · rfl
      · exact UeInfo.count_choConfigState ..
  | phase5UeStoresConfig => exact absurd rfl other
  | phase7ExecutionComplete => exact absurd rfl early

theorem storedConfigs_choPhase5UeStoresConfig {ueId : ℕ} {simTime : ℚ} {ue : UeInfo}
    (guard : ue.choProcState.phase = .rrcReconfigDownlink)
    (cleared : ue.choConfigState.choConfigs = ∅) :
    StoredConfigs (choPhase5UeStoresConfig P env ueId ue.choProcState.sourceCell
      ue.choProcState.targetCell simTime ue).1 := by
  unfold choPhase5UeStoresConfig
  rw [if_neg (not_not.mpr guard)]
  refine ⟨fun _ => ?_, fun evaluating => ?_⟩
  · rw [UeInfo.count_choConfigState, UeInfo.count_choProcState, cleared]
    exact ⟨_, rfl, rfl⟩
  · rw [UeInfo.count_choProcState] at evaluating
    exact absurd rfl evaluating

theorem choPhase7ExecutionComplete_choConfigs {ueId : ℕ} {sourceCell targetCell : String}
    {simTime : ℚ} {ue : UeInfo} (guard : ue.choProcState.phase = .ueExecuting) :
    (choPhase7ExecutionComplete P env ueId sourceCell targetCell simTime
      ue).1.choConfigState.choConfigs = ∅ := by
  unfold choPhase7ExecutionComplete
  rw [if_neg (not_not.mpr guard)]
  dsimp only
  split
  · simp only [UeInfo.completed]
    rw [(sameProcedure_applyUeErrorModelImmediately _).choConfigState]
    rfl
  · rfl

/-- A phase event stores the configuration of its target, or clears the configurations at the end. -/
theorem storedConfigs_choHandler {handler : ChoHandler} {ueId : ℕ} {simTime : ℚ} {ue : UeInfo}
    (configs : StoredConfigs ue) (guard : ue.choProcState.phase = handler.guard) :
    StoredConfigs (choHandler P env handler ueId ue.choProcState.sourceCell
      ue.choProcState.targetCell simTime ue).1 := by
  have entered := choHandler_phase P env ueId ue.choProcState.sourceCell
    ue.choProcState.targetCell simTime guard
  by_cases completes : handler = .phase7ExecutionComplete
  case pos =>
    subst completes
    exact storedConfigs_of_cleared (choPhase7ExecutionComplete_choConfigs guard)
      (by rw [entered]; decide) (by rw [entered]; decide)
  case neg =>
    have cleared : ue.choConfigState.choConfigs = ∅ := by
      refine configs.cleared ?_ ?_
      · rw [guard]
        cases handler <;> decide
      · rw [guard]
        cases handler <;> simp_all [ChoHandler.guard]
    by_cases stores : handler = .phase5UeStoresConfig
    case pos =>
      subst stores
      exact storedConfigs_choPhase5UeStoresConfig guard cleared
    case neg =>
      refine storedConfigs_of_cleared ?_ ?_ ?_
      · rw [choHandler_choConfigState stores completes]
        exact cleared
      · rw [entered]
        cases handler <;> simp_all [ChoHandler.next]
      · rw [entered]
        cases handler <;> decide

theorem storedConfigs_of_run {ok : Policy ℤ Event} {i : ℕ} {rows : List UeRow}
    {h : List (Firing ℤ (Option UeInfo) Event)} {c : Conf ℤ (Option UeInfo) Event} {ue : UeInfo}
    (run : Run (ueHandler P env i) ok (ueInitial env rows i) h c) (present : c.state = some ue) :
    StoredConfigs ue := by
  refine ueRun_history (I := fun _ _ ue => StoredConfigs ue) run ?_ ?_ present
  · intro row _
    exact storedConfigs_of_cleared rfl (by simp [initialUe]) (by simp [initialUe])
  intro h c p c' ue prior step present concerns configs
  rcases p with ⟨ts, _ | ⟨handler, ueId, sourceCell, targetCell⟩ | _⟩
  · rw [ueAction_tick]
    obtain ⟨ue₁, same, action⟩ := ueTick_spec P env i (getSeconds ts) ue
    refine action.storedConfigs ⟨?_, ?_⟩
    · rw [same.choProcState, same.choConfigState]
      exact configs.stored
    · rw [same.choProcState, same.choConfigState]
      exact configs.cleared
  · obtain ⟨rfl, guard, rfl, rfl⟩ := guard_of_step prior step present
    exact storedConfigs_choHandler configs guard
  · cases concerns

/-! ## The handovers of a UE -/

/-- The serving satellite in a configuration of a UE. -/
def servingOf (c : Conf ℤ (Option UeInfo) Event) : String :=
  (c.state.map fun ue => ue.context.servingGnb).getD ""

theorem servingOf_eq {c : Conf ℤ (Option UeInfo) Event} {ue : UeInfo} (present : c.state = some ue) :
    servingOf c = ue.context.servingGnb := by
  unfold servingOf
  rw [present]
  rfl

/-- The source and the target of the handover that a firing completes, when its target is viable. -/
def handoverOf (env : Env) (f : Firing ℤ (Option UeInfo) Event) : Option (String × String) :=
  match f.event.ev with
  | .cho .phase7ExecutionComplete _ sourceCell targetCell =>
      f.before.state.bind fun ue =>
        if choIsLinkViable env ue targetCell then some (sourceCell, targetCell) else none
  | _ => none

/-- The successful handovers of a history, each with its source and its target. -/
def handovers (env : Env) (h : List (Firing ℤ (Option UeInfo) Event)) : List (String × String) :=
  h.filterMap (handoverOf env)

/-- A firing that hands a UE over completes the procedure in flight, from its source, which serves the
UE before, to its target, which serves it afterwards. -/
structure InFlight (f : Firing ℤ (Option UeInfo) Event) (sourceCell targetCell : String) : Prop where
  procedure : ∃ ue, f.before.state = some ue ∧ ue.choProcState.phase = .ueExecuting ∧
    ue.choProcState.sourceCell = sourceCell ∧ ue.choProcState.targetCell = targetCell
  before : servingOf f.before = sourceCell
  after : servingOf f.after = targetCell
  served : sourceCell ≠ ""
  moves : sourceCell ≠ targetCell

/-- A tick changes the serving satellite in the channel update alone, or clears it on the report of a
radio-link failure, which leaves the UE idle and its timer off. -/
theorem ueTick_context_cases (P : Program) (env : Env) (ueId : ℕ) (simTime : ℚ) (ue : UeInfo) :
    (ueTick P env ueId simTime ue).1.context = (ue.updated P env simTime).context ∨
      P.reselectOnRlf = true ∧
        (∃ report, tickReport P env ueId simTime ue = some report ∧ report.eventType = "RLF") ∧
        (ueTick P env ueId simTime ue).1.context.servingGnb = "" ∧
        (ueTick P env ueId simTime ue).1.choProcState.phase = .idle ∧
        (ueTick P env ueId simTime ue).1.measState.triggerActive = false := by
  have result : ueTick P env ueId simTime ue =
      checkHandover P env ueId simTime (ue.updated P env simTime) := rfl
  rw [result]
  rcases checkHandover_spec P env ueId simTime (ue.updated P env simTime) with
    ⟨busy, -, action⟩ | ⟨-, -, stays | adopts⟩ | ⟨due, idle, measured, measures⟩
  · exact .inl (action.context busy)
  · rw [stays]
    exact .inl rfl
  · rw [adopts, (onlyMeasured_adoptServingCell simTime _).context]
    exact .inl rfl
  · have only := (onlyMeasured_of_due measured).trans
      (onlyMeasured_ueEvaluateAndReport P env ueId simTime due)
    rw [measures]
    rcases measureAndReport_cases P env ueId simTime due with
      quiet | ⟨report, reported, reselection, failed, reselects⟩ | ⟨report, -, -, triggers⟩
    · rw [quiet, only.context]
      exact .inl rfl
    · rw [reselects]
      refine .inr ⟨reselection, ⟨report, ?_, failed⟩, rfl, only.phase.trans idle, rfl⟩
      unfold tickReport
      rw [measured]
      exact reported
    · rw [triggers, choTriggerProcedure_context, only.context]
      exact .inl rfl

/-- A satellite that a UE has cached is in the dataset. -/
theorem LinkInvariant.mem_satellites {ue : UeInfo} {cellId : String} (link : LinkInvariant P env ue)
    (cached : cellId ∈ ue.phy.channel.channelCache) : cellId ∈ env.link.satellites := by
  rw [Std.TreeMap.mem_iff_isSome_getElem?] at cached
  obtain ⟨entry, found⟩ := Option.isSome_iff_exists.mp cached
  exact Std.TreeMap.mem_keys.mp (mem_keys_of_covers (link.good found).usable.covers)

section Step

variable {ok : Policy ℤ Event} {i : ℕ} {rows : List UeRow}
  {h : List (Firing ℤ (Option UeInfo) Event)} {f : Firing ℤ (Option UeInfo) Event}

theorem inFlight_of_handoverOf (lawful : P.Lawful)
    (prior : Run (ueHandler P env i) ok (ueInitial env rows i) h f.before)
    (step : Step (ueHandler P env i) ok f.before f.event f.after) {sourceCell targetCell : String}
    (handed : handoverOf env f = some (sourceCell, targetCell)) :
    InFlight f sourceCell targetCell ∧ targetCell ∈ env.link.satellites := by
  rcases f with ⟨c, ⟨ts, event⟩, c'⟩
  unfold handoverOf at handed
  split at handed
  case h_2 => cases handed
  case h_1 ueId source target completes =>
    obtain rfl : event = .cho .phase7ExecutionComplete ueId source target := completes
    obtain ⟨ue, present, handed⟩ := Option.bind_eq_some_iff.mp handed
    split at handed
    case isFalse => cases handed
    case isTrue viable =>
      obtain ⟨rfl, rfl⟩ := Prod.mk.inj (Option.some.inj handed)
      have concerns := (ueQueue_of_run prior _ step.mem_queue).1
      obtain rfl : ueId = i := by simpa [Event.concerns] using concerns
      have state := ueState_of_step step present
      obtain ⟨-, guard, rfl, rfl⟩ := guard_of_step prior step present
      replace guard : ue.choProcState.phase = .ueExecuting := guard
      have busy : ue.choProcState.phase ≠ .idle := by
        rw [guard]
        decide
      have serves := servedBySource_of_run lawful prior present
      have link := linkInvariant_of_run lawful prior present
      refine ⟨⟨⟨ue, present, guard, rfl, rfl⟩, ?_, ?_, ?_, (serves.other busy).symm⟩,
        link.mem_satellites (mem_of_choIsLinkViable viable)⟩
      · rw [servingOf_eq present]
        exact (serves.source busy).symm
      · rw [servingOf_eq state, ueAction_cho]
        simp only [choHandler, choPhase7ExecutionComplete]
        rw [if_neg (not_not.mpr guard), if_pos viable]
        simp only [UeInfo.completed, applyUeErrorModelImmediately_context, UeInfo.handedOver]
      · rw [serves.source busy]
        exact serves.served busy

/-- A phase that completes no handover leaves the serving satellite alone. -/
theorem servingOf_of_phase {handler : ChoHandler} {ueId : ℕ} {sourceCell targetCell : String}
    (step : Step (ueHandler P env i) ok f.before f.event f.after)
    (phase : f.event.ev = .cho handler ueId sourceCell targetCell)
    (none : handoverOf env f = none) : servingOf f.before = servingOf f.after := by
  rcases f with ⟨c, ⟨ts, event⟩, c'⟩
  obtain rfl : event = .cho handler ueId sourceCell targetCell := phase
  dsimp only at step none ⊢
  cases present : c.state with
  | none =>
      cases step with
      | @fire s pre p post allowed =>
          obtain rfl : s = Option.none := present
          rfl
  | some ue =>
      have state := ueState_of_step step present
      rw [servingOf_eq state, servingOf_eq present, ueAction_cho]
      by_cases completes : handler = .phase7ExecutionComplete
      case neg => rw [(onlyProcedure_choHandler completes).context]
      case pos =>
        subst completes
        simp only [handoverOf, present, Option.bind_some] at none
        have lost : ¬ choIsLinkViable env ue targetCell = true := by
          intro viable
          rw [if_pos viable] at none
          cases none
        simp only [choHandler, choPhase7ExecutionComplete]
        split
        · rfl
        · exact congrArg UeContext.servingGnb (UeInfo.count_context ..).symm

/-- A firing without a handover changes the serving satellite only if it is a tick that selects
one. -/
theorem servingOf_of_not_handedOver (keeps : P.reselectOnRlf = false)
    (prior : Run (ueHandler P env i) ok (ueInitial env rows i) h f.before)
    (step : Step (ueHandler P env i) ok f.before f.event f.after) {ue : UeInfo}
    (present : f.before.state = some ue) (none : handoverOf env f = none) :
    servingOf f.before = servingOf f.after ∨
      (f.event.ev = .checkHandoverConditions ∧ servingOf f.before = "") := by
  cases event : f.event.ev with
  | checkHandoverConditions =>
      rcases f with ⟨c, ⟨ts, _⟩, c'⟩
      obtain rfl := event
      have state := ueState_of_step step present
      have context := (ueTick_context_cases P env i (getSeconds ts) ue).resolve_right fun reselects => by
        rw [keeps] at reselects
        cases reselects.1
      rw [servingOf_eq state, servingOf_eq present, ueAction_tick, context]
      by_cases served : ue.context.servingGnb = ""
      · exact .inr ⟨rfl, served⟩
      · rw [updated_context served]
        exact .inl rfl
  | cho handler ueId sourceCell targetCell => exact .inl (servingOf_of_phase step event none)
  | evaluatePendingPrediction r =>
      have concerns := (ueQueue_of_run prior _ step.mem_queue).1
      rw [event] at concerns
      cases concerns

end Step

/-! ## Every run -/

/-- The changes of the serving satellite along a history are the selection of a satellite and then the
handovers, which lead from it to the satellite `serving`. -/
def ServingPath (env : Env) (h : List (Firing ℤ (Option UeInfo) Event)) (serving : String) : Prop :=
  (changes servingOf h = [] ∧ handovers env h = [] ∧ serving = "") ∨
    ∃ selected, selected ≠ "" ∧ changes servingOf h = ("", selected) :: handovers env h ∧
      IsPath selected (handovers env h) serving ∧ serving ≠ ""

/-- How the serving satellite changes: by the selection of a tick, or by the handover of the procedure
in flight. -/
structure ServingChanges (env : Env) (h : List (Firing ℤ (Option UeInfo) Event)) : Prop where
  change : ∀ f ∈ h, servingOf f.before ≠ servingOf f.after →
    (f.event.ev = .checkHandoverConditions ∧ servingOf f.before = "") ∨
      handoverOf env f = some (servingOf f.before, servingOf f.after)
  inFlight : ∀ f ∈ h, ∀ sourceCell targetCell, handoverOf env f = some (sourceCell, targetCell) →
    InFlight f sourceCell targetCell

section Run

variable {ok : Policy ℤ Event} {i : ℕ} {rows : List UeRow}
  {h : List (Firing ℤ (Option UeInfo) Event)} {c : Conf ℤ (Option UeInfo) Event} {ue : UeInfo}

theorem absent_of_step {c' : Conf ℤ (Option UeInfo) Event} {p : Pending ℤ Event}
    (step : Step (ueHandler P env i) ok c p c') (absent : c.state = none) : c'.state = none := by
  cases step with
  | @fire s pre p post allowed =>
      obtain rfl : s = none := absent
      rfl

theorem servingChanges_of_run (lawful : P.Lawful) (keeps : P.reselectOnRlf = false)
    (run : Run (ueHandler P env i) ok (ueInitial env rows i) h c) : ServingChanges env h := by
  constructor
  · intro f member changed
    obtain ⟨h₁, h₂, rfl⟩ := List.append_of_mem member
    obtain ⟨prior, step⟩ := run.split
    cases present : f.before.state with
    | none =>
        have absent := absent_of_step step present
        rw [servingOf, servingOf, present, absent] at changed
        exact absurd rfl changed
    | some ue =>
        cases handed : handoverOf env f with
        | none => exact .inl ((servingOf_of_not_handedOver keeps prior step present handed).resolve_left
            changed)
        | some pair =>
            have flight := (inFlight_of_handoverOf lawful prior step handed).1
            rw [flight.before, flight.after]
            exact .inr rfl
  · intro f member sourceCell targetCell handed
    obtain ⟨h₁, h₂, rfl⟩ := List.append_of_mem member
    obtain ⟨prior, step⟩ := run.split
    exact (inFlight_of_handoverOf lawful prior step handed).1

theorem servingPath_of_run (lawful : P.Lawful) (keeps : P.reselectOnRlf = false)
    (named : "" ∉ env.link.satellites)
    (run : Run (ueHandler P env i) ok (ueInitial env rows i) h c) (present : c.state = some ue) :
    ServingPath env h (servingOf c) := by
  refine ueRun_history (I := fun h c _ => ServingPath env h (servingOf c)) run ?_ ?_ present
  · intro row atRow
    refine .inl ⟨rfl, rfl, ?_⟩
    simp [servingOf, ueInitial, atRow, initialUe]
  intro h c p c' ue prior step present concerns before
  have path := (prior.snoc step).changes_path servingOf
  have start : servingOf (ueInitial env rows i) = "" := by
    unfold servingOf ueInitial
    cases rows[i]? <;> rfl
  rw [start] at path
  have all : handovers env (h ++ [⟨c, p, c'⟩]) = handovers env h ++ handovers env [⟨c, p, c'⟩] :=
    List.filterMap_append
  have single := changes_append servingOf h [⟨c, p, c'⟩]
  cases handed : handoverOf env ⟨c, p, c'⟩ with
  | some pair =>
      -- a handover starts from a selected satellite and prolongs the path
      obtain ⟨flight, listed⟩ := inFlight_of_handoverOf lawful prior step handed
      have source : servingOf c = pair.1 := flight.before
      have target : servingOf c' = pair.2 := flight.after
      have moved : servingOf c ≠ servingOf c' := by
        rw [source, target]
        exact flight.moves
      rw [changes_singleton_of_ne (f := ⟨c, p, c'⟩) moved, source, target] at single
      have next : handovers env [⟨c, p, c'⟩] = [pair] := by simp [handovers, handed]
      rcases before with ⟨-, -, unserved⟩ | ⟨selected, some_selected, changed, -, -⟩
      · rw [unserved] at source
        exact absurd source.symm flight.served
      · rw [changed, List.cons_append, ← next, ← all] at single
        rw [single] at path
        refine .inr ⟨selected, some_selected, single, path.2, ?_⟩
        rw [target]
        rintro unnamed
        exact named (unnamed ▸ listed)
  | none =>
      have next : handovers env [⟨c, p, c'⟩] = [] := by simp [handovers, handed]
      rw [next, List.append_nil] at all
      have stays := servingOf_of_not_handedOver keeps prior step present handed
      by_cases same : servingOf c = servingOf c'
      case pos =>
        rw [changes_singleton_of_eq (f := ⟨c, p, c'⟩) same, List.append_nil] at single
        unfold ServingPath
        rw [single, all, ← same]
        exact before
      case neg =>
        -- a tick selects the first satellite
        obtain ⟨-, unserved⟩ := stays.resolve_left same
        replace unserved : servingOf c = "" := unserved
        rw [changes_singleton_of_ne (f := ⟨c, p, c'⟩) same] at single
        rcases before with ⟨unchanged, unhanded, -⟩ | ⟨-, -, -, -, served⟩
        · rw [unchanged, List.nil_append, unserved] at single
          rw [unhanded] at all
          rw [unserved] at same
          refine .inr ⟨servingOf c', fun still => same still.symm, ?_, ?_,
            fun still => same still.symm⟩
          · rw [single, all]
          · rw [all]
            exact .nil _
        · exact absurd unserved served

end Run

/-- The state of a UE names its serving satellite consistently, and stores one configuration for its
procedure. -/
structure ServingIntegrity (ue : UeInfo) : Prop where
  measured : ue.measState.servingCellId = ue.context.servingGnb
  source : ue.choProcState.phase ≠ .idle → ue.choProcState.sourceCell = ue.context.servingGnb
  stored : ue.choProcState.phase = .ueEvaluating ∨ ue.choProcState.phase = .ueExecuting →
    ∃ config, ue.choConfigState.choConfigs.toList = [(ue.choProcState.targetCell, config)] ∧
      config.expiryTime = ue.choProcState.configExpiryTime

/-- **Serving-cell integrity.** Whatever the order of events, the places of the serving satellite agree
and a procedure has one configuration; the serving satellite changes by a selection or by the handover
in flight alone. In a dataset without a nameless satellite the changes are one selection and then a
connected path of handovers. -/
theorem serving_integrity {rows : List UeRow} {h : List (Firing ℤ Sim Event)} {c : Conf ℤ Sim Event}
    (run : AnyOrderRun tdCho env rows h c) {i : ℕ} {ue : UeInfo}
    (present : c.state.ues[i]? = some ue) :
    ServingIntegrity ue ∧ ServingChanges env (ueHistory tdCho env i h) ∧
      ("" ∉ env.link.satellites →
        ServingPath env (ueHistory tdCho env i h) ue.context.servingGnb) := by
  have seen := run.toUe i
  have serves := servedBySource_of_run TdCho.lawful seen present
  have configs := storedConfigs_of_run seen present
  refine ⟨⟨serves.measured, serves.source, fun phase => ?_⟩,
    servingChanges_of_run TdCho.lawful rfl seen, fun named => ?_⟩
  · obtain ⟨config, stored, expiry⟩ := configs.stored phase
    refine ⟨config, ?_, expiry⟩
    rw [stored]
    rfl
  · have path := servingPath_of_run TdCho.lawful rfl named seen present
    rwa [servingOf_eq (show ((ueComponent tdCho env i).conf c).state = some ue from present)] at path

theorem serving_integrity_crossing :
    ∃ ue, (sampleRun tdCho crossing sampleRows 11).2.state.ues[0]? = some ue ∧
      handovers crossing (ueHistory tdCho crossing 0 (sampleRun tdCho crossing sampleRows 11).1) =
        [("S", "N")] ∧
      ServingPath crossing (ueHistory tdCho crossing 0 (sampleRun tdCho crossing sampleRows 11).1)
        ue.context.servingGnb := by
  have served : (sampleRun tdCho crossing sampleRows 11).2.state.ues[0]?.isSome = true := by
    decide +kernel
  have handed : handovers crossing (ueHistory tdCho crossing 0
      (sampleRun tdCho crossing sampleRows 11).1) = [("S", "N")] := by decide +kernel
  obtain ⟨ue, present⟩ := Option.isSome_iff_exists.mp served
  have run := (simRun_sampleRun tdCho crossing sampleRows 11).anyOrder
  exact ⟨ue, present, handed, (serving_integrity run present).2.2 (by decide +kernel)⟩

/-- As `crossing`, but `N` has no name and goes away again while `S` comes back. -/
def nameless : Env where
  link := sampleLink
    [overhead "S" [(0, 500000), (1, 1000000), (4, 1000000), (5, 500000), (60, 500000)],
      overhead "" [(0, 1000000), (1, 500000), (4, 500000), (5, 1000000), (60, 1000000)]]
  ho := {}

/-- In `nameless` a UE that was handed over to the nameless satellite selects a satellite again. -/
theorem serving_integrity_nameless :
    ¬ ∀ {env : Env} {rows : List UeRow} {h : List (Firing ℤ Sim Event)} {c : Conf ℤ Sim Event},
      SimRun tdCho env rows h c → ∀ {i : ℕ} {ue : UeInfo}, c.state.ues[i]? = some ue →
        ServingIntegrity ue ∧ ServingChanges env (ueHistory tdCho env i h) ∧
          ServingPath env (ueHistory tdCho env i h) ue.context.servingGnb := by
  intro always
  have served : (sampleRun tdCho nameless sampleRows 12).2.state.ues[0]?.isSome = true := by
    decide +kernel
  have changed : changes servingOf (ueHistory tdCho nameless 0
      (sampleRun tdCho nameless sampleRows 12).1) = [("", "S"), ("S", ""), ("", "S")] := by
    decide +kernel
  have handed : handovers nameless (ueHistory tdCho nameless 0
      (sampleRun tdCho nameless sampleRows 12).1) = [("S", "")] := by decide +kernel
  obtain ⟨ue, present⟩ := Option.isSome_iff_exists.mp served
  rcases (always (simRun_sampleRun tdCho nameless sampleRows 12) present).2.2 with
    ⟨unchanged, -⟩ | ⟨selected, -, path, -⟩
  · rw [changed] at unchanged
    cases unchanged
  · rw [changed, handed] at path
    simp at path

end NtnCho
