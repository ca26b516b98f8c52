import NtnCho.Measurement

/-!
# The handover procedure of a UE

The handlers `CHO_TriggerProcedure` .. `CHO_HandleFailure`, `CHO_CheckExecutionCondition`,
`CheckHandover` and the body of `UpdateChannelState`, each on one UE. A handler takes the UE to the
UE after it and a list of effects: the events it schedules, the updates of the global statistics and
the lines it prints. Of the output files `cho-detailed-log.csv` is kept, of the standard output the
lines on handover results and on completed and failed handovers.

What the success path of `CHO_Phase7_ExecutionComplete` writes twice (`CHO_XN_CANCEL` before
`CHO_IDLE`) is written once.
-/

namespace NtnCho

/-! ## Small helpers -/

/-- `GetCachedSnr`. -/
def getCachedSnr (ue : UeInfo) (cellId : String) : ℚ :=
  ((ue.cached cellId).map UeSatMetrics.snrDb).getD (-999)

/-- `GetUuDelayForUe`. -/
def getUuDelayForUe (ue : UeInfo) (satName : String) : ℚ :=
  match ue.cached satName with
  | some metrics => metrics.distance / speedOfLight
  | none => 0.010

/-- `CHO_IsLinkViable`. -/
def choIsLinkViable (env : Env) (ue : UeInfo) (cellId : String) : Bool :=
  match ue.cached cellId with
  | none => false
  | some metrics =>
      if metrics.snrDb < env.ho.choNtnConfig.minViableSinr then false
      else if env.ho.choNtnConfig.maxViableDistance < metrics.distance / 1000 then false
      else if metrics.elevation < 0 then false
      else true

/-- `std::to_string` of a `double`: six decimals, a tie to the even digit. -/
def stdToString (x : ℚ) : String :=
  let scaled := |x| * 1000000
  let low := ⌊scaled⌋.natAbs
  let rest := scaled - low
  let n := if 1 / 2 < rest ∨ (rest = 1 / 2 ∧ low % 2 = 1) then low + 1 else low
  let decimals := toString (n % 1000000)
  (if x < 0 then "-" else "") ++ toString (n / 1000000) ++ "." ++
    String.ofList (List.replicate (6 - decimals.length) '0') ++ decimals

/-- `SetAttribute("ErrorRate", ...)` on both error models: the packet error rate of `metrics`, or 1
under an interruption. -/
def UeInfo.setErrorRate (env : Env) (metrics : UeSatMetrics) (ue : UeInfo) : UeInfo :=
  let interrupted := ue.hoState.interruptionActive
  let model : RateErrorModel :=
    { errorRate := if interrupted then 1 else packetErrorRate env.link metrics.snrDb
      underInterruption := interrupted }
  { ue with ulErrorModel := model, dlErrorModel := model }

/-- `ApplyUeErrorModelImmediately`. -/
def applyUeErrorModelImmediately (env : Env) (ue : UeInfo) : UeInfo :=
  if ue.context.servingGnb = "" then ue
  else
    match ue.cached ue.context.servingGnb with
    | none => ue
    | some metrics => ue.setErrorRate env metrics

/-- Update the statistics of the UE. -/
def UeInfo.count (P : Program) (op : StatOp) (ue : UeInfo) : UeInfo :=
  if P.perUeStats then { ue with choNtnStats := op.apply ue.choNtnStats } else ue

/-- A row of `cho-detailed-log.csv`. -/
def choLog (fields : List Field) : Effect := .record (.log (.csv "cho-detailed-log" fields))

/-! ## The phases -/

/-- `CHO_TriggerProcedure`. -/
def choTriggerProcedure (P : Program) (ueId : ℕ) (currentTime : ℚ) (report : MeasurementReport)
    (ue : UeInfo) : UeInfo × List Effect :=
  if ue.choProcState.phase ≠ .idle then (ue, [])
  else
    let sourceCell := report.servingCell.cellId
    let target := report.neighborCells.head?
    let targetCell := (target.map MeasResultCell.cellId).getD ""
    let targetSnrAtReport := (target.map MeasResultCell.sinr).getD (-999)
    let delay := getUuDelayForUe ue sourceCell + delayRrcProc
    let choState : UeChoProcedureState :=
      { ue.choProcState with
        phase := .measReportUplink
        sourceCell := sourceCell
        targetCell := targetCell
        procedureStartTime := currentTime
        phaseStartTime := currentTime
        failed := false
        failureReason := ""
        servingSnrAtReport := report.servingCell.sinr
        targetSnrAtReport := targetSnrAtReport
        measReportUplinkDelay := delay
        reconfigDownlinkDelay := delay }
    ({ ue with choProcState := choState }.count P (.report currentTime),
      [.stat (.report currentTime),
        choLog [.num currentTime, .nat ueId, .str "CHO_TRIGGERED", .str sourceCell, .str targetCell,
          .num report.servingCell.sinr, .num targetSnrAtReport, .num (delay * 1000), .empty,
          .str "START"],
        .schedule delay .phase1ReportArrived ueId sourceCell targetCell])

/-- The shape of a phase handler that is guarded by `expected`, enters `next` and schedules
`handler`. -/
def choAdvance (expected next : ChoPhase) (delay : ℚ) (handler : ChoHandler) (ueId : ℕ)
    (sourceCell targetCell : String) (currentTime : ℚ) (ue : UeInfo) : UeInfo × List Effect :=
  if ue.choProcState.phase ≠ expected then (ue, [])
  else
    ({ ue with choProcState := { ue.choProcState with phase := next, phaseStartTime := currentTime } },
      [.schedule delay handler ueId sourceCell targetCell])

/-- `CHO_Phase1_ReportArrived`. -/
def choPhase1ReportArrived (ueId : ℕ) (sourceCell targetCell : String) (currentTime : ℚ) :
    UeInfo → UeInfo × List Effect :=
  choAdvance .measReportUplink .gnbChoDecision 0.001 .phase2SendXnRequest ueId sourceCell targetCell
    currentTime

/-- `CHO_Phase2_SendXnRequest`. -/
def choPhase2SendXnRequest (env : Env) (ueId : ℕ) (sourceCell targetCell : String)
    (currentTime : ℚ) : UeInfo → UeInfo × List Effect :=
  let islDelay := getIslDelay env.link sourceCell targetCell currentTime
  choAdvance .gnbChoDecision .xnRequest (islDelay + 0.002) .phase3XnResponse ueId sourceCell
    targetCell currentTime

/-- `CHO_Phase3_XnResponse`. -/
def choPhase3XnResponse (env : Env) (ueId : ℕ) (sourceCell targetCell : String)
    (currentTime : ℚ) : UeInfo → UeInfo × List Effect :=
  let islDelay := getIslDelay env.link targetCell sourceCell currentTime
  choAdvance .xnRequest .xnResponse (islDelay + 0.001) .phase4SendRrcReconfig ueId sourceCell
    targetCell currentTime

/-- `CHO_Phase4_SendRrcReconfig`. -/
def choPhase4SendRrcReconfig (P : Program) (ueId : ℕ) (sourceCell targetCell : String)
    (currentTime : ℚ) (ue : UeInfo) : UeInfo × List Effect :=
  if ue.choProcState.phase ≠ .xnResponse then (ue, [])
  else
    let choState : UeChoProcedureState :=
      { ue.choProcState with phase := .rrcReconfigDownlink, phaseStartTime := currentTime }
    ({ ue with choProcState := choState }.count P .configSent,
      [.stat .configSent,
        .schedule choState.reconfigDownlinkDelay .phase5UeStoresConfig ueId sourceCell targetCell])

/-- `CHO_Phase5_UeStoresConfig`. -/
def choPhase5UeStoresConfig (P : Program) (env : Env) (ueId : ℕ) (sourceCell targetCell : String)
    (currentTime : ℚ) (ue : UeInfo) : UeInfo × List Effect :=
  if ue.choProcState.phase ≠ .rrcReconfigDownlink then (ue, [])
  else
    let configExpiryTime := currentTime + env.ho.choNtnConfig.configValidityPeriod
    let choState : UeChoProcedureState :=
      { ue.choProcState with
        phase := .ueEvaluating
        phaseStartTime := currentTime
        configReceivedTime := currentTime
        configExpiryTime := configExpiryTime
        executionTttActive := false
        executionTttStartTime := -1
        executionTimeToTrigger := env.ho.choNtnConfig.executionTimeToTrigger }
    let choConfig : ChoConfiguration :=
      { targetCellId := targetCell
        configurationTime := currentTime
        isValid := true
        expiryTime := configExpiryTime }
    let choConfigState : UeChoConfigState :=
      { ue.choConfigState with
        choConfigs := ue.choConfigState.choConfigs.insert targetCell choConfig
        choConfigsReceived := ue.choConfigState.choConfigsReceived + 1 }
    ({ ue with choProcState := choState, choConfigState := choConfigState }.count P .configReceived,
      [.stat .configReceived,
        choLog [.num currentTime, .nat ueId, .str "CONFIG_STORED", .str sourceCell, .str targetCell,
          .empty, .empty, .empty, .empty, .str "STORED_ACK"]])

/-- `totalExecutionTime`: the way to the source, processing and beam switch, and the random access
at the target. -/
def totalExecutionTime (ue : UeInfo) (sourceCell targetCell : String) : ℚ :=
  let ueProcessing := delayRrcProc + delayBeamSwitch
  let rachDuration := getUuDelayForUe ue targetCell * 4 + 0.020
  getUuDelayForUe ue sourceCell + ueProcessing + rachDuration

/-- `CHO_Phase6_UeExecutes`. -/
def choPhase6UeExecutes (P : Program) (env : Env) (ueId : ℕ) (sourceCell targetCell : String)
    (currentTime : ℚ) (ue : UeInfo) : UeInfo × List Effect :=
  if ue.choProcState.phase ≠ .ueEvaluating then (ue, [])
  else
    let choConfigState : UeChoConfigState :=
      { ue.choConfigState with
        executionPending := true
        executionTargetCell := targetCell
        executionTriggerTime := currentTime }
    let choState : UeChoProcedureState :=
      { ue.choProcState with
        phase := .ueExecuting
        phaseStartTime := currentTime
        executionStartTime := currentTime
        servingSnrAtExecution :=
          ((ue.cached sourceCell).map UeSatMetrics.snrDb).getD
            ue.choProcState.servingSnrAtExecution
        targetSnrAtExecution :=
          ((ue.cached targetCell).map UeSatMetrics.snrDb).getD
            ue.choProcState.targetSnrAtExecution }
    let executing : UeInfo :=
      { ue with
        choConfigState := choConfigState
        choProcState := choState
        hoState := { ue.hoState with interruptionActive := true } }
    let delay := totalExecutionTime ue sourceCell targetCell
    (applyUeErrorModelImmediately env (executing.count P .executionTriggered),
      [.stat .executionTriggered,
        choLog [.num currentTime, .nat ueId, .str "EXECUTION_TRIGGERED", .str sourceCell,
          .str targetCell, .num choState.servingSnrAtExecution, .num choState.targetSnrAtExecution,
          .num (delay * 1000), .empty, .str "AUTONOMOUS"],
        .schedule delay .phase7ExecutionComplete ueId sourceCell targetCell])

/-- `CHO_HandleFailure`. -/
def choHandleFailure (P : Program) (ueId : ℕ) (reason : String) (failureTime : ℚ) (ue : UeInfo) :
    UeInfo × List Effect :=
  let totalDelay := failureTime - ue.choProcState.procedureStartTime
  ({ ue with
      hoFail := ue.hoFail + 1
      hoState := { ue.hoState with interruptionActive := false }
      choConfigState := { ue.choConfigState with choConfigs := ∅ }
      hoContext := resetHoContext
      choProcState :=
        { ue.choProcState with phase := .idle, failed := true, failureReason := reason } },
    [.record (.log (P.failureLine ueId failureTime reason ue)),
      choLog [.num failureTime, .nat ueId, .str "CHO_FAILURE", .str ue.choProcState.sourceCell,
        .str ue.choProcState.targetCell, .empty, .empty, .empty, .num (totalDelay * 1000),
        .str reason]])

/-- The `[HO_RESULT]` line of a completed handover, when `hoContext` belongs to it. -/
def hoResult (ueId : ℕ) (sourceCell targetCell : String) (currentTime targetSnr : ℚ)
    (hoContext : HoContext) : List Effect :=
  if hoContext.valid = true ∧ hoContext.sourceCellId = sourceCell ∧
      hoContext.targetCellId = targetCell then
    [.record (.log (.stdout "HO_RESULT"
      ([("ue", .nat ueId), ("t", .fixed 3 currentTime),
        ("pre_serving_sinr", .fixed 2 hoContext.preServingSnr),
        ("pre_neighbor_sinr", .fixed 2 hoContext.preNeighborSnr),
        ("post_serving_sinr", .fixed 2 targetSnr),
        ("sinr_gain", .fixed 2 (targetSnr - hoContext.preServingSnr)),
        ("decision_delay", .fixed 3 (currentTime - hoContext.decisionTime))] ++
        if hoContext.triggerType = "" then []
        else [("trigger_type", .str hoContext.triggerType)])))]
  else []

/-- The UE after a completed handover to `targetCell`. -/
def UeInfo.handedOver (targetCell : String) (ue : UeInfo) : UeInfo :=
  { ue with
    hoCount := ue.hoCount + 1
    context := { ue.context with servingGnb := targetCell }
    measState :=
      { ue.measState with
        servingCellId := targetCell
        triggerActive := false
        triggerStartTime := -1
        candidateTargetCell := ""
        lastMeasurements := ∅ }
    choConfigState :=
      { ue.choConfigState with
        executionPending := false, executionTargetCell := "", choConfigs := ∅ }
    hoState := { ue.hoState with interruptionActive := false } }

/-- The end of `CHO_Phase7_ExecutionComplete`. -/
def UeInfo.completed (ue : UeInfo) : UeInfo :=
  { ue with
    hoContext := resetHoContext
    choProcState := { ue.choProcState with phase := .idle, failed := false } }

/-- `CHO_Phase7_ExecutionComplete`. -/
def choPhase7ExecutionComplete (P : Program) (env : Env) (ueId : ℕ)
    (sourceCell targetCell : String) (currentTime : ℚ) (ue : UeInfo) : UeInfo × List Effect :=
  if ue.choProcState.phase ≠ .ueExecuting then (ue, [])
  else
    let servingSnr := getCachedSnr ue sourceCell
    let targetSnr := getCachedSnr ue targetCell
    if choIsLinkViable env ue targetCell then
      let totalProcedureDelay := currentTime - ue.choProcState.configReceivedTime
      let executionOnlyDelay := currentTime - ue.choProcState.executionStartTime
      let success := StatOp.success totalProcedureDelay executionOnlyDelay
      let snrImprovement := targetSnr - ue.choProcState.servingSnrAtReport
      let ue' :=
        applyUeErrorModelImmediately env ((ue.count P success).handedOver targetCell)
      (ue'.completed,
        [.stat success, .handoverCount] ++
          hoResult ueId sourceCell targetCell currentTime targetSnr ue.hoContext ++
          [.record (.log (.stdout "CHO HANDOVER COMPLETE"
              [("ue", .nat ueId), ("source", .str sourceCell), ("target", .str targetCell)])),
            -- the UE number stands in the event name, so this row has nine fields
            choLog [.num currentTime, .str ("CHO_SUCCESS_UE" ++ toString ueId), .str sourceCell,
              .str targetCell, .num servingSnr, .num targetSnr, .num (totalProcedureDelay * 1000),
              .num snrImprovement, .str "COMPLETE"]])
    else
      let reason := "TARGET_NOT_VIABLE (SINR=" ++ stdToString targetSnr ++ " dB)"
      let (ue', effects) :=
        choHandleFailure P ueId reason currentTime (ue.count P .failedAtExecution)
      (ue', .stat .failedAtExecution :: effects)

/-- The handlers of the scheduled phases. -/
def choHandler (P : Program) (env : Env) (handler : ChoHandler) (ueId : ℕ)
    (sourceCell targetCell : String) (currentTime : ℚ) (ue : UeInfo) : UeInfo × List Effect :=
  match handler with
  | .phase1ReportArrived => choPhase1ReportArrived ueId sourceCell targetCell currentTime ue
  | .phase2SendXnRequest => choPhase2SendXnRequest env ueId sourceCell targetCell currentTime ue
  | .phase3XnResponse => choPhase3XnResponse env ueId sourceCell targetCell currentTime ue
  | .phase4SendRrcReconfig => choPhase4SendRrcReconfig P ueId sourceCell targetCell currentTime ue
  | .phase5UeStoresConfig => choPhase5UeStoresConfig P env ueId sourceCell targetCell currentTime ue
  | .phase7ExecutionComplete =>
      choPhase7ExecutionComplete P env ueId sourceCell targetCell currentTime ue

/-! ## The execution condition -/

/-- The expiry branch of `CHO_CheckExecutionCondition`. -/
def choConfigExpired (P : Program) (ue : UeInfo) : UeInfo × List Effect :=
  ({ ue with
      choProcState := { ue.choProcState with phase := .idle }
      choConfigState := { ue.choConfigState with choConfigs := ∅ }
      hoContext := if P.resetContextOnExpiry then resetHoContext else ue.hoContext }.count P
    .configExpired,
    [.stat .configExpired])

/-- `conditionMet`, when both cells are cached. -/
def conditionMet? (P : Program) (env : Env) (currentTime : ℚ) (ue : UeInfo) : Option Bool :=
  let servingCell := ue.choProcState.sourceCell
  let targetCell := ue.choProcState.targetCell
  match ue.cached servingCell, ue.cached targetCell with
  | some serving, some target =>
      some (P.executionCondition env currentTime servingCell targetCell serving target)
  | _, _ => none

/-- The timer of the execution condition, set to `active` since `start`. -/
def UeInfo.setExecutionTtt (active : Bool) (start : ℚ) (ue : UeInfo) : UeInfo :=
  { ue with
    choProcState :=
      { ue.choProcState with executionTttActive := active, executionTttStartTime := start } }

/-- `CHO_CheckExecutionCondition`. -/
def choCheckExecutionCondition (P : Program) (env : Env) (ueId : ℕ) (currentTime : ℚ)
    (ue : UeInfo) : UeInfo × List Effect :=
  let choState := ue.choProcState
  if choState.phase ≠ .ueEvaluating then (ue, [])
  else if choState.configExpiryTime < currentTime then choConfigExpired P ue
  else
    match conditionMet? P env currentTime ue with
    | none => (ue, [])
    | some false => (ue.setExecutionTtt false (-1), [])
    | some true =>
        if !choState.executionTttActive then (ue.setExecutionTtt true currentTime, [])
        else if choState.executionTimeToTrigger ≤ currentTime - choState.executionTttStartTime then
          choPhase6UeExecutes P env ueId choState.sourceCell choState.targetCell currentTime
            (ue.setExecutionTtt false choState.executionTttStartTime)
        else (ue, [])

/-! ## The steps of a tick -/

/-- The initial selection of `UpdateChannelState`, for a UE without a serving satellite. -/
def UeInfo.selectServing (P : Program) (env : Env) (simTime : ℚ) (ue : UeInfo) : UeInfo :=
  if ue.context.servingGnb = "" then
    let bestSat := P.selectBestSatellite env simTime ue ""
    if bestSat = "" then ue
    else
      { ue with
        context := { ue.context with servingGnb := bestSat }
        measState := { ue.measState with servingCellId := bestSat } }
  else ue

/-- The delay and the packet error rate that `UpdateChannelState` sets from the cached metrics of the
serving satellite. -/
def UeInfo.setChannel (env : Env) (ue : UeInfo) : UeInfo :=
  if ue.context.servingGnb = "" then ue
  else
    match ue.cached ue.context.servingGnb with
    | none => ue
    | some metrics =>
        { ue.setErrorRate env metrics with p2pDelay := metrics.distance / speedOfLight }

/-- The body of `UpdateChannelState`. -/
def updateChannelState (P : Program) (env : Env) (simTime : ℚ) (ue : UeInfo) : UeInfo :=
  (ue.selectServing P env simTime).setChannel env

/-- Re-selection after a radio-link failure: the UE is left without a serving cell. -/
def UeInfo.forceReselection (ue : UeInfo) : UeInfo :=
  { ue with
    context := { ue.context with servingGnb := "" }
    measState := { ue.measState with servingCellId := "", triggerActive := false } }

/-- What `CheckHandover` does with a report. -/
def handleReport (P : Program) (ueId : ℕ) (simTime : ℚ) (report : MeasurementReport)
    (ue : UeInfo) : UeInfo × List Effect :=
  if P.reselectOnRlf then
    if report.eventType = "RLF" then (ue.forceReselection, [])
    else if report.neighborCells ≠ [] then choTriggerProcedure P ueId simTime report ue
    else (ue, [])
  else choTriggerProcedure P ueId simTime report ue

/-- `CheckHandover` up to the measurement: the serving cell becomes `servingCellId`. -/
def UeInfo.adoptServingCell (simTime : ℚ) (ue : UeInfo) : UeInfo :=
  let activeSat := ue.context.servingGnb
  if ue.measState.servingCellId = "" ∨ ue.measState.servingCellId ≠ activeSat then
    { ue with
      measState :=
        { ue.measState with
          servingCellId := activeSat
          lastMeasurementTime := simTime
          triggerActive := false
          triggerStartTime := -1
          candidateTargetCell := "" } }
  else ue

/-- `lastMeasurementTime` of a measurement that is due. -/
def UeInfo.startMeasurement (simTime : ℚ) (ue : UeInfo) : UeInfo :=
  { ue with measState := { ue.measState with lastMeasurementTime := simTime } }

/-- The measurement of `CheckHandover`, with the report handled. -/
def measureAndReport (P : Program) (env : Env) (ueId : ℕ) (simTime : ℚ) (due : UeInfo) :
    UeInfo × List Effect :=
  let (evaluated, report, records) := ueEvaluateAndReport P env ueId simTime due
  match report with
  | none => (evaluated, records.map .record)
  | some report =>
      let (ue', effects) := handleReport P ueId simTime report evaluated
      (ue', records.map .record ++ effects)

/-- `CheckHandover`. -/
def checkHandover (P : Program) (env : Env) (ueId : ℕ) (simTime : ℚ) (ue : UeInfo) :
    UeInfo × List Effect :=
  if ue.choProcState.phase ≠ .idle then
    if ue.choProcState.phase = .ueEvaluating then choCheckExecutionCondition P env ueId simTime ue
    else (ue, [])
  else if ue.hoState.currentPhase ≠ .idle then (ue, [])
  else if ue.context.servingGnb = "" then (ue, [])
  else
    let adopted := ue.adoptServingCell simTime
    if simTime - adopted.measState.lastMeasurementTime < adopted.measConfig.measurementPeriod then
      (adopted, [])
    else measureAndReport P env ueId simTime (adopted.startMeasurement simTime)

end NtnCho
