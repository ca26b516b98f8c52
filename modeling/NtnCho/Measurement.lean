import NtnCho.Channel

/-!
# Measurements and measurement reports

`UE_EvaluateAndReport` and what it calls. The programs share its frame: the early exits without a
serving cell, the measurements, and the time-to-trigger logic at the end. In between each program
selects a best neighbour and evaluates its trigger; `Program.evaluateNeighbors` is that part, and
`Evaluation` what it leaves to the time-to-trigger logic.

`Program` collects what else the simulators do differently in the handover procedure.
-/

namespace NtnCho

/-! ## Measurements -/

/-- The cached metrics of a cell. -/
def UeInfo.cached (ue : UeInfo) (cellId : String) : Option UeSatMetrics :=
  ue.phy.channel.channelCache[cellId]?.map Prod.snd

/-- `UE_MeasureCell`. -/
def ueMeasureCell (env : Env) (simTime : ℚ) (ue : UeInfo) (cellId : String) : MeasResultCell :=
  match ue.cached cellId with
  | none =>
      { cellId := cellId
        rsrp := -150
        rsrq := -30
        sinr := -20
        distance := 1000000000
        elevation := -90
        dopplerShift := 0
        measurementTime := simTime }
  | some metrics =>
      let noiseFloor := -174 + 10 * env.link.libm.log10 env.link.bandwidth + env.link.noiseFigure
      { cellId := cellId
        rsrp := noiseFloor + metrics.snrDb
        rsrq := metrics.snrDb - 3
        sinr := metrics.snrDb
        distance := metrics.distance
        elevation := metrics.elevation
        dopplerShift := metrics.dopplerShift
        measurementTime := simTime }

/-- The three filters of `UE_PerformMeasurements`: above the horizon, trajectory not ended, SNR not
below `snrFloor`. -/
def detectable (snrFloor : ℚ) (env : Env) (simTime : ℚ) (cellId : String)
    (metrics : UeSatMetrics) : Bool :=
  !decide (metrics.elevation < 0) && !ended (env.link.trajectory cellId) simTime &&
    !decide (metrics.snrDb < snrFloor)

/-- `UE_PerformMeasurements`. -/
def uePerformMeasurements (snrFloor : ℚ) (env : Env) (simTime : ℚ) (ue : UeInfo) :
    List MeasResultCell :=
  (ue.phy.channel.channelCache.toList.filter fun entry =>
    detectable snrFloor env simTime entry.1 entry.2.2).map fun entry =>
      ueMeasureCell env simTime ue entry.1

/-! ## What the programs do differently -/

/-- The outcome of the neighbour selection and the trigger of a program. -/
structure Evaluation where
  phy : Phy
  lastMeasurements : StdMap MeasResultCell
  hoContext : HoContext
  bestNeighbor : Option MeasResultCell
  ntnTrigger : Bool
  triggerConditionMet : Bool
  betterNeighborAvailable : Bool
  records : List RecordEffect

/-- A multi-UE CHO simulator.

`snrFloor` is the SNR below which a cell is not measured; `evaluateNeighbors` the middle part of
`UE_EvaluateAndReport` for a UE number, a time, the UE, its serving cell and all measured cells;
`ntnReason` and `choPrepReason` the reasons in a report; `executionCondition` the Phase-2 condition
on the two cells and their cached metrics; `selectBestSatellite` the initial selection;
`failureLine` what a failed execution prints. `perUeStats` says whether the UE keeps statistics of
its own, `resetContextOnExpiry` whether an expired configuration resets `hoContext`, and
`reselectOnRlf` whether `CheckHandover` re-selects after a radio-link failure and ignores a report
without neighbours. -/
structure Program where
  phyRules : PhyRules
  snrFloor : HandoverParams → ℚ
  evaluateNeighbors : Env → ℕ → ℚ → UeInfo → MeasResultCell → List MeasResultCell → Evaluation
  ntnReason : String
  choPrepReason : String
  executionCondition : Env → ℚ → String → String → UeSatMetrics → UeSatMetrics → Bool
  selectBestSatellite : Env → ℚ → UeInfo → String → String
  failureLine : ℕ → ℚ → String → UeInfo → LogLine
  perUeStats : Bool
  resetContextOnExpiry : Bool
  reselectOnRlf : Bool

/-! ## Reports -/

/-- The report of a serving cell that is not detectable. -/
def rlfReport (simTime : ℚ) (servingCellId : String) : MeasurementReport where
  reportTime := simTime
  servingCell :=
    { cellId := servingCellId
      rsrp := 0
      rsrq := 0
      sinr := -999
      distance := 0
      elevation := 0
      dopplerShift := 0
      measurementTime := simTime }
  neighborCells := []
  eventType := "RLF"
  triggerReason := "Radio Link Failure - serving cell not detectable"
  servingCellBelowThreshold := true
  betterNeighborAvailable := false

/-- The report at the end of a time-to-trigger window. -/
def measurementReport (P : Program) (simTime : ℚ) (servingMeas : MeasResultCell)
    (evaluation : Evaluation) : MeasurementReport where
  reportTime := simTime
  servingCell := servingMeas
  neighborCells := evaluation.bestNeighbor.toList
  eventType := if evaluation.ntnTrigger then "NTN_CRITICAL" else "CHO_PREP"
  triggerReason := if evaluation.ntnTrigger then P.ntnReason else P.choPrepReason
  servingCellBelowThreshold := evaluation.ntnTrigger
  betterNeighborAvailable := evaluation.betterNeighborAvailable

def Evaluation.candidateCell (evaluation : Evaluation) : String :=
  (evaluation.bestNeighbor.map MeasResultCell.cellId).getD ""

/-- The time-to-trigger logic of `UE_EvaluateAndReport`. -/
def timeToTrigger (P : Program) (simTime : ℚ) (servingMeas : MeasResultCell)
    (evaluation : Evaluation) (ue : UeInfo) : UeInfo × Option MeasurementReport :=
  let measState := ue.measState
  let restarted : UeMeasurementState :=
    { measState with
      triggerActive := true
      triggerStartTime := simTime
      candidateTargetCell := evaluation.candidateCell }
  if evaluation.triggerConditionMet then
    if !measState.triggerActive then ({ ue with measState := restarted }, none)
    else if !evaluation.ntnTrigger && evaluation.candidateCell != measState.candidateTargetCell then
      ({ ue with measState := restarted }, none)
    else if ue.measConfig.timeToTrigger ≤ simTime - measState.triggerStartTime then
      ({ ue with
          measState :=
            { measState with
              reportsSent := measState.reportsSent + 1
              lastReportTime := simTime
              triggerActive := false } },
        some (measurementReport P simTime servingMeas evaluation))
    else (ue, none)
  else
    ({ ue with
        measState :=
          { measState with
            triggerActive := false, triggerStartTime := -1, candidateTargetCell := "" }
        hoContext := resetHoContext },
      none)

/-- The serving cell among the measured cells. -/
def servingMeasurement (measurements : List MeasResultCell) (servingCellId : String) :
    Option MeasResultCell :=
  measurements.find? fun meas => meas.cellId == servingCellId

/-- The UE as `evaluateNeighbors` gets it: the serving cell is in `lastMeasurements`. -/
def UeInfo.measured (ue : UeInfo) (servingMeas : MeasResultCell) : UeInfo :=
  { ue with
    measState :=
      { ue.measState with
        lastMeasurements :=
          ue.measState.lastMeasurements.insert ue.measState.servingCellId servingMeas } }

/-- The UE with what `evaluateNeighbors` leaves. -/
def UeInfo.evaluated (ue : UeInfo) (evaluation : Evaluation) : UeInfo :=
  { ue with
    phy := evaluation.phy
    measState := { ue.measState with lastMeasurements := evaluation.lastMeasurements }
    hoContext := evaluation.hoContext }

/-- `UE_EvaluateAndReport`, with the records it makes outside the UE. -/
def ueEvaluateAndReport (P : Program) (env : Env) (ueId : ℕ) (simTime : ℚ) (ue : UeInfo) :
    UeInfo × Option MeasurementReport × List RecordEffect :=
  let servingCellId := ue.measState.servingCellId
  if servingCellId = "" then ({ ue with hoContext := resetHoContext }, none, [])
  else
    let measurements := uePerformMeasurements (P.snrFloor env.ho) env simTime ue
    match servingMeasurement measurements servingCellId with
    | none =>
        ({ ue with hoContext := resetHoContext }, some (rlfReport simTime servingCellId), [])
    | some servingMeas =>
        let evaluation :=
          P.evaluateNeighbors env ueId simTime (ue.measured servingMeas) servingMeas measurements
        let (ue', report) :=
          timeToTrigger P simTime servingMeas evaluation (ue.evaluated evaluation)
        (ue', report, evaluation.records)

end NtnCho
