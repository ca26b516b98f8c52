import NtnCho.SnrCho

/-!
# Elevation-CHO

The program of `MultiUE-CHO-elevation`: the best neighbour stands highest and is reported when it comes
within the reporting offset of the serving cell; it is executed when it stands higher by the execution
offset while the serving satellite is above the horizon.
-/

namespace NtnCho

namespace Elevation

/-- `UE_EvaluateCHOPreparationCondition`. -/
def ueEvaluateCHOPreparationCondition (serving neighbor : MeasResultCell) (reportingOffset : ℚ) :
    Bool :=
  decide (serving.elevation - reportingOffset < neighbor.elevation)

/-- `UE_EvaluateNtnTriggers`. -/
def ueEvaluateNtnTriggers (_serving : MeasResultCell) : Bool := false

/-- The variables of the loop over the measured cells. -/
structure NeighborScan where
  lastMeasurements : StdMap MeasResultCell
  bestNeighbor : Option MeasResultCell
  bestElev : ℚ

/-- The body of the loop over the measured cells. -/
def scanNeighbor (servingCellId : String) (scan : NeighborScan) (meas : MeasResultCell) :
    NeighborScan :=
  if meas.cellId = servingCellId then scan
  else
    let higher := scan.bestElev < meas.elevation
    { lastMeasurements := scan.lastMeasurements.insert meas.cellId meas
      bestNeighbor := if higher then some meas else scan.bestNeighbor
      bestElev := if higher then meas.elevation else scan.bestElev }

/-- The loop over the measured cells. -/
def scanNeighbors (ue : UeInfo) (measurements : List MeasResultCell) : NeighborScan :=
  measurements.foldl (scanNeighbor ue.measState.servingCellId)
    { lastMeasurements := ue.measState.lastMeasurements
      bestNeighbor := none
      bestElev := -180 }

/-- The middle part of `UE_EvaluateAndReport`. The `[HO_DEBUG]` line is that of SNR-CHO. -/
def evaluateNeighbors (env : Env) (ueId : ℕ) (simTime : ℚ) (ue : UeInfo)
    (serving : MeasResultCell) (measurements : List MeasResultCell) : Evaluation :=
  let scan := scanNeighbors ue measurements
  let ntnTrigger := ueEvaluateNtnTriggers serving
  match scan.bestNeighbor with
  | none =>
      { phy := ue.phy
        lastMeasurements := scan.lastMeasurements
        hoContext := ue.hoContext
        bestNeighbor := none
        ntnTrigger := ntnTrigger
        triggerConditionMet := ntnTrigger
        betterNeighborAvailable := false
        records := [] }
  | some neighbor =>
      let eventA3Triggered :=
        ueEvaluateCHOPreparationCondition serving neighbor env.ho.reportingOffset
      { phy := ue.phy
        lastMeasurements := scan.lastMeasurements
        hoContext :=
          if eventA3Triggered then
            { preServingSnr := serving.sinr
              preNeighborSnr := neighbor.sinr
              decisionTime := simTime
              valid := true
              sourceCellId := serving.cellId
              targetCellId := neighbor.cellId
              triggerType := "A3" }
          else resetHoContext
        bestNeighbor := some neighbor
        ntnTrigger := ntnTrigger
        triggerConditionMet := ntnTrigger || eventA3Triggered
        betterNeighborAvailable := true
        records :=
          [.log (SnrCho.hoDebug ueId simTime eventA3Triggered serving neighbor),
            .predictionEval
              { ueId := ueId
                servingCell := serving.cellId
                neighborCell := neighbor.cellId
                decisionTime := simTime
                evalTime := simTime + env.ho.predictionEvalDelay }] }

/-- `conditionMet` of `CHO_CheckExecutionCondition`, on the cached elevations. -/
def executionCondition (env : Env) (_currentTime : ℚ) (_servingCell _targetCell : String)
    (serving target : UeSatMetrics) : Bool :=
  let elevImprovement := target.elevation - serving.elevation
  decide (env.ho.choExecutionOffset ≤ elevImprovement) && decide (0 ≤ serving.elevation)

/-- The body of the loop of `SelectBestSatellite`. -/
def selectBetter (env : Env) (simTime : ℚ) (best : String × ℚ)
    (entry : String × ℚ × UeSatMetrics) : String × ℚ :=
  let metrics := entry.2.2
  if metrics.elevation < 0 then best
  else if ended (env.link.trajectory entry.1) simTime then best
  else if metrics.snrDb < -6 then best
  else if best.2 < metrics.elevation then (entry.1, metrics.elevation)
  else best

/-- `SelectBestSatellite`. -/
def selectBestSatellite (env : Env) (simTime : ℚ) (ue : UeInfo) (currentSat : String) : String :=
  let currentElev := ((ue.cached currentSat).map UeSatMetrics.elevation).getD (-180)
  let best := ue.phy.channel.channelCache.toList.foldl (selectBetter env simTime) (currentSat, -180)
  if best.1 ≠ currentSat ∧ best.2 - currentElev < env.ho.choExecutionOffset then currentSat
  else best.1

/-- What `CHO_HandleFailure` prints. -/
def failureLine (ueId : ℕ) (_failureTime : ℚ) (reason : String) (_ue : UeInfo) : LogLine :=
  .stdout "CHO HANDOVER FAILED" [("ue", .nat ueId), ("reason", .str reason)]

end Elevation

/-- The Elevation-CHO simulator. `UpdateSatelliteState` is that of SNR-CHO, word for word. -/
def elevationCho : Program where
  phyRules := SnrCho.phyRules
  snrFloor _ := -6
  evaluateNeighbors := Elevation.evaluateNeighbors
  ntnReason := "NTN distance threshold exceeded"
  choPrepReason := "CHO Phase-1 MR triggered"
  executionCondition := Elevation.executionCondition
  selectBestSatellite := Elevation.selectBestSatellite
  failureLine := Elevation.failureLine
  perUeStats := false
  resetContextOnExpiry := false
  reselectOnRlf := true

end NtnCho
