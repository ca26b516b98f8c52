import NtnCho.SnrCho

/-!
# Distance-CHO

The program of `MultiUE-CHO-distance`: the best neighbour is the closest one and is reported when it
comes within the reporting offset of the serving cell. A radio-link failure clears the serving
satellite, and the next channel update selects the closest satellite that is in reach.
-/

namespace NtnCho

namespace Distance

/-- `UE_EvaluateCHOPreparationCondition`. -/
def ueEvaluateCHOPreparationCondition (serving neighbor : MeasResultCell) (reportingOffset : ℚ) :
    Bool :=
  decide (neighbor.distance / 1000 < serving.distance / 1000 + reportingOffset)

/-- `UE_EvaluateNtnTriggers`. -/
def ueEvaluateNtnTriggers (_serving : MeasResultCell) : Bool := false

/-- The variables of the loop over the measured cells. -/
structure NeighborScan where
  lastMeasurements : StdMap MeasResultCell
  bestNeighbor : Option MeasResultCell
  bestDist : ℚ

/-- The body of the loop over the measured cells. -/
def scanNeighbor (servingCellId : String) (scan : NeighborScan) (meas : MeasResultCell) :
    NeighborScan :=
  if meas.cellId = servingCellId then scan
  else
    let closer := meas.distance < scan.bestDist
    { lastMeasurements := scan.lastMeasurements.insert meas.cellId meas
      bestNeighbor := if closer then some meas else scan.bestNeighbor
      bestDist := if closer then meas.distance else scan.bestDist }

/-- The loop over the measured cells. -/
def scanNeighbors (ue : UeInfo) (measurements : List MeasResultCell) : NeighborScan :=
  measurements.foldl (scanNeighbor ue.measState.servingCellId)
    { lastMeasurements := ue.measState.lastMeasurements
      bestNeighbor := none
      bestDist := 1000000000000000000 }

/-- The middle part of `UE_EvaluateAndReport`. The `[HO_DEBUG]` line is that of SNR-CHO. -/
def evaluateNeighbors (env : Env) (ueId : ℕ) (simTime : ℚ) (ue : UeInfo)
    (serving : MeasResultCell) (measurements : List MeasResultCell) : Evaluation :=
  let scan := scanNeighbors ue measurements
  let ntnTrigger := ueEvaluateNtnTriggers serving
  match scan.bestNeighbor with
  | none =>
      { phy := ue.phy
        lastMeasurements := scan.lastMeasurements
        hoContext := ue.hoContext
        bestNeighbor := none
        ntnTrigger := ntnTrigger
        triggerConditionMet := ntnTrigger
        betterNeighborAvailable := false
        records := [] }
  | some neighbor =>
      let eventA3Triggered :=
        ueEvaluateCHOPreparationCondition serving neighbor env.ho.reportingOffset
      { phy := ue.phy
        lastMeasurements := scan.lastMeasurements
        hoContext :=
          if eventA3Triggered then
            { preServingSnr := serving.sinr
              preNeighborSnr := neighbor.sinr
              decisionTime := simTime
              valid := true
              sourceCellId := serving.cellId
              targetCellId := neighbor.cellId
              triggerType := "A3" }
          else resetHoContext
        bestNeighbor := some neighbor
        ntnTrigger := ntnTrigger
        triggerConditionMet := ntnTrigger || eventA3Triggered
        betterNeighborAvailable := true
        records :=
          [.log (SnrCho.hoDebug ueId simTime eventA3Triggered serving neighbor),
            .predictionEval
              { ueId := ueId
                servingCell := serving.cellId
                neighborCell := neighbor.cellId
                decisionTime := simTime
                evalTime := simTime + env.ho.predictionEvalDelay }] }

/-- `conditionMet` of `CHO_CheckExecutionCondition`. -/
def executionCondition (env : Env) (_currentTime : ℚ) (_servingCell _targetCell : String)
    (serving target : UeSatMetrics) : Bool :=
  let distImprovement := serving.distance / 1000 - target.distance / 1000
  decide (env.ho.choExecutionOffset ≤ distImprovement) &&
    decide (serving.distance / 1000 < env.ho.maxDistance)

/-- `SelectBestSatellite` takes the satellite into account. -/
def selectable (env : Env) (simTime : ℚ) (satName : String) (metrics : UeSatMetrics) : Bool :=
  !decide (metrics.elevation < 0) && !ended (env.link.trajectory satName) simTime &&
    !decide (env.ho.maxDistance < metrics.distance / 1000) && !decide (metrics.snrDb < -6)

/-- The body of the loop of `SelectBestSatellite`. -/
def selectBetter (env : Env) (simTime : ℚ) (best : String × ℚ)
    (entry : String × ℚ × UeSatMetrics) : String × ℚ :=
  let metrics := entry.2.2
  if selectable env simTime entry.1 metrics = false then best
  else if metrics.distance < best.2 then (entry.1, metrics.distance)
  else best

/-- `SelectBestSatellite`. -/
def selectBestSatellite (env : Env) (simTime : ℚ) (ue : UeInfo) (currentSat : String) : String :=
  let currentDist := ((ue.cached currentSat).map UeSatMetrics.distance).getD 1000000000000000000
  let best := ue.phy.channel.channelCache.toList.foldl (selectBetter env simTime)
    (currentSat, 1000000000000000000)
  if best.1 ≠ currentSat ∧ currentDist / 1000 - best.2 / 1000 < env.ho.choExecutionOffset then
    currentSat
  else best.1

/-- What `CHO_HandleFailure` prints. -/
def failureLine (ueId : ℕ) (_failureTime : ℚ) (reason : String) (_ue : UeInfo) : LogLine :=
  .stdout "CHO HANDOVER FAILED" [("ue", .nat ueId), ("reason", .str reason)]

end Distance

/-- The Distance-CHO simulator. `UpdateSatelliteState` is that of SNR-CHO, word for word. -/
def distanceCho : Program where
  phyRules := SnrCho.phyRules
  snrFloor _ := -6
  evaluateNeighbors := Distance.evaluateNeighbors
  ntnReason := "NTN distance threshold exceeded"
  choPrepReason := "CHO Phase-1 MR triggered"
  executionCondition := Distance.executionCondition
  selectBestSatellite := Distance.selectBestSatellite
  failureLine := Distance.failureLine
  perUeStats := false
  resetContextOnExpiry := false
  reselectOnRlf := true

end NtnCho
