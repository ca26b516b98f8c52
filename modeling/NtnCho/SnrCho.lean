import NtnCho.Procedure

/-!
# SNR-CHO

The program of `MultiUE-CHO-SNR`: the best neighbour has the highest SNR and is reported when it
comes within the reporting offset of the serving cell.
-/

namespace NtnCho

namespace SnrCho

/-- `UpdateSatelliteState` has no test for gaps, and keeps no history. -/
def phyRules : PhyRules where
  inPass _ _ := true
  updateHistory _ _ _ _ snrHistory := snrHistory

/-- `UE_EvaluateCHOPreparationCondition`. -/
def ueEvaluateCHOPreparationCondition (serving neighbor : MeasResultCell) (reportingOffset : ℚ) :
    Bool :=
  decide (serving.sinr - reportingOffset < neighbor.sinr)

/-- `UE_EvaluateNtnTriggers`. -/
def ueEvaluateNtnTriggers (_serving : MeasResultCell) : Bool := false

/-- The variables of the loop over the measured cells. -/
structure NeighborScan where
  lastMeasurements : StdMap MeasResultCell
  bestNeighbor : Option MeasResultCell
  bestSnr : ℚ

/-- The body of the loop over the measured cells. -/
def scanNeighbor (servingCellId : String) (scan : NeighborScan) (meas : MeasResultCell) :
    NeighborScan :=
  if meas.cellId = servingCellId then scan
  else
    let better := scan.bestSnr < meas.sinr
    { lastMeasurements := scan.lastMeasurements.insert meas.cellId meas
      bestNeighbor := if better then some meas else scan.bestNeighbor
      bestSnr := if better then meas.sinr else scan.bestSnr }

/-- The loop over the measured cells. -/
def scanNeighbors (ue : UeInfo) (measurements : List MeasResultCell) : NeighborScan :=
  measurements.foldl (scanNeighbor ue.measState.servingCellId)
    { lastMeasurements := ue.measState.lastMeasurements
      bestNeighbor := none
      bestSnr := -999 }

/-- The `[HO_DEBUG]` line, its keys in printed order. -/
def hoDebug (ueId : ℕ) (simTime : ℚ) (eventA3Triggered : Bool)
    (serving neighbor : MeasResultCell) : LogLine :=
  .stdout "HO_DEBUG"
    [("ue", .nat ueId), ("t", .fixed 3 simTime), ("serving", .str serving.cellId),
      ("neighbor", .str neighbor.cellId), ("serving_sinr", .fixed 2 serving.sinr),
      ("neighbor_sinr", .fixed 2 neighbor.sinr), ("serving_trend", .fixed 2 0),
      ("neighbor_trend", .fixed 2 0), ("serving_dist", .fixed 2 serving.distance),
      ("neighbor_dist", .fixed 2 neighbor.distance), ("neighbor_dist_trend", .fixed 2 0),
      ("dynamic_margin", .fixed 2 0), ("pred_serving", .fixed 2 serving.sinr),
      ("pred_neighbor", .fixed 2 neighbor.sinr), ("serving_trend", .fixed 2 0),
      ("neighbor_trend", .fixed 2 0), ("trend_diff", .fixed 2 0), ("degradation_trigger", .nat 0),
      ("degradation_threshold", .fixed 2 (-1)), ("a3", .nat (if eventA3Triggered then 1 else 0)),
      ("prediction", .nat 0)]

/-- The middle part of `UE_EvaluateAndReport`. -/
def evaluateNeighbors (env : Env) (ueId : ℕ) (simTime : ℚ) (ue : UeInfo)
    (serving : MeasResultCell) (measurements : List MeasResultCell) : Evaluation :=
  let scan := scanNeighbors ue measurements
  let ntnTrigger := ueEvaluateNtnTriggers serving
  match scan.bestNeighbor with
  | none =>
      { phy := ue.phy
        lastMeasurements := scan.lastMeasurements
        hoContext := ue.hoContext
        bestNeighbor := none
        ntnTrigger := ntnTrigger
        triggerConditionMet := ntnTrigger
        betterNeighborAvailable := false
        records := [] }
  | some neighbor =>
      let eventA3Triggered :=
        ueEvaluateCHOPreparationCondition serving neighbor env.ho.reportingOffset
      { phy := ue.phy
        lastMeasurements := scan.lastMeasurements
        hoContext :=
          if eventA3Triggered then
            { preServingSnr := serving.sinr
              preNeighborSnr := neighbor.sinr
              decisionTime := simTime
              valid := true
              sourceCellId := serving.cellId
              targetCellId := neighbor.cellId
              triggerType := "A3" }
          else resetHoContext
        bestNeighbor := some neighbor
        ntnTrigger := ntnTrigger
        triggerConditionMet := ntnTrigger || eventA3Triggered
        betterNeighborAvailable := true
        records :=
          [.log (hoDebug ueId simTime eventA3Triggered serving neighbor),
            .predictionEval
              { ueId := ueId
                servingCell := serving.cellId
                neighborCell := neighbor.cellId
                decisionTime := simTime
                evalTime := simTime + env.ho.predictionEvalDelay }] }

/-- `conditionMet` of `CHO_CheckExecutionCondition`. -/
def executionCondition (env : Env) (_currentTime : ℚ) (_servingCell _targetCell : String)
    (serving target : UeSatMetrics) : Bool :=
  decide (env.ho.choExecutionOffset ≤ target.snrDb - serving.snrDb) &&
    decide (env.ho.minSNR < serving.snrDb)

/-- The body of the loop of `SelectBestSatellite`. -/
def selectBetter (env : Env) (simTime : ℚ) (best : String × ℚ)
    (entry : String × ℚ × UeSatMetrics) : String × ℚ :=
  let metrics := entry.2.2
  if metrics.elevation < 0 then best
  else if ended (env.link.trajectory entry.1) simTime then best
  else if best.2 < metrics.snrDb then (entry.1, metrics.snrDb)
  else best

/-- `SelectBestSatellite`. -/
def selectBestSatellite (env : Env) (simTime : ℚ) (ue : UeInfo) (currentSat : String) : String :=
  let best := ue.phy.channel.channelCache.toList.foldl (selectBetter env simTime) (currentSat, -999)
  if best.1 ≠ currentSat ∧ best.2 < getCachedSnr ue currentSat + env.ho.choExecutionOffset then
    currentSat
  else best.1

/-- The `[HO_RESULT]` line that `CHO_HandleFailure` prints. -/
def failureLine (ueId : ℕ) (failureTime : ℚ) (reason : String) (ue : UeInfo) : LogLine :=
  let choState := ue.choProcState
  let postServingSnr := getCachedSnr ue choState.sourceCell
  .stdout "HO_RESULT"
    [("ue", .nat ueId), ("t", .fixed 3 failureTime), ("status", .str "FAIL"),
      ("source", .str choState.sourceCell), ("target", .str choState.targetCell),
      ("pre_serving_sinr", .fixed 2 choState.servingSnrAtReport),
      ("pre_neighbor_sinr", .fixed 2 choState.targetSnrAtReport),
      ("exec_serving_sinr", .fixed 2 choState.servingSnrAtExecution),
      ("exec_target_sinr", .fixed 2 choState.targetSnrAtExecution),
      ("post_serving_sinr", .fixed 2 postServingSnr),
      ("post_target_sinr", .fixed 2 (getCachedSnr ue choState.targetCell)),
      ("sinr_gain", .fixed 2 (postServingSnr - choState.servingSnrAtReport)),
      ("decision_delay", .fixed 3 (failureTime - choState.procedureStartTime)),
      ("reason", .str reason)]

end SnrCho

/-- The SNR-CHO simulator. -/
def snrCho : Program where
  phyRules := SnrCho.phyRules
  snrFloor _ := -6
  evaluateNeighbors := SnrCho.evaluateNeighbors
  ntnReason := "NTN distance threshold exceeded"
  choPrepReason := "CHO Phase-1 MR triggered"
  executionCondition := SnrCho.executionCondition
  selectBestSatellite := SnrCho.selectBestSatellite
  failureLine := SnrCho.failureLine
  perUeStats := true
  resetContextOnExpiry := false
  reselectOnRlf := false

end NtnCho
