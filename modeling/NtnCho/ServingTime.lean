import NtnCho.Procedure

/-!
# Serving-time CHO

The program of `MultiUE-CHO-serving-time`: the best neighbour has the longest remaining service
time. A trajectory may consist of several passes, separated by gaps of more than
`TRAJECTORY_GAP_THRESHOLD`; a satellite in a gap is out of coverage and has no service time left.
-/

namespace NtnCho

namespace ServingTime

/-! ## Passes -/

/-- `TRAJECTORY_GAP_THRESHOLD`. -/
def trajectoryGapThreshold : ℚ := 90

/-- The scan of `FindTrajectoryBracket`. -/
def bracketIndex (simTime : ℚ) : List TrajectoryPoint → ℕ
  | _ :: p2 :: rest => if p2.time < simTime then bracketIndex simTime (p2 :: rest) + 1 else 0
  | _ => 0

/-- `FindTrajectoryBracket`: the index of the point at or before `simTime`, unless `simTime` is out
of coverage or in a gap. -/
def findTrajectoryBracket (trajectory : List TrajectoryPoint) (simTime : ℚ) : Option ℕ :=
  if !covers trajectory simTime then none
  else if trajectory.getLast?.map TrajectoryPoint.time = some simTime then
    some (trajectory.length - 1)
  else
    let leftIndex := bracketIndex simTime trajectory
    match trajectory[leftIndex]?, trajectory[leftIndex + 1]? with
    | some left, some right =>
        if trajectoryGapThreshold < right.time - left.time ∧ left.time < simTime ∧
            simTime < right.time then none
        else some leftIndex
    | _, _ => some leftIndex

/-- The scan of `GetSatelliteRemainingServiceTime` for the end of the pass. -/
def segmentEnd : TrajectoryPoint → List TrajectoryPoint → TrajectoryPoint
  | p, [] => p
  | p, q :: rest => if trajectoryGapThreshold < q.time - p.time then p else segmentEnd q rest

/-- `GetSatelliteRemainingServiceTime`. -/
def getSatelliteRemainingServiceTime (L : Link) (satName : String) (simTime : ℚ) : ℚ :=
  let trajectory := L.trajectory satName
  match findTrajectoryBracket trajectory simTime with
  | none => 0
  | some index =>
      match trajectory.drop index with
      | [] => 0
      | p :: rest => max 0 ((segmentEnd p rest).time - simTime)

/-- `UpdateSatelliteState` refuses a time in a gap, and keeps no history. -/
def phyRules : PhyRules where
  inPass trajectory simTime := (findTrajectoryBracket trajectory simTime).isSome
  updateHistory _ _ _ _ snrHistory := snrHistory

/-! ## The neighbours -/

/-- `UE_EvaluateCHOPreparationCondition`. -/
def ueEvaluateCHOPreparationCondition (env : Env) (serving neighbor : MeasResultCell)
    (reportingOffset : ℚ) : Bool :=
  if neighbor.sinr < env.ho.minSNR then false
  else
    let servingRemaining :=
      getSatelliteRemainingServiceTime env.link serving.cellId serving.measurementTime
    let targetRemaining :=
      getSatelliteRemainingServiceTime env.link neighbor.cellId neighbor.measurementTime
    decide (servingRemaining + reportingOffset < targetRemaining)

/-- `UE_EvaluateNtnTriggers`. -/
def ueEvaluateNtnTriggers (env : Env) (serving : MeasResultCell) : Bool :=
  decide (getSatelliteRemainingServiceTime env.link serving.cellId serving.measurementTime ≤
    env.ho.minServingTime)

/-- A longer remaining time, or an equal one at a shorter distance. -/
def outlasts (remainingTime distance bestRemainingTime bestDist : ℚ) : Bool :=
  decide (bestRemainingTime < remainingTime) ||
    (decide (|remainingTime - bestRemainingTime| < 0.000000001) && decide (distance < bestDist))

/-- The variables of the loop over the measured cells. -/
structure NeighborScan where
  lastMeasurements : StdMap MeasResultCell
  bestNeighbor : Option MeasResultCell
  bestDist : ℚ
  bestRemainingTime : ℚ

/-- The body of the loop over the measured cells. -/
def scanNeighbor (env : Env) (servingCellId : String) (simTime : ℚ) (scan : NeighborScan)
    (meas : MeasResultCell) : NeighborScan :=
  if meas.cellId = servingCellId then scan
  else
    let remainingTime := getSatelliteRemainingServiceTime env.link meas.cellId simTime
    let lastMeasurements := scan.lastMeasurements.insert meas.cellId meas
    if outlasts remainingTime meas.distance scan.bestRemainingTime scan.bestDist then
      { lastMeasurements := lastMeasurements
        bestNeighbor := some meas
        bestDist := meas.distance
        bestRemainingTime := remainingTime }
    else { scan with lastMeasurements := lastMeasurements }

/-- The loop over the measured cells. -/
def scanNeighbors (env : Env) (simTime : ℚ) (ue : UeInfo) (measurements : List MeasResultCell) :
    NeighborScan :=
  measurements.foldl (scanNeighbor env ue.measState.servingCellId simTime)
    { lastMeasurements := ue.measState.lastMeasurements
      bestNeighbor := none
      bestDist := 1000000000000000000
      bestRemainingTime := -1 }

/-- The `[HO_DEBUG]` line, its keys in printed order. -/
def hoDebug (ueId : ℕ) (simTime servingRemainingTime bestRemainingTime : ℚ)
    (eventA3Triggered : Bool) (serving neighbor : MeasResultCell) : LogLine :=
  .stdout "HO_DEBUG"
    [("ue", .nat ueId), ("t", .fixed 3 simTime), ("serving", .str serving.cellId),
      ("neighbor", .str neighbor.cellId), ("serving_sinr", .fixed 2 serving.sinr),
      ("neighbor_sinr", .fixed 2 neighbor.sinr),
      ("serving_remaining_time", .fixed 2 servingRemainingTime),
      ("neighbor_remaining_time", .fixed 2 bestRemainingTime), ("serving_trend", .fixed 2 0),
      ("neighbor_trend", .fixed 2 0), ("serving_dist", .fixed 2 serving.distance),
      ("neighbor_dist", .fixed 2 neighbor.distance), ("neighbor_dist_trend", .fixed 2 0),
      ("dynamic_margin", .fixed 2 0), ("pred_serving", .fixed 2 serving.sinr),
      ("pred_neighbor", .fixed 2 neighbor.sinr), ("serving_trend", .fixed 2 0),
      ("neighbor_trend", .fixed 2 0), ("trend_diff", .fixed 2 0), ("degradation_trigger", .nat 0),
      ("degradation_threshold", .fixed 2 (-1)), ("a3", .nat (if eventA3Triggered then 1 else 0)),
      ("prediction", .nat 0)]

/-- `hoContext` of a trigger. -/
def triggeredContext (simTime : ℚ) (serving neighbor : MeasResultCell) (triggerType : String) :
    HoContext where
  preServingSnr := serving.sinr
  preNeighborSnr := neighbor.sinr
  decisionTime := simTime
  valid := true
  sourceCellId := serving.cellId
  targetCellId := neighbor.cellId
  triggerType := triggerType

/-- The middle part of `UE_EvaluateAndReport`. -/
def evaluateNeighbors (env : Env) (ueId : ℕ) (simTime : ℚ) (ue : UeInfo)
    (serving : MeasResultCell) (measurements : List MeasResultCell) : Evaluation :=
  let ntnTrigger := ueEvaluateNtnTriggers env serving
  let servingRemainingTime := getSatelliteRemainingServiceTime env.link serving.cellId simTime
  let scan := scanNeighbors env simTime ue measurements
  match scan.bestNeighbor with
  | none =>
      { phy := ue.phy
        lastMeasurements := scan.lastMeasurements
        hoContext := ue.hoContext
        bestNeighbor := none
        ntnTrigger := ntnTrigger
        triggerConditionMet := false
        betterNeighborAvailable := false
        records := [] }
  | some neighbor =>
      let betterNeighborAvailable := decide (servingRemainingTime < scan.bestRemainingTime)
      let eventA3Triggered :=
        ueEvaluateCHOPreparationCondition env serving neighbor env.ho.reportingOffset
      { phy := ue.phy
        lastMeasurements := scan.lastMeasurements
        hoContext :=
          if eventA3Triggered then triggeredContext simTime serving neighbor "SERVING_TIME_A3"
          else if ntnTrigger && betterNeighborAvailable then
            triggeredContext simTime serving neighbor "SERVING_TIME_CRITICAL"
          else resetHoContext
        bestNeighbor := some neighbor
        ntnTrigger := ntnTrigger
        triggerConditionMet := eventA3Triggered || (ntnTrigger && betterNeighborAvailable)
        betterNeighborAvailable := betterNeighborAvailable
        records :=
          [.log (hoDebug ueId simTime servingRemainingTime scan.bestRemainingTime eventA3Triggered
              serving neighbor),
            .predictionEval
              { ueId := ueId
                servingCell := serving.cellId
                neighborCell := neighbor.cellId
                decisionTime := simTime
                evalTime := simTime + env.ho.predictionEvalDelay }] }

/-! ## The program -/

/-- `conditionMet` of `CHO_CheckExecutionCondition`. -/
def executionCondition (env : Env) (currentTime : ℚ) (servingCell targetCell : String)
    (_serving target : UeSatMetrics) : Bool :=
  let servingRemainingTime := getSatelliteRemainingServiceTime env.link servingCell currentTime
  let targetRemainingTime := getSatelliteRemainingServiceTime env.link targetCell currentTime
  let remainingTimeGain := targetRemainingTime - servingRemainingTime
  decide (servingRemainingTime ≤ env.ho.minServingTime) &&
    decide (env.ho.choExecutionOffset ≤ remainingTimeGain) &&
    decide (target.distance / 1000 < env.ho.maxDistance) &&
    decide (env.ho.minSNR ≤ target.snrDb) &&
    decide (0 ≤ target.elevation)

/-- The variables of the loop of `SelectBestSatellite`. -/
structure Selection where
  bestSat : String
  bestDist : ℚ
  bestRemainingTime : ℚ

/-- The body of the loop of `SelectBestSatellite`. -/
def selectBetter (env : Env) (simTime : ℚ) (best : Selection)
    (entry : String × ℚ × UeSatMetrics) : Selection :=
  let metrics := entry.2.2
  if metrics.elevation < 0 then best
  else if ended (env.link.trajectory entry.1) simTime then best
  else if env.ho.maxDistance < metrics.distance / 1000 then best
  else if metrics.snrDb < env.ho.minSNR then best
  else
    let remainingTime := getSatelliteRemainingServiceTime env.link entry.1 simTime
    if outlasts remainingTime metrics.distance best.bestRemainingTime best.bestDist then
      ⟨entry.1, metrics.distance, remainingTime⟩
    else best

/-- `SelectBestSatellite`. -/
def selectBestSatellite (env : Env) (simTime : ℚ) (ue : UeInfo) (currentSat : String) : String :=
  let currentRemainingTime :=
    if (ue.cached currentSat).isSome then
      getSatelliteRemainingServiceTime env.link currentSat simTime
    else -1
  let best := ue.phy.channel.channelCache.toList.foldl (selectBetter env simTime)
    ⟨currentSat, 1000000000000000000, -1⟩
  if best.bestSat ≠ currentSat ∧ currentSat ≠ "" ∧
      best.bestRemainingTime - currentRemainingTime < env.ho.choExecutionOffset then currentSat
  else best.bestSat

/-- What `CHO_HandleFailure` prints. -/
def failureLine (ueId : ℕ) (_failureTime : ℚ) (reason : String) (_ue : UeInfo) : LogLine :=
  .stdout "CHO HANDOVER FAILED" [("ue", .nat ueId), ("reason", .str reason)]

end ServingTime

/-- The serving-time CHO simulator. -/
def servingTimeCho : Program where
  phyRules := ServingTime.phyRules
  snrFloor ho := ho.minSNR
  evaluateNeighbors := ServingTime.evaluateNeighbors
  ntnReason := "Serving satellite remaining time below threshold"
  choPrepReason := "CHO Phase-1 MR triggered by serving-time advantage"
  executionCondition := ServingTime.executionCondition
  selectBestSatellite := ServingTime.selectBestSatellite
  failureLine := ServingTime.failureLine
  perUeStats := false
  resetContextOnExpiry := false
  reselectOnRlf := true

end NtnCho
